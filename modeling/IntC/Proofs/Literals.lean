/-
# What a literal is, and which are read

A literal is a sign, which may be missing, and a row of digits.  The row can be of any length, and
zeros in front of it count for nothing, so whether the value fits in 32 bits cannot be told from the
text at a glance.  It is told while reading, digit by digit, against a range that reaches one
further below zero than above.

`Spells` says what a literal is and which number it stands for, with no range in mind.  A text is
then read exactly if it is a literal with its value in the range (`Literal.read_eq_ok_iff`), and on
the way to that value the range is never left (`Literal.staysInRange_of_read`), as digits only ever
lead away from zero.

* `number?_exact`: the number at the cursor, and what the rule makes of it.
-/
import IntC.Proofs.Refusals

namespace IntC

namespace Literal

/-! ## 1. Literals and their values -/

/-- A sign, or none, and the factor that it stands for. -/
inductive IsSign : List Char → Int → Prop
  | missing : IsSign [] 1
  | plus : IsSign ['+'] 1
  | minus : IsSign ['-'] (-1)

/-- One or more decimal digits. -/
def IsDigits (cs : List Char) : Prop := cs ≠ [] ∧ ∀ c ∈ cs, c.isDigit = true

instance (cs : List Char) : Decidable (IsDigits cs) :=
  decidable_of_iff (cs ≠ [] ∧ cs.all Char.isDigit = true) (by rw [IsDigits, List.all_eq_true])

/-- The text is a literal that stands for the number. -/
def Spells (text : String) (v : Int) : Prop :=
  ∃ sign unit digits, IsSign sign unit ∧ IsDigits digits ∧ text.toList = sign ++ digits ∧
    v = unit * Nat.ofDigitChars 10 digits 0

/-- The number fits in 32 bits with a sign. -/
def InRange (v : Int) : Prop := -2147483648 ≤ v ∧ v ≤ 2147483647

instance (v : Int) : Decidable (InRange v) := inferInstanceAs (Decidable (_ ∧ _))

/-- Wherever its digits are cut in two, the value of those in front is in the range, and so is ten
times that value if there is another digit to come. -/
def StaysInRange (text : String) : Prop :=
  ∀ sign unit front rest, IsSign sign unit → IsDigits (front ++ rest) →
    text.toList = sign ++ (front ++ rest) →
    InRange (unit * Nat.ofDigitChars 10 front 0) ∧
      (rest ≠ [] → InRange (unit * (10 * Nat.ofDigitChars 10 front 0 : Nat)))

theorem inRange_iff {v : Int} : InRange v ↔ least ≤ v ∧ v ≤ greatest := Iff.rfl

variable {sign digits front rest : List Char} {unit v : Int} {text : String}

/-- What lies between zero and a number in the range, on the same side, is in the range. -/
theorem InRange.of_le (hsign : IsSign sign unit) {m n : Nat} (h : InRange (unit * n))
    (hle : m ≤ n) : InRange (unit * m) := by
  rw [InRange] at h ⊢
  cases hsign with
  | missing => omega
  | plus => omega
  | minus => omega

/-- Digits behind others do not make the value smaller. -/
theorem ofDigitChars_le_append (front rest : List Char) :
    Nat.ofDigitChars 10 front 0 ≤ Nat.ofDigitChars 10 (front ++ rest) 0 := by
  rw [Nat.ofDigitChars_append]
  exact le_ofDigitChars rest _

/-- One digit or more behind others makes the value ten times as large, or larger. -/
theorem ten_mul_ofDigitChars_le_append (front : List Char) (hrest : rest ≠ []) :
    10 * Nat.ofDigitChars 10 front 0 ≤ Nat.ofDigitChars 10 (front ++ rest) 0 := by
  obtain ⟨c, rest, rfl⟩ := List.exists_cons_of_ne_nil hrest
  rw [Nat.ofDigitChars_append, Nat.ofDigitChars_cons]
  exact Nat.le_trans (Nat.le_add_right _ _) (le_ofDigitChars rest _)

/-! ## 2. Which texts are read -/

/-- A literal is read if its value is in the range. -/
theorem readChars_sign_eq_ok_iff (hsign : IsSign sign unit) (hdigits : IsDigits digits) :
    readChars (sign ++ digits) = .ok v ↔ v = unit * Nat.ofDigitChars 10 digits 0 ∧ InRange v := by
  obtain ⟨hne, hall⟩ := hdigits
  have hup : readUp 0 digits = .ok v ↔ v = 1 * Nat.ofDigitChars 10 digits 0 ∧ InRange v := by
    have hread := @readUp_eq_ok_iff digits 0 (by decide) v
    rw [inRange_iff, least]
    refine hread.trans ((and_iff_right hall).trans ?_)
    omega
  cases hsign with
  | missing => rwa [List.nil_append, readChars_of_digits hne hall]
  | plus =>
    obtain ⟨c, cs, rfl⟩ := List.exists_cons_of_ne_nil hne
    exact hup
  | minus =>
    have hread := @readDown_eq_ok_iff digits 0 (by decide) v
    obtain ⟨c, cs, rfl⟩ := List.exists_cons_of_ne_nil hne
    rw [inRange_iff, greatest]
    refine hread.trans ((and_iff_right hall).trans ?_)
    omega

/-- Nothing but literals is read. -/
theorem exists_sign_of_readChars {cs : List Char} (h : readChars cs = .ok v) :
    ∃ sign unit digits, IsSign sign unit ∧ IsDigits digits ∧ cs = sign ++ digits := by
  unfold readChars at h
  split at h
  · cases h
  · cases h
  · cases h
  · next digits hne =>
    have hall := ((@readUp_eq_ok_iff digits 0 (by decide) v).mp h).1
    exact ⟨['+'], 1, digits, .plus, ⟨hne, hall⟩, rfl⟩
  · next digits hne =>
    have hall := ((@readDown_eq_ok_iff digits 0 (by decide) v).mp h).1
    exact ⟨['-'], -1, digits, .minus, ⟨hne, hall⟩, rfl⟩
  · next hne _ _ _ _ =>
    have hall := ((@readUp_eq_ok_iff cs 0 (by decide) v).mp h).1
    exact ⟨[], 1, cs, .missing, ⟨hne, hall⟩, rfl⟩

/-- **A text is read exactly if it is a literal with its value in the range**, and as that value. -/
theorem read_eq_ok_iff : read text = .ok v ↔ Spells text v ∧ InRange v := by
  constructor
  · intro h
    obtain ⟨sign, unit, digits, hsign, hdigits, htext⟩ := exists_sign_of_readChars h
    rw [read, htext, readChars_sign_eq_ok_iff hsign hdigits] at h
    exact ⟨⟨sign, unit, digits, hsign, hdigits, htext, h.1⟩, h.2⟩
  · rintro ⟨⟨sign, unit, digits, hsign, hdigits, htext, hv⟩, hrange⟩
    rw [read, htext, readChars_sign_eq_ok_iff hsign hdigits]
    exact ⟨hv, hrange⟩

/-- What is read has not left the range on the way. -/
theorem staysInRange_of_read (h : read text = .ok v) : StaysInRange text := by
  intro sign unit front rest hsign hdigits htext
  rw [read, htext, readChars_sign_eq_ok_iff hsign hdigits] at h
  obtain ⟨rfl, hrange⟩ := h
  exact ⟨hrange.of_le hsign (ofDigitChars_le_append front rest), fun hrest =>
    hrange.of_le hsign (ten_mul_ofDigitChars_le_append front hrest)⟩

end Literal

namespace Grammar

open Rule Literal

/-! ## 3. Numbers at the cursor -/

variable {s : State}

theorem number?_of_number (hkind : s.current.kind = .number) :
    s.cursor.number? = some (Literal.read s.current.value) :=
  if_pos hkind

/-- At a number, the rule for variables and numbers gives the value that the cursor has there. -/
theorem primary_of_number? (hkind : s.current.kind = .number) {v : Int}
    (h : s.cursor.number? = some (.ok v)) : primary s = .ok (.num v) s.advance := by
  rw [number?_of_number hkind, Option.some.injEq] at h
  simp only [primary, Rule.current, look_bind_apply, hkind, h]
  rfl

/-- **The number at the cursor is exact.**  It has a value exactly if its text is a literal and that
value is in the range, and is refused exactly if there is no such value; and on the way to a value
the range is never left.  So a row of digits, of whatever length, is read as a number if its decimal
value is 2147483647 at most, and the cursor moves on by one token.  Else it is refused as a number,
and the state stays as it is. -/
theorem number?_exact (hkind : s.current.kind = .number) :
    (∀ v, s.cursor.number? = some (.ok v) ↔ Spells s.current.value v ∧ InRange v) ∧
      ((∃ fault, s.cursor.number? = some (.error fault)) ↔
        ∀ v, Spells s.current.value v → ¬ InRange v) ∧
      (∀ v, s.cursor.number? = some (.ok v) → StaysInRange s.current.value) ∧
      (IsDigits s.current.value.toList → ∀ n, n = Nat.ofDigitChars 10 s.current.value.toList 0 →
        (n ≤ 2147483647 →
          primary s = .ok (.num n) s.advance ∧ s.advance.cursor.pos = s.cursor.pos + 1) ∧
        (2147483647 < n → primary s = .error (s.diagnose (.badNumber s.current.value)) s)) := by
  have hnumber := number?_of_number hkind
  have hexact : ∀ v, s.cursor.number? = some (.ok v) ↔ Spells s.current.value v ∧ InRange v := by
    intro v
    rw [hnumber, Option.some.injEq]
    exact read_eq_ok_iff
  refine ⟨hexact, ?_, ?_, ?_⟩
  · simp only [← not_and, ← hexact, hnumber, Option.some.injEq]
    cases Literal.read s.current.value with
    | ok v => simp
    | error fault => simp
  · intro v h
    rw [hnumber, Option.some.injEq] at h
    exact staysInRange_of_read h
  · rintro hdigits n rfl
    refine ⟨fun hle => ⟨primary_of_number? hkind ((hexact _).mpr ⟨?_, ?_⟩), ?_⟩, fun hlarge => ?_⟩
    · exact ⟨[], 1, _, .missing, hdigits, rfl, by rw [Int.one_mul]⟩
    · rw [InRange]
      omega
    · have hne : s.cursor.current.kind ≠ .eof := by
        rw [← State.current, hkind]
        decide
      exact (Cursor.pos_advance s.cursor).trans (if_neg hne)
    · exact primary_of_refuses (.tooLarge hkind hdigits.2 hlarge)

/-- A state at a number with the text. -/
def atNumber (text : String) : State := .ofTexts [(.number, text)]

/-- At both ends of the range, behind zeros, and one above it. -/
theorem number?_exact_boundaries :
    (atNumber "-0002147483648").cursor.number? = some (.ok (-2147483648)) ∧
      primary (atNumber "0002147483647") =
        .ok (.num 2147483647) (atNumber "0002147483647").advance ∧
      primary (atNumber "2147483648") =
        .error ⟨.badNumber "2147483648", .null⟩ (atNumber "2147483648") := by
  obtain ⟨hlowest, -⟩ := @number?_exact (atNumber "-0002147483648") rfl
  obtain ⟨-, -, -, hhighest⟩ := @number?_exact (atNumber "0002147483647") rfl
  obtain ⟨-, -, -, habove⟩ := @number?_exact (atNumber "2147483648") rfl
  refine ⟨(hlowest _).mpr ⟨⟨['-'], -1, "0002147483648".toList, .minus, ?_, ?_, ?_⟩, ?_⟩,
    ((hhighest ?_ 2147483647 ?_).1 ?_).1, (habove ?_ 2147483648 ?_).2 ?_⟩
  all_goals decide

end Grammar

end IntC
