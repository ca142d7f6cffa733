/-
# The value of a row of digits

A literal is read digit by digit, with a check of the range at every digit.  For a row of digits
this comes to one check at the end, since a value that has left the range never comes back.

* `readUp_eq_ok_iff`, `readDown_eq_ok_iff`: what is read behind a value, away from zero.
* `read_eq_ok_iff_of_digits`: which number a row of digits is read as.
* `read_toString`: a number in the range is read back from its decimal digits.
-/
import IntC.Literal

namespace IntC.Literal

theorem digit?_of_isDigit {c : Char} (h : c.isDigit = true) :
    digit? c = some (c.toNat - '0'.toNat) := by
  rw [digit?, if_pos h]

/-- One more digit never makes the value smaller. -/
theorem le_ofDigitChars (cs : List Char) (value : Nat) : value ≤ Nat.ofDigitChars 10 cs value := by
  rw [Nat.ofDigitChars_eq_ofDigitChars_zero]
  have hpos : 0 < 10 ^ cs.length := Nat.pow_pos (by decide)
  have hle : value ≤ 10 ^ cs.length * value := Nat.le_mul_of_pos_left value hpos
  omega

/-- Checking at every digit is checking at the last. -/
theorem readUp_eq_ok_iff {cs : List Char} {value : Nat} (hvalue : (value : Int) ≤ greatest)
    {v : Int} :
    readUp value cs = .ok v ↔
      (∀ c ∈ cs, c.isDigit = true) ∧ v = Nat.ofDigitChars 10 cs value ∧ v ≤ greatest := by
  induction cs generalizing value with
  | nil =>
    rw [readUp, Nat.ofDigitChars_nil]
    constructor
    · intro h
      cases h
      exact ⟨by simp, rfl, hvalue⟩
    · intro h
      rw [h.2.1]
  | cons c cs ih =>
    rw [readUp, Nat.ofDigitChars_cons, List.forall_mem_cons]
    by_cases hc : c.isDigit = true
    · rw [digit?_of_isDigit hc]
      simp only [hc, true_and]
      have hnext : (value : Int) * 10 + ((c.toNat - '0'.toNat : Nat) : Int) =
          ((10 * value + (c.toNat - '0'.toNat) : Nat) : Int) := by
        omega
      rw [hnext]
      by_cases hfits : ((10 * value + (c.toNat - '0'.toNat) : Nat) : Int) ≤ greatest
      · rw [if_pos hfits]
        exact ih hfits
      · rw [if_neg hfits]
        have hle := le_ofDigitChars cs (10 * value + (c.toNat - '0'.toNat))
        refine iff_of_false nofun ?_
        omega
    · simp [digit?, hc]

/-- Below zero the same holds, with the range reaching one further. -/
theorem readDown_eq_ok_iff {cs : List Char} {value : Nat} (hvalue : least ≤ -(value : Int))
    {v : Int} :
    readDown (-value) cs = .ok v ↔
      (∀ c ∈ cs, c.isDigit = true) ∧ v = -(Nat.ofDigitChars 10 cs value : Int) ∧ least ≤ v := by
  induction cs generalizing value with
  | nil =>
    rw [readDown, Nat.ofDigitChars_nil]
    constructor
    · intro h
      cases h
      exact ⟨by simp, rfl, hvalue⟩
    · intro h
      rw [h.2.1]
  | cons c cs ih =>
    rw [readDown, Nat.ofDigitChars_cons, List.forall_mem_cons]
    by_cases hc : c.isDigit = true
    · rw [digit?_of_isDigit hc]
      simp only [hc, true_and]
      have hnext : -(value : Int) * 10 - ((c.toNat - '0'.toNat : Nat) : Int) =
          -((10 * value + (c.toNat - '0'.toNat) : Nat) : Int) := by
        omega
      rw [hnext]
      by_cases hfits : least ≤ -((10 * value + (c.toNat - '0'.toNat) : Nat) : Int)
      · rw [if_pos hfits]
        exact ih hfits
      · rw [if_neg hfits]
        have hle := le_ofDigitChars cs (10 * value + (c.toNat - '0'.toNat))
        refine iff_of_false nofun ?_
        omega
    · simp [digit?, hc]

/-- A row of digits has no sign in front. -/
theorem readChars_of_digits {cs : List Char} (hne : cs ≠ []) (hcs : ∀ c ∈ cs, c.isDigit = true) :
    readChars cs = readUp 0 cs := by
  obtain ⟨c, cs, rfl⟩ := List.exists_cons_of_ne_nil hne
  have hc : c.isDigit = true := hcs c (by simp)
  unfold readChars
  split
  · next h => cases h
  · next h =>
    obtain ⟨rfl, -⟩ := List.cons.inj h
    exact absurd hc (by decide)
  · next h =>
    obtain ⟨rfl, -⟩ := List.cons.inj h
    exact absurd hc (by decide)
  · next h =>
    obtain ⟨rfl, -⟩ := List.cons.inj h
    exact absurd hc (by decide)
  · next h =>
    obtain ⟨rfl, -⟩ := List.cons.inj h
    exact absurd hc (by decide)
  · rfl

/-- **A row of digits is read as its decimal value**, if that is in the range. -/
theorem read_eq_ok_iff_of_digits {text : String} (hne : text ≠ "")
    (hdigits : ∀ c ∈ text.toList, c.isDigit = true) {v : Int} :
    read text = .ok v ↔ v = Nat.ofDigitChars 10 text.toList 0 ∧ v ≤ greatest := by
  have hne' : text.toList ≠ [] := by simpa using hne
  rw [read, readChars_of_digits hne' hdigits]
  exact (readUp_eq_ok_iff (by decide)).trans (and_iff_right hdigits)

/-- A number in the range is read back from its digits. -/
theorem read_toString {n : Nat} (h : (n : Int) ≤ greatest) : read (toString n) = .ok (n : Int) := by
  have hlist : (toString n).toList = Nat.toDigits 10 n := by
    rw [Nat.toString_eq_ofList_toDigits, String.toList_ofList]
  have hne : toString n ≠ "" := by
    rw [ne_eq, ← String.toList_eq_nil_iff, hlist]
    exact Nat.toDigits_ne_nil
  refine (read_eq_ok_iff_of_digits hne ?_).mpr ⟨?_, h⟩
  · rw [hlist]
    intro c hc
    exact Nat.isDigit_of_mem_toDigits (by decide) (by decide) hc
  · rw [hlist, Nat.ofDigitChars_ten_toDigits]

end IntC.Literal
