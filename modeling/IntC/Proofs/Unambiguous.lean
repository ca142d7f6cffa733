/-
# Two trees are never printed alike

Parentheses are printed only where an operand binds too weakly for its operator.  This file shows
that the ones that are left out are never missed: two expressions with the same text are the same
tree, whatever their operators and operands, as long as their names are names and none of their
parts is missing (`Expr.Legible`).

The text is read back from its end.  Operators nest to the left, so the last operator of the least
strength is the root, and what follows it is the right operand with no operator of that strength
in the open.  From the front this cannot be seen: how far an operand goes depends on the operators
behind it.  So `Readable k e` says that `e`, printed as an operand for strength `k`, is read off
the end of any text, provided that the text before it (`Opens k`) could not go on into the operand.

* `readable_binary`: an operation is read at its own strength from its operands.
* `readable_of_succ`: what is no operation of a strength is read there as it is at the next.
* `readable_word`, `readable_bracketed`: what no operator shows in, a number or a variable, and a
  call or an operand in parentheses.
* `Legible.readable`: hence every legible expression is read at every strength.
-/
import IntC.Proofs.Language
import IntC.Proofs.Written
import Mathlib

namespace IntC

open Lexer

/-! ## 1. What is printed, as characters -/

/-- An operator with its blanks, as it stands between its operands. -/
def Operator.between (op : Operator) : List Char := ' ' :: (op.text.toList ++ [' '])

theorem Operator.between_inj {op op' : Operator} (h : op.between = op'.between) : op = op' := by
  cases op <;> cases op' <;> first | rfl | exact absurd h (by decide)

theorem Operator.length_between (op : Operator) : op.between.length = 3 := by
  cases op <;> rfl

theorem Operator.getLast?_between (op : Operator) : op.between.getLast? = some ' ' := by
  cases op <;> rfl

theorem Operator.strength_lt (op : Operator) : op.strength < 3 := by
  cases op <;> decide

namespace Expr

/-- An operand's characters where whatever binds less strongly than `least` is put in
parentheses. -/
def operand (least : Nat) (e : Expr) : List Char :=
  (operandText (e.strength < least) e.text).toList

theorem operand_of_lt {least : Nat} {e : Expr} (h : e.strength < least) :
    e.operand least = '(' :: (e.text.toList ++ [')']) := by
  simp [operand, operandText, h]

theorem operand_of_le {least : Nat} {e : Expr} (h : least ≤ e.strength) :
    e.operand least = e.text.toList := by
  simp [operand, operandText, Nat.not_lt.mpr h]

theorem operand_zero (e : Expr) : e.operand 0 = e.text.toList :=
  operand_of_le (Nat.zero_le _)

/-- The least strength matters only to an operation of just that strength. -/
theorem operand_succ {k : Nat} {e : Expr} (h : e.strength ≠ k) :
    e.operand (k + 1) = e.operand k := by
  rcases Nat.lt_or_gt_of_ne h with hlt | hgt
  · rw [operand_of_lt hlt, operand_of_lt (Nat.lt_succ_of_lt hlt)]
  · rw [operand_of_le hgt, operand_of_le (Nat.le_of_lt hgt)]

/-- The left operand is printed for the operator's own strength and the right one for the next. -/
theorem operand_binary (op : Operator) (left right : Expr) :
    (binary op left right).operand op.strength =
      left.operand op.strength ++ op.between ++ right.operand (op.strength + 1) := by
  rw [operand_of_le (Nat.le_refl op.strength), text]
  simp [operand, Operator.between]

theorem exists_binary {e : Expr} (h : e.strength < 3) :
    ∃ op left right, e = .binary op left right := by
  cases e with
  | binary op left right => exact ⟨op, left, right, rfl⟩
  | _ => exact absurd h (Nat.lt_irrefl 3)

/-- Arguments with a comma behind each of them. -/
def listed (args : List Expr) : List Char := args.flatMap fun arg => arg.operand 0 ++ [',', ' ']

theorem listed_concat (args : List Expr) (arg : Expr) :
    listed (args ++ [arg]) = listed args ++ arg.operand 0 ++ [',', ' '] := by
  simp [listed]

/-- An argument list has a comma behind each argument but the last. -/
theorem argsText_append_comma :
    ∀ {args : List Expr}, args ≠ [] → (argsText args).toList ++ [',', ' '] = listed args
  | [], h => absurd rfl h
  | [arg], _ => by simp [argsText, listed, operand_zero]
  | arg :: arg' :: more, _ => by
    have htext : argsText (arg :: arg' :: more) = arg.text ++ ", " ++ argsText (arg' :: more) := by
      rw [argsText]
      exact List.cons_ne_nil _ _
    have hmore : (argsText (arg' :: more)).toList ++ [',', ' '] = listed (arg' :: more) :=
      argsText_append_comma (List.cons_ne_nil _ _)
    rw [listed, List.flatMap_cons, ← listed, ← hmore, htext, operand_zero]
    simp

/-! ## 2. Legible expressions -/

/-- Variables and callees are named with names, and no part of the expression is missing. -/
structure Legible (e : Expr) : Prop where
  present : .empty ∉ e.nodes
  vars : ∀ x, .var x ∈ e.nodes → IsName x
  calls : ∀ f args, .call f args ∈ e.nodes → IsName f

theorem Legible.of_nodes {e part : Expr} (he : e.Legible) (h : ∀ n ∈ part.nodes, n ∈ e.nodes) :
    part.Legible :=
  ⟨fun hn => he.present (h _ hn), fun x hn => he.vars x (h _ hn),
    fun f args hn => he.calls f args (h _ hn)⟩

theorem Legible.left {op : Operator} {left right : Expr} (h : (binary op left right).Legible) :
    left.Legible :=
  h.of_nodes fun n hn => by simp [nodes, hn]

theorem Legible.right {op : Operator} {left right : Expr} (h : (binary op left right).Legible) :
    right.Legible :=
  h.of_nodes fun n hn => by simp [nodes, hn]

theorem Legible.arg {f : String} {args : List Expr} (h : (call f args).Legible) {arg : Expr}
    (harg : arg ∈ args) : arg.Legible :=
  h.of_nodes fun n hn => by
    rw [nodes, List.mem_cons, mem_argsNodes]
    exact .inr ⟨arg, harg, hn⟩

/-! ## 3. Words -/

/-- Names and numbers consist of such characters, and no text around them ends with one. -/
def IsPlain (c : Char) : Prop := isWordChar c = true ∨ c = '-'

theorem IsPlain.ne {c : Char} (h : IsPlain c) : c ≠ '(' ∧ c ≠ ')' ∧ c ≠ ' ' := by
  refine ⟨?_, ?_, ?_⟩ <;> rintro rfl <;> simp [IsPlain, isWordChar] at h

theorem toList_ne_nil_of_isName {x : String} (h : IsName x) : x.toList ≠ [] := by
  obtain ⟨c, cs, hx, -⟩ := h
  rw [hx]
  exact List.cons_ne_nil c cs

theorem isPlain_of_isName {x : String} (h : IsName x) : ∀ c ∈ x.toList, IsPlain c := by
  obtain ⟨c, cs, hx, hc, hcs⟩ := h
  rw [hx]
  refine List.forall_mem_cons.mpr ⟨.inl ?_, fun d hd => .inl (hcs d hd)⟩
  simp only [isWordStart, isWordChar, Char.isAlphanum, Bool.or_eq_true] at hc ⊢
  exact hc.imp_left .inl

/-- A number starts with a digit or a minus sign and goes on with digits. -/
theorem exists_toString_eq (v : Int) : ∃ c cs, (toString v).toList = c :: cs ∧
    (c.isDigit = true ∨ c = '-') ∧ ∀ d ∈ cs, d.isDigit = true := by
  have hdigits (n : Nat) : ∀ d ∈ n.repr.toList, d.isDigit = true := by
    rw [Nat.toList_repr]
    exact fun d hd => Nat.isDigit_of_mem_toDigits (by decide) (by decide) hd
  rw [Int.toString_eq_repr, Int.repr_eq_if]
  split
  · cases hcs : v.toNat.repr.toList with
    | nil => exact absurd (String.toList_eq_nil_iff.mp hcs) Nat.repr_ne_empty
    | cons c cs =>
      have hall := hdigits v.toNat
      rw [hcs, List.forall_mem_cons] at hall
      exact ⟨c, cs, rfl, .inl hall.1, hall.2⟩
  · exact ⟨'-', (-v).toNat.repr.toList, by simp, .inr rfl, hdigits _⟩

/-- No name starts like a number. -/
theorem toString_ne_of_isName {x : String} (hx : IsName x) (v : Int) : toString v ≠ x := by
  rintro rfl
  obtain ⟨c, cs, hv, hc, -⟩ := exists_toString_eq v
  obtain ⟨d, ds, hx, hd, -⟩ := hx
  obtain ⟨rfl, -⟩ := List.cons.inj (hv.symm.trans hx)
  rcases hc with hc | rfl
  · rw [isWordStart_of_isDigit hc] at hd
    cases hd
  · exact absurd hd (by decide)

/-- A number or a variable. -/
inductive Word : Expr → Prop
  | num (v : Int) : Word (.num v)
  | var {x : String} (hx : IsName x) : Word (.var x)

namespace Word

variable {e e' : Expr}

theorem operand_eq (h : Word e) : e.operand 3 = e.text.toList := by
  cases h <;> exact operand_of_le (Nat.le_refl 3)

theorem isPlain (h : Word e) : ∀ c ∈ e.text.toList, IsPlain c := by
  cases h with
  | var hx =>
    rw [text]
    exact isPlain_of_isName hx
  | num v =>
    have hdigit {c : Char} (hc : c.isDigit = true) : IsPlain c := by
      simp [IsPlain, isWordChar, Char.isAlphanum, hc]
    obtain ⟨c, cs, hv, hc, hcs⟩ := exists_toString_eq v
    rw [text, hv]
    exact List.forall_mem_cons.mpr ⟨hc.elim hdigit .inr, fun d hd => hdigit (hcs d hd)⟩

theorem exists_text_eq (h : Word e) : ∃ cs c, e.text.toList = cs ++ [c] ∧ IsPlain c := by
  have hne : e.text.toList ≠ [] := by
    cases h with
    | var hx =>
      rw [text]
      exact toList_ne_nil_of_isName hx
    | num v =>
      obtain ⟨c, cs, hv, -⟩ := exists_toString_eq v
      rw [text, hv]
      exact List.cons_ne_nil c cs
  obtain ⟨cs, c, hcs⟩ := (List.eq_nil_or_concat' e.text.toList).resolve_left hne
  exact ⟨cs, c, hcs, h.isPlain c (by simp [hcs])⟩

theorem inj (h : Word e) (h' : Word e') (heq : e.text = e'.text) : e = e' := by
  cases h with
  | num v =>
    cases h' with
    | num v' =>
      have hrepr : v.repr = v'.repr := by simpa [text, Int.toString_eq_repr] using heq
      rw [Int.repr_injective hrepr]
    | var hx' => exact absurd (by simpa [text] using heq) (toString_ne_of_isName hx' v)
  | var hx =>
    cases h' with
    | num v' => exact absurd (by simpa [text] using heq.symm) (toString_ne_of_isName hx v')
    | var hx' => simpa [text] using heq

end Word

/-! ## 4. What stands before an operand -/

/-- What can stand before an operand for the strength `k`: nothing, an opening parenthesis, the
comma after another argument, or an operator that binds less strongly. -/
inductive Opens (k : Nat) : List Char → Prop
  | nothing : Opens k []
  | paren (cs : List Char) : Opens k (cs ++ ['('])
  | comma (cs : List Char) : Opens k (cs ++ [',', ' '])
  | operator (cs : List Char) {op : Operator} (h : op.strength < k) : Opens k (cs ++ op.between)

theorem Opens.mono {k k' : Nat} {cs : List Char} (h : Opens k cs) (hle : k ≤ k') :
    Opens k' cs := by
  cases h with
  | nothing => exact .nothing
  | paren cs => exact .paren cs
  | comma cs => exact .comma cs
  | operator cs h => exact .operator cs (Nat.lt_of_lt_of_le h hle)

/-- An operator before an operand that it leaves open binds less strongly. -/
theorem Opens.strength_lt {k : Nat} {cs : List Char} {op : Operator}
    (h : Opens k (cs ++ op.between)) : op.strength < k := by
  generalize hall : cs ++ op.between = all at h
  cases h with
  | nothing => cases op <;> simp [Operator.between] at hall
  | paren cs' =>
    have hlast := congrArg List.getLast? hall
    simp [Operator.getLast?_between] at hlast
  | comma cs' =>
    have hlast := congrArg (fun l => l.reverse.take 2) hall
    cases op <;> simp [Operator.between, Operator.text] at hlast
  | @operator cs' op' hlt =>
    have hlength : op.between.length = op'.between.length := by
      rw [op.length_between, op'.length_between]
    rw [Operator.between_inj (List.append_inj_right' hall hlength)]
    exact hlt

/-- No word goes on into what stands before it. -/
theorem Opens.eq_nil {k : Nat} {cs word : List Char} (h : Opens k (cs ++ word))
    (hword : ∀ c ∈ word, IsPlain c) : word = [] := by
  rcases List.eq_nil_or_concat' word with rfl | ⟨word, c, rfl⟩
  · rfl
  · have hc : IsPlain c := hword c (by simp)
    generalize hall : cs ++ (word ++ [c]) = all at h
    have hlast := congrArg List.getLast? hall
    cases h with
    | nothing => simp at hall
    | paren cs' =>
      have hc' : c = '(' := by simpa using hlast
      exact absurd hc' hc.ne.1
    | comma cs' =>
      have hc' : c = ' ' := by simpa using hlast
      exact absurd hc' hc.ne.2.2
    | operator cs' hlt =>
      have hc' : c = ' ' := by simpa [Operator.getLast?_between] using hlast
      exact absurd hc' hc.ne.2.2

/-- A word at the end of a text starts where the characters of words do. -/
theorem Opens.append_inj {k : Nat} {before before' word word' : List Char}
    (h : Opens k before) (h' : Opens k before') (hword : ∀ c ∈ word, IsPlain c)
    (hword' : ∀ c ∈ word', IsPlain c) (heq : before ++ word = before' ++ word') :
    before = before' ∧ word = word' := by
  rcases List.append_eq_append_iff.mp heq with ⟨rest, rfl, rfl⟩ | ⟨rest, rfl, rfl⟩
  · obtain rfl := h'.eq_nil fun c hc => hword c (List.mem_append_left _ hc)
    simp
  · obtain rfl := h.eq_nil fun c hc => hword' c (List.mem_append_left _ hc)
    simp

/-! ## 5. Reading an operand off the end of a text -/

/-- At the end of a text, behind anything that leaves an operand for the strength `k` open, the
expression is the only one that is printed as this text ends. -/
def Readable (k : Nat) (e : Expr) : Prop :=
  ∀ ⦃e' : Expr⦄ ⦃before before' : List Char⦄, e'.Legible → Opens k before → Opens k before' →
    before ++ e.operand k = before' ++ e'.operand k → before = before' ∧ e = e'

/-- An operation is read from its end: its right operand, its operator and its left operand. -/
theorem readable_binary {op : Operator} {left right : Expr} (hleft : left.Readable op.strength)
    (hright : right.Readable (op.strength + 1)) :
    (binary op left right).Readable op.strength := by
  intro e' before before' he' hbefore hbefore' heq
  rw [operand_binary, ← List.append_assoc, ← List.append_assoc] at heq
  have hopens {cs : List Char} {op' : Operator} (h : op'.strength = op.strength) :
      Opens (op.strength + 1) (cs ++ op'.between) :=
    .operator cs (by omega)
  by_cases hstrength : e'.strength = op.strength
  · obtain ⟨op', left', right', rfl⟩ := exists_binary (hstrength ▸ op.strength_lt)
    have hop : op'.strength = op.strength := hstrength
    rw [← hop, operand_binary, hop, ← List.append_assoc, ← List.append_assoc] at heq
    obtain ⟨hfront, rfl⟩ := hright he'.right (hopens rfl) (hopens hop) heq
    obtain ⟨hfront', hbetween⟩ := List.append_inj' hfront (by simp only [Operator.length_between])
    obtain rfl := Operator.between_inj hbetween
    obtain ⟨rfl, rfl⟩ := hleft he'.left hbefore hbefore' hfront'
    exact ⟨rfl, rfl⟩
  · -- The other text has the right operand's end, but no operator of this strength before it.
    rw [← operand_succ hstrength] at heq
    obtain ⟨rfl, -⟩ := hright he' (hopens rfl) (hbefore'.mono (Nat.le_succ _)) heq
    exact absurd hbefore'.strength_lt (Nat.lt_irrefl _)

/-- What is no operation of strength `k` is read for this strength as it is for the next. -/
theorem readable_of_succ {k : Nat} {e : Expr} (hk : k < 3) (hne : e.strength ≠ k)
    (h : e.Readable (k + 1)) : e.Readable k := by
  intro e' before before' he' hbefore hbefore' heq
  rw [← operand_succ hne] at heq
  by_cases hstrength : e'.strength = k
  · obtain ⟨op, left, right, rfl⟩ := exists_binary (hstrength ▸ hk)
    obtain rfl : op.strength = k := hstrength
    rw [operand_binary, ← List.append_assoc, ← List.append_assoc] at heq
    obtain ⟨rfl, -⟩ :=
      h he'.right (hbefore.mono (Nat.le_succ _)) (.operator _ (Nat.lt_succ_self _)) heq
    exact absurd hbefore.strength_lt (Nat.lt_irrefl _)
  · rw [← operand_succ hstrength] at heq
    exact h he' (hbefore.mono (Nat.le_succ k)) (hbefore'.mono (Nat.le_succ k)) heq

theorem readable_of_le {k m : Nat} {e : Expr} (hle : k ≤ m) (hm : m ≤ 3)
    (hne : ∀ j, k ≤ j → j < m → e.strength ≠ j) (h : e.Readable m) : e.Readable k := by
  induction hle with
  | refl => exact h
  | @step m hle ih =>
    have hm' : e.Readable m := readable_of_succ hm (hne m hle (Nat.lt_succ_self m)) h
    exact ih (Nat.le_of_lt hm) (fun j hj hlt => hne j hj (Nat.lt_succ_of_lt hlt)) hm'

/-! ## 6. Calls and parentheses -/

/-- The expression is printed as a list in parentheses behind a name, or behind nothing: a call, or
an operation where no operator may show. -/
inductive Bracketed : Expr → List Char → List Expr → Prop
  | call {f : String} (args : List Expr) (hf : IsName f) : Bracketed (.call f args) f.toList args
  | parens {e : Expr} (h : e.strength < 3) : Bracketed e [] [e]

namespace Bracketed

variable {e e' : Expr} {name : List Char} {args : List Expr}

theorem operand_eq (h : Bracketed e name args) :
    e.operand 3 = name ++ ['('] ++ (argsText args).toList ++ [')'] := by
  cases h with
  | call args hf =>
    rw [operand_of_le (Nat.le_refl 3), text]
    simp
  | parens h =>
    rw [operand_of_lt h, argsText]
    simp

theorem isPlain (h : Bracketed e name args) : ∀ c ∈ name, IsPlain c := by
  cases h with
  | call args hf => exact isPlain_of_isName hf
  | parens h => simp

theorem legible (h : Bracketed e name args) (he : e.Legible) : ∀ arg ∈ args, arg.Legible := by
  cases h with
  | call args hf => exact fun arg harg => he.arg harg
  | parens h => simpa using he

/-- A call has a name in front of its parentheses. -/
theorem inj (h : Bracketed e name args) (h' : Bracketed e' name args) : e = e' := by
  generalize hname : name = name', hargs : args = args' at h'
  cases h with
  | call args hf =>
    cases h' with
    | call args' hf' => rw [String.toList_inj.mp hname, hargs]
    | parens h' => exact absurd hname (toList_ne_nil_of_isName hf)
  | parens h =>
    cases h' with
    | call args' hf' => exact absurd hname.symm (toList_ne_nil_of_isName hf')
    | parens h' => exact (List.cons.inj hargs).1

end Bracketed

/-- Where no operator may show, there are words and brackets. -/
theorem Legible.word_or_bracketed {e : Expr} (h : e.Legible) :
    Word e ∨ ∃ name args, Bracketed e name args := by
  cases e with
  | num v => exact .inl (.num v)
  | var x => exact .inl (.var (h.vars x (self_mem_nodes _)))
  | call f args => exact .inr ⟨_, _, .call args (h.calls f args (self_mem_nodes _))⟩
  | binary op left right => exact .inr ⟨_, _, .parens op.strength_lt⟩
  | empty => exact absurd (self_mem_nodes _) h.present

/-- A word does not end with a parenthesis. -/
theorem Word.append_ne {e e' : Expr} {name before before' : List Char} {args : List Expr}
    (h : Word e) (h' : Bracketed e' name args) :
    before ++ e.operand 3 ≠ before' ++ e'.operand 3 := by
  obtain ⟨cs, c, hcs, hc⟩ := h.exists_text_eq
  rw [h.operand_eq, hcs, h'.operand_eq, ← List.append_assoc, ← List.append_assoc]
  intro heq
  have hc' : c = ')' := by simpa using List.append_inj_right' heq rfl
  exact absurd hc' hc.ne.2.1

/-- A word is the longest row of its characters at the end of the text. -/
theorem readable_word {e : Expr} (h : Word e) : e.Readable 3 := by
  intro e' before before' he' hbefore hbefore' heq
  rcases he'.word_or_bracketed with h' | ⟨name, args, h'⟩
  · rw [h.operand_eq, h'.operand_eq] at heq
    obtain ⟨rfl, hword⟩ := hbefore.append_inj hbefore' h.isPlain h'.isPlain heq
    exact ⟨rfl, h.inj h' (String.toList_inj.mp hword)⟩
  · exact absurd heq (h.append_ne h')

/-- No printed operand ends with an opening parenthesis. -/
theorem Legible.exists_operand_eq {e : Expr} (h : e.Legible) (k : Nat) :
    ∃ cs c, e.operand k = cs ++ [c] ∧ c ≠ '(' := by
  by_cases hparens : e.strength < k
  · rw [operand_of_lt hparens, ← List.cons_append]
    exact ⟨_, ')', rfl, by decide⟩
  have hword (hw : Word e) : ∃ cs c, e.text.toList = cs ++ [c] ∧ c ≠ '(' := by
    obtain ⟨cs, c, hcs, hc⟩ := hw.exists_text_eq
    exact ⟨cs, c, hcs, hc.ne.1⟩
  rw [operand_of_le (Nat.not_lt.mp hparens)]
  cases e with
  | num v => exact hword (.num v)
  | var x => exact hword (.var (h.vars x (self_mem_nodes _)))
  | call f args => exact ⟨(f ++ "(" ++ argsText args).toList, ')', by simp [text], by decide⟩
  | binary op left right =>
    obtain ⟨cs, c, hright, hc⟩ := h.right.exists_operand_eq (op.strength + 1)
    refine ⟨left.operand op.strength ++ op.between ++ cs, c, ?_, hc⟩
    rw [List.append_assoc, ← hright, ← operand_binary, operand_of_le (Nat.le_refl op.strength)]
  | empty => exact absurd (self_mem_nodes _) h.present

/-- Behind an opening parenthesis, and any number of arguments and commas, an argument is open. -/
theorem opens_listed (k : Nat) (before : List Char) (args : List Expr) :
    Opens k (before ++ ['('] ++ listed args) := by
  rcases List.eq_nil_or_concat' args with rfl | ⟨args, arg, rfl⟩
  · simpa [listed] using Opens.paren before
  · rw [listed_concat, ← List.append_assoc]
    exact .comma _

/-- Arguments with a comma behind each are read from the last to the first. -/
theorem listed_inj {before before' : List Char} {args args' : List Expr}
    (hargs : ∀ arg ∈ args, arg.Readable 0) (hargs' : ∀ arg ∈ args', arg.Legible)
    (heq : before ++ ['('] ++ listed args = before' ++ ['('] ++ listed args') :
    before = before' ∧ args = args' := by
  -- An empty list ends with the parenthesis before it, any other with a blank.
  have hne {cs cs' : List Char} {init : List Expr} {last : Expr} :
      cs ++ ['('] ++ listed [] ≠ cs' ++ ['('] ++ listed (init ++ [last]) := by
    rw [listed_concat, ← List.append_assoc, listed, List.flatMap_nil, List.append_nil]
    intro h
    have hlast := congrArg List.getLast? h
    rw [List.getLast?_append, List.getLast?_append] at hlast
    cases hlast
  induction args using List.reverseRecOn generalizing args' with
  | nil =>
    rcases List.eq_nil_or_concat' args' with rfl | ⟨init', last', rfl⟩
    · simpa [listed] using heq
    · exact absurd heq hne
  | append_singleton init last ih =>
    rcases List.eq_nil_or_concat' args' with rfl | ⟨init', last', rfl⟩
    · exact absurd heq.symm hne
    · simp only [listed_concat, ← List.append_assoc] at heq
      have hlast := List.append_cancel_right heq
      obtain ⟨hinit, rfl⟩ := hargs last (by simp) (hargs' last' (by simp))
        (opens_listed 0 before init) (opens_listed 0 before' init') hlast
      obtain ⟨rfl, rfl⟩ := ih (fun arg harg => hargs arg (by simp [harg]))
        (fun arg harg => hargs' arg (by simp [harg])) hinit
      exact ⟨rfl, rfl⟩

/-- Arguments do not end with an opening parenthesis. -/
theorem append_argsText_ne {args : List Expr} (hargs : ∀ arg ∈ args, arg.Legible)
    (hne : args ≠ []) {before before' : List Char} :
    before ++ ['('] ≠ before' ++ (argsText args).toList := by
  have hcomma := argsText_append_comma hne
  obtain ⟨init, last, rfl⟩ := (List.eq_nil_or_concat' args).resolve_left hne
  obtain ⟨cs, c, hlast, hc⟩ := (hargs last (by simp)).exists_operand_eq 0
  rw [listed_concat, hlast] at hcomma
  rw [List.append_cancel_right hcomma]
  simp only [← List.append_assoc]
  intro heq
  have hc' : c = '(' := by simpa using (List.append_inj_right' heq rfl).symm
  exact hc hc'

/-- An argument list is read back to the parenthesis that opens it. -/
theorem argsText_inj {before before' : List Char} {args args' : List Expr}
    (hreadable : ∀ arg ∈ args, arg.Readable 0) (hargs : ∀ arg ∈ args, arg.Legible)
    (hargs' : ∀ arg ∈ args', arg.Legible)
    (heq : before ++ ['('] ++ (argsText args).toList =
      before' ++ ['('] ++ (argsText args').toList) :
    before = before' ∧ args = args' := by
  rcases eq_or_ne args [] with rfl | hne <;> rcases eq_or_ne args' [] with rfl | hne'
  · simpa [argsText] using heq
  · rw [argsText, String.toList_empty, List.append_nil] at heq
    exact absurd heq (append_argsText_ne hargs' hne')
  · rw [argsText, String.toList_empty, List.append_nil] at heq
    exact absurd heq.symm (append_argsText_ne hargs hne)
  · refine listed_inj hreadable hargs' ?_
    rw [← argsText_append_comma hne, ← argsText_append_comma hne', ← List.append_assoc, heq,
      List.append_assoc]

/-- A call or an operand in parentheses is read from the last of its arguments to its name. -/
theorem readable_bracketed {e : Expr} {name : List Char} {args : List Expr} (he : e.Legible)
    (h : Bracketed e name args) (hargs : ∀ arg ∈ args, arg.Readable 0) : e.Readable 3 := by
  intro e' before before' he' hbefore hbefore' heq
  rcases he'.word_or_bracketed with h' | ⟨name', args', h'⟩
  · exact absurd heq.symm (h'.append_ne h)
  · rw [h.operand_eq, h'.operand_eq] at heq
    simp only [← List.append_assoc] at heq
    obtain ⟨hname, rfl⟩ :=
      argsText_inj hargs (h.legible he) (h'.legible he') (List.append_cancel_right heq)
    obtain ⟨rfl, rfl⟩ := hbefore.append_inj hbefore' h.isPlain h'.isPlain hname
    exact ⟨rfl, h.inj h'⟩

/-! ## 7. Every expression -/

/-- **Every legible expression is read back**, at whatever strength it is an operand. -/
theorem Legible.readable {e : Expr} (h : e.Legible) {k : Nat} (hk : k ≤ 3) : e.Readable k := by
  -- What has no operator is read at strength 3, and so at every other.
  have hatom {e : Expr} (hstrength : e.strength = 3) (h : e.Readable 3) : e.Readable k :=
    readable_of_le hk (Nat.le_refl 3) (fun j _ hj => by omega) h
  match e with
  | .num v => exact hatom rfl (readable_word (.num v))
  | .var x => exact hatom rfl (readable_word (.var (h.vars x (self_mem_nodes _))))
  | .call f args =>
    have hf : IsName f := h.calls f args (self_mem_nodes _)
    have hargs : ∀ arg ∈ args, arg.Readable 0 :=
      fun arg harg => (h.arg harg).readable (Nat.zero_le 3)
    exact hatom rfl (readable_bracketed h (.call args hf) hargs)
  | .binary op left right =>
    have hop := op.strength_lt
    have hown : (binary op left right).Readable op.strength :=
      readable_binary (h.left.readable (Nat.le_of_lt hop)) (h.right.readable hop)
    have hweaker {j : Nat} (hj : j ≤ op.strength) : (binary op left right).Readable j :=
      readable_of_le hj (Nat.le_of_lt hop) (fun i _ hi => Nat.ne_of_gt hi) hown
    rcases Nat.lt_or_ge op.strength k with hlt | hle
    · -- For a greater strength it is in parentheses, and inside them it is read at strength 0.
      have hparens : (binary op left right).Readable 3 :=
        readable_bracketed h (.parens hop) (by simpa using hweaker (Nat.zero_le _))
      have hne : ∀ j, k ≤ j → j < 3 → (binary op left right).strength ≠ j :=
        fun j hj _ => Nat.ne_of_lt (Nat.lt_of_lt_of_le hlt hj)
      exact readable_of_le hk (Nat.le_refl 3) hne hparens
    · exact hweaker hle
  | .empty => exact absurd (self_mem_nodes _) h.present

/-- **Printing is unambiguous.**  Expressions with the same text are the same, whatever operators
and literals they hold. -/
theorem text_injective {e e' : Expr} (he : e.Legible) (he' : e'.Legible)
    (h : e.text = e'.text) : e = e' := by
  have heq : [] ++ e.operand 0 = [] ++ e'.operand 0 := by
    rw [operand_zero, operand_zero, h]
  exact (he.readable (Nat.zero_le 3) he' .nothing .nothing heq).2

/-- Operands put together from the left, with a negative number and an assignment among them, are
the tree that is written out. -/
theorem text_injective_folded :
    let folded : Expr :=
      [.num (-1), .binary .assign (.var "x") (.call "f" [.num 2, .var "_b1"])].foldl
        (.binary .subtract) (.var "a")
    let written : Expr :=
      .binary .subtract (.binary .subtract (.var "a") (.num (-1)))
        (.binary .assign (.var "x") (.call "f" [.num 2, .var "_b1"]))
    folded.Legible ∧ written.Legible ∧ folded.text = "a - -1 - (x = f(2, _b1))" ∧
      written.text = "a - -1 - (x = f(2, _b1))" ∧ folded = written := by
  intro folded written
  have ha : IsName "a" := ⟨'a', [], rfl, rfl, by simp⟩
  have hx : IsName "x" := ⟨'x', [], rfl, rfl, by simp⟩
  have hb : IsName "_b1" := ⟨'_', ['b', '1'], rfl, rfl, by simp [isWordChar]⟩
  have hf : IsName "f" := ⟨'f', [], rfl, rfl, by simp⟩
  have hwritten : written.Legible := by
    refine ⟨by simp [written, nodes, argsNodes], fun y hy => ?_, fun g args hg => ?_⟩
    · obtain rfl | rfl | rfl : y = "a" ∨ y = "x" ∨ y = "_b1" := by
        simpa [written, nodes, argsNodes] using hy
      exacts [ha, hx, hb]
    · obtain ⟨rfl, -⟩ : g = "f" ∧ args = [.num 2, .var "_b1"] := by
        simpa [written, nodes, argsNodes] using hg
      exact hf
  have hfolded : folded.Legible := hwritten
  have htext : folded.text = "a - -1 - (x = f(2, _b1))" := by decide +kernel
  have htext' : written.text = "a - -1 - (x = f(2, _b1))" := by decide +kernel
  exact ⟨hfolded, hwritten, htext, htext',
    text_injective hfolded hwritten (htext.trans htext'.symm)⟩

end Expr

end IntC
