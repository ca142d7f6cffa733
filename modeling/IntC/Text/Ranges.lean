/-
# Sets of characters as ranges of code points

A Unicode property is kept as a list of ranges with both ends included.
-/
namespace IntC.Text

/-- The character's code point lies in one of the ranges. -/
def inRanges (ranges : List (Nat × Nat)) (c : Char) : Bool :=
  ranges.any fun (low, high) => low ≤ c.toNat && c.toNat ≤ high

/-- Every range is non-empty and ends before the next one starts. -/
def Ascending : List (Nat × Nat) → Prop
  | [] => True
  | [(low, high)] => low ≤ high
  | (low, high) :: (low', high') :: rest =>
    low ≤ high ∧ high < low' ∧ Ascending ((low', high') :: rest)

instance decidableAscending : (ranges : List (Nat × Nat)) → Decidable (Ascending ranges)
  | [] => .isTrue trivial
  | [(low, high)] => inferInstanceAs (Decidable (low ≤ high))
  | (low, high) :: (low', high') :: rest =>
    have := decidableAscending ((low', high') :: rest)
    inferInstanceAs (Decidable (low ≤ high ∧ high < low' ∧ Ascending ((low', high') :: rest)))

end IntC.Text
