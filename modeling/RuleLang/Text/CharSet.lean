/-!
# Sets of characters

A property of characters is given as a set (`CharSet`): closed ranges of code points, in ascending
order and with a gap between any two. The order and the gaps are part of the type, so a set has one
table only and no code point counts twice (`CharSet.size`).
-/

namespace RuleLang

/-- Whether closed ranges are in ascending order, none below `bound`, with a gap between any two. -/
def rangesAscendFrom (bound : Nat) : List (Nat × Nat) → Bool
  | [] => true
  | (first, last) :: rest => bound ≤ first && first ≤ last && rangesAscendFrom (last + 2) rest

/-- A set of characters. -/
structure CharSet where
  /-- Its code points, as closed ranges. -/
  ranges : List (Nat × Nat)
  ascend : rangesAscendFrom 0 ranges := by decide +kernel

namespace CharSet

/-- Whether a character is in the set. -/
def has (s : CharSet) (c : Char) : Bool :=
  s.ranges.any fun (first, last) => first ≤ c.toNat && c.toNat ≤ last

/-- How many code points the ranges of the set hold. -/
def size (s : CharSet) : Nat :=
  s.ranges.foldr (fun (first, last) held => last + 1 - first + held) 0

end CharSet

end RuleLang
