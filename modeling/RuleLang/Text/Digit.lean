/-!
# Decimal digits

Runs of ASCII digits: reading them, the number they denote (`Digit.value`), and writing a number
with a fixed count of digits (`Digit.last`). Digits of other scripts are not digits here.
-/

namespace RuleLang

/-- A decimal digit. -/
abbrev Digit := Fin 10

namespace Digit

/-- The digit that an ASCII character denotes. -/
def ofChar? (c : Char) : Option Digit :=
  if h : '0'.toNat ≤ c.toNat ∧ c.toNat - '0'.toNat < 10 then
    some ⟨c.toNat - '0'.toNat, h.2⟩
  else none

/-- Whether a character is one of `0` to `9`. -/
def isDigit (c : Char) : Bool :=
  (ofChar? c).isSome

/-- A run of one or more digits. -/
def read? : List Char → Option (List Digit)
  | [] => none
  | cs => cs.mapM ofChar?

/-- The number that a run of digits denotes, the first digit being the most significant. -/
def value (digits : List Digit) : Nat :=
  digits.foldl (fun n d => 10 * n + d.val) 0

/-- The number that a run of digits denotes, if the text is one. -/
def number? (cs : List Char) : Option Nat :=
  (read? cs).map value

/-- The last `places` digits of `n`, with zeros in front where `n` has fewer. -/
def last : (places n : Nat) → List Char
  | 0, _ => []
  | places + 1, n => last places (n / 10) ++ [Nat.digitChar (n % 10)]

end Digit

end RuleLang
