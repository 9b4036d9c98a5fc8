/-!
# Text of binary floating-point numbers

The text of a binary floating-point number has the fewest digits that read back as the number, and
of those the digits nearest to it. What reads back is an interval around the number
(`Binary64.nearest`), so the digits are found on the coarsest decimal grid that has a point inside
it (`RatInterval.shortest?`).

Numbers from one hundred-thousandth up to ten quadrillion are written with a point, the others with
an exponent (`Binary64.layout`).
-/

namespace RuleLang.Json

/-- An interval of rationals. -/
structure RatInterval where
  lower : Rat
  upper : Rat
  /-- Whether the ends belong to it. -/
  closed : Bool

namespace RatInterval

/-- Whether a rational lies in the interval. -/
def has (i : RatInterval) (q : Rat) : Bool :=
  if i.closed then i.lower ≤ q && q ≤ i.upper else i.lower < q && q < i.upper

/-- The point of the grid `10 ^ exponent` nearest to `q`, of those in the interval next to `q`. An
even point is taken when both are equally near. -/
def gridPoint? (i : RatInterval) (q : Rat) (exponent : Int) : Option Nat :=
  let step : Rat := 10 ^ exponent
  let below := (q / step).floor.toNat
  let above := below + 1
  let toBelow := q - below * step
  let toAbove := above * step - q
  match i.has (below * step), i.has (above * step) with
  | true, true =>
    if toBelow < toAbove ∨ (toBelow = toAbove ∧ below % 2 = 0) then some below else some above
  | true, false => some below
  | false, true => some above
  | false, false => none

/-- Digits `n` and an exponent such that `n * 10 ^ exponent` lies in the interval, the exponent
being the greatest of the `tries` ones from `exponent` downwards. -/
def shortest? (i : RatInterval) (q : Rat) (exponent : Int) : (tries : Nat) → Option (Nat × Int)
  | 0 => none
  | tries + 1 =>
    match i.gridPoint? q exponent with
    | some n => some (n, exponent)
    | none => shortest? i q (exponent - 1) tries

end RatInterval

namespace Binary64

/-- The number `significand * 2 ^ exponent`. -/
def toRat (significand : Nat) (exponent : Int) : Rat :=
  significand * 2 ^ exponent

/-- The rationals that round to `significand * 2 ^ exponent`. Below a power of two the numbers are
twice as dense, unless it is the least exponent. -/
def nearest (significand : Nat) (exponent : Int) : RatInterval where
  lower :=
    if significand = Nat.pow 2 52 ∧ -1074 < exponent then
      toRat (4 * significand - 1) (exponent - 2)
    else toRat (2 * significand - 1) (exponent - 1)
  upper := toRat (2 * significand + 1) (exponent - 1)
  closed := significand % 2 = 0

/-- An exponent as text: its sign is written always. -/
def signed (exponent : Int) : List Char :=
  (if 0 ≤ exponent then '+' else '-') :: Nat.toDigits 10 exponent.natAbs

/-- The digits `n` times `10 ^ exponent` as text. -/
def layout (n : Nat) (exponent : Int) : List Char :=
  let digits := Nat.toDigits 10 n
  -- the number is a fraction below one, times ten to the power of `point`
  let point := digits.length + exponent
  if 0 ≤ exponent ∧ point ≤ 16 then
    digits ++ List.replicate exponent.toNat '0' ++ ['.', '0']
  else if 0 < point ∧ point ≤ 16 then
    digits.take point.toNat ++ '.' :: digits.drop point.toNat
  else if -5 < point ∧ point ≤ 0 then
    '0' :: '.' :: (List.replicate (-point).toNat '0' ++ digits)
  else
    let fraction := if digits.length = 1 then [] else '.' :: digits.drop 1
    digits.take 1 ++ fraction ++ 'e' :: signed (point - 1)

/-- The text of a finite binary floating-point number. -/
def text (x : Float) : String :=
  let bits := x.toBits.toNat
  let sign := if bits < Nat.pow 2 63 then [] else ['-']
  let field := bits / Nat.pow 2 52 % Nat.pow 2 11
  let fraction := bits % Nat.pow 2 52
  let significand := if field = 0 then fraction else Nat.pow 2 52 + fraction
  let exponent : Int := if field = 0 then -1074 else Int.ofNat field - 1075
  let magnitude :=
    match (nearest significand exponent).shortest? (toRat significand exponent) 309 640 with
    | some (n, tens) => if significand = 0 then ['0', '.', '0'] else layout n tens
    | none => ['0', '.', '0']
  String.ofList (sign ++ magnitude)

end Binary64

end RuleLang.Json
