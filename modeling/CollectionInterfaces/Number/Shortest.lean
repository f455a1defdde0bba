import CollectionInterfaces.Number.Binary64
import CollectionInterfaces.Text.Decimal

/-!
# Shortest decimal text of a number

A finite number is written with the fewest digits that read back as the same number; of several
such decimals, the one nearest to the number. Positional notation is used for magnitudes from
`10 ^ -4` up to `10 ^ 16`, and it always has a fraction part.
-/

namespace CollectionInterfaces.Binary64

/-- The least number of places to shift `num / den` to the left until it is at least one. -/
def leadingZeros (den : Nat) : (fuel num : Nat) → Nat
  | 0, _ => 0
  | fuel + 1, num => if den ≤ num then 0 else leadingZeros den fuel (num * 10) + 1

/-- The number `k` such that `num / den` is at least `10 ^ (k - 1)` and below `10 ^ k`. -/
def decimalMagnitude (num den : Nat) : Int :=
  if den ≤ num then (Text.ofNat (num / den)).length
  else 1 - (leadingZeros den 400 num : Int)

/-- The decimals at both sides of `num / den` on the grid of `10 ^ unit` that read back as `x`,
and the nearer of them if both do. -/
def onGrid? (x : Binary64) (num den : Nat) (unit : Int) : Option (Nat × Int) :=
  let (n, d) := scaled 10 num den (-unit)
  let low := n / d
  let lowReads := ofDecimal false low unit == x
  let highReads := ofDecimal false (low + 1) unit == x
  if lowReads && highReads then some (roundedQuotient n d, unit)
  else if lowReads then some (low, unit)
  else if highReads then some (low + 1, unit)
  else none

/-- The coarsest grid, of `tries` grids from `unit` down, that has a decimal for `x`. -/
def searchGrids (x : Binary64) (num den : Nat) : (tries : Nat) → (unit : Int) → Nat × Int
  -- not reached: some decimal of seventeen digits is nearer to the number than to any other
  | 0, unit => (num, unit)
  | tries + 1, unit =>
    match onGrid? x num den unit with
    | some found => found
    | none => searchGrids x num den tries (unit - 1)

/-- The decimal, as digits and exponent, that a positive finite number is written as. -/
def shortestDecimal (m : Nat) (e : Int) : Nat × Int :=
  let (num, den) := scaled 2 m 1 e
  searchGrids (.finite false m e) num den 17 (decimalMagnitude num den - 1)

def stripZeros (digits : Text) : Text :=
  (digits.reverse.dropWhile (· = .ofChar '0')).reverse

/-- Decimal digits with the point after the first `point` digits. The sign of the exponent is
always written, with at least two digits. -/
def positioned (digits : Text) (point : Int) : Text :=
  if -4 < point ∧ point ≤ 0 then
    "0." ++ Text.zeros (-point).toNat ++ digits
  else if 0 < point ∧ point ≤ 16 then
    if digits.length ≤ point then
      digits ++ Text.zeros (point.toNat - digits.length) ++ ".0"
    else digits.take point.toNat ++ .ofChar '.' :: digits.drop point.toNat
  else
    let fraction := digits.drop 1
    let exponent := point - 1
    digits.take 1 ++ (if fraction.isEmpty then [] else .ofChar '.' :: fraction) ++
      (if exponent < 0 then ("e-" : Text) else "e+") ++ Text.ofNatPadded 2 exponent.natAbs

def toText : Binary64 → Text
  | .nan => "nan"
  | .infinite negative => if negative then "-inf" else "inf"
  | .finite negative m e =>
    let (digits, unit) := shortestDecimal m e
    let written := Text.ofNat digits
    let body : Text :=
      if m = 0 then "0.0" else positioned (stripZeros written) (written.length + unit)
    if negative then .ofChar '-' :: body else body

end CollectionInterfaces.Binary64
