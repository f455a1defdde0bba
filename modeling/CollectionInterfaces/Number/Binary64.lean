/-!
# Binary floating point numbers

The numbers of the 64-bit binary format, as mantissa and exponent, with rounding to the nearest
number in exact arithmetic. Of two nearest numbers the one with an even mantissa is taken.
-/

namespace CollectionInterfaces

/-- A number of the 64-bit binary format. A finite number is `mantissa * 2 ^ exponent`; the
mantissa is below `2 ^ 53`, and at least `2 ^ 52` unless the exponent is the least one. -/
inductive Binary64
  | nan
  | infinite (negative : Bool)
  /-- A finite number. -/
  | finite (negative : Bool) (mantissa : Nat) (exponent : Int)
  deriving DecidableEq, Repr

namespace Binary64

def minExponent : Int := -1074

def maxExponent : Int := 971

/-- The least mantissa of 53 binary digits. -/
def minNormal : Nat := 0x10000000000000

def zero (negative : Bool) : Binary64 := .finite negative 0 minExponent

/-- The numerator and the denominator of `num / den * base ^ e`. -/
def scaled (base num den : Nat) (e : Int) : Nat × Nat :=
  if 0 ≤ e then (num * Nat.pow base e.toNat, den) else (num, den * Nat.pow base (-e).toNat)

/-- The quotient of two numbers, rounded to the nearest integer; a half goes to the even one. -/
def roundedQuotient (num den : Nat) : Nat :=
  let q := num / den
  let r := num % den
  if den < 2 * r || (den == 2 * r && q % 2 == 1) then q + 1 else q

/-- The exponent at which the quotient has 53 binary digits, or the least exponent if that is
greater. -/
def exponentFor (num den : Nat) : Int :=
  let guess : Int := (Nat.log2 num : Int) - Nat.log2 den - 52
  let (n, d) := scaled 2 num den (-guess)
  max minExponent (if n / d < minNormal then guess - 1 else guess)

/-- The number nearest to a quotient. -/
def ofRatio (negative : Bool) (num den : Nat) : Binary64 :=
  if num = 0 then zero negative
  else
    let e := exponentFor num den
    let (n, d) := scaled 2 num den (-e)
    let m := roundedQuotient n d
    -- rounding up may have carried into one more binary digit
    let (m, e) := if m = 2 * minNormal then (minNormal, e + 1) else (m, e)
    if maxExponent < e then .infinite negative else .finite negative m e

/-- The number nearest to `digits * 10 ^ exponent`. Exponents far outside the range of the format
are answered without computing the power. -/
def ofDecimal (negative : Bool) (digits : Nat) (exponent : Int) : Binary64 :=
  if digits = 0 then zero negative
  else if 400 < exponent then .infinite negative
  else if exponent + Nat.log2 digits + 1 < -400 then zero negative
  else
    let (num, den) := scaled 10 digits 1 exponent
    ofRatio negative num den

def ofInt (n : Int) : Binary64 := ofRatio (n < 0) n.natAbs 1

def neg : Binary64 → Binary64
  | .nan => .nan
  | .infinite negative => .infinite !negative
  | .finite negative m e => .finite (!negative) m e

/-- The number is zero, of either sign. -/
def isZero : Binary64 → Bool
  | .finite _ m _ => m == 0
  | _ => false

/-- The number nearest to `n * 2 ^ e`. -/
def ofScaledInt (n : Int) (e : Int) : Binary64 :=
  let (num, den) := scaled 2 n.natAbs 1 e
  ofRatio (n < 0) num den

def signedMantissa (negative : Bool) (m : Nat) : Int := if negative then -(m : Int) else m

/-- The mantissa with its sign at an exponent that is not greater than the one it has. -/
def mantissaAt (low : Int) (negative : Bool) (m : Nat) (e : Int) : Int :=
  signedMantissa negative (scaled 2 m 1 (e - low)).1

def add : Binary64 → Binary64 → Binary64
  | .nan, _ => .nan
  | _, .nan => .nan
  | .infinite a, .infinite b => if a = b then .infinite a else .nan
  | .infinite a, _ => .infinite a
  | _, .infinite b => .infinite b
  | .finite a m e, .finite b n f =>
    let low := min e f
    let sum := mantissaAt low a m e + mantissaAt low b n f
    if sum = 0 then zero (a && b && m == 0) else ofScaledInt sum low

def mul : Binary64 → Binary64 → Binary64
  | .nan, _ => .nan
  | _, .nan => .nan
  | .infinite a, .infinite b => .infinite (a != b)
  | .infinite a, .finite b n _ => if n = 0 then .nan else .infinite (a != b)
  | .finite a m _, .infinite b => if m = 0 then .nan else .infinite (a != b)
  | .finite a m e, .finite b n f =>
    let (num, den) := scaled 2 (m * n) 1 (e + f)
    ofRatio (a != b) num den

def equalsInt : Binary64 → Int → Bool
  | .finite negative m e, i =>
    let (num, den) := scaled 2 m 1 e
    signedMantissa negative num == i * den
  | _, _ => false

/-- Two numbers have the same value. Zeros of both signs do, and no value is the same as `nan`. -/
def sameValue : Binary64 → Binary64 → Bool
  | .nan, _ => false
  | _, .nan => false
  | a, b => a == b || (a.isZero && b.isZero)

end Binary64

end CollectionInterfaces
