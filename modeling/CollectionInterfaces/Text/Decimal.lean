import CollectionInterfaces.Text.Basic

/-!
# Positional notation

Natural numbers and integers as digits, most significant digit first, and digits as numbers.
-/

namespace CollectionInterfaces.Text

/-- The digits of a number in a base of at least two, most significant first; zero is one digit.
The first argument bounds the number of digits. -/
def digitsUpTo (base : Nat) : Nat → Nat → Text → Text
  | 0, _, acc => acc
  | fuel + 1, n, acc =>
    if n < base then CodePoint.ofDigit n :: acc
    else digitsUpTo base fuel (n / base) (CodePoint.ofDigit (n % base) :: acc)

def ofNat (n : Nat) : Text := digitsUpTo 10 (Nat.log2 n + 1) n []

/-- The decimal digits of an integer, after a minus sign if it is negative. -/
def ofInt (n : Int) : Text :=
  if n < 0 then '-' :: ofNat n.natAbs else ofNat n.natAbs

def zeros (n : Nat) : Text := List.replicate n '0'

/-- The hexadecimal digits of a number, at least `width` of them. -/
def ofNatHex (width n : Nat) : Text :=
  let digits := digitsUpTo 16 (Nat.log2 n + 1) n []
  zeros (width - digits.length) ++ digits

/-- The decimal digits of a number, at least `width` of them. -/
def ofNatPadded (width n : Nat) : Text :=
  zeros (width - (ofNat n).length) ++ ofNat n

/-- The number that the digits of a base denote, read after the digits of `acc`; none if a code
point is not a digit of the base. -/
def readDigits (base : Nat) (acc : Nat) : Text → Option Nat
  | [] => some acc
  | c :: rest =>
    match c.digitValue? with
    | some d => if d < base then readDigits base (acc * base + d) rest else none
    | none => none

/-- The number that decimal digits denote, code points other than digits counting as zero. -/
def toNat (t : Text) : Nat := t.foldl (fun n c => n * 10 + (c.digitValue?.getD 0)) 0

/-! ## The limit of digits -/

/-- The most decimal digits that an integer is read from or written with. -/
def maxIntegerDigits : Nat := 4300

/-- The complaint about an integer with more digits. -/
def digitLimitExceeded : Text :=
  "Exceeds the limit (" ++ ofNat maxIntegerDigits ++ " digits) for integer string conversion"

def digitLimitAdvice : Text := "use sys.set_int_max_str_digits() to increase the limit"

/-- The complaint about an integer that is read, with its number of digits. -/
def tooManyDigits (digits : Nat) : Text :=
  digitLimitExceeded ++ ": value has " ++ ofNat digits ++ " digits; " ++ digitLimitAdvice

end CollectionInterfaces.Text
