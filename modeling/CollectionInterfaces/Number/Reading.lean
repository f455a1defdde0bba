import CollectionInterfaces.Number.Binary64
import CollectionInterfaces.Text.Decimal
import CollectionInterfaces.Text.Digit

/-!
# Reading numbers

Integers in a base and floating point numbers, with blanks around them, as free text spells them.
-/

namespace CollectionInterfaces

/-- Decimal digits, a fraction after a point, and an exponent, taken apart. -/
structure DecimalParts where
  whole : Text
  fraction : Text
  /-- The exponent of ten. -/
  exponent : Int

/-- The floating point number nearest to a decimal. -/
def DecimalParts.toBinary64 (negative : Bool) (p : DecimalParts) : Binary64 :=
  .ofDecimal negative (p.whole ++ p.fraction).toNat (p.exponent - p.fraction.length)

namespace Text

/-- The sign in front of a number, if there is one: whether it is a minus, and the rest. -/
def cutSign : Text → Bool × Text
  | [] => (false, [])
  | c :: rest =>
    if c = .ofChar '-' then (true, rest) else if c = .ofChar '+' then (false, rest)
    else (false, c :: rest)

/-- The exponent that starts with `e`, if the text is nothing or an exponent. -/
def readExponent : Text → Option Int
  | [] => some 0
  | c :: rest =>
    if c.toLower = .ofChar 'e' then
      let (negative, digits) := cutSign rest
      if !digits.isEmpty && digits.all CodePoint.isDigit then
        some (if negative then -(digits.toNat : Int) else digits.toNat)
      else none
    else none

/-- A decimal without a sign. At least one digit is needed. -/
def readDecimal (t : Text) : Option DecimalParts :=
  let whole := t.takeWhile CodePoint.isDigit
  let rest := t.dropWhile CodePoint.isDigit
  let (fraction, rest) :=
    match rest with
    | c :: after =>
      if c = .ofChar '.' then (after.takeWhile CodePoint.isDigit, after.dropWhile CodePoint.isDigit)
      else ([], rest)
    | [] => ([], [])
  if (whole ++ fraction).isEmpty then none
  else (readExponent rest).map fun exponent => ⟨whole, fraction, exponent⟩

/-- The floating point number that a text spells. -/
def readBinary64 (t : Text) : Option Binary64 :=
  let (negative, body) := cutSign t.asciiNumeral.trim
  if [("inf" : Text), "infinity"].contains body.lower then some (.infinite negative)
  else if body.lower = "nan" then some .nan
  else (readDecimal body).map (DecimalParts.toBinary64 negative)

/-- The letter that marks digits of a base after a zero. -/
def baseMark (base : Nat) : CodePoint :=
  if base = 16 then 'x' else if base = 8 then 'o' else 'b'

/-- The digits of an integer, without the mark of the base in front of them. -/
def dropBaseMark (base : Nat) (t : Text) : Text :=
  match t with
  | a :: b :: rest =>
    if base ≠ 10 ∧ a = .ofChar '0' ∧ b.toLower = baseMark base then rest else t
  | _ => t

inductive IntegerFault
  | malformed
  /-- It has more decimal digits than are accepted. -/
  | tooLong (digits : Nat)

/-- The longest piece of digits of a base that a text starts with. -/
def leadingDigits (base : Nat) (t : Text) : Text :=
  t.takeWhile fun c => c.digitValue?.any (· < base)

/-- The integer that a text spells in a base. Too many decimal digits are refused whatever follows
them. -/
def readInteger (base : Nat) (t : Text) : Except IntegerFault Int :=
  let (negative, body) := cutSign t.asciiNumeral.trim
  let body := dropBaseMark base body
  let digits := leadingDigits base body
  if base = 10 ∧ maxIntegerDigits < digits.length then .error (.tooLong digits.length)
  else if digits.isEmpty ∨ digits.length < body.length then .error .malformed
  else
    match readDigits base 0 digits with
    | none => .error .malformed
    | some n => .ok (if negative then -n else n)

end Text

end CollectionInterfaces
