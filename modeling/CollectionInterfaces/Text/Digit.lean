import CollectionInterfaces.Text.Basic

/-!
# Decimal digits and blanks of all scripts

A number that is read from text may use the decimal digits of any script (Unicode 14) and may
stand between blanks.
-/

namespace CollectionInterfaces.CodePoint

/-- The digits zero of all scripts. The digits one to nine of a script follow its zero. -/
def decimalZeros : List Nat :=
  [
    0x30, 0x660, 0x6F0, 0x7C0, 0x966, 0x9E6, 0xA66, 0xAE6, 0xB66, 0xBE6, 0xC66, 0xCE6, 0xD66,
    0xDE6, 0xE50, 0xED0, 0xF20, 0x1040, 0x1090, 0x17E0, 0x1810, 0x1946, 0x19D0, 0x1A80, 0x1A90,
    0x1B50, 0x1BB0, 0x1C40, 0x1C50, 0xA620, 0xA8D0, 0xA900, 0xA9D0, 0xA9F0, 0xAA50, 0xABF0,
    0xFF10, 0x104A0, 0x10D30, 0x11066, 0x110F0, 0x11136, 0x111D0, 0x112F0, 0x11450, 0x114D0,
    0x11650, 0x116C0, 0x11730, 0x118E0, 0x11950, 0x11C50, 0x11D50, 0x11DA0, 0x16A60, 0x16AC0,
    0x16B50, 0x1D7CE, 0x1D7D8, 0x1D7E2, 0x1D7EC, 0x1D7F6, 0x1E140, 0x1E2F0, 0x1E950, 0x1FBF0
  ]

/-- The value of a decimal digit of any script. -/
def decimalValue? (c : CodePoint) : Option Nat :=
  (decimalZeros.find? fun first => first ≤ c.val && c.val < first + 10).map (c.val - ·)

def isAsciiBlank (c : CodePoint) : Bool := c.val == 0x20 || (0x09 ≤ c.val && c.val ≤ 0x0D)

/-- The blanks of all scripts. -/
def isBlank (c : CodePoint) : Bool :=
  c.isAsciiBlank || (0x1C ≤ c.val && c.val ≤ 0x1F) || c.val == 0x85 || c.val == 0xA0 ||
    c.val == 0x1680 || (0x2000 ≤ c.val && c.val ≤ 0x200A) || c.val == 0x2028 ||
    c.val == 0x2029 || c.val == 0x202F || c.val == 0x205F || c.val == 0x3000

end CollectionInterfaces.CodePoint

namespace CollectionInterfaces.Text

/-- The text without the blanks of ASCII at both ends. -/
def trim (t : Text) : Text :=
  ((t.dropWhile CodePoint.isAsciiBlank).reverse.dropWhile CodePoint.isAsciiBlank).reverse

/-- The text with digits and blanks of other scripts written in ASCII. A code point that is
neither, and not ASCII itself, becomes a question mark, which no number contains. -/
def asciiNumeral (t : Text) : Text :=
  if t.all (·.val < 0x80) then t
  else t.map fun c =>
    if c.val < 0x7F then c
    else if c.isBlank then ' '
    else
      match c.decimalValue? with
      | some d => CodePoint.ofDigit d
      | none => '?'

end CollectionInterfaces.Text
