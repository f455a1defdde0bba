/-!
# Code points

A code point is a Unicode scalar value or a surrogate standing alone. Text that was written with
escapes can hold lone surrogates, so `Char` is too small a carrier for it. The character classes
here know ASCII only.
-/

namespace CollectionInterfaces

/-- A code point: a number below `0x110000`. -/
structure CodePoint where
  val : Nat
  isLt : val < 0x110000
  deriving DecidableEq, Repr

namespace CodePoint

theorem toNat_lt_size (c : Char) : c.toNat < 0x110000 := by
  rcases c.valid with h | h
  · exact Nat.lt_trans h (by decide)
  · exact h.2

def ofChar (c : Char) : CodePoint := ⟨c.toNat, toNat_lt_size c⟩

instance : Coe Char CodePoint := ⟨ofChar⟩

instance : Inhabited CodePoint := ⟨ofChar 'A'⟩

theorem ext_val {a b : CodePoint} (h : a.val = b.val) : a = b := by
  cases a; cases b; cases h; rfl

theorem ofChar_injective {a b : Char} (h : ofChar a = ofChar b) : a = b :=
  Char.toNat_inj.mp (congrArg val h)

/-- The code point of a number, or the null code point when the number is too large. -/
def ofNat (n : Nat) : CodePoint :=
  if h : n < 0x110000 then ⟨n, h⟩ else ⟨0, by decide⟩

def null : CodePoint := ⟨0, by decide⟩

def lineFeed : CodePoint := '\n'

def carriageReturn : CodePoint := '\r'

/-- Half of a surrogate pair. -/
def isSurrogate (c : CodePoint) : Bool := 0xD800 ≤ c.val && c.val ≤ 0xDFFF

def isHighSurrogate (c : CodePoint) : Bool := 0xD800 ≤ c.val && c.val ≤ 0xDBFF

def isLowSurrogate (c : CodePoint) : Bool := 0xDC00 ≤ c.val && c.val ≤ 0xDFFF

/-- The character of a code point; a surrogate has none. -/
def toChar? (c : CodePoint) : Option Char :=
  if c.isSurrogate then none else some (Char.ofNat c.val)

/-- The code point that a surrogate pair denotes. -/
def ofSurrogatePair (high low : CodePoint) : CodePoint :=
  ofNat (0x10000 + (high.val - 0xD800) * 0x400 + (low.val - 0xDC00))

/-! ## Classes -/

/-- A digit `0` to `9`. -/
def isDigit (c : CodePoint) : Bool := 48 ≤ c.val && c.val ≤ 57

/-- A letter `a` to `z`. -/
def isLower (c : CodePoint) : Bool := 97 ≤ c.val && c.val ≤ 122

/-- A letter `A` to `Z`. -/
def isUpper (c : CodePoint) : Bool := 65 ≤ c.val && c.val ≤ 90

def isWord (c : CodePoint) : Bool := c.isLower || c.isUpper || c.isDigit || c.val == 95

/-- An ASCII letter in upper case; every other code point as it is. -/
def toUpper (c : CodePoint) : CodePoint :=
  if c.isLower then ofNat (c.val - 32) else c

/-- An ASCII letter in lower case; every other code point as it is. -/
def toLower (c : CodePoint) : CodePoint :=
  if c.isUpper then ofNat (c.val + 32) else c

/-- The value of a digit, letters counting from ten on. -/
def digitValue? (c : CodePoint) : Option Nat :=
  if c.isDigit then some (c.val - 48)
  else if c.isLower then some (c.val - 87)
  else if c.isUpper then some (c.val - 55)
  else none

def hexValue? (c : CodePoint) : Option Nat :=
  c.digitValue?.filter (· < 16)

def isHexDigit (c : CodePoint) : Bool := c.hexValue?.isSome

/-- The digit of a value below sixteen, letters in lower case. -/
def ofDigit (d : Nat) : CodePoint :=
  if d < 10 then ofNat (48 + d) else ofNat (87 + d)

end CodePoint

end CollectionInterfaces
