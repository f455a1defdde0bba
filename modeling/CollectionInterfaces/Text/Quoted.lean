import CollectionInterfaces.Text.Printable
import CollectionInterfaces.Text.Utf8

/-!
# Quoted text

How a text or a sequence of bytes is shown inside a message or a list: between quotes, with
escapes for what is not printable. Single quotes are used unless the text holds a single quote and
no double quote.
-/

namespace CollectionInterfaces

def CodePoint.backslash : CodePoint := '\\'

namespace Text

/-- The quote that a text is shown in. -/
def quoteFor (t : Text) : CodePoint :=
  if t.contains (.ofChar '\'') && !t.contains (.ofChar '"') then '"' else '\''

/-- The escape of a code point by its number, with as many digits as the number needs. -/
def numericEscape (n : Nat) : Text :=
  if n < 0x100 then "\\x" ++ ofNatHex 2 n
  else if n < 0x10000 then "\\u" ++ ofNatHex 4 n
  else "\\U" ++ ofNatHex 8 n

def quotedCodePoint (quote c : CodePoint) : Text :=
  if c = quote ∨ c = .backslash then [.backslash, c]
  else if c = .lineFeed then "\\n"
  else if c = .carriageReturn then "\\r"
  else if c = .ofChar '\t' then "\\t"
  else if c.isPrintable then [c]
  else numericEscape c.val

def quoted (t : Text) : Text :=
  let quote := t.quoteFor
  quote :: t.flatMap (quotedCodePoint quote) ++ [quote]

end Text

def quotedByte (quote : CodePoint) (b : UInt8) : Text :=
  let c := CodePoint.ofNat b.toNat
  if c = quote ∨ c = .backslash then [.backslash, c]
  else if c = .lineFeed then "\\n"
  else if c = .carriageReturn then "\\r"
  else if c = .ofChar '\t' then "\\t"
  else if 0x20 ≤ b.toNat ∧ b.toNat < 0x7F then [c]
  else "\\x" ++ Text.ofNatHex 2 b.toNat

/-- The bytes between quotes, after a mark that they are bytes. -/
def Bytes.quoted (bytes : Bytes) : Text :=
  let quote := Text.quoteFor (bytes.map fun b => .ofNat b.toNat)
  .ofChar 'b' :: quote :: bytes.flatMap (quotedByte quote) ++ [quote]

end CollectionInterfaces
