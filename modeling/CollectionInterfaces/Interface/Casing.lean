import CollectionInterfaces.Text.Basic

/-!
# Casing of names

Names are written as words without separators, each word starting with an upper case letter. Only
ASCII letters change their case, and only ASCII letters, digits and `_` start a word.
-/

namespace CollectionInterfaces

/-- A code point that separates the words of a name. -/
def CodePoint.isSeparator (c : CodePoint) : Bool := c = .ofChar '_' || c = .ofChar '-'

namespace Text

/-- The name without separators in front of words, and with the words after them capitalised. A
separator that starts a word belongs to the word. -/
def dropSeparators : Text → Text
  | [] => []
  | [c] => [c]
  | c :: d :: rest =>
    if c.isSeparator && d.isWord then d.toUpper :: dropSeparators rest
    else c :: dropSeparators (d :: rest)

/-- The name with its first letter in upper case. -/
def capitalize : Text → Text
  | [] => []
  | c :: rest => c.toUpper :: rest

/-- The name as words without separators, each starting with an upper case letter. -/
def pascalCase (t : Text) : Text := capitalize (dropSeparators t)

end Text

end CollectionInterfaces
