import CollectionInterfaces.Text.Decimal
import CollectionInterfaces.Yaml.Error

/-!
# Names in YAML

A reader of a lexeme takes a cursor and gives what it read and the cursor after it. One that
repeats a step takes `fuel` too, a text with a code point for every step. Here are the names of
anchors, aliases and directives, and what may stand at the end of a line.
-/

namespace CollectionInterfaces.Yaml

/-- Nothing if a condition holds, and an error otherwise. -/
def require (condition : Bool) (e : Error) : Except Error Unit :=
  if condition then .ok () else .error e

/-- A name, and the cursor after it. The code point after the name must be in a class. -/
def readName (context : Context) (start : Mark) (mayFollow : CodePoint → Bool) (c : Cursor) :
    Except Error (Text × Cursor) := do
  let (name, after) := c.span isNamePart
  require (!name.isEmpty && mayFollow after.peek)
    (.within .tokens context start (.noName after.peek) after.mark)
  .ok (name, after)

/-- The cursor after spaces, a comment and the end of the line; nothing else may stand there. -/
def skipLineEnd (context : Context) (start : Mark) (c : Cursor) : Except Error Cursor := do
  let after := (c.skipWhile isSpace).skipComment
  require (isLineEnd after.peek)
    (.within .tokens context start (.noLineEnd after.peek) after.mark)
  .ok after.lineBreak.2

/-- The name of an anchor or an alias after its mark. -/
def readAnchor (context : Context) (c : Cursor) : Except Error (Text × Cursor) :=
  readName context c.mark (fun d => isBlankOrEnd d || isOneOf "?:,]\x7d%@\x60" d) c.next

def hexNumber (digits : Text) : Nat := (Text.readDigits 16 0 digits).getD 0

end CollectionInterfaces.Yaml
