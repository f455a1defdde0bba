import CollectionInterfaces.Text.Utf8
import CollectionInterfaces.Yaml.Lexeme.Basic

/-!
# Tags and directives in YAML

A tag is written in full between angle brackets, or as a shorthand and the rest of the tag. Bytes
of a tag can be written as escapes.
-/

namespace CollectionInterfaces.Yaml

/-- A code point of a tag that stands for itself. -/
def isUriPart (c : CodePoint) : Bool :=
  c.isWord || isOneOf "-;/?:@&=+$,.!~*'()[]" c

/-- The percent sign that starts an escape in a tag. -/
def percent : CodePoint := '%'

/-- Bytes that are written as escapes one after another. -/
def readUriBytes (context : Context) (start : Mark) : (fuel : Text) → Cursor →
    Except Error (Bytes × Cursor)
  | [], c => .ok ([], c)
  | _ :: fuel, c =>
    if c.peek ≠ percent then .ok ([], c)
    else do
      let digits := c.next
      let bad? := [digits.peekAt 0, digits.peekAt 1].find? (!·.isHexDigit)
      if let some found := bad? then
        throw (.within .tokens context start (.uriEscape found) digits.mark)
      let byte := hexNumber [digits.peekAt 0, digits.peekAt 1]
      let (bytes, after) ← readUriBytes context start fuel (digits.skip 2)
      .ok (byte.toUInt8 :: bytes, after)

def readUriPieces (context : Context) (start : Mark) : (fuel : Text) → Cursor →
    Except Error (Text × Cursor)
  | [], c => .ok ([], c)
  | _ :: fuel, c => do
    let (piece, after) := c.span isUriPart
    if after.peek ≠ percent then return (piece, after)
    let (bytes, rest) ← readUriBytes context start after.rest after
    match Utf8.decode bytes with
    | .error e => throw (.within .tokens context start (.uriEncoding e) after.mark)
    | .ok t =>
      let (more, rest) ← readUriPieces context start fuel rest
      return (piece ++ t ++ more, rest)

/-- The rest of a tag, in a tag or in a directive. -/
def readUri (context uriContext : Context) (start : Mark) (c : Cursor) :
    Except Error (Text × Cursor) := do
  let (uri, after) ← readUriPieces context start c.bound c
  require (!uri.isEmpty) (.within .tokens uriContext start (.noUri after.peek) after.mark)
  return (uri, after)

def exclamation : CodePoint := '!'

/-- The shorthand of a tag: one exclamation mark, or two with a name between them. -/
def readHandle (context : Context) (start : Mark) (c : Cursor) :
    Except Error (Text × Cursor) := do
  require (c.peek = exclamation)
    (.within .tokens context start (.noExclamation c.peek) c.mark)
  if isSpace c.next.peek then return ([exclamation], c.next)
  let (name, after) := c.next.span isNamePart
  require (after.peek = exclamation)
    (.within .tokens context start (.noExclamation after.peek) after.mark)
  return (exclamation :: name ++ [exclamation], after.next)

/-- The shorthand and the rest of a tag. -/
def readTagParts (c : Cursor) : Except Error ((Option Text × Text) × Cursor) := do
  let start := c.mark
  let second := c.peekAt 1
  if second = .ofChar '<' then
    let (uri, after) ← readUri .tag .tagUri start (c.skip 2)
    require (after.peek = .ofChar '>')
      (.within .tokens .tagUri start (.noAngle after.peek) after.mark)
    return ((none, uri), after.next)
  else if isBlankOrEnd second then return ((none, [exclamation]), c.next)
  else if ((c.next.span fun d => !isSpaceOrEnd d).1).contains exclamation then
    let (handle, after) ← readHandle .tag start c
    let (uri, after) ← readUri .tag .tagUri start after
    return ((some handle, uri), after)
  else
    let (uri, after) ← readUri .tag .tagUri start c.next
    return ((some [exclamation], uri), after)

/-- A tag: its shorthand, if it is not written in full, and the rest. -/
def readTag (c : Cursor) : Except Error ((Option Text × Text) × Cursor) := do
  let (tag, after) ← readTagParts c
  require (isSpaceOrEnd after.peek)
    (.within .tokens .tag c.mark (.noSpace after.peek) after.mark)
  return (tag, after)

/-! ## Directives -/

def readVersionNumber (start : Mark) (c : Cursor) : Except Error (Nat × Cursor) := do
  let (digits, after) := c.span CodePoint.isDigit
  require (!digits.isEmpty) (.within .tokens .directive start (.noDigit after.peek) after.mark)
  require (digits.length ≤ Text.maxIntegerDigits) (.conversion (.longInteger digits.length))
  return (digits.toNat, after)

def readVersion (start : Mark) (c : Cursor) : Except Error (Directive × Cursor) := do
  let (major, point) ← readVersionNumber start (c.skipWhile isSpace)
  require (point.peek = .ofChar '.')
    (.within .tokens .directive start (.noDigitOrPoint point.peek) point.mark)
  let (minor, after) ← readVersionNumber start point.next
  require (isSpaceOrEnd after.peek)
    (.within .tokens .directive start (.noDigitOrSpace after.peek) after.mark)
  return (.version major minor, after)

def readShorthand (start : Mark) (c : Cursor) : Except Error (Directive × Cursor) := do
  let (handle, after) ← readHandle .directive start (c.skipWhile isSpace)
  require (isSpace after.peek)
    (.within .tokens .directive start (.noSpace after.peek) after.mark)
  let (beginning, after) ← readUri .directive .directiveUri start (after.skipWhile isSpace)
  require (isSpaceOrEnd after.peek)
    (.within .tokens .directive start (.noSpace after.peek) after.mark)
  return (.shorthand handle beginning, after)

/-- A directive from its percent sign on, and the cursor after its line. -/
def readDirective (c : Cursor) : Except Error (Directive × Cursor) := do
  let start := c.mark
  let (name, after) ← readName .directive start isSpaceOrEnd c.next
  let (directive, after) ←
    if name = ("YAML" : Text) then readVersion start after
    else if name = ("TAG" : Text) then readShorthand start after
    else .ok (.other name, after.skipWhile fun d => !isLineEnd d)
  return (directive, ← skipLineEnd .directive start after)

end CollectionInterfaces.Yaml
