import CollectionInterfaces.Yaml.Lexeme.Basic

/-!
# Scalars in quotes

In single quotes only a quote is special, and it is written twice. In double quotes a backslash
starts an escape. Lines inside quotes are folded: a single line end becomes a space, and of several
the first one vanishes.
-/

namespace CollectionInterfaces.Yaml

inductive Quotes
  | single
  | double
  deriving DecidableEq, Repr

def Quotes.codePoint : Quotes → CodePoint
  | .single => '\''
  | .double => '"'

/-- The code points that escapes of one letter stand for. -/
def escapeTable : List (CodePoint × CodePoint) :=
  [ ('0', .null), ('a', .ofNat 0x07), ('b', .ofNat 0x08), ('t', .ofChar '\t'),
    ('\t', .ofChar '\t'), ('n', .lineFeed), ('v', .ofNat 0x0B), ('f', .ofNat 0x0C),
    ('r', .carriageReturn), ('e', .ofNat 0x1B), (' ', .ofChar ' '), ('"', .ofChar '"'),
    ('\\', .ofChar '\\'), ('/', .ofChar '/'), ('N', .ofNat 0x85), ('_', .ofNat 0xA0),
    ('L', .ofNat 0x2028), ('P', .ofNat 0x2029) ]

/-- The number of digits of an escape by number. -/
def escapeWidth? (c : CodePoint) : Option Nat :=
  if c = .ofChar 'x' then some 2
  else if c = .ofChar 'u' then some 4
  else if c = .ofChar 'U' then some 8
  else none

def codePointOf (n : Nat) : Except Error CodePoint :=
  if h : n < 0x110000 then .ok ⟨n, h⟩
  else if n < 0x80000000 then .error (.conversion .noCodePoint)
  else .error (.conversion .hugeCodePoint)

/-- The line ends of empty lines and the cursor after them. No mark of a document may start a
line. -/
def readEmptyLines (start : Mark) : (fuel : Text) → Cursor → Except Error (Text × Cursor)
  | [], c => .ok ([], c)
  | _ :: fuel, c => do
    require (!c.atDocumentMark)
      (.within .tokens .quoted start .documentMarkInQuotes c.mark)
    let after := c.skipWhile isBlank
    if isBreak after.peek then
      let (lineEnd, next) := after.lineBreak
      let (more, rest) ← readEmptyLines start fuel next
      return (lineEnd ++ more, rest)
    else return ([], after)

/-- What blanks and line ends inside quotes stand for. -/
def readQuotedSpaces (start : Mark) (c : Cursor) : Except Error (Text × Cursor) := do
  let (blanks, after) := c.span isBlank
  require (after.peek ≠ .null) (.within .tokens .quoted start .endInQuotes after.mark)
  if isBreak after.peek then
    let (lineEnd, next) := after.lineBreak
    let (more, rest) ← readEmptyLines start next.bound next
    if lineEnd ≠ [.lineFeed] then return (lineEnd ++ more, rest)
    else if more.isEmpty then return ([.ofChar ' '], rest)
    else return (more, rest)
  else return (blanks, after)

/-- An escape in double quotes, from the code point after the backslash on. -/
def readEscape (start : Mark) (c : Cursor) : Except Error (Text × Cursor) :=
  match escapeTable.lookup c.peek with
  | some d => .ok ([d], c.next)
  | none =>
    match escapeWidth? c.peek with
    | some width => do
      let digits := (List.range width).map c.next.peekAt
      if let some found := digits.find? (!·.isHexDigit) then
        throw (.within .tokens .doubleQuoted start (.escapeDigits width found) c.next.mark)
      let d ← codePointOf (hexNumber digits)
      return ([d], c.next.skip width)
    | none =>
      if isBreak c.peek then
        let next := c.lineBreak.2
        readEmptyLines start next.bound next
      else .error (.within .tokens .doubleQuoted start (.unknownEscape c.peek) c.mark)

/-- A code point that stands for itself inside quotes. -/
def isQuotedPart (c : CodePoint) : Bool :=
  !(isBlankOrEnd c || c = .ofChar '\'' || c = .ofChar '"' || c = .backslash)

/-- The text up to a blank, a line end or the closing quote. -/
def readQuotedWord (quotes : Quotes) (start : Mark) : (fuel : Text) → Cursor →
    Except Error (Text × Cursor)
  | [], c => .ok ([], c)
  | _ :: fuel, c => do
    let (piece, after) := c.span isQuotedPart
    let d := after.peek
    if quotes = .single ∧ d = .ofChar '\'' ∧ after.peekAt 1 = .ofChar '\'' then
      let (more, rest) ← readQuotedWord quotes start fuel (after.skip 2)
      return (piece ++ d :: more, rest)
    else if (quotes = .double ∧ d = .ofChar '\'') ∨
        (quotes = .single ∧ (d = .ofChar '"' ∨ d = .backslash)) then
      let (more, rest) ← readQuotedWord quotes start fuel after.next
      return (piece ++ d :: more, rest)
    else if quotes = .double ∧ d = .backslash then
      let (escaped, next) ← readEscape start after.next
      let (more, rest) ← readQuotedWord quotes start fuel next
      return (piece ++ escaped ++ more, rest)
    else return (piece, after)

def readQuotedWords (quotes : Quotes) (start : Mark) : (fuel : Text) → Cursor →
    Except Error (Text × Cursor)
  | [], c => .ok ([], c)
  | _ :: fuel, c => do
    let (word, after) ← readQuotedWord quotes start c.bound c
    if after.peek = quotes.codePoint then return (word, after.next)
    let (spaces, next) ← readQuotedSpaces start after
    let (more, rest) ← readQuotedWords quotes start fuel next
    return (word ++ spaces ++ more, rest)

def readQuoted (quotes : Quotes) (c : Cursor) : Except Error (Text × Cursor) :=
  readQuotedWords quotes c.mark c.bound c.next

end CollectionInterfaces.Yaml
