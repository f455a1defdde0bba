import CollectionInterfaces.Yaml.Lexeme.Basic

/-!
# Plain scalars

A plain scalar stands without quotes. It ends at a colon before a blank, at a comment, at a line
that is not indented enough, and inside brackets at what has a meaning there. Its lines are folded.
-/

namespace CollectionInterfaces.Yaml

/-- A code point that has a meaning inside brackets. -/
def isFlowIndicator (c : CodePoint) : Bool := isOneOf ",[]\x7b\x7d" c

/-- A plain scalar ends in front of a code point that is followed by another one. -/
def endsPlain (inFlow : Bool) (c next : CodePoint) : Bool :=
  isBlankOrEnd c ||
    (c = .ofChar ':' && (isBlankOrEnd next || (inFlow && isFlowIndicator next))) ||
    (inFlow && (isFlowIndicator c || c = .ofChar '?'))

/-- The text from a place on up to where a plain scalar has a blank or its end. -/
def plainSpan (inFlow : Bool) (m : Mark) : Text → Text × Cursor
  | [] => ([], ⟨[], m⟩)
  | c :: rest =>
    if endsPlain inFlow c (rest.head?.getD .null) then ([], ⟨c :: rest, m⟩)
    else
      let (piece, after) := plainSpan inFlow (m.after c rest.head?) rest
      (c :: piece, after)

/-- The line ends of empty lines and the cursor after the spaces behind them. There is no result if
the mark of a document comes first, but only the cursor. -/
def readPlainLines : (fuel : Text) → Cursor → Option Text × Cursor
  | [], c => (some [], c)
  | _ :: fuel, c =>
    if isSpace c.peek then readPlainLines fuel c.next
    else if isBreak c.peek then
      let (lineEnd, next) := c.lineBreak
      if next.atDocumentMark then (none, next)
      else
        let (lineEnds, rest) := readPlainLines fuel next
        (lineEnds.map (lineEnd ++ ·), rest)
    else (some [], c)

/-- What spaces and line ends after a piece of a plain scalar stand for, whether a line ended, and
the cursor after them. -/
def readPlainSpaces (c : Cursor) : Text × Bool × Cursor :=
  let (spaces, after) := c.span isSpace
  if isBreak after.peek then
    let (lineEnd, next) := after.lineBreak
    if next.atDocumentMark then ([], true, next)
    else
      match readPlainLines next.bound next with
      | (none, rest) => ([], true, rest)
      | (some more, rest) =>
        if lineEnd ≠ [.lineFeed] then (lineEnd ++ more, true, rest)
        else if more.isEmpty then ([.ofChar ' '], true, rest)
        else (more, true, rest)
  else (spaces, false, after)

/-- A plain scalar that was read: its text, where it ends, and whether a line ended after it. -/
structure PlainScalar where
  text : Text
  stop : Mark
  /-- A line ended after it. -/
  lineEnded : Bool
  deriving DecidableEq, Repr

/-- A plain scalar goes on, after spaces and line ends, with another piece. -/
def PlainScalar.append (first : PlainScalar) (spaces : Text) (more : PlainScalar) : PlainScalar :=
  { more with text := first.text ++ spaces ++ more.text }

/-- The pieces of a plain scalar from a cursor on, if there are any, and the cursor after them. -/
def readPlainPieces (inFlow : Bool) (indent : Int) : (fuel : Text) → Cursor →
    Option (PlainScalar × Cursor)
  | [], _ => none
  | _ :: fuel, c =>
    if c.peek = .ofChar '#' then none
    else
      let (piece, after) := plainSpan inFlow c.mark c.rest
      if piece.isEmpty then none
      else
        let (spaces, lineEnded, rest) := readPlainSpaces after
        let first : PlainScalar := ⟨piece, after.mark, lineEnded⟩
        if spaces.isEmpty || (!inFlow && rest.mark.column ≤ indent) then some (first, rest)
        else
          match readPlainPieces inFlow indent fuel rest with
          | some (more, last) => some (first.append spaces more, last)
          | none => some (first, rest)

/-- A plain scalar and the cursor after it and the spaces behind it; `indent` is the indentation
around it. -/
def readPlain (inFlow : Bool) (indent : Int) (c : Cursor) : PlainScalar × Cursor :=
  (readPlainPieces inFlow indent c.bound c).getD (⟨[], c.mark, false⟩, c)

end CollectionInterfaces.Yaml
