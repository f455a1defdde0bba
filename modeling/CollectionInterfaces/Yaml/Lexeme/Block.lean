import CollectionInterfaces.Yaml.Lexeme.Basic

/-!
# Scalars in block notation

A literal scalar keeps its lines; a folded one joins lines that start with no blank. The head tells
what becomes of the line ends at the end, and may give the indentation.
-/

namespace CollectionInterfaces.Yaml

/-- What becomes of the line ends at the end of a scalar. -/
inductive Chomping
  /-- One line end stays. -/
  | clip
  /-- None stays. -/
  | strip
  /-- All stay. -/
  | keep
  deriving DecidableEq, Repr

/-- The head of a scalar in block notation. -/
structure BlockHead where
  chomping : Chomping
  /-- The indentation, if it is given. -/
  indentation : Option Nat
  deriving DecidableEq, Repr

def Chomping.ofMark? (c : CodePoint) : Option Chomping :=
  if c = .ofChar '+' then some .keep else if c = .ofChar '-' then some .strip else none

/-- The indentation that a head gives. Zero is none. -/
def readIndentation (start : Mark) (c : Cursor) : Except Error (Option Nat × Cursor) :=
  if c.peek.isDigit then do
    let n := (c.peek.digitValue?).getD 0
    require (n ≠ 0) (.within .tokens .blockScalar start .zeroIndentation c.mark)
    return (some n, c.next)
  else .ok (none, c)

/-- The head: the chomping and the indentation in either order, both optional. -/
def readBlockHead (start : Mark) (c : Cursor) : Except Error (BlockHead × Cursor) := do
  let (head, after) ←
    match Chomping.ofMark? c.peek with
    | some chomping => do
      let (indentation, after) ← readIndentation start c.next
      pure (BlockHead.mk chomping indentation, after)
    | none => do
      let (indentation, after) ← readIndentation start c
      match indentation, Chomping.ofMark? after.peek with
      | some n, some chomping => pure (BlockHead.mk chomping (some n), after.next)
      | _, _ => pure (BlockHead.mk .clip indentation, after)
  require (isSpaceOrEnd after.peek)
    (.within .tokens .blockScalar start (.noIndicator after.peek) after.mark)
  return (head, after)

/-- The line ends and spaces in front of the first line: the line ends, the greatest column, and the
cursor after them. -/
def readLeadingLines : (fuel : Text) → Cursor → Text × Nat × Cursor
  | [], c => ([], 0, c)
  | _ :: fuel, c =>
    if isSpace c.peek then
      let (lineEnds, column, rest) := readLeadingLines fuel c.next
      (lineEnds, max c.next.mark.column column, rest)
    else if isBreak c.peek then
      let (lineEnd, next) := c.lineBreak
      let (lineEnds, column, rest) := readLeadingLines fuel next
      (lineEnd ++ lineEnds, column, rest)
    else ([], 0, c)

def skipSpaces : (n : Nat) → Cursor → Cursor
  | 0, c => c
  | n + 1, c => if isSpace c.peek then skipSpaces n c.next else c

/-- The line ends of empty lines and the cursor at the indentation of the line after them. -/
def readBlankLines (indentation : Nat) : (fuel : Text) → Cursor → Text × Cursor
  | [], c => ([], c)
  | _ :: fuel, c =>
    let after := skipSpaces (indentation - c.mark.column) c
    if isBreak after.peek then
      let (lineEnd, next) := after.lineBreak
      let (lineEnds, rest) := readBlankLines indentation fuel next
      (lineEnd ++ lineEnds, rest)
    else ([], after)

/-- The line ends of all empty lines from a cursor on. -/
def readAllBlankLines (indentation : Nat) (c : Cursor) : Text × Cursor :=
  readBlankLines indentation c.bound c

/-- What stands between two lines of a scalar: the end of the first line, unless the lines are
joined. Lines are joined if the scalar is folded and neither line starts with a blank; a space
stands between them unless empty lines do. -/
def lineJoint (folded : Bool) (lineEnd blankLines : Text) (firstBlank secondBlank : Bool) : Text :=
  if folded && lineEnd = [.lineFeed] && !firstBlank && !secondBlank then
    if blankLines.isEmpty then [.ofChar ' '] else []
  else lineEnd

/-- The lines of a scalar: the text, the end of the last line and the empty lines after it, and the
cursor. -/
def readBlockLines (folded : Bool) (indentation : Nat) : (fuel : Text) → (blankLines : Text) →
    Cursor → Text × Text × Text × Cursor
  | [], blankLines, c => ([], [], blankLines, c)
  | _ :: fuel, blankLines, c =>
    if c.mark.column = indentation ∧ c.peek ≠ .null then
      let (line, after) := c.span fun d => !isLineEnd d
      let (lineEnd, next) := after.lineBreak
      let (blanks, rest) := readAllBlankLines indentation next
      if rest.mark.column = indentation ∧ rest.peek ≠ .null then
        let joint := lineJoint folded lineEnd blanks (isBlank c.peek) (isBlank rest.peek)
        let (more, lastEnd, tail, rest) := readBlockLines folded indentation fuel blanks rest
        (blankLines ++ line ++ joint ++ more, lastEnd, tail, rest)
      else (blankLines ++ line, lineEnd, blanks, rest)
    else ([], [], blankLines, c)

/-- A scalar in block notation from its mark on; `indent` is the indentation around it. -/
def readBlock (folded : Bool) (indent : Int) (c : Cursor) : Except Error (Text × Cursor) := do
  let start := c.mark
  let (head, after) ← readBlockHead start c.next
  let first ← skipLineEnd .blockScalar start after
  let least := max 1 (indent + 1).toNat
  let (indentation, blankLines, body) :=
    match head.indentation with
    | none =>
      let (lineEnds, column, rest) := readLeadingLines first.bound first
      (max least column, lineEnds, rest)
    | some n =>
      let indentation := least + n - 1
      let (lineEnds, rest) := readAllBlankLines indentation first
      (indentation, lineEnds, rest)
  let (text, lastEnd, tail, rest) :=
    readBlockLines folded indentation body.bound blankLines body
  return (text ++
    (match head.chomping with
      | .strip => []
      | .clip => lastEnd
      | .keep => lastEnd ++ tail), rest)

end CollectionInterfaces.Yaml
