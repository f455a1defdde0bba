import CollectionInterfaces.Text.Basic

/-!
# Places in a YAML text

A cursor is a place in a text together with the text from there on. Lines end at a line feed, at a
carriage return, and at the line ends of Unicode; a byte order mark takes no column.
-/

namespace CollectionInterfaces.Yaml

/-- A place in a text; all counts start at zero. -/
structure Mark where
  index : Nat
  line : Nat
  column : Nat
  deriving DecidableEq, Repr

def Mark.start : Mark := ⟨0, 0, 0⟩

def byteOrderMark : CodePoint := .ofNat 0xFEFF

/-- The line ends of Unicode other than the next line control. -/
def isSeparator (c : CodePoint) : Bool := c.val == 0x2028 || c.val == 0x2029

/-- A code point that ends a line. -/
def isBreak (c : CodePoint) : Bool :=
  c = .lineFeed || c = .carriageReturn || c.val == 0x85 || isSeparator c

/-- A line end or the end of the text. -/
def isLineEnd (c : CodePoint) : Bool := c = .null || isBreak c

def isSpace (c : CodePoint) : Bool := c = .ofChar ' '

def isBlank (c : CodePoint) : Bool := c = .ofChar ' ' || c = .ofChar '\t'

/-- A space, a line end or the end of the text. -/
def isSpaceOrEnd (c : CodePoint) : Bool := isSpace c || isLineEnd c

/-- A blank, a line end or the end of the text. -/
def isBlankOrEnd (c : CodePoint) : Bool := isBlank c || isLineEnd c

/-- A code point of a list given as a string. -/
def isOneOf (list : String) (c : CodePoint) : Bool := (Text.ofString list).contains c

/-- A code point of the name of an anchor, a directive or a tag handle. -/
def isNamePart (c : CodePoint) : Bool := c.isWord || c = .ofChar '-'

/-- The place after a code point that is followed by another one. -/
def Mark.after (m : Mark) (c : CodePoint) (next : Option CodePoint) : Mark :=
  if c = .carriageReturn then
    if next = some .lineFeed then ⟨m.index + 1, m.line, m.column + 1⟩
    else ⟨m.index + 1, m.line + 1, 0⟩
  else if isBreak c then ⟨m.index + 1, m.line + 1, 0⟩
  else if c = byteOrderMark then ⟨m.index + 1, m.line, m.column⟩
  else ⟨m.index + 1, m.line, m.column + 1⟩

/-- A place in a text, and the text from there on. -/
structure Cursor where
  rest : Text
  mark : Mark
  deriving DecidableEq, Repr

namespace Cursor

/-- The cursor at the start of a text. -/
def ofText (t : Text) : Cursor := ⟨t, .start⟩

/-- A text longer than the one from the cursor on, which bounds the number of steps of a reader:
each step but the last takes a code point. -/
def bound (c : Cursor) : Text := .null :: c.rest

/-- The code point at the cursor, the null code point at the end. -/
def peek (c : Cursor) : CodePoint := c.rest.head?.getD .null

/-- The code point `n` places after the cursor, the null code point past the end. -/
def peekAt (c : Cursor) (n : Nat) : CodePoint := c.rest[n]?.getD .null

/-- The next place, or the same at the end. -/
def next (c : Cursor) : Cursor :=
  match c.rest with
  | [] => c
  | d :: rest => ⟨rest, c.mark.after d rest.head?⟩

def skip (c : Cursor) : Nat → Cursor
  | 0 => c
  | n + 1 => c.next.skip n

/-- The longest piece of a text from a place on whose code points are in a class, with the cursor
after it. -/
def spanFrom (p : CodePoint → Bool) (m : Mark) : Text → Text × Cursor
  | [] => ([], ⟨[], m⟩)
  | d :: rest =>
    if p d then
      let (piece, after) := spanFrom p (m.after d rest.head?) rest
      (d :: piece, after)
    else ([], ⟨d :: rest, m⟩)

/-- The longest piece from the cursor on whose code points are in a class, with the cursor after
it. -/
def span (c : Cursor) (p : CodePoint → Bool) : Text × Cursor := spanFrom p c.mark c.rest

/-- The cursor after the code points of a class. -/
def skipWhile (c : Cursor) (p : CodePoint → Bool) : Cursor := (c.span p).2

/-- The cursor after a comment, if one starts here: a comment runs up to the end of its line. -/
def skipComment (c : Cursor) : Cursor :=
  if c.peek = .ofChar '#' then c.skipWhile fun d => !isLineEnd d else c

/-- The text that a line end at the cursor stands for, with the cursor after it. The line ends of
Unicode stand for themselves, all others for a line feed; elsewhere nothing is read. -/
def lineBreak (c : Cursor) : Text × Cursor :=
  if c.peek = .carriageReturn ∧ c.peekAt 1 = .lineFeed then ([.lineFeed], c.skip 2)
  else if isSeparator c.peek then ([c.peek], c.next)
  else if isBreak c.peek then ([.lineFeed], c.next)
  else ([], c)

/-- Three equal code points and a blank or an end after them stand at the cursor. -/
def atTriple (c : Cursor) (d : CodePoint) : Bool :=
  c.rest.take 3 = [d, d, d] && isBlankOrEnd (c.peekAt 3)

/-- The mark of the start or the end of a document stands at the cursor, wherever in a line. -/
def atDocumentMark (c : Cursor) : Bool := c.atTriple '-' || c.atTriple '.'

end Cursor

end CollectionInterfaces.Yaml
