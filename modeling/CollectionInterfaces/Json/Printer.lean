import CollectionInterfaces.Json.Basic
import CollectionInterfaces.Number.Shortest

/-!
# Writing JSON

Documents on one line, and documents with one member or element on a line and the members in the
order of their names. Code points outside ASCII are written as escapes.
-/

namespace CollectionInterfaces.Json

def unitEscape (n : Nat) : Text := "\\u" ++ Text.ofNatHex 4 n

/-- A code point inside a text. One past the first plane is written as a surrogate pair. -/
def escaped (c : CodePoint) : Text :=
  if c = .ofChar '"' then "\\\""
  else if c = .ofChar '\\' then "\\\\"
  else if c = .lineFeed then "\\n"
  else if c = .carriageReturn then "\\r"
  else if c = .ofChar '\t' then "\\t"
  else if c.val = 0x08 then "\\b"
  else if c.val = 0x0C then "\\f"
  else if 0x20 ≤ c.val ∧ c.val < 0x7F then [c]
  else if c.val < 0x10000 then unitEscape c.val
  else
    unitEscape (0xD800 + (c.val - 0x10000) / 0x400) ++
      unitEscape (0xDC00 + (c.val - 0x10000) % 0x400)

def writeText (t : Text) : Text := .ofChar '"' :: t.flatMap escaped ++ [.ofChar '"']

def writeFloat : Binary64 → Text
  | .nan => "NaN"
  | .infinite negative => if negative then "-Infinity" else "Infinity"
  | x => x.toText

def bracketed (t : Text) : Text := .ofChar '[' :: t ++ [.ofChar ']']

def braced (t : Text) : Text := .ofChar '{' :: t ++ [.ofChar '}']

mutual

/-- A document on one line. -/
def write : Json → Text
  | .null => "null"
  | .bool b => if b then "true" else "false"
  | .int n => Text.ofInt n
  | .float x => writeFloat x
  | .text t => writeText t
  | .array elements => bracketed (Text.join ", " (writeElements elements))
  | .object members => braced (Text.join ", " (writeMembers members))

/-- The elements of an array, each on one line. -/
def writeElements : List Json → List Text
  | [] => []
  | v :: rest => write v :: writeElements rest

/-- The members of an object, each on one line. -/
def writeMembers : List (Text × Json) → List Text
  | [] => []
  | (name, v) :: rest => (writeText name ++ ": " ++ write v) :: writeMembers rest

end

/-- The order of members by their names. -/
def memberLe (a b : Text × Text) : Bool := Text.le a.1 b.1

/-- Lines between an opening and a closing bracket, indented by `depth` steps of two spaces. -/
def block (depth : Nat) (opening closing : CodePoint) (lines : List Text) : Text :=
  if lines.isEmpty then [opening, closing]
  else
    let newLine := .lineFeed :: Text.spaces (2 * (depth + 1))
    opening :: newLine ++ Text.join (.ofChar ',' :: newLine) lines ++
      .lineFeed :: Text.spaces (2 * depth) ++ [closing]

mutual

/-- A document on indented lines, `depth` steps inside. -/
def writeLines (depth : Nat) : Json → Text
  | .array elements => block depth '[' ']' (elementLines (depth + 1) elements)
  | .object members =>
    block depth '{' '}'
      (((memberLines (depth + 1) members).mergeSort memberLe).map fun (name, v) =>
        writeText name ++ ": " ++ v)
  | v => write v

/-- The elements of an array on indented lines. -/
def elementLines (depth : Nat) : List Json → List Text
  | [] => []
  | v :: rest => writeLines depth v :: elementLines depth rest

/-- The members of an object on indented lines, with their names. -/
def memberLines (depth : Nat) : List (Text × Json) → List (Text × Text)
  | [] => []
  | (name, v) :: rest => (name, writeLines depth v) :: memberLines depth rest

end

end CollectionInterfaces.Json
