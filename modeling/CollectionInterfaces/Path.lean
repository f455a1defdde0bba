import CollectionInterfaces.Text.Basic

/-!
# Paths

A path is a root and names. Empty names and the name `.` vanish when a path is read; `..` stays,
since what it means depends on the links on a disk. Exactly two slashes at the start are a root of
their own.
-/

namespace CollectionInterfaces

inductive PathRoot
  | here
  | slash
  /-- At the root directory, written with two slashes. -/
  | twoSlashes
  deriving DecidableEq, Repr

structure Path where
  root : PathRoot
  names : List Text
  deriving DecidableEq, Repr

namespace Path

def slash : CodePoint := '/'

def dot : Text := "."

def dotDot : Text := ".."

/-- A name that a path keeps. -/
def isName (t : Text) : Bool := !t.isEmpty && t != dot

/-- The root of a path by the number of slashes in front. -/
def rootOf (t : Text) : PathRoot :=
  match (t.takeWhile (· = slash)).length with
  | 0 => .here
  | 2 => .twoSlashes
  | _ => .slash

def ofText (t : Text) : Path := ⟨rootOf t, (Text.splitAll slash t).filter isName⟩

instance : Coe Text Path := ⟨ofText⟩

def isAbsolute (p : Path) : Bool := p.root ≠ .here

/-- A path taken from the end of another one. An absolute path stays as it is. -/
def join (p q : Path) : Path :=
  if q.isAbsolute then q else ⟨p.root, p.names ++ q.names⟩

def rootText : PathRoot → Text
  | .here => []
  | .slash => [slash]
  | .twoSlashes => [slash, slash]

def toText (p : Path) : Text :=
  if p.root = .here ∧ p.names = [] then dot
  else rootText p.root ++ Text.join [slash] p.names

def parent (p : Path) : Path := ⟨p.root, p.names.dropLast⟩

def name (p : Path) : Text := p.names.getLast?.getD []

/-- The last name from its last point on, if there is something before and after the point. -/
def suffix (p : Path) : Text :=
  let afterPoint := (p.name.reverse.takeWhile (· ≠ .ofChar '.')).reverse
  let beforePoint := p.name.take (p.name.length - afterPoint.length - 1)
  if afterPoint.isEmpty || beforePoint.isEmpty then [] else .ofChar '.' :: afterPoint

end Path

end CollectionInterfaces
