import CollectionInterfaces.Disk.Operations

/-!
# Resolving paths

A resolved path starts at the root and has no link and no `..` on it, as far as a disk tells. What
is missing on the disk is taken as a directory. A link on the way to itself cannot be resolved; it
stays in the path with what was left of the texts of the links. That the interpreter has room for a
number of links inside each other only is left out.
-/

namespace CollectionInterfaces

inductive ResolveFault
  | path (fault : PathFault)
  | loop (p : Path)
  deriving DecidableEq, Repr

def ResolveFault.message : ResolveFault → Text
  | .path fault => fault.message
  | .loop p => "Symlink loop from " ++ p.toText.quoted

/-- The names of a directory, the innermost first, after a step to a name; `..` steps out of the
innermost one. -/
def stepName (inside : List Text) (name : Text) : List Text :=
  if name = Path.dotDot then inside.tail else name :: inside

/-- The names after each other, where `..` removes the name before it. -/
def evaluateNames (names : List Text) : List Text := (names.foldl stepName []).reverse

namespace Path

def down (p : Path) (name : Text) : Path := ⟨p.root, p.names ++ [name]⟩

/-- The path one level further up. A path that starts here can go up any number of levels. -/
def up (p : Path) : Path :=
  if p.names.getLast? = some dotDot ∨ p.root = .here ∧ p.names = [] then p.down dotDot
  else p.parent

/-- The path from the root on, without `..`, of a path that starts here at a directory. -/
def evaluate (cwd : Location) (p : Path) : Path :=
  match p.root with
  | .here => ⟨.slash, evaluateNames (cwd.map Utf8.decodeName ++ p.names)⟩
  | root => ⟨root, evaluateNames p.names⟩

/-- The path that is left of the pieces of a text between slashes. -/
def ofPieces (pieces : List Text) : Path := .ofText (Text.join [slash] pieces)

end Path

namespace Disk

/-- The path of the link at a path without links above it. -/
def linkAt? (d : Disk) (cwd : Location) (p : Path) : Option Text :=
  match d.node? ((p.evaluate cwd).names.map nameBytes) with
  | some (.link target) => some (Utf8.decodeName target)
  | _ => none

/-- The links that were met, the last one first, each with the path that it leads to unless that is
still being resolved. -/
abbrev MetLinks := List (Path × Option Path)

/-- The path that pieces lead to from a resolved path on, and whether all links could be resolved.
A link that was not met is handed to `expand`, as the path that it starts from and its own
pieces. -/
def resolveWith (d : Disk) (cwd : Location)
    (expand : Path → List Text → StateM MetLinks (Path × Bool)) (above : Path) :
    List Text → StateM MetLinks (Path × Bool)
  | [] => return (above, true)
  | piece :: rest =>
    if !Path.isName piece then d.resolveWith cwd expand above rest
    else if piece = Path.dotDot then d.resolveWith cwd expand above.up rest
    else
      let place := above.down piece
      match d.linkAt? cwd place with
      | none => d.resolveWith cwd expand place rest
      | some target => do
        match (← get).lookup place with
        | some (some p) => d.resolveWith cwd expand p rest
        -- the link is being resolved, so it leads to itself
        | some none => return (place.join (.ofPieces rest), false)
        | none =>
          modify ((place, none) :: ·)
          let start : Path := if (Path.ofText target).isAbsolute then ⟨.slash, []⟩ else above
          let (p, complete) ← expand start (Text.splitAll Path.slash target)
          if complete then
            modify ((place, some p) :: ·)
            d.resolveWith cwd expand p rest
          else return (p.join (.ofPieces rest), false)

/-- The path that pieces lead to, over a number of links inside each other at most. -/
def resolveUpTo (d : Disk) (cwd : Location) :
    (links : Nat) → Path → List Text → StateM MetLinks (Path × Bool)
  | 0, above, pieces => return (above.join (.ofPieces pieces), false)
  | links + 1, above, pieces => d.resolveWith cwd (d.resolveUpTo cwd links) above pieces

/-- The number of links that can be inside each other. Every link can be reached from the root, and
from every directory on the way to the working directory. -/
def maxNestedLinks (d : Disk) (cwd : Location) : Nat := (d.entries.length + 1) * (cwd.length + 2)

/-- The path without links, and with what is left of those that cannot be resolved. -/
def resolved (d : Disk) (cwd : Location) (p : Path) : Path :=
  let start : Path := ⟨if p.isAbsolute then .slash else .here, []⟩
  let ((path, _), _) := (d.resolveUpTo cwd (d.maxNestedLinks cwd) start p.names).run []
  path.evaluate cwd

/-- The path without links. -/
def resolve (d : Disk) (cwd : Location) (p : Path) : Except ResolveFault Path :=
  match pathBytes p with
  | .error fault => .error (.path fault)
  | .ok _ =>
    match d.locate cwd .follow (d.resolved cwd p) with
    | .error (.disk .tooManyLinks) => .error (.loop (d.resolved cwd p))
    | _ => .ok (d.resolved cwd p)

end Disk

end CollectionInterfaces
