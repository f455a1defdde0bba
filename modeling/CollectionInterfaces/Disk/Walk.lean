import CollectionInterfaces.Disk.Basic
import CollectionInterfaces.Path

/-!
# Walking to a place

A path is walked from a directory, name by name. Links are replaced by the path that they lead to;
the last name may be a link that is not followed. The last name may also be missing, which is where
something can be made.
-/

namespace CollectionInterfaces

/-- A step of a walk. -/
inductive Move
  | stay
  /-- Stay where you are after a slash with no name behind it. -/
  | slash
  /-- To the directory above; the root is above itself. -/
  | up
  | down (name : Bytes)
  deriving DecidableEq, Repr

/-- What a walk is for. -/
inductive Purpose
  /-- To see what stands at its end, be it a link. -/
  | look
  /-- To see what the path leads to. -/
  | follow
  /-- To write a file. A path that ends in a slash leads to no file. -/
  | write
  deriving DecidableEq, Repr

/-- The end of a walk. -/
inductive Place
  | found (place : Location) (node : Node)
  /-- Nothing stands there, but the directory for it is there. -/
  | missing (place : Location)
  deriving DecidableEq, Repr

/-- Why a path denotes no place on any disk. -/
inductive PathFault
  | unencodable (e : Utf8.EncodeError)
  | nullByte
  deriving DecidableEq, Repr

inductive AccessFault
  | path (fault : PathFault)
  | disk (fault : DiskFault)
  deriving DecidableEq, Repr

/-- The moves of a path that is written in bytes. -/
def movesOf (path : Bytes) : List Move :=
  let slash : UInt8 := 0x2F
  (path.splitOn slash).map fun name =>
    if name = [] then .slash
    else if name = [0x2E] then .stay
    else if name = [0x2E, 0x2E] then .up
    else .down name

/-- Moves that are left when a path ends in a slash. -/
def isFinalSlash (moves : List Move) : Bool := !moves.isEmpty && moves.all (· = .slash)

def startsAtRoot (path : Bytes) : Bool := path.head? == some 0x2F

/-- The greatest number of bytes of a name. -/
def maxNameBytes : Nat := 255

/-- The greatest number of bytes of a path. -/
def maxPathBytes : Nat := 4095

/-- The greatest number of links on the way. -/
def maxLinks : Nat := 40

namespace Disk

/-- A walk from a directory. A link is handed to `expand` with the directory that its path starts
in and the moves that remain. -/
def walkWith (d : Disk) (purpose : Purpose)
    (expand : Location → List Move → Except DiskFault Place) (here : Location) :
    List Move → Except DiskFault Place
  | [] => .ok (.found here .directory)
  | .stay :: rest => walkWith d purpose expand here rest
  | .slash :: rest => walkWith d purpose expand here rest
  | .up :: rest => walkWith d purpose expand here.dropLast rest
  | .down name :: rest =>
    let there := here ++ [name]
    -- with a slash at the end nothing is made, whether there is something or not
    if purpose = .write ∧ isFinalSlash rest then .error .isDirectory
    else if maxNameBytes < name.length then .error .nameTooLong
    else
      match d.node? there with
      | none => if rest.isEmpty then .ok (.missing there) else .error .noEntry
      | some .directory => walkWith d purpose expand there rest
      | some (.file content) =>
        if rest.isEmpty then .ok (.found there (.file content)) else .error .notDirectory
      | some (.link target) =>
        if rest.isEmpty ∧ purpose = .look then .ok (.found there (.link target))
        else expand (if startsAtRoot target then [] else here) (movesOf target ++ rest)

/-- A walk from a directory over a number of links at most. -/
def walk (d : Disk) (purpose : Purpose) : (links : Nat) → Location → List Move →
    Except DiskFault Place
  | 0 => d.walkWith purpose fun _ _ => .error .tooManyLinks
  | links + 1 => d.walkWith purpose (d.walk purpose links)

def nameBytes (name : Text) : Bytes := ((Utf8.encodeName name).toOption).getD []

/-- The move of a name in a path. -/
def moveOfName (name : Text) : Move := if name = Path.dotDot then .up else .down (nameBytes name)

def pathBytes (p : Path) : Except PathFault Bytes :=
  match Utf8.encodeName p.toText with
  | .ok bytes => if bytes.contains 0 then .error .nullByte else .ok bytes
  | .error e => .error (.unencodable e)

/-- The end of a path that is walked from the directory `cwd` unless it starts at the root. -/
def locate (d : Disk) (cwd : Location) (purpose : Purpose) (p : Path) :
    Except AccessFault Place :=
  match pathBytes p with
  | .error fault => .error (.path fault)
  | .ok bytes =>
    if maxPathBytes < bytes.length then .error (.disk .nameTooLong)
    else
      (d.walk purpose maxLinks (if p.isAbsolute then [] else cwd)
        (p.names.map moveOfName)).mapError .disk

end Disk

end CollectionInterfaces
