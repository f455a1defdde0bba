import CollectionInterfaces.Text.Utf8
import CollectionInterfaces.Value.Basic

/-!
# Disks

A disk is a tree of directories, files and links, kept as a list of places with what stands there.
The root directory is always there. Two disks are the same if every place holds the same.
-/

namespace CollectionInterfaces

/-- A place on a disk: the names from the root on. -/
abbrev Location := List Bytes

inductive Node
  | directory
  | file (content : Bytes)
  /-- A link with the path that it leads to. -/
  | link (target : Bytes)
  deriving DecidableEq, Repr

structure Disk where
  /-- The places that hold something, the root left out. -/
  entries : List (Location × Node)

namespace Disk

/-- The disk with nothing on it but the root directory. -/
def empty : Disk := ⟨[]⟩

/-- What stands at a place. -/
def node? (d : Disk) (place : Location) : Option Node :=
  if place = [] then some .directory else d.entries.lookup place

/-- The disk with something put at a place, in place of what stood there. -/
def put (d : Disk) (place : Location) (node : Node) : Disk :=
  ⟨insertEntry (fun a b => decide (a = b)) place node d.entries⟩

/-- Every place holds the same on both disks. -/
def Same (d e : Disk) : Prop := ∀ place : Location, d.node? place = e.node? place

/-- Nothing on the disk is a link. -/
def Linkless (d : Disk) : Prop :=
  ∀ (place : Location) (target : Bytes), d.node? place ≠ some (.link target)

end Disk

/-- Why an operation on a disk is refused. -/
inductive DiskFault
  | noEntry
  | exists
  | notDirectory
  | isDirectory
  | nameTooLong
  | tooManyLinks
  deriving DecidableEq, Repr

namespace DiskFault

def code : DiskFault → Nat
  | .noEntry => 2
  | .exists => 17
  | .notDirectory => 20
  | .isDirectory => 21
  | .nameTooLong => 36
  | .tooManyLinks => 40

def message : DiskFault → Text
  | .noEntry => "No such file or directory"
  | .exists => "File exists"
  | .notDirectory => "Not a directory"
  | .isDirectory => "Is a directory"
  | .nameTooLong => "File name too long"
  | .tooManyLinks => "Too many levels of symbolic links"

end DiskFault

end CollectionInterfaces
