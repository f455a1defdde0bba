import CollectionInterfaces.Disk.Walk
import CollectionInterfaces.Interpreter
import CollectionInterfaces.Text.Quoted

/-!
# Operations on a disk

Making directories, writing files and reading them. An operation that is refused half way leaves
what it has done so far.
-/

namespace CollectionInterfaces

/-- An operation that was refused: the path it was refused for, and why. -/
structure Refusal where
  path : Path
  fault : AccessFault
  deriving DecidableEq, Repr

/-- A fault of a disk in words, for a path. -/
def DiskFault.describe (fault : DiskFault) (p : Path) : Text :=
  "[Errno " ++ Text.ofNat fault.code ++ "] " ++ fault.message ++ ": " ++ p.toText.quoted

def PathFault.message : PathFault → Text
  | .unencodable e => e.message
  | .nullByte => "embedded null byte"

def Refusal.message (r : Refusal) : Text :=
  match r.fault with
  | .path fault => fault.message
  | .disk fault => fault.describe r.path

namespace Disk

def makeDirectory (d : Disk) (cwd : Location) (p : Path) : Except AccessFault Disk := do
  match ← d.locate cwd .look p with
  | .found _ _ => .error (.disk .exists)
  | .missing place => .ok (d.put place .directory)

/-- A path leads to a directory. A path that leads nowhere does not. -/
def isDirectory (d : Disk) (cwd : Location) (p : Path) : Except AccessFault Bool :=
  match d.locate cwd .follow p with
  | .ok (.found _ node) => .ok (node = .directory)
  | .ok (.missing _) => .ok false
  | .error (.disk .nameTooLong) => .error (.disk .nameTooLong)
  | .error _ => .ok false

/-- What remains of a refusal to make a directory: nothing, if a directory is there. -/
def unlessDirectory (d : Disk) (cwd : Location) (p : Path) (fault : AccessFault) :
    Option Refusal :=
  match d.isDirectory cwd p with
  | .ok true => none
  | .ok false => some ⟨p, fault⟩
  | .error other => some ⟨p, other⟩

/-- Why a file was not written. -/
inductive WriteFault
  | refused (r : Refusal)
  /-- There is no room for another call of the interpreter. -/
  | exhausted
  | unencodable (e : Utf8.EncodeError)
  deriving DecidableEq, Repr

def WriteFault.message : WriteFault → Text
  | .refused r => r.message
  | .exhausted => Interpreter.exhaustedMessage ++ " while calling a Python object"
  | .unencodable e => e.message

/-- The disk with a directory and those on the way to it; `depth` is the number of those that may
be made on the way, and `room` the number of calls that there is room for. -/
def makeDirectoriesUpTo (d : Disk) (cwd : Location) :
    (room depth : Nat) → Path → Disk × Option WriteFault
  | room, depth, p =>
    match d.makeDirectory cwd p with
    | .ok e => (e, none)
    | .error (.path fault) => (d, some (.refused ⟨p, .path fault⟩))
    | .error (.disk .noEntry) =>
      match depth, room with
      | 0, _ => (d, some (.refused ⟨p, .disk .noEntry⟩))
      | _ + 1, 0 => (d, some .exhausted)
      | depth + 1, room + 1 =>
        match d.makeDirectoriesUpTo cwd room depth p.parent with
        | (e, some fault) => (e, some fault)
        | (e, none) =>
          match e.makeDirectory cwd p with
          | .ok f => (f, none)
          | .error (.disk .noEntry) => (e, some (.refused ⟨p, .disk .noEntry⟩))
          | .error (.path fault) => (e, some (.refused ⟨p, .path fault⟩))
          | .error fault => (e, (e.unlessDirectory cwd p fault).map .refused)
    | .error fault => (d, (d.unlessDirectory cwd p fault).map .refused)

/-- The disk with a directory and those on the way to it. Directories that are there stay. -/
def makeDirectories [i : Interpreter] (d : Disk) (cwd : Location) (p : Path) :
    Disk × Option WriteFault :=
  d.makeDirectoriesUpTo cwd i.directoryRoom p.names.length p

/-- The place of a file that is opened for writing. -/
def placeToWrite (d : Disk) (cwd : Location) (p : Path) : Except AccessFault Location := do
  match ← d.locate cwd .write p with
  | .found place (.file _) => .ok place
  | .found _ _ => .error (.disk .isDirectory)
  | .missing place => .ok place

/-- The disk with a text as the content of a file. A file that is opened is emptied first, and
stays empty if the text has no bytes. -/
def writeText (d : Disk) (cwd : Location) (p : Path) (t : Text) : Disk × Option WriteFault :=
  match d.placeToWrite cwd p with
  | .error fault => (d, some (.refused ⟨p, fault⟩))
  | .ok place =>
    match Utf8.encode t with
    | .ok content => (d.put place (.file content), none)
    | .error e => (d.put place (.file []), some (.unencodable e))

inductive ReadFault
  | refused (r : Refusal)
  | undecodable (e : Utf8.DecodeError)
  deriving DecidableEq, Repr

def readBytes (d : Disk) (cwd : Location) (p : Path) : Except Refusal Bytes :=
  match d.locate cwd .follow p with
  | .ok (.found _ (.file content)) => .ok content
  | .ok (.found _ _) => .error ⟨p, .disk .isDirectory⟩
  | .ok (.missing _) => .error ⟨p, .disk .noEntry⟩
  | .error fault => .error ⟨p, fault⟩

/-- The text of a file, with every line end as a line feed. -/
def readText (d : Disk) (cwd : Location) (p : Path) : Except ReadFault Text :=
  match d.readBytes cwd p with
  | .error r => .error (.refused r)
  | .ok content =>
    match Utf8.decode content with
    | .ok t => .ok t.unixLines
    | .error e => .error (.undecodable e)

end Disk

end CollectionInterfaces
