import CollectionInterfaces.Disk.Operations
import CollectionInterfaces.Interface.Basic

/-!
# Generating interfaces

One file is written for every collection, in the order of the schema, under a directory for its
database. The first file that cannot be written ends the run; the files before it stay.
-/

namespace CollectionInterfaces

/-- The name of the file of a collection with a name. -/
def interfaceFilename (config : Config) (name : Text) : Text :=
  name.pascalCase ++ config.extension

/-- The path of the file of a collection. -/
def interfacePath (config : Config) (c : Collection) : Path :=
  (config.outputDir.join (.ofText c.databaseId)).join (.ofText (interfaceFilename config c.name))

/-- The text of the file of a collection. -/
def renderInterface (config : Config) (c : Collection) : Text := (c.toInterface config).render

/-- A file that was not written, and why. -/
structure GenerateFault where
  file : Path
  cause : Disk.WriteFault
  deriving DecidableEq, Repr

namespace GenerateFault

/-- The fault is reported as one of writing. The others are paths that denote no file, directories
that there is no room for, and texts without bytes. -/
def isReported (fault : GenerateFault) : Bool :=
  match fault.cause with
  | .refused ⟨_, .disk _⟩ => true
  | _ => false

def message (fault : GenerateFault) : Text :=
  if fault.isReported then "Failed to write " ++ fault.file.toText ++ ": " ++ fault.cause.message
  else fault.cause.message

end GenerateFault

/-- The disk with the text of a collection in its file, and with the directories on the way. -/
def writeInterface [i : Interpreter] (config : Config) (cwd : Location) (d : Disk) (c : Collection)
    (code : Text) : Disk × Option GenerateFault :=
  let file := interfacePath config c
  match d.makeDirectories cwd file.parent with
  | (d, some cause) => (d, some ⟨file, cause⟩)
  | (d, none) =>
    match d.writeText cwd file code with
    | (d, some cause) => (d, some ⟨file, cause⟩)
    | (d, none) => (d, none)

/-- What a run has done. -/
structure Run where
  disk : Disk
  /-- The paths that were announced as written, one after another. -/
  written : List Path
  /-- The paths that the run gave back, if it reached its end. -/
  returned : Option (List Path)
  /-- Why the run ended before the last collection, if it did. -/
  fault : Option GenerateFault

/-- A run that is preceded by writing a file. -/
def Run.after (run : Run) (file : Path) : Run where
  disk := run.disk
  written := file :: run.written
  returned := run.returned.map fun files => file :: files
  fault := run.fault

/-- A run over collections. -/
def generate [i : Interpreter] (config : Config) (cwd : Location) (d : Disk) : List Collection → Run
  | [] => ⟨d, [], some [], none⟩
  | c :: rest =>
    match writeInterface config cwd d c (renderInterface config c) with
    | (d, some fault) => ⟨d, [], none, some fault⟩
    | (d, none) => (generate config cwd d rest).after (interfacePath config c)

end CollectionInterfaces
