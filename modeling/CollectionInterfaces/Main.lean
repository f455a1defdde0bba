import CollectionInterfaces.CommandLine.Generate
import CollectionInterfaces.CommandLine.Publish

/-!
# The program

The commands are functions on a disk. The program surveys the part of the machine's disk that a
command looks at, runs the command on it, and saves what the command has changed. Which command is
run depends on the name that the program is called by.
-/

namespace CollectionInterfaces.Program

/-- A command as the program runs it. -/
structure Command where
  /-- The paths that the command looks at, as far as a disk tells. -/
  paths : Disk → Location → List Text → List Path
  /-- The command with the arguments of a command line; a failure is told in words. -/
  run : Disk → Location → List Text → Transcript Text

def generateCommand [i : Interpreter] : Command where
  paths := GenerateCommand.paths
  run d cwd arguments := (GenerateCommand.run d cwd arguments).mapFailure (·.message)

/-- The command that publishes the shape of a schema document. -/
def publishCommand [i : Interpreter] : Command where
  paths _ _ := PublishCommand.paths
  run d cwd arguments := (PublishCommand.run d cwd arguments).mapFailure (·.message)

def publishName : String := "publish-appwrite-schema"

/-! ## The machine's disk -/

def pathOf (place : Location) : Path := ⟨.slash, place.map Utf8.decodeName⟩

/-- What stands at a place. A link stands for its target without links; one that leads nowhere is
left out, and any other one that has no target leads to itself. -/
def nodeAt (place : Location) : IO (Option Node) := do
  let some name := (pathOf place).toText.toString? | return none
  let file := (← IO.currentDir) / name
  let .ok status ← file.symlinkMetadata.toBaseIO | return none
  match status.type with
  | .dir => return some .directory
  | .symlink =>
    match ← file.metadata.toBaseIO with
    | .ok _ => return some (.link (← IO.FS.realPath file).toString.toUTF8.toList)
    | .error (.noFileOrDirectory ..) => return none
    | .error _ => return some (.link name.toUTF8.toList)
  | _ => return some (.file (← IO.FS.readBinFile file).toList)

/-- The disk with all that stands on a walk from a directory, over a number of links at most. -/
def survey (links : Nat) (d : Disk) (here : Location) : List Move → IO Disk
  | [] => return d
  | .stay :: rest => survey links d here rest
  | .slash :: rest => survey links d here rest
  | .up :: rest => survey links d here.dropLast rest
  | .down name :: rest => do
    let there := here ++ [name]
    let some node ← nodeAt there | return d
    let d := d.put there node
    match node with
    | .directory => survey links d there rest
    | .link target =>
      if 0 < links then survey (links - 1) d [] (movesOf target ++ rest) else return d
    | .file _ => return d
termination_by moves => (links, moves.length)

/-- The disk with all that stands on the way to the working directory and to a path. -/
def surveyPath (cwd : Location) (d : Disk) (p : Path) : IO Disk := do
  let d ← survey maxLinks d [] (cwd.map .down)
  survey maxLinks d (if p.isAbsolute then [] else cwd) (p.names.map Disk.moveOfName)

/-- The part of the machine's disk that a command looks at. What it looks at can depend on what it
has seen: first the links on the way to its input, then the input. -/
def surveyCommand (command : Command) (cwd : Location) (arguments : List Text) : IO Disk := do
  let look (d : Disk) : IO Disk := (command.paths d cwd arguments).foldlM (surveyPath cwd) d
  look (← look (← look .empty))

/-- What stands on a disk in another way than before, on the machine's disk. -/
def save (before after : Disk) : IO Unit := do
  for (place, node) in after.entries do
    let some file := (pathOf place).toText.toString? | continue
    if before.node? place ≠ some node then
      match node with
      | .directory => IO.FS.createDir file
      | .file content => IO.FS.writeBinFile file content.toByteArray
      | .link _ => continue

/-! ## Running -/

/-- The bytes of a text on standard output and standard error. -/
def shown (t : Text) : ByteArray := ((Utf8.encodeName t).toOption.getD []).toByteArray

/-- A command with the arguments of a command line, on the machine's disk. -/
def Command.execute (command : Command) (arguments : List String) : IO UInt32 := do
  let arguments := arguments.map Text.ofString
  let cwd := (Path.ofText (.ofString (← IO.currentDir).toString)).names.map Disk.nameBytes
  let before ← surveyCommand command cwd arguments
  let transcript := command.run before cwd arguments
  save before transcript.disk
  (← IO.getStdout).write (shown transcript.output)
  (← IO.getStderr).write (shown transcript.errors)
  match transcript.ending with
  | .ok status => return status.toUInt32
  | .error message =>
    (← IO.getStderr).write (shown (line message))
    return 1

end CollectionInterfaces.Program

/-- The program with the arguments of its command line. -/
def main (arguments : List String) : IO UInt32 := do
  let _ : CollectionInterfaces.Interpreter := .usual
  if (← IO.appPath).fileStem = some CollectionInterfaces.Program.publishName then
    CollectionInterfaces.Program.publishCommand.execute arguments
  else
    CollectionInterfaces.Program.generateCommand.execute arguments
