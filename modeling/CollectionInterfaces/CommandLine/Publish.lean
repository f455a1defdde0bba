import CollectionInterfaces.CommandLine.Options
import CollectionInterfaces.CommandLine.Transcript
import CollectionInterfaces.Schema.Publication

/-!
# The command that publishes the shape of a schema document

The command writes the published shape into a file. Options may be abbreviated.
-/

namespace CollectionInterfaces.PublishCommand

def helpOption : CommandOption := ⟨["-h", "--help"], .flag⟩

def outputOption : CommandOption := ⟨["--output"], .value⟩

def options : List CommandOption := [helpOption, outputOption]

/-- The file, unless another one is asked for. -/
def defaultOutput : Text := "docs/appwrite-interfaces.schema.json"

def usageLine : Text := "usage: python -m appwrite_interfaces.schema.export [-h] [--output OUTPUT]"

def help : Text :=
  lines
    [ usageLine,
      "",
      "Write the JSON Schema of the generator's input document.",
      "",
      "options:",
      "  -h, --help       show this help message and exit",
      "  --output OUTPUT  Path to write the schema (default: docs/appwrite-",
      "                   interfaces.schema.json)" ]

inductive Failure
  | write (fault : Disk.WriteFault)
  | noOutput
  deriving DecidableEq, Repr

def Failure.message : Failure → Text
  | .write fault => fault.message
  | .noOutput => "'list' object has no attribute 'parent'"

/-- What is written about a command line that is wrong. -/
def usageError (fault : UsageFault) : Text :=
  lines
    [ usageLine,
      "python -m appwrite_interfaces.schema.export: error: " ++ fault.message ]

/-- What is wrong with a command line, if anything is. Nothing may be left over. -/
def faultOf? (c : CommandLine) : Option UsageFault :=
  match c.fault with
  | some fault => some fault
  | none => if c.leftOver.isEmpty then none else some (.unrecognized c.leftOver)

/-- The published shape is written into the file at a path. -/
def runWith [i : Interpreter] (d : Disk) (cwd : Location) (p : Path) : Transcript Failure :=
  match Schema.publish d cwd p with
  | (d, none) => ⟨line ("Wrote input schema to " ++ p.toText), [], d, .ok 0⟩
  | (d, some fault) => ⟨[], [], d, .error (.write fault)⟩

/-- The path of the file that a command line asks for. -/
def output? (c : CommandLine) : Option Path :=
  match c.last? outputOption with
  | some (.value t) => some (.ofText t)
  | some _ => none
  | none => some (.ofText defaultOutput)

/-- The command with the arguments of a command line. -/
def run [i : Interpreter] (d : Disk) (cwd : Location) (arguments : List Text) :
    Transcript Failure :=
  let c := CommandLine.ofArguments options true arguments
  if (c.last? helpOption).isSome then ⟨help, [], d, .ok 0⟩
  else
    match faultOf? c with
    | some fault => ⟨[], usageError fault, d, .ok 2⟩
    | none =>
      match output? c with
      | some p => runWith d cwd p
      | none => ⟨[], [], d, .error .noOutput⟩

def paths (arguments : List Text) : List Path :=
  (output? (CommandLine.ofArguments options true arguments)).toList

end CollectionInterfaces.PublishCommand
