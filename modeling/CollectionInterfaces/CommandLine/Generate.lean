import CollectionInterfaces.CommandLine.ExtraOptions
import CollectionInterfaces.CommandLine.Options
import CollectionInterfaces.CommandLine.Transcript
import CollectionInterfaces.Generation
import CollectionInterfaces.Schema.Loading

/-!
# The command that generates interfaces

The command reads a schema and writes interfaces. Asking for help wins over everything else; a
command line that is wrong is answered with the help. The status is zero exactly if all was done.
-/

namespace CollectionInterfaces.GenerateCommand

/-! ## Options -/

def inputOption : CommandOption := ⟨["--input"], .value⟩

/-- The option for the directory of the interfaces. -/
def outputOption : CommandOption := ⟨["--output"], .value⟩

def variantOption : CommandOption := ⟨["--variant"], .choice (Variant.all.map Variant.name)⟩

def verboseOption : CommandOption := ⟨["--verbose"], .flag⟩

def helpOption : CommandOption := ⟨["-h", "--help"], .flag⟩

def options : List CommandOption :=
  [inputOption, outputOption, variantOption, verboseOption, helpOption]

def helpLines : List Text :=
  [ "usage: generate-appwrite-interfaces [--input FILE] [--output DIR]",
    "                                    [--variant \x7bdocument,plain\x7d] [--verbose]",
    "                                    [-h]",
    "",
    "Generate TypeScript interfaces from Appwrite collections defined in appwrite.json",
    "",
    "options:",
    "  --input FILE          Path to the input appwrite JSON file (required)",
    "  --output DIR          Path to output directory for generated interfaces",
    "                        (required)",
    "  --variant \x7bdocument,plain\x7d",
    "                        Extend Models.Document with system fields, or emit",
    "                        plain interfaces (default: document)",
    "  --verbose             Enable debug logging",
    "  -h, --help            Show this help message",
    "",
    "Examples:",
    ("  generate-appwrite-interfaces --input=path/to/appwrite.json " : Text) ++
      "--output=src/appwrite-interfaces" ]

def help : Text := lines helpLines

/-! ## The log -/

inductive LogEntry
  | loaded (collections : Nat) (p : Path)
  | wrote (p : Path) (size : Nat)
  | generated (interfaces : Nat) (directory : Path)
  deriving DecidableEq, Repr

/-- An entry on a line of the log. -/
def LogEntry.message : LogEntry → Text
  | .loaded collections p =>
    "DEBUG appwrite_interfaces.schema.loader: Loaded " ++ Text.ofNat collections ++
      " collections from " ++ p.toText
  | .wrote p size =>
    "DEBUG appwrite_interfaces.generator.writer: Wrote " ++ p.toText ++ " (" ++ Text.ofNat size ++
      " bytes)"
  | .generated interfaces directory =>
    "INFO appwrite_interfaces.generator.writer: Generated " ++ Text.ofNat interfaces ++
      " interfaces under " ++ directory.toText

/-- What the log tells of a run over collections. -/
def logOfRun (config : Config) (collections : List Collection) (run : Run) : List LogEntry :=
  (collections.take run.written.length).map (fun c =>
    .wrote (interfacePath config c) (renderInterface config c).length) ++
    (match run.returned with
    | some files => [.generated files.length config.outputDir]
    | none => [])

/-- The lines of a log, which is kept only if it was asked for. -/
def logText (verbose : Bool) (entries : List LogEntry) : Text :=
  if verbose then lines (entries.map LogEntry.message) else []

/-! ## Running -/

/-- A failure that ends the command without being reported by it. -/
inductive Failure
  | config (fault : ConfigFault)
  | load (fault : LoadFault)
  | write (fault : GenerateFault)
  deriving DecidableEq, Repr

def Failure.message : Failure → Text
  | .config fault => fault.message
  | .load fault => fault.detail?.getD []
  | .write fault => fault.message

/-- What is written about an error that the command reports. -/
def errorLine (message : Text) : Text := line ("Error generating interfaces: " ++ message)

def runWith [i : Interpreter] (d : Disk) (cwd : Location) (config : Config) (verbose : Bool) :
    Transcript Failure :=
  let head := lines
    [ "Using input file: " ++ config.inputPath.toText,
      "Using output dir: " ++ config.outputDir.toText ]
  match Schema.load d cwd config.inputPath with
  | .error fault =>
    if fault.isReported then ⟨head, errorLine (fault.message config.inputPath), d, .ok 1⟩
    else ⟨head, [], d, .error (.load fault)⟩
  | .ok schema =>
    let run := generate config cwd d schema.collections
    let output := head ++ lines (run.written.map fun p => "Generated: " ++ p.toText)
    let log := logText verbose
      (.loaded schema.collections.length config.inputPath ::
        logOfRun config schema.collections run)
    match run.fault with
    | none => ⟨output, log, run.disk, .ok 0⟩
    | some fault =>
      if fault.isReported then ⟨output, log ++ errorLine fault.message, run.disk, .ok 1⟩
      else ⟨output, log, run.disk, .error (.write fault)⟩

/-- The text of a value that was given, if it is not empty. -/
def requiredText? : Option GivenValue → Option Text
  | some (.value t) => if t.isEmpty then none else some t
  | _ => none

def base (cwd : Location) : Path := ⟨.slash, cwd.map Utf8.decodeName⟩

/-- What the variant is shown as that an option leaves empty. -/
def emptyVariant : Text := "[]"

/-- The configuration that a command line asks for. -/
def configOf (d : Disk) (cwd : Location) (c : CommandLine) (input output : Text) :
    Except ConfigFault Config :=
  let arguments : ConfigArguments :=
    { input, output, base := base cwd, extraOptions := .ofArguments c.leftOver }
  match c.last? variantOption with
  | some (.value variant) => Config.ofArguments d cwd { arguments with variant }
  | some _ => do
    let _ ← Config.ofArguments d cwd arguments
    .error (.unknownVariant emptyVariant)
  | none => Config.ofArguments d cwd arguments

def asksForHelp (argument : Text) : Bool := helpOption.spellings.contains argument

/-- The command with the arguments of a command line. -/
def run [i : Interpreter] (d : Disk) (cwd : Location) (arguments : List Text) :
    Transcript Failure :=
  if arguments.any asksForHelp then ⟨help, [], d, .ok 0⟩
  else
    let c := CommandLine.ofArguments options false arguments
    match c.fault with
    | some fault => ⟨[], help ++ line ("Error: " ++ fault.message), d, .ok 1⟩
    | none =>
      match requiredText? (c.last? inputOption), requiredText? (c.last? outputOption) with
      | some input, some output =>
        match configOf d cwd c input output with
        | .error fault => ⟨[], [], d, .error (.config fault)⟩
        | .ok config => runWith d cwd config (c.last? verboseOption).isSome
      | _, _ =>
        ⟨[], line "Error: Both --input and --output parameters are required." ++ help, d, .ok 1⟩

/-- The paths that the command looks at, as far as a disk tells. -/
def paths [i : Interpreter] (d : Disk) (cwd : Location) (arguments : List Text) : List Path :=
  let c := CommandLine.ofArguments options false arguments
  match requiredText? (c.last? inputOption), requiredText? (c.last? outputOption) with
  | some input, some output =>
    let given := [(base cwd).join (.ofText input), (base cwd).join (.ofText output)]
    match configOf d cwd c input output with
    | .error _ => given
    | .ok config =>
      let files :=
        match Schema.load d cwd config.inputPath with
        | .error _ => []
        | .ok schema => schema.collections.map (interfacePath config)
      given ++ config.inputPath :: config.outputDir :: files
  | _, _ => []

end CollectionInterfaces.GenerateCommand
