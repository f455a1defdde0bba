import CollectionInterfaces.CommandLine.Generate
import CollectionInterfaces.Proofs.Disk.Resolve
import CollectionInterfaces.Proofs.Generation.Outcome

/-!
# The command for interfaces

A command line is one of a run with a configuration (`GenerateCommand.Configures`), or the command
ends before a schema is loaded. The configuration is the same on all disks without links. The
command succeeds exactly if a schema is loaded and all of its files are written
(`GenerateCommand.runWith_ending_eq_ok_iff`).
-/

namespace CollectionInterfaces.GenerateCommand

variable {d e : Disk} {cwd : Location} {arguments : List Text} {c : CommandLine}
  {input output : Text} {verbose : Bool} {config config' : Config} {schema : Schema}

/-! ## Configurations of command lines -/

theorem configOf_congr (hd : d.Linkless) (he : e.Linkless) :
    configOf d cwd c input output = configOf e cwd c input output := by
  unfold configOf
  simp only [Config.ofArguments_congr hd he]

theorem exists_ofArguments (h : configOf d cwd c input output = .ok config) :
    ∃ a : ConfigArguments, a.input = input ∧ a.output = output ∧ a.base = base cwd ∧
      a.extension = defaultExtension ∧ a.fallbackType = defaultFallbackType ∧
      Config.ofArguments d cwd a = .ok config := by
  unfold configOf at h
  dsimp only at h
  split at h
  · exact ⟨_, rfl, rfl, rfl, rfl, rfl, h⟩
  · obtain ⟨_, -, ⟨⟩⟩ := bind_eq_ok_iff.mp h
  · exact ⟨_, rfl, rfl, rfl, rfl, rfl, h⟩

theorem args_of_configOf (h : configOf d cwd c input output = .ok config) :
    config.inputArg = input ∧ config.outputArg = output := by
  obtain ⟨a, hinput, houtput, -, -, -, ha⟩ := exists_ofArguments h
  obtain ⟨_, _, _, -, -, -, rfl⟩ := Config.ofArguments_eq_ok_iff.mp ha
  exact ⟨hinput, houtput⟩

/-- What the arguments of the command say. -/
def commandLine (arguments : List Text) : CommandLine := .ofArguments options false arguments

/-- The arguments are those of a run with a configuration. -/
structure Configures (d : Disk) (cwd : Location) (arguments : List Text) (config : Config) :
    Prop where
  noHelp : arguments.any asksForHelp = false
  noFault : (commandLine arguments).fault = none
  input : requiredText? ((commandLine arguments).last? inputOption) = some config.inputArg
  output : requiredText? ((commandLine arguments).last? outputOption) = some config.outputArg
  config : configOf d cwd (commandLine arguments) config.inputArg config.outputArg = .ok config

theorem Configures.congr (h : Configures d cwd arguments config) (hd : d.Linkless)
    (he : e.Linkless) : Configures e cwd arguments config :=
  ⟨h.noHelp, h.noFault, h.input, h.output, configOf_congr he hd ▸ h.config⟩

theorem Configures.unique (h : Configures d cwd arguments config)
    (h' : Configures d cwd arguments config') : config = config' := by
  have hconfig := h.config
  have hinput := Option.some.inj (h.input.symm.trans h'.input)
  have houtput := Option.some.inj (h.output.symm.trans h'.output)
  rw [hinput, houtput, h'.config] at hconfig
  exact (Except.ok.inj hconfig).symm

/-- Whether there is a log. -/
def isVerbose (arguments : List Text) : Bool := ((commandLine arguments).last? verboseOption).isSome

variable [i : Interpreter]

theorem run_of_configures (h : Configures d cwd arguments config) :
    run d cwd arguments = runWith d cwd config (isVerbose arguments) := by
  obtain ⟨hhelp, hfault, hinput, houtput, hconfig⟩ := h
  unfold commandLine at hfault hinput houtput hconfig
  simp [run, hhelp, hfault, hinput, houtput, hconfig, isVerbose, commandLine]

theorem run_of_help (h : arguments.any asksForHelp = true) :
    run d cwd arguments = ⟨help, [], d, .ok 0⟩ := by
  rw [run, if_pos h]

theorem exists_configures (hhelp : arguments.any asksForHelp = false)
    (h : (run d cwd arguments).ending = .ok 0) : ∃ config, Configures d cwd arguments config := by
  unfold run at h
  rw [hhelp] at h
  simp only [Bool.false_eq_true, if_false] at h
  split at h
  · cases h
  rename_i hfault
  split at h
  · rename_i input output hinput houtput
    split at h
    · cases h
    · rename_i config hconfig
      obtain ⟨rfl, rfl⟩ := args_of_configOf hconfig
      exact ⟨config, hhelp, hfault, hinput, houtput, hconfig⟩
  · cases h

/-! ## Runs with a configuration -/

/-- What is printed if files are written for all collections. -/
def successOutput (config : Config) (cs : List Collection) : Text :=
  lines
    [ "Using input file: " ++ config.inputPath.toText,
      "Using output dir: " ++ config.outputDir.toText ] ++
    lines (cs.map fun c => "Generated: " ++ (interfacePath config c).toText)

/-- The log if files are written for all collections. -/
def successLog (verbose : Bool) (config : Config) (cs : List Collection) : Text :=
  logText verbose (.loaded cs.length config.inputPath ::
    (cs.map fun c => .wrote (interfacePath config c) (renderInterface config c).length) ++
      [.generated cs.length config.outputDir])

theorem runWith_of_load (hload : Schema.load d cwd config.inputPath = .ok schema)
    (hrun : (generate config cwd d schema.collections).fault = none) :
    runWith d cwd config verbose = ⟨successOutput config schema.collections,
      successLog verbose config schema.collections,
      (generate config cwd d schema.collections).disk, .ok 0⟩ := by
  have hwritten := generate_written_of_fault_eq_none hrun
  have hreturned := generate_returned_of_fault_eq_none hrun
  simp only [runWith, hload, hrun, hwritten, hreturned, successOutput, successLog, logOfRun,
    List.length_map, List.take_length, List.map_map, List.cons_append]
  rfl

/-- The command succeeds exactly if a schema is loaded and all of its files are written. -/
theorem runWith_ending_eq_ok_iff :
    (runWith d cwd config verbose).ending = .ok 0 ↔
      ∃ schema, Schema.load d cwd config.inputPath = .ok schema ∧
        (generate config cwd d schema.collections).fault = none := by
  constructor
  · intro h
    unfold runWith at h
    dsimp only at h
    split at h
    · split at h <;> cases h
    · rename_i schema hload
      split at h
      · exact ⟨schema, hload, ‹_›⟩
      · split at h <;> cases h
  · rintro ⟨schema, hload, hrun⟩
    rw [runWith_of_load hload hrun]

end CollectionInterfaces.GenerateCommand
