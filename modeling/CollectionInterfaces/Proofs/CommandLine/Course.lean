import CollectionInterfaces.Proofs.CommandLine.Generate
import CollectionInterfaces.Proofs.Json.Reading
import CollectionInterfaces.Proofs.Text.Split

/-!
# The course of the command

The command either obtains a schema or stops before that, and there is a short list of reasons to
stop (`GenerateCommand.stops_iff`). A command that stops leaves the disk alone. One that obtains a
schema prints a line for every file that it writes, and its status is zero exactly if these are the
files of all collections (`GenerateCommand.run_courseLaw`).
-/

namespace CollectionInterfaces

/-! ## Lines -/

theorem lines_append (ss ts : List Text) : lines (ss ++ ts) = lines ss ++ lines ts :=
  List.flatMap_append

/-- Lines without line feeds inside are read back from what was printed. -/
theorem splitAll_lines {ts : List Text} (h : ∀ t ∈ ts, CodePoint.lineFeed ∉ t) :
    Text.splitAll .lineFeed (lines ts) = ts ++ [[]] := by
  induction ts with
  | nil => rfl
  | cons t ts ih =>
    simp only [List.forall_mem_cons] at h
    have hlines : lines (t :: ts) = t ++ .lineFeed :: lines ts := by simp [lines, line]
    rw [hlines, Text.splitAll_append h.1, ih h.2]
    rfl

namespace GenerateCommand

variable {d : Disk} {cwd : Location} {arguments : List Text} {config : Config} {schema : Schema}
  {verbose : Bool}

/-! ## Stopping before there is a schema -/

section

variable [i : Interpreter]

/-- The command obtains a schema. -/
structure Obtains (d : Disk) (cwd : Location) (arguments : List Text) (config : Config)
    (schema : Schema) : Prop where
  configures : Configures d cwd arguments config
  load : Schema.load d cwd config.inputPath = .ok schema

/-- The reasons for the command to stop before it has a schema. -/
inductive Stops (d : Disk) (cwd : Location) (arguments : List Text) : Prop
  /-- Some argument asks for help. -/
  | help (h : arguments.any asksForHelp = true)
  /-- The command line is wrong. -/
  | usage {fault : UsageFault} (h : (commandLine arguments).fault = some fault)
  /-- No input is given, or an empty one. -/
  | noInput (h : requiredText? ((commandLine arguments).last? inputOption) = none)
  /-- No output is given, or an empty one. -/
  | noOutput (h : requiredText? ((commandLine arguments).last? outputOption) = none)
  /-- A path cannot be resolved, or the variant is left empty. -/
  | unconfigured {input output : Text} {fault : ConfigFault}
      (hinput : requiredText? ((commandLine arguments).last? inputOption) = some input)
      (houtput : requiredText? ((commandLine arguments).last? outputOption) = some output)
      (h : configOf d cwd (commandLine arguments) input output = .error fault)
  /-- The schema cannot be loaded. -/
  | unloaded {config : Config} {fault : LoadFault} (hconfig : Configures d cwd arguments config)
      (h : Schema.load d cwd config.inputPath = .error fault)

theorem Obtains.not_stops (h : Obtains d cwd arguments config schema) :
    ¬Stops d cwd arguments := by
  obtain ⟨hconfig, hload⟩ := h
  intro hstops
  cases hstops with
  | help h => exact absurd (hconfig.noHelp.symm.trans h) (by decide)
  | usage h => exact absurd (hconfig.noFault.symm.trans h) (by simp)
  | noInput h => exact absurd (hconfig.input.symm.trans h) (by simp)
  | noOutput h => exact absurd (hconfig.output.symm.trans h) (by simp)
  | unconfigured hinput houtput h =>
    have hsame := hconfig.config
    rw [← Option.some.inj (hinput.symm.trans hconfig.input),
      ← Option.some.inj (houtput.symm.trans hconfig.output), h] at hsame
    cases hsame
  | unloaded hother h =>
    rw [hconfig.unique hother, h] at hload
    cases hload

theorem stops_or_obtains (d : Disk) (cwd : Location) (arguments : List Text) :
    Stops d cwd arguments ∨ ∃ config schema, Obtains d cwd arguments config schema := by
  cases hhelp : arguments.any asksForHelp with
  | true => exact .inl (.help hhelp)
  | false =>
  cases hfault : (commandLine arguments).fault with
  | some fault => exact .inl (.usage hfault)
  | none =>
  cases hinput : requiredText? ((commandLine arguments).last? inputOption) with
  | none => exact .inl (.noInput hinput)
  | some input =>
  cases houtput : requiredText? ((commandLine arguments).last? outputOption) with
  | none => exact .inl (.noOutput houtput)
  | some output =>
  cases hconfig : configOf d cwd (commandLine arguments) input output with
  | error fault => exact .inl (.unconfigured hinput houtput hconfig)
  | ok config =>
    obtain ⟨rfl, rfl⟩ := args_of_configOf hconfig
    have hconfigures : Configures d cwd arguments config :=
      ⟨hhelp, hfault, hinput, houtput, hconfig⟩
    cases hload : Schema.load d cwd config.inputPath with
    | error fault => exact .inl (.unloaded hconfigures hload)
    | ok schema => exact .inr ⟨config, schema, hconfigures, hload⟩

/-- The command stops for one of the reasons, or it obtains a schema. -/
theorem stops_iff : Stops d cwd arguments ↔
    ∀ config schema, ¬Obtains d cwd arguments config schema := by
  constructor
  · intro hstops config schema hobtains
    exact hobtains.not_stops hstops
  · intro hnone
    rcases stops_or_obtains d cwd arguments with hstops | ⟨config, schema, hobtains⟩
    · exact hstops
    · exact absurd hobtains (hnone config schema)

end

/-! ## What is printed -/

/-- What stands in front of the path of a file that was written. -/
def writtenLabel : Text := "Generated: "

/-- The line for a file that was written. -/
def writtenLine (p : Path) : Text := writtenLabel ++ p.toText

/-- The lines that tell of the two paths of a configuration. -/
def pathLines (config : Config) : List Text :=
  [ "Using input file: " ++ config.inputPath.toText,
    "Using output dir: " ++ config.outputDir.toText ]

/-- A line that tells of no file that was written. -/
def IsOther (t : Text) : Prop := Text.after? writtenLabel t = none

theorem isOther_ofList {l : List Char}
    (h : ¬['G', 'e', 'n', 'e', 'r', 'a', 't', 'e', 'd', ':', ' '] <+: l) :
    IsOther (Text.ofString (String.ofList l)) := by
  have hmap : Text.ofString (String.ofList l) = l.map CodePoint.ofChar := by
    rw [Text.ofString, String.toList_ofList]
  rw [IsOther, hmap]
  cases hafter : Text.after? writtenLabel (l.map CodePoint.ofChar) with
  | none => rfl
  | some rest =>
    obtain ⟨label, path, rfl, hlabel, -⟩ :=
      List.map_eq_append_iff.mp (Text.after?_eq_some_iff.mp hafter)
    refine absurd ⟨path, congrArg (· ++ path) ?_⟩ h
    exact (List.map_inj_right fun _ _ => CodePoint.ofChar_injective).mp (Eq.symm hlabel)

-- evaluated on the characters, for the literals are long
theorem isOther_helpLines : ∀ t ∈ helpLines, IsOther t := by
  simp only [helpLines, List.forall_mem_cons]
  repeat' apply And.intro
  iterate 17 exact isOther_ofList (by decide)
  · rfl
  · nofun

theorem isOther_pathLines : ∀ t ∈ pathLines config, IsOther t := by
  simp only [pathLines, List.forall_mem_cons]
  exact ⟨rfl, rfl, by simp⟩

theorem after?_writtenLine (p : Path) : Text.after? writtenLabel (writtenLine p) = some p.toText :=
  Text.after?_eq_some_iff.mpr rfl

/-- From lines that were printed, if there are no line feeds inside of them, one can tell which
files were written. -/
theorem written_of_splitAll {shown : List Text} {written : List Path}
    (hother : ∀ t ∈ shown, IsOther t) (hshown : ∀ t ∈ shown, CodePoint.lineFeed ∉ t)
    (hwritten : ∀ p ∈ written, CodePoint.lineFeed ∉ p.toText) :
    (Text.splitAll .lineFeed (lines (shown ++ written.map writtenLine))).filterMap
      (Text.after? writtenLabel) = written.map Path.toText := by
  have hlines : ∀ t ∈ shown ++ written.map writtenLine, CodePoint.lineFeed ∉ t := by
    intro t ht
    rcases List.mem_append.mp ht with ht | ht
    · exact hshown t ht
    · obtain ⟨p, hp, rfl⟩ := List.mem_map.mp ht
      rw [writtenLine, List.mem_append, not_or]
      exact ⟨by decide, hwritten p hp⟩
  have hnone : shown.filterMap (Text.after? writtenLabel) = [] :=
    List.filterMap_eq_nil_iff.mpr hother
  have hsome : (written.map writtenLine).filterMap (Text.after? writtenLabel) =
      written.map Path.toText := by
    rw [List.filterMap_map, ← List.filterMap_eq_map]
    exact congrFun (congrArg _ (funext after?_writtenLine)) written
  rw [splitAll_lines hlines, List.filterMap_append, List.filterMap_append, hnone, hsome]
  simp [writtenLabel, Text.ofString, Text.after?]

/-! ## The law of the command -/

variable [i : Interpreter]

/-- What is true of the transcript of a command that has printed that files were written. -/
structure CourseLaw (d : Disk) (cwd : Location) (arguments : List Text) (t : Transcript Failure)
    (written : List Path) : Prop where
  /-- A command that stops before it has a schema leaves the disk alone. -/
  untouched : (∀ config schema, ¬Obtains d cwd arguments config schema) →
    Stops d cwd arguments ∧ t.disk = d
  /-- The lines about files that were written come last. One can tell them from the others if there
  are no line feeds inside of lines. -/
  printed : ∃ shown, t.output = lines (shown ++ written.map writtenLine) ∧
    (∀ s ∈ shown, IsOther s) ∧
    ((∀ s ∈ shown, CodePoint.lineFeed ∉ s) → (∀ p ∈ written, CodePoint.lineFeed ∉ p.toText) →
      (Text.splitAll .lineFeed t.output).filterMap (Text.after? writtenLabel) =
        written.map Path.toText)
  /-- Without a schema no file is written. -/
  silent : (∀ config schema, ¬Obtains d cwd arguments config schema) → written = []
  /-- The files that were written are those of the first collections, in order. -/
  inOrder : ∀ config schema, Obtains d cwd arguments config schema →
    written <+: schema.collections.map (interfacePath config)
  /-- The status is zero exactly if help was given or the files of all collections were written. -/
  succeeds : t.ending = .ok 0 ↔ arguments.any asksForHelp = true ∨
    ∃ config schema, Obtains d cwd arguments config schema ∧
      written = schema.collections.map (interfacePath config)
  status : ∀ n, t.ending = .ok n → n ≤ 1

/-- A command that stops prints other lines only, and succeeds only with help. -/
theorem run_of_stops (h : Stops d cwd arguments) :
    (run d cwd arguments).disk = d ∧
      (∃ shown, (run d cwd arguments).output = lines shown ∧ ∀ s ∈ shown, IsOther s) ∧
      ((run d cwd arguments).ending = .ok 0 ↔ arguments.any asksForHelp = true) ∧
      ∀ n, (run d cwd arguments).ending = .ok n → n ≤ 1 := by
  have hnone : ∃ shown, ([] : Text) = lines shown ∧ ∀ s ∈ shown, IsOther s := ⟨[], rfl, by simp⟩
  cases hhelp : arguments.any asksForHelp with
  | true =>
    rw [run_of_help hhelp]
    exact ⟨rfl, ⟨helpLines, rfl, isOther_helpLines⟩, by simp, by simp +contextual⟩
  | false =>
    have hone : ((.ok 1 : Except Failure Nat) = .ok 0) ↔ False := by simp
    have hone' : ∀ n, (.ok 1 : Except Failure Nat) = .ok n → n ≤ 1 := by simp +contextual
    unfold run
    rw [hhelp]
    simp only [Bool.false_eq_true, if_false]
    split
    · exact ⟨rfl, hnone, hone, hone'⟩
    · rename_i hfault
      split
      · rename_i input output hinput houtput
        split
        · exact ⟨rfl, hnone, by simp, by simp⟩
        · rename_i config hconfig
          obtain ⟨rfl, rfl⟩ := args_of_configOf hconfig
          have hconfigures : Configures d cwd arguments config :=
            ⟨hhelp, hfault, hinput, houtput, hconfig⟩
          have hpaths : ∃ shown, lines (pathLines config) = lines shown ∧
              ∀ s ∈ shown, IsOther s := ⟨_, rfl, isOther_pathLines⟩
          unfold runWith
          dsimp only
          split
          · split
            · exact ⟨rfl, hpaths, hone, hone'⟩
            · exact ⟨rfl, hpaths, by simp, by simp⟩
          · rename_i schema hload
            exact absurd h (Obtains.mk hconfigures hload).not_stops
      · exact ⟨rfl, hnone, hone, hone'⟩

/-- A command that obtains a schema prints a line for every file that it writes. -/
theorem run_of_obtains (h : Obtains d cwd arguments config schema) :
    (run d cwd arguments).output =
        lines (pathLines config ++
          (generate config cwd d schema.collections).written.map writtenLine) ∧
      ((run d cwd arguments).ending = .ok 0 ↔
        (generate config cwd d schema.collections).fault = none) ∧
      ∀ n, (run d cwd arguments).ending = .ok n → n ≤ 1 := by
  rw [run_of_configures h.configures, lines_append]
  unfold runWith
  dsimp only
  rw [h.load]
  dsimp only
  split
  · rename_i hfault
    exact ⟨rfl, by simp [hfault], by simp +contextual⟩
  · rename_i fault hfault
    split
    · exact ⟨rfl, by simp [hfault], by simp +contextual⟩
    · exact ⟨rfl, by simp [hfault], by simp⟩

/-- The files that a run has written are those of the first collections. -/
theorem written_initial (config : Config) (cwd : Location) (d : Disk) (cs : List Collection) :
    (generate config cwd d cs).written <+: cs.map (interfacePath config) := by
  rw [generate_written]
  exact (List.take_prefix _ cs).map (interfacePath config)

theorem written_eq_map_iff {cs : List Collection} :
    (generate config cwd d cs).written = cs.map (interfacePath config) ↔
      (generate config cwd d cs).fault = none := by
  constructor
  · intro h
    rw [generate_fault_eq_none_iff, h, List.length_map]
  · exact generate_written_of_fault_eq_none

theorem Obtains.unique {config' : Config} {schema' : Schema}
    (h : Obtains d cwd arguments config schema) (h' : Obtains d cwd arguments config' schema') :
    config = config' ∧ schema = schema' := by
  obtain rfl := h.configures.unique h'.configures
  exact ⟨rfl, Except.ok.inj (h.load.symm.trans h'.load)⟩

/-- **The course of the command.** For every command line, working directory and disk: without a
schema the disk stays as it is; the lines about files name the files of the first collections, in
order; and the status, which is never above one, is zero exactly if help was given or all files of
a schema were written. -/
theorem run_courseLaw (d : Disk) (cwd : Location) (arguments : List Text) :
    ∃ written, CourseLaw d cwd arguments (run d cwd arguments) written := by
  by_cases hobtains : ∃ config schema, Obtains d cwd arguments config schema
  · obtain ⟨config, schema, h⟩ := hobtains
    obtain ⟨houtput, hending, hstatus⟩ := run_of_obtains h
    have hhelp := h.configures.noHelp
    refine ⟨(generate config cwd d schema.collections).written,
      fun hnone => absurd h (hnone config schema),
      ⟨pathLines config, houtput, isOther_pathLines, ?_⟩,
      fun hnone => absurd h (hnone config schema), ?_, ?_, hstatus⟩
    · intro hshown hwritten
      rw [houtput, written_of_splitAll isOther_pathLines hshown hwritten]
    · intro config' schema' h'
      obtain ⟨rfl, rfl⟩ := h.unique h'
      exact written_initial config cwd d schema.collections
    · rw [hending, ← written_eq_map_iff, hhelp]
      constructor
      · exact fun hall => .inr ⟨config, schema, h, hall⟩
      · rintro (hhelp | ⟨config', schema', h', hall⟩)
        · cases hhelp
        · obtain ⟨rfl, rfl⟩ := h.unique h'
          exact hall
  · simp only [not_exists] at hobtains
    have hstops := stops_iff.mpr hobtains
    obtain ⟨hdisk, ⟨shown, houtput, hother⟩, hending, hstatus⟩ := run_of_stops hstops
    have houtput' : (run d cwd arguments).output = lines (shown ++ [].map writtenLine) := by
      rw [houtput, List.map_nil, List.append_nil]
    refine ⟨[], fun _ => ⟨hstops, hdisk⟩, ⟨shown, houtput', hother, ?_⟩, fun _ => rfl,
      fun config schema h => absurd h (hobtains config schema), ?_, hstatus⟩
    · intro hshown hwritten
      rw [houtput', written_of_splitAll hother hshown hwritten]
    · rw [hending]
      constructor
      · exact .inl
      · rintro (hhelp | ⟨config, schema, h, -⟩)
        · exact hhelp
        · exact absurd h (hobtains config schema)

end GenerateCommand

end CollectionInterfaces
