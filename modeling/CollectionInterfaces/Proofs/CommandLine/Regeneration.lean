import CollectionInterfaces.Proofs.CommandLine.Options
import CollectionInterfaces.Proofs.CommandLine.Rerun

/-!
# Running what the header of a file says

The header of every file names two arguments for the command. On the disk that a run left they ask
for the same input and output, but for the default variant (`GenerateCommand.Configures.hint`).
Running them therefore succeeds, and it leaves the files as they are if their variant is the default
one (`GenerateCommand.run_regenerationLaw`). Plain files it does not leave as they are
(`GenerateCommand.regeneration_fails_plain`).
-/

namespace CollectionInterfaces.GenerateCommand

open CommandLine Disk

variable {d e : Disk} {cwd : Location} {arguments : List Text} {config : Config} {c : Collection}
  {cs : List Collection} {schema : Schema}

/-! ## The arguments in the header -/

/-- What the arguments in the header of a file assign. -/
def hintAssignments (config : Config) : List Assignment :=
  [⟨inputOption, "--input", config.inputArg⟩, ⟨outputOption, "--output", config.outputArg⟩]

/-- The arguments in the header of a file. -/
def hintArguments (config : Config) : List Text := (hintAssignments config).map Assignment.argument

/-- The last line of the header of a file. -/
def hintLine (config : Config) : Text :=
  "// To regenerate, run: generate-appwrite-interfaces " ++ Text.join " " (hintArguments config)

/-- The configuration that the arguments in the header ask for. -/
def hintConfig (config : Config) : Config :=
  { config with variant := .document, extraOptions := [] }

theorem hintConfig_agrees : (hintConfig config).Agrees config := ⟨rfl, rfl, rfl, rfl, rfl⟩

theorem hint_toInterface : (c.toInterface config).hint = Text.join " " (hintArguments config) := by
  have hinput : (hintAssignments config).map Assignment.argument =
      ["--input=" ++ config.inputArg, "--output=" ++ config.outputArg] := by rfl
  have houtput : (" --output=" : Text) = " " ++ ("--output=" : Text) := by rfl
  rw [hintArguments, hinput, Text.join_cons (by simp), Collection.toInterface, houtput]
  simp only [List.append_assoc, Text.join]

/-- The arguments stand on a line of every file. -/
theorem hintLine_infix_renderInterface (config : Config) (c : Collection) :
    [.lineFeed] ++ hintLine config ++ [.lineFeed] <:+: renderInterface config c := by
  have hheader : Interface.headerLines (c.toInterface config).hint =
      (Interface.headerLines []).take 2 ++ [hintLine config] := by
    rw [hint_toInterface]
    rfl
  obtain ⟨after, hafter, hlines⟩ : ∃ after, after ≠ [] ∧ (c.toInterface config).lines =
      (Interface.headerLines []).take 2 ++ hintLine config :: after := by
    rw [Interface.lines, hheader]
    simp only [List.append_assoc, List.singleton_append]
    exact ⟨_, by simp, rfl⟩
  rw [renderInterface, Interface.render, hlines]
  exact Text.infix_join_of_middle (by simp [Interface.headerLines]) hafter

theorem equals_not_mem_spellings :
    ∀ o ∈ options, ∀ spelling ∈ o.spellings, equals ∉ spelling := by
  decide

theorem asksForHelp_hintArguments : (hintArguments config).any asksForHelp = false := by
  rw [List.any_eq_false]
  intro argument hargument hhelp
  obtain ⟨a, -, rfl⟩ := List.mem_map.mp hargument
  have hspelling : a.argument ∈ helpOption.spellings := List.contains_iff_mem.mp hhelp
  exact equals_not_mem_spellings helpOption (by simp [options]) _ hspelling a.equals_mem_argument

theorem commandLine_hintArguments (hinput : config.inputArg ≠ endOfOptions)
    (houtput : config.outputArg ≠ endOfOptions) :
    commandLine (hintArguments config) =
      ⟨(hintAssignments config).map Assignment.use, [], none⟩ := by
  apply ofArguments_assignments equals_not_mem_spellings
  simp only [hintAssignments, List.forall_mem_cons]
  exact ⟨⟨by rfl, by rfl, rfl, hinput⟩, ⟨by rfl, by rfl, rfl, houtput⟩, by simp⟩

theorem requiredText?_eq_some_iff {given : Option GivenValue} {t : Text} :
    requiredText? given = some t ↔ given = some (.value t) ∧ t ≠ [] := by
  unfold requiredText?
  split
  · rename_i value
    by_cases hvalue : value = []
    · simp only [hvalue, List.isEmpty_nil, if_true]
      constructor
      · exact nofun
      · rintro ⟨h, hne⟩
        cases h
        exact absurd rfl hne
    · simp only [List.isEmpty_iff, hvalue, if_false, Option.some.injEq, GivenValue.value.injEq]
      constructor
      · rintro rfl
        exact ⟨rfl, hvalue⟩
      · exact And.left
  · rename_i hother
    constructor
    · exact nofun
    · rintro ⟨rfl, -⟩
      exact absurd rfl (hother t)

theorem Configures.hint (h : Configures d cwd arguments config) :
    Configures d cwd (hintArguments config) (hintConfig config) := by
  obtain ⟨hinput, hinputText⟩ := requiredText?_eq_some_iff.mp h.input
  obtain ⟨houtput, houtputText⟩ := requiredText?_eq_some_iff.mp h.output
  have hline := commandLine_hintArguments (ne_endOfOptions_of_last? hinput)
    (ne_endOfOptions_of_last? houtput)
  refine ⟨asksForHelp_hintArguments, by rw [hline], ?_, ?_, ?_⟩
  · rw [hline, requiredText?_eq_some_iff]
    exact ⟨rfl, hinputText⟩
  · rw [hline, requiredText?_eq_some_iff]
    exact ⟨rfl, houtputText⟩
  · obtain ⟨a, hinputArg, houtputArg, hbase, hext, hfallback, ha⟩ := exists_ofArguments h.config
    obtain ⟨inputPath, outputDir, variant, hinputPath, houtputDir, -, rfl⟩ :=
      Config.ofArguments_eq_ok_iff.mp ha
    rw [hline]
    apply Config.ofArguments_eq_ok_iff.mpr
    refine ⟨inputPath, outputDir, .document, ?_, ?_, by rfl, ?_⟩
    · rwa [hbase] at hinputPath
    · rwa [hbase] at houtputDir
    · simp only [hintConfig, hext, hfallback]
      rfl

/-! ## Running them -/

/-- What comes of the arguments in the header of the files of a run, on the disk that it left, in a
process that goes through sets in some order. -/
structure RegenerationLaw [i : Interpreter] (d : Disk) (cwd : Location) (arguments : List Text)
    (config : Config) (schema : Schema) (order : List Scalar → List Scalar)
    (h : ∀ members, (order members).Perm members) : Prop where
  succeeds : (@run (i.reordered order h) (run d cwd arguments).disk cwd
    (hintArguments config)).ending = .ok 0
  /-- Every file holds a text with the arguments in it. -/
  hinted : ∀ c ∈ schema.collections, ∃ code : Text,
    [.lineFeed] ++ hintLine config ++ [.lineFeed] <:+: code ∧
    (run d cwd arguments).disk.readBytes cwd (interfacePath config c) =
      .ok (code.flatMap CodePoint.utf8)
  /-- Each file is made again, not plain, from what is read in that order. -/
  remade : ∃ schema', @Schema.load (i.reordered order h) (run d cwd arguments).disk cwd
      config.inputPath = .ok schema' ∧
    Schema.SameButOrder i order config.inputPath schema schema' ∧
    IsRemade config (hintConfig config) cwd schema.collections schema'.collections
      (run d cwd arguments).disk
      (@run (i.reordered order h) (run d cwd arguments).disk cwd (hintArguments config)).disk
  /-- Unless the input is YAML and the order is another one, a file stays as it is exactly if it was
  not made plain. -/
  kept : order = i.setOrder ∨ config.inputPath.isYaml = false → ∀ c ∈ schema.collections,
    ((@run (i.reordered order h) (run d cwd arguments).disk cwd
        (hintArguments config)).disk.readBytes cwd (interfacePath config c) =
      (run d cwd arguments).disk.readBytes cwd (interfacePath config c) ↔
    config.variant = .document)

theorem regenerationLaw_of_generate [i : Interpreter] {order : List Scalar → List Scalar}
    (h : ∀ members, (order members).Perm members) (hd : d.Linkless)
    (hconfig : Configures d cwd arguments config)
    (hload : Schema.load d cwd config.inputPath = .ok schema)
    (hspared : ∀ c ∈ schema.collections, fileLocation config cwd c ≠ config.inputPath.location cwd)
    (hfault : (generate config cwd d schema.collections).fault = none) :
    RegenerationLaw d cwd arguments config schema order h := by
  have hran := (run_of_configures hconfig).trans (runWith_of_load hload hfault)
  obtain ⟨schema', hload', hsame, e', -, hrun', hremade⟩ := exists_run_reordered h hd hload
    hspared hfault hintConfig_agrees rfl hconfig.hint
  constructor
  all_goals simp only [hran, hrun']
  · intro c hc
    obtain ⟨last, _, -, -, -, hread, -⟩ := hremade.files c hc
    exact ⟨renderInterface config last, hintLine_infix_renderInterface config last, hread⟩
  · exact ⟨schema', hload', hsame, hremade⟩
  · intro hcases c hc
    have hschema : schema' = schema := hcases.elim hsame.ordered hsame.json
    subst hschema
    obtain ⟨last, last', hlast, hlast', -, hread, hread', hkept⟩ := hremade.files c hc
    have hlasts : last' = last := by
      rw [lastAt?_congr hintConfig_agrees, hlast] at hlast'
      exact (Option.some.inj hlast').symm
    rw [hread, hread', Except.ok.injEq, hkept, and_iff_left hlasts]
    exact eq_comm

/-- The arguments for interfaces in the directory `/out` that are not plain. -/
def documentArguments : List Text := hintArguments outConfig

theorem configures_documentArguments :
    Configures documentDisk [] documentArguments (hintConfig outConfig) :=
  configures_plainArguments.hint

theorem sparesInput_documentArguments :
    SparesInput (i := .usual) documentDisk [] documentArguments := by
  intro config schema hconfig hload
  obtain rfl := configures_documentArguments.unique hconfig
  have hinput : (hintConfig outConfig).inputPath = outConfig.inputPath := rfl
  rw [hinput, load_documentDisk] at hload
  obtain rfl := Except.ok.inj hload
  decide +kernel

theorem run_documentArguments :
    (run (i := .usual) documentDisk [] documentArguments).ending = .ok 0 := by
  rw [run_of_configures (i := .usual) configures_documentArguments,
    runWith_ending_eq_ok_iff (i := .usual)]
  exact ⟨_, load_documentDisk, by decide +kernel⟩

end CollectionInterfaces.GenerateCommand
