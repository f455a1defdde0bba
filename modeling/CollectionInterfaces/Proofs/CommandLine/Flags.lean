import CollectionInterfaces.Proofs.CommandLine.Regeneration

/-!
# Command lines of flags

A flag of the command is an option with its value in one argument, or an argument that only looks
like one. A command line of flags is read flag by flag (`commandLine_arguments`), and what a run
does depends on the last input, the last output and the last variant alone (`run_flagLaw`). The log
is the exception: it goes to standard error, and `--verbose` asks for it.
-/

namespace CollectionInterfaces

/-- Two transcripts are the same but for what was written to standard error. -/
structure Transcript.SameOutcome {ε : Type} (t t' : Transcript ε) : Prop where
  output : t.output = t'.output
  disk : t.disk = t'.disk
  ending : t.ending = t'.ending

theorem Transcript.SameOutcome.refl {ε : Type} (t : Transcript ε) : t.SameOutcome t :=
  ⟨rfl, rfl, rfl⟩

namespace GenerateCommand

open CommandLine

/-! ## Flags -/

/-- An argument that starts with two hyphens, and that is no option: what stands in front of its
first equals sign is no spelling of one. -/
structure IsUnknown (argument : Text) : Prop where
  marked : endOfOptions <+: argument
  ne : argument ≠ endOfOptions
  foreign : ∀ o ∈ options, (Text.cut equals argument).1 ∉ o.spellings

/-- A flag of the command. -/
inductive Flag
  | input (path : Text)
  | output (path : Text)
  | variant (v : Variant)
  | verbose
  | unknown (argument : Text) (h : IsUnknown argument)

namespace Flag

/-- The argument that a flag is written as. -/
def argument : Flag → Text
  | .input path => "--input=" ++ path
  | .output path => "--output=" ++ path
  | .variant v => "--variant=" ++ v.name
  | .verbose => "--verbose"
  | .unknown argument _ => argument

def option? : Flag → Option CommandOption
  | .input _ => some inputOption
  | .output _ => some outputOption
  | .variant _ => some variantOption
  | .verbose => some verboseOption
  | .unknown _ _ => none

/-- What a path is as the value of an option. -/
def givenPath (path : Text) : GivenValue := if path = endOfOptions then .nothing else .value path

/-- The use of an option that a flag is. -/
def use? : Flag → Option Use
  | .input path => some ⟨inputOption, givenPath path⟩
  | .output path => some ⟨outputOption, givenPath path⟩
  | .variant v => some ⟨variantOption, .value v.name⟩
  | .verbose => some ⟨verboseOption, .present⟩
  | .unknown _ _ => none

/-- The argument that is left over if the flag is no option. -/
def leftOver? : Flag → Option Text
  | .unknown argument _ => some argument
  | _ => none

/-- What the argument of a flag is, taken by itself. -/
def kind : Flag → Kind
  | .input path => .option inputOption "--input" (some path)
  | .output path => .option outputOption "--output" (some path)
  | .variant v => .option variantOption "--variant" (some v.name)
  | .verbose => .option verboseOption "--verbose" none
  | .unknown argument _ => classifyOther argument

end Flag

variable {flag : Flag} {flags : List Flag} {argument : Text} {o : CommandOption}

/-- The arguments that flags are written as. -/
def arguments (flags : List Flag) : List Text := flags.map Flag.argument

/-! ## Reading flags -/

theorem optionOf?_of_isUnknown (h : IsUnknown argument) : optionOf? options argument = none := by
  cases hfind : optionOf? options argument with
  | none => rfl
  | some o =>
    obtain ⟨ho, hspelling⟩ := optionOf?_eq_some hfind
    have hcut := Text.cut_of_not_mem (equals_not_mem_spellings o ho argument hspelling)
    have hforeign := h.foreign o ho
    rw [hcut] at hforeign
    exact absurd hspelling hforeign

theorem optionOf?_cut_of_isUnknown (h : IsUnknown argument) :
    optionOf? options (Text.cut equals argument).1 = none := by
  cases hfind : optionOf? options (Text.cut equals argument).1 with
  | none => rfl
  | some o =>
    obtain ⟨ho, hspelling⟩ := optionOf?_eq_some hfind
    exact absurd hspelling (h.foreign o ho)

theorem classify_of_isUnknown (h : IsUnknown argument) :
    classify options false argument = .ok (classifyOther argument) := by
  obtain ⟨rest, hrest⟩ := h.marked
  have hglued : gluedOption? options argument = none := by
    rw [← hrest]
    rfl
  have hguard : ¬(argument.length < 2 ∨ argument.head? ≠ some hyphen) := by
    rw [← hrest]
    simp [endOfOptions, hyphen, Text.ofString]
  have hrest' : classify.classifyRest options false argument = .ok (classifyOther argument) := by
    rw [classify.classifyRest, hglued]
    rfl
  have hcut := optionOf?_cut_of_isUnknown h
  unfold classify
  rw [if_neg hguard, optionOf?_of_isUnknown h]
  dsimp only
  split
  · rename_i spelling value heq
    rw [show (Text.cut equals argument).1 = spelling from congrArg Prod.fst heq] at hcut
    rw [hcut]
    exact hrest'
  · exact hrest'

theorem classify_flag (flag : Flag) : classify options false flag.argument = .ok flag.kind := by
  have hassigned (a : Assignment) (hknown : optionOf? options a.spelling = some a.option)
      (hmarked : a.spelling.head? = some hyphen) : classify options false a.argument = .ok a.kind :=
    classify_assignment equals_not_mem_spellings hknown hmarked
  cases flag with
  | input path => exact hassigned ⟨inputOption, "--input", path⟩ (by rfl) (by rfl)
  | output path => exact hassigned ⟨outputOption, "--output", path⟩ (by rfl) (by rfl)
  | variant v => exact hassigned ⟨variantOption, "--variant", v.name⟩ (by rfl) (by rfl)
  | verbose => rfl
  | unknown argument h => exact classify_of_isUnknown h

theorem argument_ne_endOfOptions (flag : Flag) : flag.argument ≠ endOfOptions := by
  cases flag with
  | unknown argument h => exact h.ne
  | _ => simp [Flag.argument, endOfOptions, Text.ofString]

theorem classifyAll_arguments (flags : List Flag) :
    classifyAll options false (arguments flags) =
      .ok (flags.map fun flag => (flag.argument, some flag.kind)) := by
  induction flags with
  | nil => rfl
  | cons flag flags ih =>
    rw [arguments, List.map_cons, classifyAll, if_neg (argument_ne_endOfOptions flag),
      classify_flag, ← arguments, ih]
    rfl

theorem useOf_of_value (value : Text) (h : o.arity = .value) :
    useOf o value = .ok ⟨o, Flag.givenPath value⟩ := by
  unfold useOf Flag.givenPath
  split
  · rfl
  · rw [h]

/-- A flag adds its use or itself to what is read from the arguments after it. -/
theorem ofClassified_flag (flag : Flag) (rest : List (Text × Option Kind)) :
    ofClassified options ((flag.argument, some flag.kind) :: rest) =
      ⟨flag.use?.toList ++ (ofClassified options rest).uses,
        flag.leftOver?.toList ++ (ofClassified options rest).leftOver,
        (ofClassified options rest).fault⟩ := by
  cases flag with
  | input path =>
    rw [Flag.kind, ofClassified, usesWithValue, useOf_of_value path rfl]
    rfl
  | output path =>
    rw [Flag.kind, ofClassified, usesWithValue, useOf_of_value path rfl]
    rfl
  | variant v => cases v <;> rfl
  | verbose => rfl
  | unknown argument h =>
    simp only [Flag.kind, classifyOther]
    split <;> rfl

/-- A command line of flags is read flag by flag. -/
theorem commandLine_arguments (flags : List Flag) : commandLine (arguments flags) =
    ⟨flags.filterMap Flag.use?, flags.filterMap Flag.leftOver?, none⟩ := by
  rw [commandLine, ofArguments, classifyAll_arguments]
  dsimp only
  induction flags with
  | nil => rfl
  | cons flag flags ih =>
    rw [List.map_cons, ofClassified_flag, ih]
    cases flag <;> rfl

theorem asksForHelp_arguments (flags : List Flag) : (arguments flags).any asksForHelp = false := by
  rw [arguments, List.any_map, List.any_eq_false]
  intro flag _ hhelp
  have hspelling : flag.argument ∈ helpOption.spellings := List.contains_iff_mem.mp hhelp
  cases flag with
  | unknown argument h =>
    have hcut := Text.cut_of_not_mem
      (equals_not_mem_spellings helpOption (by simp [options]) argument hspelling)
    have hforeign := h.foreign helpOption (by simp [options])
    rw [hcut] at hforeign
    exact hforeign hspelling
  | _ => simp [Flag.argument, helpOption, Text.ofString] at hspelling

/-! ## The flags that count -/

/-- The last flag that uses an option. -/
def lastFor? (o : CommandOption) (flags : List Flag) : Option Flag :=
  flags.reverse.find? (·.option? = some o)

/-- The last flag for every one of some options. -/
def lastFlags (os : List CommandOption) (flags : List Flag) : List Flag :=
  os.flatMap fun o => (lastFor? o flags).toList

/-- The flag for the variant, which is the default one if there is none. -/
def variantFlag (flags : List Flag) : Flag :=
  (lastFor? variantOption flags).getD (.variant .document)

theorem lastFor?_append (o : CommandOption) (flags more : List Flag) :
    lastFor? o (flags ++ more) = (lastFor? o more).or (lastFor? o flags) := by
  rw [lastFor?, List.reverse_append, List.find?_append, ← lastFor?, ← lastFor?]

theorem lastFor?_toList (o p : CommandOption) (flags : List Flag) :
    lastFor? o (lastFor? p flags).toList = if o = p then lastFor? o flags else none := by
  cases hlast : lastFor? p flags with
  | none =>
    split
    · rename_i heq
      rw [heq, hlast]
      rfl
    · rfl
  | some flag =>
    have hoption : flag.option? = some p := by simpa using List.find?_some hlast
    split
    · rename_i heq
      rw [heq, hlast]
      simp [lastFor?, hoption]
    · rename_i hne
      simp [lastFor?, hoption, Ne.symm hne]

theorem lastFor?_lastFlags {os : List CommandOption} (ho : o ∈ os) :
    lastFor? o (lastFlags os flags) = lastFor? o flags := by
  have h (os : List CommandOption) :
      lastFor? o (lastFlags os flags) = if o ∈ os then lastFor? o flags else none := by
    induction os with
    | nil => rfl
    | cons p os ih =>
      rw [lastFlags, List.flatMap_cons, lastFor?_append, ← lastFlags, ih, lastFor?_toList]
      grind
  rw [h, if_pos ho]

theorem lastFor?_variantFlag (o : CommandOption) (flags : List Flag) :
    lastFor? o [variantFlag flags] =
      if variantOption = o then some (variantFlag flags) else none := by
  have hoption : (variantFlag flags).option? = some variantOption := by
    unfold variantFlag
    cases hlast : lastFor? variantOption flags with
    | none => rfl
    | some flag => simpa using List.find?_some hlast
  split
  · rename_i heq
    simp [lastFor?, hoption, heq]
  · rename_i hne
    simp [lastFor?, hoption, hne]

/-- What an option is given is said by the last flag that uses it. -/
theorem last?_arguments (o : CommandOption) (flags : List Flag) :
    (commandLine (arguments flags)).last? o =
      (lastFor? o flags).bind fun flag => flag.use?.map (·.given) := by
  have huses (flag : Flag) : flag.use?.any (·.option = o) = decide (flag.option? = some o) := by
    cases flag <;> simp [Flag.use?, Flag.option?]
  rw [commandLine_arguments, last?, ← List.filterMap_reverse, List.find?_filterMap, lastFor?]
  simp only [huses, Option.map_bind]
  rfl

/-! ## Runs -/

section

variable [i : Interpreter] {config config' : Config} {cwd : Location}
  (hagrees : config'.Agrees config) (hvariant : config'.variant = config.variant)
include hagrees hvariant

theorem generate_congr (d : Disk) (cs : List Collection) :
    generate config' cwd d cs = generate config cwd d cs := by
  have hwrite (d : Disk) (c : Collection) (code : Text) :
      writeInterface config' cwd d c code = writeInterface config cwd d c code := by
    rw [writeInterface, writeInterface, interfacePath_congr hagrees]
  induction cs generalizing d with
  | nil => rfl
  | cons c cs ih =>
    simp only [generate, hwrite, renderInterface_congr hagrees hvariant,
      interfacePath_congr hagrees, ih]

/-- The options that are kept in a configuration, and whether there is a log, have no influence. -/
theorem runWith_sameOutcome (hinput : config'.inputPath = config.inputPath) (d : Disk)
    (verbose verbose' : Bool) :
    (runWith d cwd config' verbose').SameOutcome (runWith d cwd config verbose) := by
  unfold runWith
  rw [hinput, hagrees.outputDir]
  cases Schema.load d cwd config.inputPath with
  | error fault =>
    dsimp only
    split <;> exact .refl _
  | ok schema =>
    dsimp only
    rw [generate_congr hagrees hvariant]
    cases (generate config cwd d schema.collections).fault with
    | none => exact ⟨rfl, rfl, rfl⟩
    | some fault =>
      dsimp only
      split <;> exact ⟨rfl, rfl, rfl⟩

end

/-- A configuration that keeps other options. -/
def keeping (extra : ExtraOptions) (config : Config) : Config :=
  { config with extraOptions := extra }

theorem keeping_agrees {extra : ExtraOptions} {config : Config} :
    (keeping extra config).Agrees config :=
  ⟨rfl, rfl, rfl, rfl, rfl⟩

/-- What the option for the variant is given. -/
def givenVariant (c : CommandLine) : GivenValue :=
  (c.last? variantOption).getD (.value Variant.document.name)

/-- The configuration of its arguments with the variant that is given. -/
def configOfGiven (d : Disk) (cwd : Location) (a : ConfigArguments) :
    GivenValue → Except ConfigFault Config
  | .value variant => Config.ofArguments d cwd { a with variant }
  | _ => do
    let _ ← Config.ofArguments d cwd a
    .error (.unknownVariant emptyVariant)

theorem configOf_eq_configOfGiven (d : Disk) (cwd : Location) (c : CommandLine)
    (input output : Text) : configOf d cwd c input output =
      configOfGiven d cwd
        { input, output, base := base cwd, extraOptions := .ofArguments c.leftOver }
        (givenVariant c) := by
  unfold configOf givenVariant
  cases c.last? variantOption with
  | none => rfl
  | some given => cases given <;> rfl

theorem ofArguments_extraOptions (d : Disk) (cwd : Location) (a : ConfigArguments)
    (extra : ExtraOptions) : Config.ofArguments d cwd { a with extraOptions := extra } =
      (Config.ofArguments d cwd a).map (keeping extra) := by
  simp only [Config.ofArguments, bind, Except.bind]
  cases (d.resolve cwd (a.base.join (.ofText a.input))).mapError ConfigFault.unresolved with
  | error fault => rfl
  | ok inputPath =>
    cases (d.resolve cwd (a.base.join (.ofText a.output))).mapError ConfigFault.unresolved with
    | error fault => rfl
    | ok outputDir =>
      dsimp only
      split <;> rfl

theorem configOfGiven_extraOptions (d : Disk) (cwd : Location) (a : ConfigArguments)
    (extra : ExtraOptions) (given : GivenValue) :
    configOfGiven d cwd { a with extraOptions := extra } given =
      (configOfGiven d cwd a given).map (keeping extra) := by
  have hempty : (do
      let _ ← Config.ofArguments d cwd { a with extraOptions := extra }
      Except.error (.unknownVariant emptyVariant)) =
      (do
        let _ ← Config.ofArguments d cwd a
        Except.error (.unknownVariant emptyVariant)).map (keeping extra) := by
    rw [ofArguments_extraOptions]
    cases Config.ofArguments d cwd a <;> rfl
  cases given with
  | value variant => exact ofArguments_extraOptions d cwd { a with variant } extra
  | present => exact hempty
  | nothing => exact hempty

/-- Command lines ask for the same, up to the options that are kept and to the log. -/
structure AsksAlike (c' c : CommandLine) : Prop where
  input : c'.last? inputOption = c.last? inputOption
  output : c'.last? outputOption = c.last? outputOption
  variant : givenVariant c' = givenVariant c

theorem AsksAlike.configOf {c' c : CommandLine} (h : AsksAlike c' c) (d : Disk) (cwd : Location)
    (input output : Text) : configOf d cwd c' input output =
      (GenerateCommand.configOf d cwd c input output).map (keeping (.ofArguments c'.leftOver)) := by
  rw [configOf_eq_configOfGiven, configOf_eq_configOfGiven, h.variant,
    ← configOfGiven_extraOptions]

/-- A run of flags depends on what they ask for. -/
theorem run_sameOutcome [i : Interpreter] {flags flags' : List Flag}
    (h : AsksAlike (commandLine (arguments flags')) (commandLine (arguments flags))) (d : Disk)
    (cwd : Location) :
    (run d cwd (arguments flags')).SameOutcome (run d cwd (arguments flags)) := by
  have hfault (flags : List Flag) : (commandLine (arguments flags)).fault = none := by
    rw [commandLine_arguments]
  have hread (flags : List Flag) :
      CommandLine.ofArguments options false (arguments flags) = commandLine (arguments flags) := rfl
  simp only [run, asksForHelp_arguments, Bool.false_eq_true, if_false, hread, hfault, h.input,
    h.output, h.configOf]
  split
  · rename_i input output _ _
    cases configOf d cwd (commandLine (arguments flags)) input output with
    | error fault => exact .refl _
    | ok config =>
      dsimp only [Except.map]
      exact runWith_sameOutcome keeping_agrees rfl rfl d _ _
  · exact .refl _

/-! ## The law of flags -/

/-- What the arguments of a command say, by the last flags for the input, the output and the
variant. -/
theorem asksAlike_arguments {flags flags' : List Flag}
    (hinput : lastFor? inputOption flags' = lastFor? inputOption flags)
    (houtput : lastFor? outputOption flags' = lastFor? outputOption flags)
    (hvariant : variantFlag flags' = variantFlag flags) :
    AsksAlike (commandLine (arguments flags')) (commandLine (arguments flags)) := by
  have hgiven (flags : List Flag) : givenVariant (commandLine (arguments flags)) =
      (((variantFlag flags).use?.map (·.given)).getD (.value Variant.document.name)) := by
    rw [givenVariant, last?_arguments, variantFlag]
    cases lastFor? variantOption flags <;> rfl
  refine ⟨?_, ?_, ?_⟩
  · rw [last?_arguments, last?_arguments, hinput]
  · rw [last?_arguments, last?_arguments, houtput]
  · rw [hgiven, hgiven, hvariant]

/-- What the flags of a command mean. -/
structure FlagLaw [i : Interpreter] (d : Disk) (cwd : Location) (flags : List Flag) : Prop where
  /-- The last flags for the input, the output and the variant do the same alone. -/
  reduced : (run d cwd (arguments flags)).SameOutcome
    (run d cwd (arguments (lastFlags [inputOption, outputOption, variantOption] flags)))
  /-- So they do with the default variant if there is none. -/
  completed : (run d cwd (arguments flags)).SameOutcome
    (run d cwd (arguments (lastFlags [inputOption, outputOption] flags ++ [variantFlag flags])))
  /-- All other flags, and the order of these three, have no influence. -/
  determined : ∀ flags', lastFor? inputOption flags' = lastFor? inputOption flags →
    lastFor? outputOption flags' = lastFor? outputOption flags →
    variantFlag flags' = variantFlag flags →
    (run d cwd (arguments flags')).SameOutcome (run d cwd (arguments flags))

/-- **The law of flags.** What a command of flags prints to standard output, how it ends and which
disk it leaves is a matter of its last flags for the input, the output and the variant. -/
theorem run_flagLaw [i : Interpreter] (d : Disk) (cwd : Location) (flags : List Flag) :
    FlagLaw d cwd flags := by
  have hreduced (o : CommandOption) (ho : o ∈ [inputOption, outputOption, variantOption]) :
      lastFor? o flags = lastFor? o (lastFlags [inputOption, outputOption, variantOption] flags) :=
    (lastFor?_lastFlags ho).symm
  have hcompleted (o : CommandOption) (ho : o ∈ [inputOption, outputOption])
      (hne : variantOption ≠ o) : lastFor? o flags =
        lastFor? o (lastFlags [inputOption, outputOption] flags ++ [variantFlag flags]) := by
    rw [lastFor?_append, lastFor?_variantFlag, if_neg hne, Option.none_or, lastFor?_lastFlags ho]
  refine ⟨?_, ?_, ?_⟩
  · apply run_sameOutcome
    apply asksAlike_arguments (hreduced inputOption (by simp)) (hreduced outputOption (by simp))
    rw [variantFlag, variantFlag, ← hreduced variantOption (by simp)]
  · apply run_sameOutcome
    apply asksAlike_arguments (hcompleted inputOption (by simp) (by decide))
      (hcompleted outputOption (by simp) (by decide))
    have hlast : lastFor? variantOption
        (lastFlags [inputOption, outputOption] flags ++ [variantFlag flags]) =
          some (variantFlag flags) := by
      rw [lastFor?_append, lastFor?_variantFlag, if_pos rfl, Option.some_or]
    exact (congrArg (·.getD (Flag.variant .document)) hlast).symm
  · intro flags' hinput houtput hvariant
    exact run_sameOutcome (asksAlike_arguments hinput houtput hvariant) d cwd

end GenerateCommand

end CollectionInterfaces
