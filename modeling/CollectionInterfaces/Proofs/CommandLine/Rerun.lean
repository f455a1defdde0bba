import CollectionInterfaces.Proofs.CommandLine.Generate
import CollectionInterfaces.Proofs.Generation.Rerun

/-!
# Running the command again

The command takes nothing from a disk without links but the schema. A command that succeeded and
spared its own input therefore reads the same schema again, writes the same files, and prints the
same (`GenerateCommand.run_again`). In a process that goes through sets in another order it also
succeeds and prints the same (`GenerateCommand.RerunLaw`), but a key with a set in it may be shown
in another way, and then its file is another one.
-/

namespace CollectionInterfaces

open Disk

variable {d : Disk} {cwd : Location} {config config' : Config} {schema : Schema}

namespace Schema

section

variable [i : Interpreter] {e : Disk} {p : Path}

/-- A schema is a matter of the bytes of its file. -/
theorem load_congr (h : e.readBytes cwd p = d.readBytes cwd p) : load e cwd p = load d cwd p := by
  rw [load, load, readText, readText, h]

theorem exists_readBytes_of_load (h : load d cwd p = .ok schema) :
    ∃ content, d.readBytes cwd p = .ok content := by
  cases hread : d.readBytes cwd p with
  | ok content => exact ⟨content, rfl⟩
  | error refusal =>
    rw [load, readText, hread] at h
    cases h

/-- A schema is loaded again after a run that did not write to its file. -/
theorem load_generate {cs : List Collection} (hd : d.Linkless)
    (hrun : (generate config cwd d cs).fault = none)
    (hspared : ∀ c ∈ cs, fileLocation config cwd c ≠ p.location cwd)
    (hload : load d cwd p = .ok schema) :
    load (generate config cwd d cs).disk cwd p = .ok schema := by
  have hreported := Run.isReported_of_fault_eq_none hrun
  obtain ⟨content, hread⟩ := exists_readBytes_of_load hload
  have hbefore := node?_of_readBytes hd hread
  have hfile : (generate config cwd d cs).disk.node? (p.location cwd) = some (.file content) := by
    have hothers := generate_others hd hreported fun c hc => hspared c (List.mem_of_mem_take hc)
    rcases hothers with hsame | ⟨hnone, -⟩
    · exact hsame.trans hbefore
    · rw [hbefore] at hnone
      cases hnone
  have hagain := readBytes_of_keepsWays hd (generate_keepsWays hd hreported) hread hfile
  rw [load_congr (hagain.trans hread.symm), hload]

end

/-- What another order of sets leaves the same of a schema. -/
structure SameButOrder (i : Interpreter) (order : List Scalar → List Scalar) (p : Path)
    (s s' : Schema) : Prop where
  reordered : s.Reordered s'
  /-- There are no sets in JSON. -/
  json : p.isYaml = false → s' = s
  ordered : order = i.setOrder → s' = s

theorem exists_load_reordered {i : Interpreter} {order : List Scalar → List Scalar}
    (h : ∀ members, (order members).Perm members) {p : Path}
    (hload : @load i d cwd p = .ok schema) :
    ∃ schema', @load (i.reordered order h) d cwd p = .ok schema' ∧
      SameButOrder i order p schema schema' := by
  obtain ⟨t, htext, hparse⟩ := bind_eq_ok_iff.mp hload
  obtain ⟨schema', hparse', hreordered⟩ := exists_parse_reordered (h := h) hparse
  refine ⟨schema', bind_eq_ok_iff.mpr ⟨t, htext, hparse'⟩, hreordered,
    fun hp => ?_, fun horder => ?_⟩
  · rw [parse_reordered_of_json hp, hparse] at hparse'
    exact (Except.ok.inj hparse').symm
  · subst horder
    exact (Except.ok.inj (hparse.symm.trans hparse')).symm

end Schema

namespace GenerateCommand

variable {arguments arguments' : List Text} {verbose : Bool}

theorem successOutput_of_reordered {cs cs' : List Collection}
    (h : List.Forall₂ Collection.Reordered cs cs') :
    successOutput config cs' = successOutput config cs := by
  have hpaths : (cs.map fun c => ("Generated: " : Text) ++ (interfacePath config c).toText) =
      cs'.map fun c => ("Generated: " : Text) ++ (interfacePath config c).toText :=
    map_eq_map_of_forall₂ (h.imp fun c c' hc => by
      rw [TakesPlace.path (takesPlace_of_agrees (.refl : config.Agrees config) hc)])
  rw [successOutput, successOutput, hpaths]

theorem successLog_of_reordered {cs cs' : List Collection}
    (h : List.Forall₂ Collection.Reordered cs cs') :
    successLog verbose config cs' = successLog verbose config cs := by
  have hentries : (cs.map fun c =>
      LogEntry.wrote (interfacePath config c) (renderInterface config c).length) =
      cs'.map fun c => .wrote (interfacePath config c) (renderInterface config c).length :=
    map_eq_map_of_forall₂ (h.imp fun c c' hc => by
      rw [TakesPlace.path (takesPlace_of_agrees (.refl : config.Agrees config) hc),
        (renderInterface_perm hc).length_eq])
  rw [successLog, successLog, hentries, h.length_eq]

/-- The command does not write to the file of the schema. -/
def SparesInput [i : Interpreter] (d : Disk) (cwd : Location) (arguments : List Text) : Prop :=
  ∀ config schema, Configures d cwd arguments config →
    Schema.load d cwd config.inputPath = .ok schema →
    ∀ c ∈ schema.collections, fileLocation config cwd c ≠ config.inputPath.location cwd

/-- **Another run over the same input**, in a process that may go through sets in another order. It
succeeds, and makes the files again from what it reads. -/
theorem exists_run_reordered {i : Interpreter} {order : List Scalar → List Scalar}
    (h : ∀ members, (order members).Perm members) (hd : d.Linkless)
    (hload : @Schema.load i d cwd config.inputPath = .ok schema)
    (hspared : ∀ c ∈ schema.collections, fileLocation config cwd c ≠ config.inputPath.location cwd)
    (hfault : (generate config cwd d schema.collections).fault = none)
    (hagrees : config'.Agrees config) (hinput : config'.inputPath = config.inputPath)
    (hconfig' : Configures d cwd arguments' config') :
    ∃ schema', @Schema.load (i.reordered order h)
        (generate config cwd d schema.collections).disk cwd config.inputPath = .ok schema' ∧
      Schema.SameButOrder i order config.inputPath schema schema' ∧
      ∃ e', e'.Linkless ∧
        @run (i.reordered order h) (generate config cwd d schema.collections).disk cwd arguments' =
          ⟨successOutput config' schema'.collections,
            successLog (isVerbose arguments') config' schema'.collections, e', .ok 0⟩ ∧
        IsRemade config config' cwd schema.collections schema'.collections
          (generate config cwd d schema.collections).disk e' := by
  have he := generate_linkless hd (Run.isReported_of_fault_eq_none hfault)
  have hload' := Schema.load_generate hd hfault hspared hload
  obtain ⟨schema', hload'', hsame⟩ := Schema.exists_load_reordered h hload'
  obtain ⟨hagain, hremade⟩ := isRemade_generate hagrees hsame.reordered hd hfault
  have hgenerate := generate_reordered (i := i) (h := h) config' cwd
    (generate config cwd d schema.collections).disk schema'.collections
  rw [← hinput] at hload''
  have hrun := (run_of_configures (i := i.reordered order h) (hconfig'.congr hd he)).trans
    (runWith_of_load (i := i.reordered order h) hload'' (by rw [hgenerate, hagain]))
  rw [hgenerate] at hrun
  rw [hinput] at hload''
  have he' := generate_linkless he (Run.isReported_of_fault_eq_none hagain)
  exact ⟨schema', hload'', hsame, _, he', hrun, hremade⟩

/-- What comes of the command on the disk that it left, in a process that goes through sets in some
order. -/
structure RerunLaw [i : Interpreter] (d : Disk) (cwd : Location) (arguments : List Text)
    (order : List Scalar → List Scalar) (h : ∀ members, (order members).Perm members) : Prop where
  succeeds : (@run (i.reordered order h) (run d cwd arguments).disk cwd arguments).ending = .ok 0
  output : (@run (i.reordered order h) (run d cwd arguments).disk cwd arguments).output =
    (run d cwd arguments).output
  errors : (@run (i.reordered order h) (run d cwd arguments).disk cwd arguments).errors =
    (run d cwd arguments).errors
  /-- Each file is made again from what is read in that order. -/
  remade : ∀ config schema, Configures d cwd arguments config →
    Schema.load d cwd config.inputPath = .ok schema →
    ∃ schema', @Schema.load (i.reordered order h) (run d cwd arguments).disk cwd config.inputPath =
        .ok schema' ∧
      Schema.SameButOrder i order config.inputPath schema schema' ∧
      IsRemade config config cwd schema.collections schema'.collections (run d cwd arguments).disk
        (@run (i.reordered order h) (run d cwd arguments).disk cwd arguments).disk
  /-- Nothing is changed unless the input is YAML and the order is another one. -/
  same : (order = i.setOrder ∨
      ∀ config, Configures d cwd arguments config → config.inputPath.isYaml = false) →
    (@run (i.reordered order h) (run d cwd arguments).disk cwd arguments).disk.Same
      (run d cwd arguments).disk

theorem rerunLaw_of_help [i : Interpreter] {order : List Scalar → List Scalar}
    (h : ∀ members, (order members).Perm members) (hhelp : arguments.any asksForHelp = true) :
    RerunLaw d cwd arguments order h := by
  have hrun : run d cwd arguments = ⟨help, [], d, .ok 0⟩ := run_of_help hhelp
  have hrun' : @run (i.reordered order h) d cwd arguments = ⟨help, [], d, .ok 0⟩ :=
    @run_of_help d cwd arguments (i.reordered order h) hhelp
  constructor
  all_goals simp only [hrun, hrun']
  · intro config schema hconfig
    cases hhelp.symm.trans hconfig.noHelp
  · exact fun _ _ => rfl

theorem rerunLaw_of_configures [i : Interpreter] {order : List Scalar → List Scalar}
    (h : ∀ members, (order members).Perm members) (hd : d.Linkless)
    (hrun : (run d cwd arguments).ending = .ok 0) (hspares : SparesInput d cwd arguments)
    (hconfig : Configures d cwd arguments config) : RerunLaw d cwd arguments order h := by
  have hran := run_of_configures hconfig
  rw [hran, runWith_ending_eq_ok_iff] at hrun
  obtain ⟨schema, hload, hfault⟩ := hrun
  rw [runWith_of_load hload hfault] at hran
  obtain ⟨schema', hload', hsame, e', he', hrun', hremade⟩ := exists_run_reordered h hd hload
    (hspares config schema hconfig hload) hfault .refl rfl hconfig
  have he := generate_linkless hd (Run.isReported_of_fault_eq_none hfault)
  constructor
  all_goals simp only [hran, hrun']
  · exact successOutput_of_reordered hsame.reordered
  · exact successLog_of_reordered hsame.reordered
  · intro other otherSchema hother hotherLoad
    obtain rfl := hconfig.unique hother
    obtain rfl := Except.ok.inj (hload.symm.trans hotherLoad)
    exact ⟨schema', hload', hsame, hremade⟩
  · intro hcases
    have hschema : schema' = schema := hcases.elim hsame.ordered fun hjson =>
      hsame.json (hjson config hconfig)
    subst hschema
    exact hremade.same he he'

/-- A disk with a schema document whose first two collections have the same file. -/
def documentDisk : Disk :=
  ⟨[([nameBytes "in.json"], .file
    (("\x7b\"collections\":[\x7b\"databaseId\":\"db\",\"name\":\"user_profile\"\x7d," ++
      ("\x7b\"databaseId\":\"db\",\"name\":\"user-profile\",\"attributes\":[" : Text) ++
      ("\x7b\"key\":\"k\",\"type\":\"string\",\"required\":true\x7d]\x7d," : Text) ++
      ("\x7b\"databaseId\":\"busy\",\"name\":\"late\"\x7d]\x7d" : Text)).flatMap
      CodePoint.utf8))]⟩

/-- The arguments for plain interfaces in the directory `/out`. -/
def plainArguments : List Text := ["--input=in.json", "--output=out", "--variant=plain"]

theorem linkless_documentDisk : documentDisk.Linkless :=
  linkless_of_entries (by simp [documentDisk])

theorem load_documentDisk :
    Schema.load (i := .usual) documentDisk [] outConfig.inputPath = .ok ⟨collidingCollections⟩ :=
  eq_ok_of_toOption (by decide +kernel)

theorem configures_plainArguments : Configures documentDisk [] plainArguments outConfig :=
  ⟨by decide +kernel, by decide +kernel, by decide +kernel, by decide +kernel,
    eq_ok_of_toOption (by decide +kernel)⟩

theorem sparesInput_plainArguments : SparesInput (i := .usual) documentDisk [] plainArguments := by
  intro config schema hconfig hload
  obtain rfl := configures_plainArguments.unique hconfig
  rw [load_documentDisk] at hload
  obtain rfl := Except.ok.inj hload
  decide +kernel

theorem run_plainArguments : (run (i := .usual) documentDisk [] plainArguments).ending = .ok 0 := by
  rw [run_of_configures (i := .usual) configures_plainArguments,
    runWith_ending_eq_ok_iff (i := .usual)]
  exact ⟨_, load_documentDisk, by decide +kernel⟩

end GenerateCommand

end CollectionInterfaces
