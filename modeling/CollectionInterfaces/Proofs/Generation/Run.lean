import CollectionInterfaces.Generation
import CollectionInterfaces.Proofs.Disk.Operations

/-!
# What a run leaves on a disk

A run over collections on a disk without links is described as a whole by `RunLaw`: which files
were written and in which order, what each of them holds in the end, and what else is new. The law
of a single file is `FileWritten`; a run is an induction over its collections.
-/

namespace CollectionInterfaces

open Disk

variable {config : Config} {cwd place : Location} {d e : Disk} {c : Collection}
  {cs rest : List Collection} {code : Text} {fault : GenerateFault}

namespace Run

variable {run : Run} {file : Path}

@[simp] theorem after_disk : (run.after file).disk = run.disk := rfl

@[simp] theorem after_written : (run.after file).written = file :: run.written := rfl

@[simp] theorem after_fault : (run.after file).fault = run.fault := rfl

@[simp] theorem after_returned :
    (run.after file).returned = run.returned.map fun files => file :: files := rfl

end Run

/-- The places of directories that may be made on the way to a path. -/
def OnWayTo (cwd : Location) (p : Path) (place : Location) : Prop :=
  ∃ q : Path, q.Above p ∧ place = q.location cwd

/-- The place of the file of a collection on a disk without links. -/
def fileLocation (config : Config) (cwd : Location) (c : Collection) : Location :=
  (interfacePath config c).location cwd

/-! ## A single file -/

/-- A file with some content was written, and directories on the way to it were made. -/
structure FileWritten (cwd : Location) (p : Path) (content : Bytes) (d e : Disk) : Prop where
  node? : e.node? (p.location cwd) = some (.file content)
  others : ∀ place, place ≠ p.location cwd → e.node? place = d.node? place ∨
    d.node? place = none ∧ e.node? place = some .directory ∧ OnWayTo cwd p place
  keepsWays : KeepsWays d e
  linkless : e.Linkless
  /-- The file is read through its path as long as the ways are kept. -/
  readable : ∀ f other, KeepsWays e f → f.node? (p.location cwd) = some (.file other) →
    f.readBytes cwd p = .ok other

theorem fileWritten_of_steps {p : Path} {content : Bytes} {made : Disk} (hd : made.Linkless)
    (hgrows : GrowsBy (OnWayTo cwd p) d made) (hplace : made.placeToWrite cwd p = .ok place) :
    FileWritten cwd p content d (made.put place (.file content)) := by
  obtain rfl := placeToWrite_location hd hplace
  have hroot := ne_root_of_placeToWrite hplace
  have hput : KeepsWays made (made.put (p.location cwd) (.file content)) :=
    .putFile hroot (node?_of_placeToWrite hplace)
  refine ⟨node?_put_self hroot, ?_, hgrows.keepsWays.trans hput, hd.put hroot (by simp), ?_⟩
  · intro other hne
    rw [node?_put_of_ne hroot hne]
    exact hgrows other
  · intro f other hkeeps hfile
    exact readBytes_of_placeToWrite hplace (hput.trans hkeeps) hfile

section

variable [i : Interpreter]

/-- A file without a fault has the bytes of the text. -/
theorem writeInterface_eq_none_iff :
    writeInterface config cwd d c code = (e, none) ↔
      ∃ made place bytes, d.makeDirectories cwd (interfacePath config c).parent = (made, none) ∧
        made.placeToWrite cwd (interfacePath config c) = .ok place ∧
        Utf8.encode code = .ok bytes ∧ e = made.put place (.file bytes) := by
  unfold writeInterface
  dsimp only
  constructor
  · intro h
    split at h
    · cases h
    · rename_i made hmade
      unfold writeText at h
      split at h
      · cases h
      · rename_i written hwritten
        cases h
        split at hwritten
        · cases hwritten
        · rename_i place hplace
          split at hwritten
          · rename_i bytes hbytes
            cases hwritten
            exact ⟨made, place, bytes, hmade, hplace, hbytes, rfl⟩
          · cases hwritten
  · rintro ⟨made, place, bytes, hmade, hplace, hbytes, rfl⟩
    simp [hmade, writeText, hplace, hbytes]

theorem writeInterface_eq_none (hd : d.Linkless)
    (h : writeInterface config cwd d c code = (e, none)) :
    ∃ bytes, Utf8.encode code = .ok bytes ∧
      FileWritten cwd (interfacePath config c) bytes d e := by
  have hgrows := makeDirectories_parent_growsBy cwd (interfacePath config c) hd
  obtain ⟨made, place, bytes, hmade, hplace, hbytes, rfl⟩ := writeInterface_eq_none_iff.mp h
  rw [hmade] at hgrows
  exact ⟨bytes, hbytes, fileWritten_of_steps (hgrows.linkless hd) hgrows hplace⟩

/-- How a file can fail to be written, with the disk and the fault that come of it. -/
inductive WriteFailure (config : Config) (cwd : Location) (d : Disk) (c : Collection)
    (code : Text) : Disk → GenerateFault → Prop
  | directory {made cause} :
      d.makeDirectories cwd (interfacePath config c).parent = (made, some cause) →
      WriteFailure config cwd d c code made ⟨interfacePath config c, cause⟩
  | file {made refused} : d.makeDirectories cwd (interfacePath config c).parent = (made, none) →
      made.placeToWrite cwd (interfacePath config c) = .error refused →
      WriteFailure config cwd d c code made
        ⟨interfacePath config c, .refused ⟨interfacePath config c, refused⟩⟩
  | text {made opened error} :
      d.makeDirectories cwd (interfacePath config c).parent = (made, none) →
      made.placeToWrite cwd (interfacePath config c) = .ok opened →
      Utf8.encode code = .error error →
      WriteFailure config cwd d c code (made.put opened (.file []))
        ⟨interfacePath config c, .unencodable error⟩

theorem writeInterface_eq_some_iff :
    writeInterface config cwd d c code = (e, some fault) ↔
      WriteFailure config cwd d c code e fault := by
  unfold writeInterface
  dsimp only
  constructor
  · intro h
    split at h
    · rename_i made refusal hmade
      cases h
      exact .directory hmade
    · rename_i made hmade
      unfold writeText at h
      split at h
      · rename_i written cause hwritten
        cases h
        split at hwritten
        · rename_i refused hrefused
          cases hwritten
          exact .file hmade hrefused
        · rename_i place hplace
          split at hwritten
          · cases hwritten
          · rename_i error herror
            cases hwritten
            exact .text hmade hplace herror
      · cases h
  · intro h
    cases h with
    | directory hmade => rw [hmade]
    | file hmade hrefused => simp [hmade, writeText, hrefused]
    | text hmade hplace herror => simp [hmade, writeText, hplace, herror]

theorem WriteFailure.file_eq (h : WriteFailure config cwd d c code e fault) :
    fault.file = interfacePath config c := by
  cases h <;> rfl

/-- A fault that is reported leaves directories on the way to the file at most. -/
theorem writeInterface_eq_some (hd : d.Linkless)
    (h : writeInterface config cwd d c code = (e, some fault)) (hreported : fault.isReported) :
    GrowsBy (OnWayTo cwd (interfacePath config c)) d e := by
  have hgrows := makeDirectories_parent_growsBy cwd (interfacePath config c) hd
  cases writeInterface_eq_some_iff.mp h with
  | directory hmade => rwa [hmade] at hgrows
  | file hmade _ => rwa [hmade] at hgrows
  | text => simp [GenerateFault.isReported] at hreported

/-! ## A run -/

section

variable (config cwd d cs)

theorem generate_written :
    (generate config cwd d cs).written =
      (cs.take (generate config cwd d cs).written.length).map (interfacePath config) := by
  induction cs generalizing d with
  | nil => rfl
  | cons c cs ih =>
    unfold generate
    split
    · rfl
    · simpa using ih _

/-- What a run gives back are the paths that it announced, if it reached its end. -/
theorem generate_returned :
    (generate config cwd d cs).returned =
      if (generate config cwd d cs).fault = none then some (generate config cwd d cs).written
      else none := by
  induction cs generalizing d with
  | nil => rfl
  | cons c cs ih =>
    unfold generate
    split
    · rfl
    · rw [Run.after_returned, ih]
      split <;> rename_i hfault <;> simp [hfault]

theorem generate_written_length_le :
    (generate config cwd d cs).written.length ≤ cs.length := by
  have h := congrArg List.length (generate_written config cwd d cs)
  simp only [List.length_map, List.length_take] at h
  omega

theorem generate_fault_eq_none_iff :
    (generate config cwd d cs).fault = none ↔
      (generate config cwd d cs).written.length = cs.length := by
  induction cs generalizing d with
  | nil => simp [generate]
  | cons c cs ih =>
    unfold generate
    split
    · simp
    · simpa using ih _

end

/-- A run that does not reach its end failed to write the file of a collection, on the disk that
the files before it had left. -/
theorem generate_stopped (h : (generate config cwd d cs).fault = some fault) :
    ∃ before c after, cs = before ++ c :: after ∧ (generate config cwd d before).fault = none ∧
      (generate config cwd d cs).written = before.map (interfacePath config) ∧
      WriteFailure config cwd (generate config cwd d before).disk c (renderInterface config c)
        (generate config cwd d cs).disk fault := by
  induction cs generalizing d with
  | nil => cases h
  | cons c cs ih =>
    unfold generate at h
    split at h
    · rename_i e _ hwrite
      cases h
      exact ⟨[], c, cs, rfl, rfl, by simp [generate, hwrite],
        by simpa [generate, hwrite] using writeInterface_eq_some_iff.mp hwrite⟩
    · rename_i e hwrite
      obtain ⟨before, last, after, rfl, hfault, hwritten, hfailure⟩ := ih h
      refine ⟨c :: before, last, after, rfl, ?_⟩
      simpa [generate, hwrite, hwritten] using ⟨hfault, hfailure⟩

/-- A run over more collections goes on where the run over the first ones ended. -/
theorem generate_append_fault (h : (generate config cwd d cs).fault = none) :
    (generate config cwd d (cs ++ rest)).fault =
      (generate config cwd (generate config cwd d cs).disk rest).fault := by
  induction cs generalizing d with
  | nil => rfl
  | cons c cs ih =>
    unfold generate at h
    split at h
    · cases h
    · rename_i e hwrite
      simpa [generate, hwrite] using ih h

end

/-- A run either reaches its end without a fault or ends with one that is reported. -/
def Run.IsReported (run : Run) : Prop := ∀ fault, run.fault = some fault → fault.isReported

theorem Run.isReported_of_fault_eq_none {run : Run} (h : run.fault = none) : run.IsReported := by
  intro fault hfault
  rw [h] at hfault
  cases hfault

instance (run : Run) : Decidable run.IsReported :=
  decidable_of_iff (run.fault.all GenerateFault.isReported = true) (by
    unfold Run.IsReported
    cases run.fault <;> simp)

section

variable [i : Interpreter]

/-- What a run does first on a disk without links: it is refused, and only directories are new, or
it writes a file and goes on. -/
theorem generate_cons (hd : d.Linkless) (h : (generate config cwd d (c :: cs)).IsReported) :
    (∃ e fault, GrowsBy (OnWayTo cwd (interfacePath config c)) d e ∧
      generate config cwd d (c :: cs) = ⟨e, [], none, some fault⟩) ∨
    ∃ e bytes, Utf8.encode (renderInterface config c) = .ok bytes ∧
      FileWritten cwd (interfacePath config c) bytes d e ∧
      (generate config cwd e cs).IsReported ∧
      generate config cwd d (c :: cs) =
        (generate config cwd e cs).after (interfacePath config c) := by
  rcases hwrite : writeInterface config cwd d c (renderInterface config c) with ⟨e, _ | fault⟩
  · have hrun : generate config cwd d (c :: cs) =
        (generate config cwd e cs).after (interfacePath config c) := by
      rw [generate, hwrite]
    rw [hrun] at h
    obtain ⟨bytes, hbytes, hfile⟩ := writeInterface_eq_none hd hwrite
    exact .inr ⟨e, bytes, hbytes, hfile, h, hrun⟩
  · have hrun : generate config cwd d (c :: cs) = ⟨e, [], none, some fault⟩ := by
      rw [generate, hwrite]
    rw [hrun] at h
    exact .inl ⟨e, fault, writeInterface_eq_some hd hwrite (h fault rfl), hrun⟩

theorem generate_keepsWays (hd : d.Linkless) (h : (generate config cwd d cs).IsReported) :
    KeepsWays d (generate config cwd d cs).disk := by
  induction cs generalizing d with
  | nil => exact .refl
  | cons c cs ih =>
    obtain ⟨e, fault, hgrows, hrun⟩ | ⟨e, bytes, -, hfile, hrest, hrun⟩ := generate_cons hd h
    · rw [hrun]
      exact hgrows.keepsWays
    · rw [hrun]
      exact hfile.keepsWays.trans (ih hfile.linkless hrest)

theorem generate_linkless (hd : d.Linkless) (h : (generate config cwd d cs).IsReported) :
    (generate config cwd d cs).disk.Linkless := by
  induction cs generalizing d with
  | nil => exact hd
  | cons c cs ih =>
    obtain ⟨e, fault, hgrows, hrun⟩ | ⟨e, bytes, -, hfile, hrest, hrun⟩ := generate_cons hd h
    · rw [hrun]
      exact hgrows.linkless hd
    · rw [hrun]
      exact ih hfile.linkless hrest

/-- The texts of all files that were written have bytes. -/
theorem generate_encodes (hd : d.Linkless) (h : (generate config cwd d cs).IsReported)
    (hc : c ∈ cs.take (generate config cwd d cs).written.length) :
    ∃ bytes, Utf8.encode (renderInterface config c) = .ok bytes := by
  induction cs generalizing d with
  | nil => simp at hc
  | cons first cs ih =>
    obtain ⟨e, fault, -, hrun⟩ | ⟨e, bytes, hbytes, hfile, hrest, hrun⟩ := generate_cons hd h
    · simp [hrun] at hc
    · rw [hrun, Run.after_written, List.length_cons, List.take_succ_cons, List.mem_cons] at hc
      rcases hc with rfl | hc
      · exact ⟨bytes, hbytes⟩
      · exact ih hfile.linkless hrest hc

/-- At every place to which no file was written stands what stood there, or a directory that was
made on the way to a file, the one that could not be written included. -/
theorem generate_others (hd : d.Linkless) (h : (generate config cwd d cs).IsReported)
    (hplace : ∀ c ∈ cs.take (generate config cwd d cs).written.length,
      fileLocation config cwd c ≠ place) :
    (generate config cwd d cs).disk.node? place = d.node? place ∨
      d.node? place = none ∧ (generate config cwd d cs).disk.node? place = some .directory ∧
        ∃ c ∈ cs.take ((generate config cwd d cs).written.length + 1),
          OnWayTo cwd (interfacePath config c) place := by
  induction cs generalizing d with
  | nil => exact .inl rfl
  | cons c cs ih =>
    obtain ⟨e, fault, hgrows, hrun⟩ | ⟨e, bytes, -, hfile, hrest, hrun⟩ := generate_cons hd h
    · rw [hrun]
      rcases hgrows place with hsame | ⟨hnone, hdir, hway⟩
      · exact .inl hsame
      · exact .inr ⟨hnone, hdir, c, by simp, hway⟩
    · simp only [hrun, Run.after_disk, Run.after_written, List.length_cons, List.take_succ_cons,
        List.mem_cons, forall_eq_or_imp] at hplace ⊢
      have hfirst := hfile.others place (Ne.symm hplace.1)
      rcases ih hfile.linkless hrest hplace.2 with hsame | ⟨hnone, hdir, other, hmem, hway⟩
      · rw [hsame]
        rcases hfirst with hfirst | ⟨hnone, hdir, hway⟩
        · exact .inl hfirst
        · exact .inr ⟨hnone, hdir, c, .inl rfl, hway⟩
      · rcases hfirst with hfirst | ⟨hnone', hdir', hway'⟩
        · exact .inr ⟨hfirst ▸ hnone, hdir, other, .inr hmem, hway⟩
        · exact .inr ⟨hnone', hdir, c, .inl rfl, hway'⟩

end

/-! ## The contents of files -/

/-- Of some collections, the one at an index is the last whose file is at a place. -/
def IsLastAt (config : Config) (cwd : Location) (cs : List Collection) (place : Location)
    (index : Nat) (c : Collection) : Prop :=
  cs[index]? = some c ∧ fileLocation config cwd c = place ∧
    ∀ (i : Nat) (other : Collection), cs[i]? = some other →
      fileLocation config cwd other = place → i ≤ index

theorem IsLastAt.cons {first last : Collection} {index : Nat}
    (h : IsLastAt config cwd cs place index last) :
    IsLastAt config cwd (first :: cs) place (index + 1) last := by
  refine ⟨h.1, h.2.1, ?_⟩
  rintro (_ | i) other hother hplace
  · omega
  · exact Nat.succ_le_succ (h.2.2 i other hother hplace)

theorem isLastAt_head
    (h : ∀ other ∈ cs, fileLocation config cwd other ≠ fileLocation config cwd c) :
    IsLastAt config cwd (c :: cs) (fileLocation config cwd c) 0 c := by
  refine ⟨rfl, rfl, ?_⟩
  rintro (_ | i) other hother hplace
  · exact Nat.le_refl 0
  · exact absurd hplace (h other (List.mem_of_getElem? hother))

/-- A path that was written to leads to a file, which has the text of the last collection whose
path denotes the same place. -/
theorem generate_content [i : Interpreter] (hd : d.Linkless)
    (h : (generate config cwd d cs).IsReported)
    (hc : c ∈ cs.take (generate config cwd d cs).written.length) :
    ∃ index last bytes,
      IsLastAt config cwd (cs.take (generate config cwd d cs).written.length)
        (fileLocation config cwd c) index last ∧
      Utf8.encode (renderInterface config last) = .ok bytes ∧
      (generate config cwd d cs).disk.readBytes cwd (interfacePath config c) = .ok bytes := by
  induction cs generalizing d c with
  | nil => simp at hc
  | cons first cs ih =>
    obtain ⟨e, fault, -, hrun⟩ | ⟨e, bytes, hbytes, hfile, hrest, hrun⟩ := generate_cons hd h
    · simp [hrun] at hc
    · simp only [hrun, Run.after_disk, Run.after_written, List.length_cons, List.take_succ_cons,
        List.mem_cons] at hc ⊢
      have hkeeps := generate_keepsWays hfile.linkless hrest
      rcases hc with rfl | hc
      · by_cases hagain : ∃ other ∈ cs.take (generate config cwd e cs).written.length,
            fileLocation config cwd other = fileLocation config cwd c
        · obtain ⟨other, hother, hplace⟩ := hagain
          obtain ⟨index, last, bytes', hlast, hbytes', hread⟩ := ih hfile.linkless hrest hother
          have hnode := node?_of_readBytes (generate_linkless hfile.linkless hrest) hread
          rw [hplace] at hlast
          rw [← fileLocation, hplace] at hnode
          exact ⟨index + 1, last, bytes', hlast.cons, hbytes', hfile.readable _ _ hkeeps hnode⟩
        · simp only [not_exists, not_and] at hagain
          refine ⟨0, c, bytes, isLastAt_head hagain, hbytes, hfile.readable _ _ hkeeps ?_⟩
          rcases generate_others hfile.linkless hrest hagain with hsame | ⟨hnone, -⟩
          · exact hsame.trans hfile.node?
          · rw [fileLocation, hfile.node?] at hnone
            cases hnone
      · obtain ⟨index, last, bytes', hlast, hbytes', hread⟩ := ih hfile.linkless hrest hc
        exact ⟨index + 1, last, bytes', hlast.cons, hbytes', hread⟩

/-! ## The law of a run -/

/-- What a run over collections has done when it ended after the first `count` of them. -/
structure RunLaw (config : Config) (cwd : Location) (d : Disk) (cs : List Collection) (run : Run)
    (count : Nat) : Prop where
  count_le : count ≤ cs.length
  /-- The files were written in the order of their collections. -/
  written : run.written = (cs.take count).map (interfacePath config)
  /-- The paths that were announced are given back if the run reached its end. -/
  returned : run.returned = if count = cs.length then some run.written else none
  complete : run.fault = none ↔ count = cs.length
  /-- A fault is about the next collection. -/
  stopped : ∀ fault, run.fault = some fault →
    ∃ c, cs[count]? = some c ∧ fault.file = interfacePath config c
  /-- A path that was written to leads to a file, which has the text of the last collection whose
  path denotes the same place. -/
  content : ∀ c ∈ cs.take count, ∃ index last bytes,
    IsLastAt config cwd (cs.take count) (fileLocation config cwd c) index last ∧
      Utf8.encode (renderInterface config last) = .ok bytes ∧
      run.disk.readBytes cwd (interfacePath config c) = .ok bytes
  /-- What stood at any other place still stands there. -/
  kept : ∀ place node, (∀ c ∈ cs.take count, fileLocation config cwd c ≠ place) →
    d.node? place = some node → run.disk.node? place = some node
  /-- What is new at any other place is a directory on the way to a file, the one that could not be
  written included. -/
  made : ∀ place node, (∀ c ∈ cs.take count, fileLocation config cwd c ≠ place) →
    d.node? place = none → run.disk.node? place = some node →
    node = .directory ∧ ∃ c ∈ cs.take (count + 1), OnWayTo cwd (interfacePath config c) place

/-- **The law of a run.** On a disk without links a run that succeeds, or fails in a way that is
reported, has written the files of the first collections, one after another, and has made
directories on the way to them. -/
theorem generate_runLaw [i : Interpreter] (hd : d.Linkless)
    (h : (generate config cwd d cs).IsReported) :
    ∃ count, RunLaw config cwd d cs (generate config cwd d cs) count := by
  refine ⟨(generate config cwd d cs).written.length, ?_⟩
  refine ⟨generate_written_length_le .., generate_written .., ?_,
    generate_fault_eq_none_iff .., ?_, fun c hc => generate_content hd h hc, ?_, ?_⟩
  · rw [generate_returned]
    simp only [generate_fault_eq_none_iff]
  · intro fault hfault
    obtain ⟨before, c, after, hcs, -, hwritten, hfailure⟩ := generate_stopped hfault
    have hnext : cs[before.length]? = some c := by simp [hcs]
    exact ⟨c, by rwa [hwritten, List.length_map], hfailure.file_eq⟩
  · intro place node hplace hnode
    rcases generate_others hd h hplace with hsame | ⟨hnone, -⟩
    · exact hsame.trans hnode
    · rw [hnode] at hnone
      cases hnone
  · intro place node hplace hnone hnode
    rcases generate_others hd h hplace with hsame | ⟨-, hdir, c, hc, hway⟩
    · rw [hsame, hnone] at hnode
      cases hnode
    · rw [hdir] at hnode
      cases hnode
      exact ⟨rfl, c, hc, hway⟩

def outConfig : Config :=
  ⟨"in.json", "out", ⟨.slash, ["in.json"]⟩, ⟨.slash, ["out"]⟩, .plain, defaultExtension,
    defaultFallbackType, []⟩

/-- Two collections with the same file, and a third one of another database. -/
def collidingCollections : List Collection :=
  [⟨"db", "user_profile", []⟩, ⟨"db", "user-profile", [⟨"k", "string", true, false, none, none⟩]⟩,
    ⟨"busy", "late", []⟩]

/-- A disk with a file where the directory of the database `busy` should be. -/
def busyDisk : Disk :=
  ⟨[(["out".toUTF8.toList], .directory), (["out".toUTF8.toList, "busy".toUTF8.toList], .file [])]⟩

/-- The run writes one file twice and is refused the third one. -/
theorem generate_runLaw_busyDisk :
    busyDisk.Linkless ∧
      (generate (i := .usual) outConfig [] busyDisk collidingCollections).IsReported ∧
      ∃ count, RunLaw outConfig [] busyDisk collidingCollections
        (generate (i := .usual) outConfig [] busyDisk collidingCollections) count := by
  have hd : busyDisk.Linkless := linkless_of_entries (by simp [busyDisk])
  have h : (generate (i := .usual) outConfig [] busyDisk collidingCollections).IsReported := by
    decide +kernel
  exact ⟨hd, h, generate_runLaw (i := .usual) hd h⟩

end CollectionInterfaces
