import CollectionInterfaces.Proofs.Generation.Run
import CollectionInterfaces.Proofs.Interface.Encoding
import CollectionInterfaces.Schema.Loading

/-!
# Runs that fail

Most failures are reported as failures of writing. Those that are not are said exactly: the
directory or the file cannot be named on any disk, there is no room for the directories that are
missing, or the file is opened and its text has no bytes (`Unreported`). A failure leaves the file
that stood at the path as it was, unless the file was opened; then it is empty
(`generate_failureLaw`).
-/

namespace CollectionInterfaces

open Disk

variable {config : Config} {cwd : Location} {d e : Disk} {c : Collection}
  {before after : List Collection} {fault : GenerateFault}

section

variable [i : Interpreter]

/-- The file of a collection is opened, and the text for it has no bytes. -/
def IsEmptied (config : Config) (cwd : Location) (d : Disk) (c : Collection) : Prop :=
  (d.makeDirectories cwd (interfacePath config c).parent).2 = none ∧
    (∃ place, (d.makeDirectories cwd (interfacePath config c).parent).1.placeToWrite cwd
      (interfacePath config c) = .ok place) ∧
    ¬Utf8.IsScalar (renderInterface config c)

/-- The file of a collection is not written for a reason that is not reported. -/
inductive Unreported (config : Config) (cwd : Location) (d : Disk) (c : Collection) : Prop
  /-- The directory cannot be named. -/
  | directory : ¬(interfacePath config c).parent.IsNameable → Unreported config cwd d c
  /-- More directories are missing than there is room for. -/
  | room : d.LacksMoreThan cwd i.directoryRoom (interfacePath config c).parent →
      Unreported config cwd d c
  /-- The directory is there, and the file cannot be named. -/
  | file : (d.makeDirectories cwd (interfacePath config c).parent).2 = none →
      ¬(interfacePath config c).IsNameable → Unreported config cwd d c
  /-- The file is open, and its text has no bytes. -/
  | text : IsEmptied config cwd d c → Unreported config cwd d c

/-! ## A single file -/

theorem not_isEmptied_of_refusal {cause : WriteFault}
    (hmade : d.makeDirectories cwd (interfacePath config c).parent = (e, some cause)) :
    ¬IsEmptied config cwd d c := by
  rintro ⟨hnone, -⟩
  rw [hmade] at hnone
  cases hnone

theorem not_isEmptied_of_refused {refused : AccessFault}
    (hmade : d.makeDirectories cwd (interfacePath config c).parent = (e, none))
    (hrefused : e.placeToWrite cwd (interfacePath config c) = .error refused) :
    ¬IsEmptied config cwd d c := by
  rintro ⟨-, ⟨place, hplace⟩, -⟩
  rw [hmade, hrefused] at hplace
  cases hplace

theorem isEmptied_of_text {place : Location} {error : Utf8.EncodeError}
    (hmade : d.makeDirectories cwd (interfacePath config c).parent = (e, none))
    (hplace : e.placeToWrite cwd (interfacePath config c) = .ok place)
    (herror : Utf8.encode (renderInterface config c) = .error error) :
    IsEmptied config cwd d c := by
  unfold IsEmptied
  rw [hmade]
  exact ⟨rfl, ⟨place, hplace⟩, Utf8.not_isScalar_of_encode herror⟩

/-- A failure is unreported for the reasons that are said. -/
theorem WriteFailure.isReported_eq_false_iff
    (h : WriteFailure config cwd d c (renderInterface config c) e fault) :
    fault.isReported = false ↔ Unreported config cwd d c := by
  cases h with
  | @directory _ cause hmade =>
    constructor
    · intro hreported
      by_cases hname : (interfacePath config c).parent.IsNameable
      · obtain rfl | ⟨q, refused, rfl⟩ := makeDirectoriesUpTo_fault hname (congrArg Prod.snd hmade)
        · exact .room (makeDirectories_eq_exhausted_iff.mp (congrArg Prod.snd hmade))
        · cases hreported
      · exact .directory hname
    · intro hunreported
      cases hunreported with
      | directory hname =>
        obtain ⟨refused, hrefused⟩ := makeDirectories_of_not_isNameable hname
        rw [hrefused] at hmade
        cases hmade
        rfl
      | room hlacks =>
        have hexhausted := makeDirectories_eq_exhausted_iff.mpr hlacks
        rw [hmade] at hexhausted
        cases hexhausted
        rfl
      | file hnone => rw [hmade] at hnone; cases hnone
      | text hemptied => exact absurd hemptied (not_isEmptied_of_refusal hmade)
  | file hmade hrefused =>
    constructor
    · intro hreported
      refine .file (by rw [hmade]) fun hname => ?_
      obtain ⟨cause, rfl⟩ :=
        disk_fault_of_isNameable (fun _ => placeToWrite_eq_path_iff.mp) hname hrefused
      cases hreported
    · intro hunreported
      cases hunreported with
      | directory hname =>
        obtain ⟨cause, hcause⟩ := makeDirectories_of_not_isNameable hname
        rw [hcause] at hmade
        cases hmade
      | room hlacks =>
        have hexhausted := makeDirectories_eq_exhausted_iff.mpr hlacks
        rw [hmade] at hexhausted
        cases hexhausted
      | file _ hname =>
        obtain ⟨cause, hcause⟩ := placeToWrite_of_not_isNameable hname
        rw [hcause] at hrefused
        cases hrefused
        rfl
      | text hemptied => exact absurd hemptied (not_isEmptied_of_refused hmade hrefused)
  | text hmade hplace herror =>
    exact ⟨fun _ => .text (isEmptied_of_text hmade hplace herror), fun _ => rfl⟩

/-- A file whose text has no bytes is empty after the failure. -/
theorem WriteFailure.readBytes_of_isEmptied
    (h : WriteFailure config cwd d c (renderInterface config c) e fault)
    (hemptied : IsEmptied config cwd d c) : e.readBytes cwd (interfacePath config c) = .ok [] := by
  cases h with
  | directory hmade => exact absurd hemptied (not_isEmptied_of_refusal hmade)
  | file hmade hrefused => exact absurd hemptied (not_isEmptied_of_refused hmade hrefused)
  | text hmade hplace _ =>
    have hroot := ne_root_of_placeToWrite hplace
    exact readBytes_of_placeToWrite hplace (.putFile hroot (node?_of_placeToWrite hplace))
      (node?_put_self hroot)

/-- Every other failure leaves a file that stood at the path as it was. -/
theorem WriteFailure.readBytes_of_not_isEmptied {content : Bytes}
    (h : WriteFailure config cwd d c (renderInterface config c) e fault)
    (hemptied : ¬IsEmptied config cwd d c)
    (hread : d.readBytes cwd (interfacePath config c) = .ok content) :
    e.readBytes cwd (interfacePath config c) = .ok content := by
  have hgrows : GrowsBy (fun _ => True) d
      (d.makeDirectories cwd (interfacePath config c).parent).1 := makeDirectories_growsBy
  cases h with
  | directory hmade | file hmade _ =>
    rw [hmade] at hgrows
    exact readBytes_of_growsBy hgrows hread
  | text hmade hplace herror =>
    exact absurd (isEmptied_of_text hmade hplace herror) hemptied

/-- A file that has a reason to be unreported is not written. -/
theorem Unreported.exists_failure (h : Unreported config cwd d c) :
    ∃ e fault, writeInterface config cwd d c (renderInterface config c) = (e, some fault) := by
  cases hwrite : writeInterface config cwd d c (renderInterface config c) with
  | mk e outcome =>
    cases outcome with
    | some fault => exact ⟨e, fault, rfl⟩
    | none =>
      exfalso
      obtain ⟨made, place, bytes, hmade, hplace, hbytes, -⟩ := writeInterface_eq_none_iff.mp hwrite
      cases h with
      | directory hname =>
        obtain ⟨cause, hcause⟩ := makeDirectories_of_not_isNameable hname
        rw [hcause] at hmade
        cases hmade
      | room hlacks =>
        have hexhausted := makeDirectories_eq_exhausted_iff.mpr hlacks
        rw [hmade] at hexhausted
        cases hexhausted
      | file _ hname =>
        obtain ⟨cause, hcause⟩ := placeToWrite_of_not_isNameable hname
        rw [hcause] at hplace
        cases hplace
      | text hemptied =>
        obtain ⟨-, -, hscalar⟩ := hemptied
        exact hscalar (Utf8.encode_eq_ok_iff.mp hbytes).1

/-! ## A run -/

/-- A run is reported unless it comes to a file that fails for an unreported reason. -/
theorem generate_isReported_iff :
    (generate config cwd d cs).IsReported ↔
      ∀ before c after, cs = before ++ c :: after → (generate config cwd d before).fault = none →
        ¬Unreported config cwd (generate config cwd d before).disk c := by
  constructor
  · rintro hreported before c after rfl hbefore hunreported
    obtain ⟨e, fault, hwrite⟩ := hunreported.exists_failure
    have hfault : (generate config cwd d (before ++ c :: after)).fault = some fault := by
      rw [generate_append_fault hbefore]
      simp [generate, hwrite]
    have hnot := (writeInterface_eq_some_iff.mp hwrite).isReported_eq_false_iff.mpr hunreported
    rw [hreported fault hfault] at hnot
    cases hnot
  · intro hall fault hfault
    obtain ⟨before, c, after, hcs, hbefore, -, hfailure⟩ := generate_stopped hfault
    cases hreported : fault.isReported with
    | true => rfl
    | false =>
      exact absurd (hfailure.isReported_eq_false_iff.mp hreported) (hall before c after hcs hbefore)

/-- Where all files can be named and are not too deep, and nothing has surrogates, every failure is
reported. -/
theorem generate_isReported_of_isScalar (hnames : ∀ c ∈ cs, (interfacePath config c).IsNameable)
    (hdepths : ∀ c ∈ cs, (interfacePath config c).parent.names.length ≤ i.directoryRoom)
    (hargs : Utf8.IsScalar config.inputArg ∧ Utf8.IsScalar config.outputArg)
    (htexts : ∀ c ∈ cs, Utf8.IsScalar c.name ∧ ∀ a ∈ c.attributes,
      Utf8.IsScalar a.key ∧ Utf8.IsScalar (a.fieldType config.fallbackType)) :
    (generate config cwd d cs).IsReported := by
  rw [generate_isReported_iff]
  rintro before c after rfl - hunreported
  have hc : c ∈ before ++ c :: after := by simp
  cases hunreported with
  | directory hname => exact hname (hnames c hc).parent
  | room hlacks => exact absurd hlacks.1 (Nat.not_lt.mpr (hdepths c hc))
  | file _ hname => exact hname (hnames c hc)
  | text hemptied =>
    obtain ⟨-, -, hscalar⟩ := hemptied
    exact hscalar (isScalar_renderInterface_iff.mpr ⟨hargs, htexts c hc⟩)

/-- Which failures of a run are reported, and what a failure does to the file that could not be
written. -/
structure FailureLaw (config : Config) (cwd : Location) (d : Disk) (cs : List Collection) :
    Prop where
  isReported_iff : (generate config cwd d cs).IsReported ↔
    ∀ before c after, cs = before ++ c :: after → (generate config cwd d before).fault = none →
      ¬Unreported config cwd (generate config cwd d before).disk c
  /-- The file that could not be written is empty if it was opened, and as it was if it was not. -/
  stopped : ∀ fault, (generate config cwd d cs).fault = some fault →
    ∃ before c after, cs = before ++ c :: after ∧ (generate config cwd d before).fault = none ∧
      fault.file = interfacePath config c ∧
      (IsEmptied config cwd (generate config cwd d before).disk c →
        (generate config cwd d cs).disk.readBytes cwd (interfacePath config c) = .ok []) ∧
      (¬IsEmptied config cwd (generate config cwd d before).disk c → ∀ content,
        (generate config cwd d before).disk.readBytes cwd (interfacePath config c) = .ok content →
        (generate config cwd d cs).disk.readBytes cwd (interfacePath config c) = .ok content)

/-- **The law of failures.** On every disk, a run fails without a report exactly at a path that
cannot be named, at directories that there is no room for or at a text without bytes, and the latter
is the only failure that changes a file: it is opened before the text is turned into bytes. -/
theorem generate_failureLaw (config : Config) (cwd : Location) (d : Disk) (cs : List Collection) :
    FailureLaw config cwd d cs := by
  refine ⟨generate_isReported_iff, ?_⟩
  intro fault hfault
  obtain ⟨before, c, after, hcs, hbefore, -, hfailure⟩ := generate_stopped hfault
  exact ⟨before, c, after, hcs, hbefore, hfailure.file_eq, hfailure.readBytes_of_isEmptied,
    fun hemptied content => hfailure.readBytes_of_not_isEmptied hemptied⟩

end

/-- A schema document in which a surrogate is escaped. -/
def surrogateDocument : Text :=
  "\x7b\"collections\":[\x7b\"databaseId\":\"db\",\"name\":\"a\"," ++
    ("\"attributes\":[\x7b\"key\":\"\\udfff\"\x7d]\x7d]\x7d" : Text)

/-- The collection of the document, with a surrogate for an attribute. -/
def surrogateCollection : Collection :=
  ⟨"db", "a", [⟨[⟨0xDFFF, by decide⟩], [], false, false, none, none⟩]⟩

/-- A disk with the document, and with a file where the file of the collection belongs. -/
def surrogateDisk : Disk :=
  ⟨[([nameBytes "in.json"], .file (surrogateDocument.flatMap CodePoint.utf8)),
    ([nameBytes "out"], .directory), ([nameBytes "out", nameBytes "db"], .directory),
    ([nameBytes "out", nameBytes "db", nameBytes "A.ts"], .file [0x41])]⟩

/-- The document is loaded, the run over it fails without a report, and the file is emptied. -/
theorem generate_failureLaw_surrogateDisk :
    (Schema.load (i := .usual) surrogateDisk [] outConfig.inputPath).toOption =
        some ⟨[surrogateCollection]⟩ ∧
      surrogateDisk.readBytes [] (interfacePath outConfig surrogateCollection) = .ok [0x41] ∧
      ¬(generate (i := .usual) outConfig [] surrogateDisk [surrogateCollection]).IsReported ∧
      (generate (i := .usual) outConfig [] surrogateDisk [surrogateCollection]).disk.readBytes []
        (interfacePath outConfig surrogateCollection) = .ok [] := by
  have hemptied : IsEmptied (i := .usual) outConfig [] surrogateDisk surrogateCollection :=
    ⟨by decide +kernel, ⟨[nameBytes "out", nameBytes "db", nameBytes "A.ts"], rfl⟩,
      by decide +kernel⟩
  have hlaw := generate_failureLaw (i := .usual) outConfig [] surrogateDisk [surrogateCollection]
  refine ⟨by decide +kernel, rfl, ?_, ?_⟩
  · intro hreported
    exact (FailureLaw.isReported_iff (i := .usual) hlaw).mp hreported [] surrogateCollection [] rfl
      rfl (.text (i := .usual) hemptied)
  · have hstopped := FailureLaw.stopped (i := .usual) hlaw
    cases hfault : (generate (i := .usual) outConfig [] surrogateDisk
      [surrogateCollection]).fault with
    | none => exact absurd hfault (by decide +kernel)
    | some fault =>
      obtain ⟨before, c, after, hcs, -, -, hempty, -⟩ := hstopped fault hfault
      cases before with
      | nil =>
        obtain ⟨rfl, -⟩ := List.cons.inj hcs
        exact hempty hemptied
      | cons first before => simp at hcs

end CollectionInterfaces
