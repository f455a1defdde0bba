import CollectionInterfaces.Proofs.Disk.Making
import CollectionInterfaces.Proofs.Generation.Run

/-!
# Runs that succeed

On a disk without links a run succeeds exactly if its files and the directories on the way to them
fit beside each other and beside what stands on the disk, and if there is room for the directories
that are missing (`generate_fault_eq_none_iff_writable`). What stands where afterwards is said place
by place (`generate_node?`). The order of the collections makes a difference to the room, and to
files that several of them share.
-/

namespace CollectionInterfaces

open Disk

variable {config : Config} {cwd place : Location} {d e : Disk} {c : Collection}
  {cs : List Collection}

/-- The places of the directories on the way to the file of a collection. -/
def directoryLocations (config : Config) (cwd : Location) (c : Collection) : List Location :=
  (interfacePath config c).parent.waypoints cwd

/-- The bytes of the text of a collection, if it has any. -/
def interfaceBytes (config : Config) (c : Collection) : Bytes :=
  (renderInterface config c).flatMap CodePoint.utf8

theorem encode_renderInterface_iff {bytes : Bytes} :
    Utf8.encode (renderInterface config c) = .ok bytes ↔
      Utf8.IsScalar (renderInterface config c) ∧ bytes = interfaceBytes config c :=
  Utf8.encode_eq_ok_iff

/-! ## A single file -/

section

variable [i : Interpreter]

theorem writeInterface_succeeds_iff (config : Config) (cwd : Location) (c : Collection)
    (hd : d.Linkless) :
    (writeInterface config cwd d c (renderInterface config c)).2 = none ↔
      (d.Admits cwd (interfacePath config c) ∧
        ¬d.LacksMoreThan cwd i.directoryRoom (interfacePath config c).parent) ∧
      Utf8.IsScalar (renderInterface config c) := by
  rw [← opens_iff hd]
  constructor
  · intro h
    obtain ⟨made, place, bytes, hmade, hplace, hbytes, -⟩ :=
      writeInterface_eq_none_iff.mp (Prod.ext rfl h)
    have hgrows := makeDirectories_parent_growsBy cwd (interfacePath config c) hd
    rw [hmade] at hgrows
    obtain rfl := placeToWrite_location (hgrows.linkless hd) hplace
    exact ⟨⟨made, hmade, hplace⟩, (encode_renderInterface_iff.mp hbytes).1⟩
  · rintro ⟨⟨made, hmade, hplace⟩, hscalar⟩
    have hwrite := writeInterface_eq_none_iff.mpr
      ⟨made, _, _, hmade, hplace, encode_renderInterface_iff.mpr ⟨hscalar, rfl⟩, rfl⟩
    rw [hwrite]

theorem hasWritten_writeInterface (hd : d.Linkless)
    (h : writeInterface config cwd d c (renderInterface config c) = (e, none)) :
    HasWritten cwd (interfacePath config c) (interfaceBytes config c) d e := by
  obtain ⟨made, place, bytes, hmade, hplace, hbytes, rfl⟩ := writeInterface_eq_none_iff.mp h
  obtain ⟨-, rfl⟩ := encode_renderInterface_iff.mp hbytes
  have hmadeAll := hasMade_makeDirectories hd hmade
  obtain rfl := placeToWrite_location (hmadeAll.linkless hd) hplace
  exact .of_hasMade hmadeAll (ne_root_of_placeToWrite hplace)

/-- A file that is admitted is not written for want of room only. -/
theorem WriteFailure.cause_of_admits {fault : GenerateFault} (hd : d.Linkless)
    (hc : d.Admits cwd (interfacePath config c))
    (hscalar : Utf8.IsScalar (renderInterface config c))
    (h : WriteFailure config cwd d c (renderInterface config c) e fault) :
    fault.cause = .exhausted := by
  have hopens (hroom : ¬d.LacksMoreThan cwd i.directoryRoom (interfacePath config c).parent) :=
    (opens_iff hd).mpr ⟨hc, hroom⟩
  cases h with
  | directory hmade =>
    by_cases hroom : d.LacksMoreThan cwd i.directoryRoom (interfacePath config c).parent
    · have hexhausted := makeDirectories_eq_exhausted_iff.mpr hroom
      rw [hmade] at hexhausted
      exact Option.some.inj hexhausted
    · obtain ⟨e, he, -⟩ := hopens hroom
      rw [hmade] at he
      cases he
  | file hmade hrefused =>
    have hroom := ((makeDirectories_eq_none_iff hd).mp (congrArg Prod.snd hmade)).2.2
    obtain ⟨e, he, hplace⟩ := hopens hroom
    obtain rfl := congrArg Prod.fst (hmade.symm.trans he)
    rw [hrefused] at hplace
    cases hplace
  | text _ _ herror => exact absurd hscalar (Utf8.not_isScalar_of_encode herror)

end

/-! ## A run -/

/-- The files of collections can all be written: each of them is admitted by the disk and has bytes,
and none of them stands on the way to another one. -/
structure Writable (config : Config) (cwd : Location) (d : Disk) (cs : List Collection) :
    Prop where
  admits : ∀ c ∈ cs, d.Admits cwd (interfacePath config c)
  encodes : ∀ c ∈ cs, Utf8.IsScalar (renderInterface config c)
  apart : ∀ c ∈ cs, ∀ other ∈ cs,
    fileLocation config cwd c ∉ directoryLocations config cwd other

/-- What is writable after a file was written was writable together with it. -/
theorem writable_cons_iff (hc : d.Admits cwd (interfacePath config c))
    (hscalar : Utf8.IsScalar (renderInterface config c))
    (h : HasWritten cwd (interfacePath config c) (interfaceBytes config c) d e) :
    Writable config cwd d (c :: cs) ↔ Writable config cwd e cs := by
  constructor
  · intro hall
    refine ⟨?_, ?_, ?_⟩
    · intro other hother
      refine (h.admits_iff hc).mpr ⟨hall.admits other (List.mem_cons_of_mem c hother), ?_, ?_⟩
      · exact hall.apart c (by simp) other (List.mem_cons_of_mem c hother)
      · exact hall.apart other (List.mem_cons_of_mem c hother) c (by simp)
    · exact fun other hother => hall.encodes other (List.mem_cons_of_mem c hother)
    · exact fun other hother third hthird =>
        hall.apart other (List.mem_cons_of_mem c hother) third (List.mem_cons_of_mem c hthird)
  · intro hrest
    have hadmits (other : Collection) (hother : other ∈ cs) :=
      (h.admits_iff hc).mp (hrest.admits other hother)
    refine ⟨?_, ?_, ?_⟩
    · exact List.forall_mem_cons.mpr ⟨hc, fun other hother => (hadmits other hother).1⟩
    · exact List.forall_mem_cons.mpr ⟨hscalar, hrest.encodes⟩
    · intro first hfirst second hsecond
      rcases List.mem_cons.mp hfirst with rfl | hfirst'
      · rcases List.mem_cons.mp hsecond with rfl | hsecond'
        · exact hc.apart
        · exact (hadmits second hsecond').2.1
      · rcases List.mem_cons.mp hsecond with rfl | hsecond'
        · exact (hadmits first hfirst').2.2
        · exact hrest.apart first hfirst' second hsecond'

section

variable [i : Interpreter]

/-- There is room for the directories of each file, one file after another: what is missing higher
up than there is room for has been made on the way to the files before it. -/
def HasRoom (config : Config) (cwd : Location) (d : Disk) (cs : List Collection) : Prop :=
  ∀ before c after, cs = before ++ c :: after →
    ∀ place ∈ ((interfacePath config c).parent.ancestor (i.directoryRoom + 1)).waypoints cwd,
      d.node? place = some .directory ∨ place ∈ before.flatMap (directoryLocations config cwd)

theorem hasRoom_cons_iff (hd : d.Linkless) (hc : d.Admits cwd (interfacePath config c))
    (h : HasWritten cwd (interfacePath config c) (interfaceBytes config c) d e) :
    HasRoom config cwd d (c :: cs) ↔
      ¬d.LacksMoreThan cwd i.directoryRoom (interfacePath config c).parent ∧
        HasRoom config cwd e cs := by
  have hdirs (place : Location) : e.node? place = some .directory ↔
      d.node? place = some .directory ∨ place ∈ directoryLocations config cwd c :=
    h.node?_eq_directory_iff hc
  rw [lacksMoreThan_iff_of_isClear hd hc.usable.parent hc.clear, Classical.not_not]
  constructor
  · intro hroom
    constructor
    · intro place hplace
      simpa using hroom [] c cs rfl place hplace
    · rintro before other after rfl place hplace
      rw [hdirs, or_assoc]
      simpa only [List.flatMap_cons, List.mem_append] using
        hroom (c :: before) other after rfl place hplace
  · rintro ⟨hfirst, hrest⟩ (_ | ⟨first, before⟩) other after heq place hplace <;>
      obtain ⟨rfl, rfl⟩ := List.cons.inj heq
    · exact .inl (hfirst place hplace)
    · have hnode := hrest before other after rfl place hplace
      rw [hdirs, or_assoc] at hnode
      simpa only [List.flatMap_cons, List.mem_append] using hnode

theorem generate_cons_of_write
    (h : writeInterface config cwd d c (renderInterface config c) = (e, none)) :
    generate config cwd d (c :: cs) =
      (generate config cwd e cs).after (interfacePath config c) := by
  rw [generate, h]

/-- **Which runs succeed.** Those over files that can all be written, with room for the directories
of each. -/
theorem generate_fault_eq_none_iff_writable (hd : d.Linkless) :
    (generate config cwd d cs).fault = none ↔
      Writable config cwd d cs ∧ HasRoom config cwd d cs := by
  induction cs generalizing d with
  | nil => simp [generate, Writable.mk, HasRoom]
  | cons c cs ih =>
    have hfirst := writeInterface_succeeds_iff config cwd c hd
    rcases hwrite : writeInterface config cwd d c (renderInterface config c) with ⟨e, _ | fault⟩
    · rw [hwrite] at hfirst
      obtain ⟨⟨hc, hroom⟩, hscalar⟩ := hfirst.mp rfl
      have hwritten := hasWritten_writeInterface hd hwrite
      rw [generate_cons_of_write hwrite, writable_cons_iff hc hscalar hwritten,
        hasRoom_cons_iff hd hc hwritten, and_iff_right hroom]
      exact ih (hwritten.linkless hd)
    · rw [hwrite] at hfirst
      constructor
      · intro h
        simp [generate, hwrite] at h
      · rintro ⟨h, hroom⟩
        have hc := h.admits c (by simp)
        have hlacks : ¬d.LacksMoreThan cwd i.directoryRoom (interfacePath config c).parent := by
          rw [lacksMoreThan_iff_of_isClear hd hc.usable.parent hc.clear, Classical.not_not]
          exact fun place hplace => by simpa using hroom [] c cs rfl place hplace
        cases hfirst.mpr ⟨⟨hc, hlacks⟩, h.encodes c (by simp)⟩

/-- A run over files that can all be written ends early for want of room only. -/
theorem generate_fault_of_writable {fault : GenerateFault} (hd : d.Linkless)
    (h : Writable config cwd d cs) (hfault : (generate config cwd d cs).fault = some fault) :
    fault.cause = .exhausted := by
  induction cs generalizing d with
  | nil => cases hfault
  | cons c cs ih =>
    have hc := h.admits c (by simp)
    have hscalar := h.encodes c (by simp)
    rcases hwrite : writeInterface config cwd d c (renderInterface config c) with ⟨e, _ | other⟩
    · have hwritten := hasWritten_writeInterface hd hwrite
      rw [generate_cons_of_write hwrite] at hfault
      exact ih (hwritten.linkless hd) ((writable_cons_iff hc hscalar hwritten).mp h) hfault
    · obtain rfl : other = fault := by simpa [generate, hwrite] using hfault
      exact (writeInterface_eq_some_iff.mp hwrite).cause_of_admits hd hc hscalar

theorem generate_written_of_fault_eq_none (h : (generate config cwd d cs).fault = none) :
    (generate config cwd d cs).written = cs.map (interfacePath config) := by
  rw [generate_written, (generate_fault_eq_none_iff config cwd d cs).mp h, List.take_length]

theorem generate_returned_of_fault_eq_none (h : (generate config cwd d cs).fault = none) :
    (generate config cwd d cs).returned = some (cs.map (interfacePath config)) := by
  rw [generate_returned, if_pos h, generate_written_of_fault_eq_none h]

end

/-- Of some collections, the last one whose file is at a place. -/
def lastAt? (config : Config) (cwd : Location) (cs : List Collection) (place : Location) :
    Option Collection :=
  cs.reverse.find? fun c => fileLocation config cwd c = place

theorem lastAt?_cons :
    lastAt? config cwd (c :: cs) place = (lastAt? config cwd cs place).or
      (if fileLocation config cwd c = place then some c else none) := by
  simp [lastAt?, List.find?_append, List.find?_singleton]

theorem lastAt?_eq_none_iff :
    lastAt? config cwd cs place = none ↔ ∀ c ∈ cs, fileLocation config cwd c ≠ place := by
  simp [lastAt?]

theorem of_lastAt? (h : lastAt? config cwd cs place = some c) :
    c ∈ cs ∧ fileLocation config cwd c = place := by
  have hmem := List.mem_of_find?_eq_some h
  have hplace := List.find?_some h
  exact ⟨List.mem_reverse.mp hmem, of_decide_eq_true hplace⟩

section

variable [i : Interpreter]

/-- **What stands where after a run that succeeds.** The text of the last collection whose file is
at the place, a directory on the way to a file, or what stood there before. -/
theorem generate_node? (hd : d.Linkless) (h : (generate config cwd d cs).fault = none) :
    (generate config cwd d cs).disk.node? place =
      match lastAt? config cwd cs place with
      | some c => some (.file (interfaceBytes config c))
      | none =>
        if place ∈ cs.flatMap (directoryLocations config cwd) then some .directory
        else d.node? place := by
  induction cs generalizing d with
  | nil => simp [generate, lastAt?]
  | cons c cs ih =>
    obtain ⟨hall, -⟩ := (generate_fault_eq_none_iff_writable hd).mp h
    rcases hwrite : writeInterface config cwd d c (renderInterface config c) with ⟨e, _ | fault⟩
    · have hwritten := hasWritten_writeInterface hd hwrite
      have hnode : e.node? place =
          if place = fileLocation config cwd c then some (.file (interfaceBytes config c))
          else if place ∈ directoryLocations config cwd c then some .directory
          else d.node? place := hwritten place
      rw [generate_cons_of_write hwrite] at h ⊢
      rw [Run.after_fault] at h
      rw [Run.after_disk, ih (hwritten.linkless hd) h, lastAt?_cons]
      cases lastAt? config cwd cs place with
      | some last => rfl
      | none =>
        rw [Option.none_or, hnode, List.flatMap_cons]
        by_cases hplace : place = fileLocation config cwd c
        · -- the file stays, since it is not on the way to a later one
          have hoff : place ∉ cs.flatMap (directoryLocations config cwd) := by
            intro hmem
            obtain ⟨other, hother, hway⟩ := List.mem_flatMap.mp hmem
            exact hall.apart c (by simp) other (List.mem_cons_of_mem c hother) (hplace ▸ hway)
          rw [if_pos hplace.symm, if_neg hoff, if_pos hplace]
        · rw [if_neg (Ne.symm hplace), if_neg hplace]
          by_cases hrest : place ∈ cs.flatMap (directoryLocations config cwd) <;> simp [hrest]
    · simp [generate, hwrite] at h

omit i in
theorem exists_lastAt? (config : Config) (cwd : Location) (hc : c ∈ cs) :
    ∃ last, lastAt? config cwd cs (fileLocation config cwd c) = some last := by
  cases hlast : lastAt? config cwd cs (fileLocation config cwd c) with
  | none => exact absurd rfl (lastAt?_eq_none_iff.mp hlast c hc)
  | some last => exact ⟨last, rfl⟩

theorem node?_of_lastAt? {last : Collection} (hd : d.Linkless)
    (h : (generate config cwd d cs).fault = none)
    (hlast : lastAt? config cwd cs place = some last) :
    (generate config cwd d cs).disk.node? place = some (.file (interfaceBytes config last)) := by
  rw [generate_node? hd h, hlast]

theorem node?_of_mem_directoryLocations (hd : d.Linkless)
    (h : (generate config cwd d cs).fault = none) (hc : c ∈ cs)
    (hplace : place ∈ directoryLocations config cwd c) :
    (generate config cwd d cs).disk.node? place = some .directory := by
  obtain ⟨hall, -⟩ := (generate_fault_eq_none_iff_writable hd).mp h
  have hlast : lastAt? config cwd cs place = none := by
    rw [lastAt?_eq_none_iff]
    intro other hother heq
    exact hall.apart other hother c hc (heq ▸ hplace)
  rw [generate_node? hd h, hlast]
  exact if_pos (List.mem_flatMap.mpr ⟨c, hc, hplace⟩)

/-- A file is read under the path of every collection that has it. -/
theorem readBytes_of_lastAt? {last : Collection} (hd : d.Linkless)
    (h : (generate config cwd d cs).fault = none) (hc : c ∈ cs)
    (hlast : lastAt? config cwd cs (fileLocation config cwd c) = some last) :
    (generate config cwd d cs).disk.readBytes cwd (interfacePath config c) =
      .ok (interfaceBytes config last) := by
  have hadmits := ((generate_fault_eq_none_iff_writable hd).mp h).1.admits c hc
  have he : (generate config cwd d cs).disk.Linkless :=
    generate_linkless hd (Run.isReported_of_fault_eq_none h)
  rw [readBytes_eq_ok_iff]
  refine ⟨_, (locate_eq_ok_iff_of_linkless he).mpr ⟨hadmits.usable, .inr ⟨hadmits.named, ?_,
    .inr ⟨_, rfl⟩, fun _ => node?_of_lastAt? hd h hlast⟩⟩⟩
  exact fun place hplace => node?_of_mem_directoryLocations hd h hc hplace

end

end CollectionInterfaces
