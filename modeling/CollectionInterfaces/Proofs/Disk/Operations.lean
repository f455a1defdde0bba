import CollectionInterfaces.Disk.Operations
import CollectionInterfaces.Proofs.Disk.Naming
import CollectionInterfaces.Proofs.Disk.Walk

/-!
# What operations leave on a disk

Making directories adds directories on the way to a path and nothing else, whether it succeeds or
not (`Disk.makeDirectories_growsBy`). Writing a text changes the one place that the path leads to,
and what was written is read back from there as long as the ways to it are kept
(`Disk.readBytes_of_placeToWrite`).
-/

namespace CollectionInterfaces

namespace Path

/-- The path `q` is on the way to `p`, or is `p` itself. -/
def OnWay (q p : Path) : Prop := q.root = p.root ∧ q.names <+: p.names

/-- The path `q` is a proper prefix of `p`. -/
def Above (q p : Path) : Prop := q.OnWay p ∧ q ≠ p

/-- The path so many levels above a path. -/
def ancestor (p : Path) : Nat → Path
  | 0 => p
  | levels + 1 => p.parent.ancestor levels

variable {p q : Path}

theorem OnWay.refl : p.OnWay p := ⟨rfl, List.prefix_refl _⟩

theorem OnWay.trans {r : Path} (h : q.OnWay p) (h' : p.OnWay r) : q.OnWay r :=
  ⟨h.1.trans h'.1, h.2.trans h'.2⟩

theorem OnWay.of_parent (h : q.OnWay p.parent) : q.OnWay p :=
  ⟨h.1, h.2.trans (List.dropLast_prefix _)⟩

theorem ancestor_onWay (p : Path) (levels : Nat) : (p.ancestor levels).OnWay p := by
  induction levels generalizing p with
  | zero => exact .refl
  | succ levels ih => exact (ih p.parent).of_parent

theorem ancestor_names (p : Path) (levels : Nat) :
    (p.ancestor levels).names = p.names.take (p.names.length - levels) := by
  induction levels generalizing p with
  | zero => simp [ancestor]
  | succ levels ih =>
    rw [ancestor, ih, parent, List.dropLast_eq_take, List.take_take, List.length_take]
    congr 1
    omega

/-- What is on the way to the directory of a path is above the path, unless it is a root. -/
theorem OnWay.above (h : q.OnWay p.parent) (hnames : q.names ≠ []) : q.Above p := by
  refine ⟨h.of_parent, ?_⟩
  rintro rfl
  have hlength := h.2.length_le
  have hpos := List.length_pos_iff.mpr hnames
  simp only [parent, List.length_dropLast] at hlength
  omega

end Path

namespace Disk

variable {d e f : Disk} {cwd place : Location} {purpose : Purpose} {p q : Path} {r : Place}
  {made : Location → Prop}

/-! ## Places of paths -/

theorem locate_eq_ok_iff :
    d.locate cwd purpose p = .ok r ↔
      ∃ bytes, pathBytes p = .ok bytes ∧ bytes.length ≤ maxPathBytes ∧
        d.walk purpose maxLinks (p.start cwd) p.moves = .ok r := by
  unfold locate Path.start Path.moves
  cases pathBytes p with
  | error fault => simp
  | ok bytes =>
    by_cases hlength : maxPathBytes < bytes.length
    · have hnot := Nat.not_le.mpr hlength
      simp [hlength, hnot]
    · simp only [hlength, if_false, Except.ok.injEq, exists_eq_left', Nat.le_of_not_lt hlength,
        true_and]
      cases d.walk purpose maxLinks (if p.isAbsolute then [] else cwd) (p.names.map moveOfName) with
      | error fault => exact ⟨nofun, nofun⟩
      | ok r => exact ⟨fun | rfl => rfl, fun | rfl => rfl⟩

theorem locate_isOn (h : d.locate cwd purpose p = .ok r) : r.IsOn d := by
  rw [locate_eq_ok_iff] at h
  obtain ⟨_, -, -, hwalk⟩ := h
  exact walk_isOn hwalk

theorem locate_location (hd : d.Linkless) (h : d.locate cwd purpose p = .ok r) :
    r.location = p.location cwd := by
  rw [locate_eq_ok_iff] at h
  obtain ⟨_, -, -, hwalk⟩ := h
  exact walk_location hd hwalk

theorem locate_follow_of_write (h : d.locate cwd .write p = .ok r) :
    d.locate cwd .follow p = .ok r := by
  rw [locate_eq_ok_iff] at h
  obtain ⟨bytes, hbytes, hlength, hwalk⟩ := h
  rw [locate_eq_ok_iff]
  exact ⟨bytes, hbytes, hlength, walk_follow_of_write hwalk⟩

theorem locate_file {content : Bytes} (hkeeps : KeepsWays d e)
    (hfile : e.node? place = some (.file content)) (hr : r.IsSeat place)
    (h : d.locate cwd purpose p = .ok r) :
    e.locate cwd purpose p = .ok (.found place (.file content)) := by
  rw [locate_eq_ok_iff] at h
  obtain ⟨bytes, hbytes, hlength, hwalk⟩ := h
  rw [locate_eq_ok_iff]
  exact ⟨bytes, hbytes, hlength, walk_file hkeeps hfile hr hwalk⟩

/-- Every disk refuses the paths that cannot be named, and no disk refuses others for that. -/
theorem locate_eq_path_iff {fault : PathFault} :
    d.locate cwd purpose p = .error (.path fault) ↔ pathBytes p = .error fault := by
  unfold locate
  cases pathBytes p with
  | error other => simp
  | ok bytes =>
    dsimp only
    split
    · exact ⟨nofun, nofun⟩
    · cases d.walk purpose maxLinks (if p.isAbsolute then [] else cwd) (p.names.map moveOfName) <;>
        exact ⟨nofun, nofun⟩

/-- An operation that refuses the paths that cannot be named for that refuses others as a disk
does. -/
theorem disk_fault_of_isNameable {α : Type} {op : Except AccessFault α} {fault : AccessFault}
    (hpath : ∀ cause, op = .error (.path cause) → pathBytes p = .error cause) (hp : p.IsNameable)
    (h : op = .error fault) : ∃ cause, fault = .disk cause := by
  cases fault with
  | disk cause => exact ⟨cause, rfl⟩
  | path cause => exact absurd hp (exists_pathBytes_error_iff.mp ⟨cause, hpath cause h⟩)

/-- A path without names leads to where the walk starts. -/
theorem names_ne_nil_of_missing (h : d.locate cwd purpose p = .ok (.missing place)) :
    p.names ≠ [] := by
  rw [locate_eq_ok_iff] at h
  obtain ⟨_, -, -, hwalk⟩ := h
  intro hnames
  simp [Path.moves, hnames, walk, maxLinks, walkWith] at hwalk

/-! ## Making directories -/

theorem makeDirectory_eq_ok_iff :
    d.makeDirectory cwd p = .ok e ↔
      ∃ place, d.locate cwd .look p = .ok (.missing place) ∧ e = d.put place .directory := by
  unfold makeDirectory
  cases d.locate cwd .look p with
  | error fault => simp [bind, Except.bind]
  | ok r =>
    cases r with
    | found place node => simp [bind, Except.bind]
    | missing place => simp [bind, Except.bind, eq_comm]

/-- A single directory that is made: `Allowed` is what is known of the disk, and `made` are the
places where directories may appear. -/
theorem makeDirectory_growsBy {Allowed : Disk → Prop}
    (hmade : ∀ d place, Allowed d → d.locate cwd .look p = .ok (.missing place) → made place)
    (hd : Allowed d) (h : d.makeDirectory cwd p = .ok e) : GrowsBy made d e := by
  rw [makeDirectory_eq_ok_iff] at h
  obtain ⟨place, hplace, rfl⟩ := h
  exact .put (locate_isOn hplace) (hmade d place hd hplace)

theorem makeDirectoriesUpTo_growsBy (Allowed : Disk → Prop)
    (hallowed : ∀ d e, Allowed d → GrowsBy made d e → Allowed e) (room depth : Nat)
    (hmade : ∀ d q place, Allowed d → q.OnWay p → d.locate cwd .look q = .ok (.missing place) →
      made place)
    (hd : Allowed d) : GrowsBy made d (d.makeDirectoriesUpTo cwd room depth p).1 := by
  induction depth generalizing room p with
  | zero =>
    unfold makeDirectoriesUpTo
    split
    · exact makeDirectory_growsBy (hmade · p · · .refl) hd ‹_›
    all_goals exact .refl
  | succ depth ih =>
    unfold makeDirectoriesUpTo
    split
    · exact makeDirectory_growsBy (hmade · p · · .refl) hd ‹_›
    · exact .refl
    · cases room with
      | zero => exact .refl
      | succ room =>
        have hparent := ih room fun d q place hd hq => hmade d q place hd hq.of_parent
        dsimp only
        split
        · rename_i e _ heq
          rwa [heq] at hparent
        · rename_i e heq
          rw [heq] at hparent
          split
          · rename_i f hf
            exact hparent.trans
              (makeDirectory_growsBy (hmade · p · · .refl) (hallowed d e hd hparent) hf)
          all_goals exact hparent
    · exact .refl

/-- Making directories adds directories where nothing was. -/
theorem makeDirectories_growsBy [i : Interpreter] :
    GrowsBy (fun _ => True) d (d.makeDirectories cwd p).1 :=
  makeDirectoriesUpTo_growsBy (fun _ => True) (fun _ _ _ _ => trivial) _ _
    (fun _ _ _ _ _ _ => trivial) trivial

/-- On a disk without links the directories that are made are those that paths on the way
denote. -/
theorem makeDirectories_parent_growsBy [i : Interpreter] (cwd : Location) (p : Path)
    (hd : d.Linkless) :
    GrowsBy (fun place => ∃ q : Path, q.Above p ∧ place = q.location cwd) d
      (d.makeDirectories cwd p.parent).1 := by
  refine makeDirectoriesUpTo_growsBy Linkless (fun _ _ hd h => h.linkless hd) _ _ ?_ hd
  intro d q place hd hq hplace
  exact ⟨q, hq.above (names_ne_nil_of_missing hplace), locate_location hd hplace⟩

/-! ## Directories that are not made -/

theorem makeDirectory_eq_path_iff {fault : PathFault} :
    d.makeDirectory cwd p = .error (.path fault) ↔ pathBytes p = .error fault := by
  have hlocate : d.locate cwd .look p = .error (.path fault) ↔ pathBytes p = .error fault :=
    locate_eq_path_iff
  rw [← hlocate]
  unfold makeDirectory
  cases d.locate cwd .look p with
  | error other => simp [bind, Except.bind]
  | ok r => cases r <;> exact ⟨nofun, nofun⟩

theorem unlessDirectory_fault {fault : AccessFault} {refusal : Refusal}
    (hfault : ∃ cause, fault = .disk cause) (h : d.unlessDirectory cwd p fault = some refusal) :
    ∃ cause, refusal.fault = .disk cause := by
  obtain ⟨cause, rfl⟩ := hfault
  unfold unlessDirectory isDirectory at h
  split at h
  · cases h
  · cases h
    exact ⟨_, rfl⟩
  · rename_i other hother
    cases h
    split at hother <;> cases hother
    exact ⟨_, rfl⟩

/-- The directories of a path that can be named are refused by the disk only, or there is no room
for them. -/
theorem makeDirectoriesUpTo_fault {room depth : Nat} {fault : WriteFault} (hp : p.IsNameable)
    (h : (d.makeDirectoriesUpTo cwd room depth p).2 = some fault) :
    fault = .exhausted ∨ ∃ q cause, fault = .refused ⟨q, .disk cause⟩ := by
  have hown {d : Disk} {p : Path} {fault : AccessFault} (hp : p.IsNameable)
      (h : d.makeDirectory cwd p = .error fault) : ∃ cause, fault = .disk cause :=
    disk_fault_of_isNameable (fun _ => makeDirectory_eq_path_iff.mp) hp h
  have hunless {d : Disk} {p : Path} {cause : AccessFault} (hp : p.IsNameable)
      (hmake : d.makeDirectory cwd p = .error cause)
      (h : (d.unlessDirectory cwd p cause).map WriteFault.refused = some fault) :
      fault = .exhausted ∨ ∃ q cause, fault = .refused ⟨q, .disk cause⟩ := by
    obtain ⟨⟨q, refused⟩, hrefusal, rfl⟩ := Option.map_eq_some_iff.mp h
    obtain ⟨disk, rfl⟩ := unlessDirectory_fault (hown hp hmake) hrefusal
    exact .inr ⟨q, disk, rfl⟩
  induction depth generalizing room p with
  | zero =>
    unfold makeDirectoriesUpTo at h
    split at h
    · cases h
    · rename_i hmake
      exact absurd (hown hp hmake) (by simp)
    · cases h
      exact .inr ⟨_, _, rfl⟩
    · exact hunless hp ‹_› h
  | succ depth ih =>
    unfold makeDirectoriesUpTo at h
    split at h
    · cases h
    · rename_i hmake
      exact absurd (hown hp hmake) (by simp)
    · -- the directory above is missing: the fault is one of those above, or of the second try
      cases room with
      | zero =>
        cases h
        exact .inl rfl
      | succ room =>
        dsimp only at h
        split at h
        · rename_i hparent
          cases h
          exact ih hp.parent (by rw [hparent])
        · split at h
          · cases h
          · cases h
            exact .inr ⟨_, _, rfl⟩
          · rename_i hmake
            exact absurd (hown hp hmake) (by simp)
          · exact hunless hp ‹_› h
    · exact hunless hp ‹_› h

/-- The directories of a path that cannot be named are refused before anything is made. -/
theorem makeDirectories_of_not_isNameable [i : Interpreter] (hp : ¬p.IsNameable) :
    ∃ cause, d.makeDirectories cwd p = (d, some (.refused ⟨p, .path cause⟩)) := by
  obtain ⟨cause, hcause⟩ := exists_pathBytes_error_iff.mpr hp
  have hmake : d.makeDirectory cwd p = .error (.path cause) := makeDirectory_eq_path_iff.mpr hcause
  refine ⟨cause, ?_⟩
  unfold makeDirectories makeDirectoriesUpTo
  rw [hmake]

/-! ## Directories that there is no room for -/

/-- More directories are missing on the way to a path than there is room for: neither the path nor
any of the next paths above it, one for each call that there is room for, has a directory to stand
in. -/
def LacksMoreThan (d : Disk) (cwd : Location) (room : Nat) (p : Path) : Prop :=
  room < p.names.length ∧ ∀ levels ≤ room, d.locate cwd .look (p.ancestor levels) =
    .error (.disk .noEntry)

theorem lacksMoreThan_zero_iff :
    d.LacksMoreThan cwd 0 p ↔ 0 < p.names.length ∧
      d.locate cwd .look p = .error (.disk .noEntry) := by
  simp [LacksMoreThan, Path.ancestor]

theorem lacksMoreThan_succ_iff {room : Nat} :
    d.LacksMoreThan cwd (room + 1) p ↔
      d.locate cwd .look p = .error (.disk .noEntry) ∧ d.LacksMoreThan cwd room p.parent := by
  have hlength : room < p.parent.names.length ↔ room + 1 < p.names.length := by
    simp only [Path.parent, List.length_dropLast]
    omega
  unfold LacksMoreThan
  rw [hlength]
  constructor
  · rintro ⟨hroom, hall⟩
    exact ⟨hall 0 (Nat.zero_le _), hroom, fun levels hle => hall (levels + 1) (by omega)⟩
  · rintro ⟨hown, hroom, hall⟩
    refine ⟨hroom, ?_⟩
    rintro (_ | levels) hle
    · exact hown
    · exact hall levels (by omega)

theorem makeDirectory_eq_noEntry_iff :
    d.makeDirectory cwd p = .error (.disk .noEntry) ↔
      d.locate cwd .look p = .error (.disk .noEntry) := by
  unfold makeDirectory
  cases d.locate cwd .look p with
  | error fault => simp [bind, Except.bind]
  | ok r => cases r <;> simp [bind, Except.bind]

/-- Nothing is made if there is no room. -/
theorem makeDirectoriesUpTo_of_lacksMoreThan {room depth : Nat} (hdepth : room < depth)
    (h : d.LacksMoreThan cwd room p) :
    d.makeDirectoriesUpTo cwd room depth p = (d, some .exhausted) := by
  induction room generalizing depth p with
  | zero =>
    obtain ⟨depth, rfl⟩ := Nat.exists_eq_add_of_lt hdepth
    have hmake := makeDirectory_eq_noEntry_iff.mpr (lacksMoreThan_zero_iff.mp h).2
    unfold makeDirectoriesUpTo
    simp [hmake]
  | succ room ih =>
    obtain ⟨depth, rfl⟩ : ∃ more, depth = more + 1 := ⟨depth - 1, by omega⟩
    obtain ⟨hown, hparent⟩ := lacksMoreThan_succ_iff.mp h
    have hmake := makeDirectory_eq_noEntry_iff.mpr hown
    unfold makeDirectoriesUpTo
    simp [hmake, ih (Nat.lt_of_succ_lt_succ hdepth) hparent]

theorem lacksMoreThan_of_makeDirectoriesUpTo {room : Nat}
    (h : (d.makeDirectoriesUpTo cwd room p.names.length p).2 = some .exhausted) :
    d.LacksMoreThan cwd room p := by
  generalize hdepth : p.names.length = depth at h
  induction depth generalizing room p with
  | zero =>
    unfold makeDirectoriesUpTo at h
    split at h <;> simp at h
  | succ depth ih =>
    unfold makeDirectoriesUpTo at h
    split at h
    · cases h
    · cases h
    · rename_i hmake
      have hown := makeDirectory_eq_noEntry_iff.mp hmake
      cases room with
      | zero => exact lacksMoreThan_zero_iff.mpr ⟨by omega, hown⟩
      | succ room =>
        refine lacksMoreThan_succ_iff.mpr ⟨hown, ?_⟩
        dsimp only at h
        split at h
        · rename_i hparent
          cases h
          exact ih (by simp [Path.parent, hdepth]) (congrArg Prod.snd hparent)
        · split at h <;> simp at h
    · simp at h

/-- **When there is no room for directories.** Exactly if more of them are missing. -/
theorem makeDirectories_eq_exhausted_iff [i : Interpreter] :
    (d.makeDirectories cwd p).2 = some .exhausted ↔ d.LacksMoreThan cwd i.directoryRoom p := by
  constructor
  · exact lacksMoreThan_of_makeDirectoriesUpTo
  · intro h
    rw [makeDirectories, makeDirectoriesUpTo_of_lacksMoreThan h.1 h]

/-! ## Writing and reading files -/

theorem placeToWrite_eq_ok_iff :
    d.placeToWrite cwd p = .ok place ↔
      ∃ r, d.locate cwd .write p = .ok r ∧ r.IsSeat place := by
  unfold placeToWrite
  cases d.locate cwd .write p with
  | error fault => simp [bind, Except.bind]
  | ok r =>
    cases r with
    | missing there => simp [bind, Except.bind, Place.IsSeat]
    | found there node => cases node <;> simp [bind, Except.bind, Place.IsSeat]

theorem placeToWrite_eq_path_iff {fault : PathFault} :
    d.placeToWrite cwd p = .error (.path fault) ↔ pathBytes p = .error fault := by
  have hlocate : d.locate cwd .write p = .error (.path fault) ↔ pathBytes p = .error fault :=
    locate_eq_path_iff
  rw [← hlocate]
  unfold placeToWrite
  cases d.locate cwd .write p with
  | error other => simp [bind, Except.bind]
  | ok r =>
    cases r with
    | missing there => exact ⟨nofun, nofun⟩
    | found there node => cases node <;> exact ⟨nofun, nofun⟩

theorem placeToWrite_of_not_isNameable (hp : ¬p.IsNameable) :
    ∃ cause, d.placeToWrite cwd p = .error (.path cause) := by
  obtain ⟨cause, hcause⟩ := exists_pathBytes_error_iff.mpr hp
  exact ⟨cause, placeToWrite_eq_path_iff.mpr hcause⟩

/-- A file is written where there is nothing or a file. -/
theorem node?_of_placeToWrite (h : d.placeToWrite cwd p = .ok place) :
    d.node? place = none ∨ ∃ old, d.node? place = some (.file old) := by
  rw [placeToWrite_eq_ok_iff] at h
  obtain ⟨r, hr, rfl | ⟨old, rfl⟩⟩ := h
  · exact .inl (locate_isOn hr)
  · exact .inr ⟨old, locate_isOn hr (by simp)⟩

theorem ne_root_of_placeToWrite (h : d.placeToWrite cwd p = .ok place) : place ≠ [] := by
  rintro rfl
  simpa using node?_of_placeToWrite h

theorem placeToWrite_location (hd : d.Linkless) (h : d.placeToWrite cwd p = .ok place) :
    place = p.location cwd := by
  rw [placeToWrite_eq_ok_iff] at h
  obtain ⟨r, hr, rfl | ⟨old, rfl⟩⟩ := h <;>
    exact locate_location hd hr

theorem readBytes_eq_ok_iff {content : Bytes} :
    d.readBytes cwd p = .ok content ↔
      ∃ place, d.locate cwd .follow p = .ok (.found place (.file content)) := by
  unfold readBytes
  cases d.locate cwd .follow p with
  | error fault => simp
  | ok r =>
    cases r with
    | missing there => simp
    | found there node => cases node <;> simp

/-- The file that a path was written to is found under the path while the ways are kept. -/
theorem readBytes_of_placeToWrite {content : Bytes} (h : d.placeToWrite cwd p = .ok place)
    (hkeeps : KeepsWays d e) (hfile : e.node? place = some (.file content)) :
    e.readBytes cwd p = .ok content := by
  rw [placeToWrite_eq_ok_iff] at h
  obtain ⟨r, hr, hseat⟩ := h
  rw [readBytes_eq_ok_iff]
  exact ⟨place, locate_file hkeeps hfile hseat (locate_follow_of_write hr)⟩

/-- What is read through a path on a disk without links stands at the place of the path. -/
theorem node?_of_readBytes {content : Bytes} (hd : d.Linkless)
    (h : d.readBytes cwd p = .ok content) : d.node? (p.location cwd) = some (.file content) := by
  rw [readBytes_eq_ok_iff] at h
  obtain ⟨place, hplace⟩ := h
  obtain rfl : place = p.location cwd := locate_location hd hplace
  exact locate_isOn hplace (by simp)

/-- A file is read as long as the ways are kept and it stays at its place. -/
theorem readBytes_of_keepsWays {content : Bytes} (hd : d.Linkless) (hkeeps : KeepsWays d e)
    (hread : d.readBytes cwd p = .ok content)
    (hfile : e.node? (p.location cwd) = some (.file content)) :
    e.readBytes cwd p = .ok content := by
  rw [readBytes_eq_ok_iff] at hread
  obtain ⟨place, hplace⟩ := hread
  obtain rfl : place = p.location cwd := locate_location hd hplace
  rw [readBytes_eq_ok_iff]
  exact ⟨_, locate_file hkeeps hfile (.inr ⟨content, rfl⟩) hplace⟩

/-- A file that is read before directories are made is read afterwards. -/
theorem readBytes_of_growsBy {content : Bytes} (hgrows : GrowsBy made d e)
    (h : d.readBytes cwd p = .ok content) : e.readBytes cwd p = .ok content := by
  rw [readBytes_eq_ok_iff] at h
  obtain ⟨place, hplace⟩ := h
  have hnode : d.node? place = some (.file content) := locate_isOn hplace (by simp)
  rw [readBytes_eq_ok_iff]
  exact ⟨place, locate_file hgrows.keepsWays (hgrows.node?_eq hnode) (.inr ⟨content, rfl⟩) hplace⟩

end Disk

end CollectionInterfaces
