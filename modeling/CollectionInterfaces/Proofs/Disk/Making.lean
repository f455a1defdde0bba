import CollectionInterfaces.Proofs.Disk.Waypoints

/-!
# What is made on a disk

On a disk without links the directories of a path are made exactly if nothing but directories
stands at its waypoints, and all its waypoints are directories afterwards
(`Disk.makeDirectories_eq_none_iff`). A text is written exactly if the disk admits a file there
(`Disk.Admits`).
-/

namespace CollectionInterfaces

variable {cwd place : Location} {p : Path}

theorem Path.IsUsable.parent (h : p.IsUsable) : p.parent.IsUsable := by
  obtain ⟨bytes, hbytes, hlength⟩ := h.text
  obtain ⟨own, hown, hle⟩ := Disk.length_pathBytes_parent hbytes
  have hone : 1 ≤ maxPathBytes := by decide
  refine ⟨⟨own, hown, by omega⟩, ?_⟩
  intro m hm
  apply h.moves
  obtain ⟨name, hname, rfl⟩ := List.mem_map.mp hm
  exact List.mem_map_of_mem (List.dropLast_subset _ hname)

namespace Disk

variable {d e f : Disk} {places more : List Location}

/-- Directories stand at the places, and elsewhere what stood there before. -/
def HasMade (places : List Location) (d e : Disk) : Prop :=
  ∀ place, e.node? place = if place ∈ places then some .directory else d.node? place

namespace HasMade

theorem of_allDirectories (h : d.AllDirectories places) : HasMade places d d := by
  intro place
  split
  · exact h place ‹_›
  · rfl

theorem put (h : HasMade places d e) (hplace : place ≠ []) :
    HasMade (places ++ [place]) d (e.put place .directory) := by
  intro other
  rw [node?_put hplace, h other]
  by_cases hother : other = place <;> by_cases hmem : other ∈ places <;> simp [hother, hmem]

theorem allDirectories (h : HasMade places d e) : e.AllDirectories places := by
  intro place hplace
  rw [h place, if_pos hplace]

theorem linkless (h : HasMade places d e) (hd : d.Linkless) : e.Linkless := by
  intro place target hlink
  rw [h place] at hlink
  split at hlink
  · cases hlink
  · exact hd place target hlink

/-- What is clear after directories are made was clear before. -/
theorem isClear_of_isClear (h : HasMade places d e) (hplaces : d.IsClear places)
    (he : e.IsClear more) : d.IsClear more := by
  intro place hplace
  by_cases hmem : place ∈ places
  · exact hplaces place hmem
  · have hnode := he place hplace
    rwa [h place, if_neg hmem] at hnode

end HasMade

/-! ## Directories -/

theorem unlessDirectory_eq_none_iff {fault : AccessFault} :
    d.unlessDirectory cwd p fault = none ↔
      ∃ place, d.locate cwd .follow p = .ok (.found place .directory) := by
  unfold unlessDirectory isDirectory
  cases d.locate cwd .follow p with
  | error fault =>
    cases fault with
    | path fault => simp
    | disk fault => cases fault <;> simp
  | ok r =>
    cases r with
    | missing there => simp
    | found there node => cases node <;> simp

/-- A directory is there exactly if one stands at each waypoint. -/
theorem unlessDirectory_eq_none_iff_of_linkless {fault : AccessFault} (hd : d.Linkless) :
    d.unlessDirectory cwd p fault = none ↔ p.IsUsable ∧ d.AllDirectories (p.waypoints cwd) := by
  rw [unlessDirectory_eq_none_iff]
  constructor
  · rintro ⟨place, hplace⟩
    obtain ⟨hp, ⟨hdirs, -⟩ | ⟨-, -, hseat, -⟩⟩ := (locate_eq_ok_iff_of_linkless hd).mp hplace
    · exact ⟨hp, hdirs⟩
    · simp [Place.IsSeat] at hseat
  · rintro ⟨hp, hdirs⟩
    exact ⟨_, (locate_eq_ok_iff_of_linkless hd).mpr ⟨hp, .inl ⟨hdirs, rfl⟩⟩⟩

/-- A single directory is made exactly if it is the only one that is missing. -/
theorem makeDirectory_eq_ok_iff_of_linkless (hd : d.Linkless) :
    d.makeDirectory cwd p = .ok e ↔ p.IsUsable ∧ p.IsNamed ∧
      d.AllDirectories (p.parent.waypoints cwd) ∧ d.node? (p.location cwd) = none ∧
      e = d.put (p.location cwd) .directory := by
  rw [makeDirectory_eq_ok_iff]
  constructor
  · rintro ⟨place, hplace, rfl⟩
    obtain rfl : place = p.location cwd := locate_location hd hplace
    obtain ⟨hp, ⟨-, hfound⟩ | ⟨hnamed, hdirs, -, hnode⟩⟩ :=
      (locate_eq_ok_iff_of_linkless hd).mp hplace
    · cases hfound
    · exact ⟨hp, hnamed, hdirs, hnode, rfl⟩
  · rintro ⟨hp, hnamed, hdirs, hnode, rfl⟩
    exact ⟨_, (locate_eq_ok_iff_of_linkless hd).mpr
      ⟨hp, .inr ⟨hnamed, hdirs, .inl rfl, hnode⟩⟩, rfl⟩

/-- Where nothing but directories stands, a path whose directory is there leads somewhere. -/
theorem exists_locate_of_isClear (purpose : Purpose) (hd : d.Linkless) (hp : p.IsUsable)
    (hclear : d.IsClear (p.waypoints cwd)) (hparent : d.AllDirectories (p.parent.waypoints cwd)) :
    ∃ r, d.locate cwd purpose p = .ok r := by
  by_cases hnamed : p.IsNamed
  · have hwaypoints : p.waypoints cwd = p.parent.waypoints cwd ++ [p.location cwd] :=
      hnamed.waypoints_eq
    rcases hclear (p.location cwd) (by simp [hwaypoints]) with hnode | hnode
    · exact ⟨_, (locate_eq_ok_iff_of_linkless hd).mpr ⟨hp, .inr ⟨hnamed, hparent, .inl rfl, hnode⟩⟩⟩
    · refine ⟨_, (locate_eq_ok_iff_of_linkless hd).mpr ⟨hp, .inl ⟨?_, rfl⟩⟩⟩
      rw [hwaypoints]
      exact List.forall_mem_append.mpr ⟨hparent, by simpa using hnode⟩
  · rw [← Path.waypoints_parent_of_not_isNamed hnamed] at hparent
    exact ⟨_, (locate_eq_ok_iff_of_linkless hd).mpr ⟨hp, .inl ⟨hparent, rfl⟩⟩⟩

/-- What making a single directory comes to where nothing but directories stands. -/
theorem makeDirectory_of_isClear (hd : d.Linkless) (hp : p.IsUsable)
    (hclear : d.IsClear (p.waypoints cwd)) :
    (d.AllDirectories (p.waypoints cwd) ∧ d.makeDirectory cwd p = .error (.disk .exists)) ∨
      (∃ e, d.makeDirectory cwd p = .ok e) ∨
      (¬d.AllDirectories (p.parent.waypoints cwd) ∧
        d.makeDirectory cwd p = .error (.disk .noEntry)) := by
  unfold makeDirectory
  rcases locate_of_isClear .look hp hclear with ⟨r, hr⟩ | hnone
  · rw [hr]
    obtain ⟨-, ⟨hdirs, rfl⟩ | ⟨hnamed, -, rfl | ⟨content, rfl⟩, hon⟩⟩ :=
      (locate_eq_ok_iff_of_linkless hd).mp hr
    · exact .inl ⟨hdirs, rfl⟩
    · exact .inr (.inl ⟨_, rfl⟩)
    · have hnode := hclear (p.location cwd) (by simp [hnamed.waypoints_eq])
      rw [hon (by simp)] at hnode
      simp at hnode
  · refine .inr (.inr ⟨?_, by rw [hnone]; rfl⟩)
    intro hparent
    obtain ⟨r, hr⟩ := exists_locate_of_isClear .look hd hp hclear hparent
    rw [hnone] at hr
    cases hr

theorem HasMade.of_makeDirectory (hd : e.Linkless) (hmade : HasMade (p.parent.waypoints cwd) d e)
    (h : e.makeDirectory cwd p = .ok f) : HasMade (p.waypoints cwd) d f := by
  obtain ⟨-, hnamed, -, hnode, rfl⟩ := (makeDirectory_eq_ok_iff_of_linkless hd).mp h
  rw [hnamed.waypoints_eq]
  exact hmade.put (ne_root_of_node?_eq_none hnode)

theorem HasMade.of_subset (h : HasMade more d e) (hsub : more ⊆ places)
    (hdirs : e.AllDirectories places) : HasMade places d e := by
  intro place
  split
  · exact hdirs place ‹_›
  · rename_i hplace
    rw [h place, if_neg fun hmem => hplace (hsub hmem)]

/-- A directory that is there, or is the only one missing, is made at the first try. -/
theorem makeDirectoriesUpTo_of_settled (hd : d.Linkless) (hp : p.IsUsable) (room depth : Nat)
    (h : (d.AllDirectories (p.waypoints cwd) ∧ d.makeDirectory cwd p = .error (.disk .exists)) ∨
      ∃ e, d.makeDirectory cwd p = .ok e) :
    ∃ e, d.makeDirectoriesUpTo cwd room depth p = (e, none) ∧ HasMade (p.waypoints cwd) d e := by
  unfold makeDirectoriesUpTo
  rcases h with ⟨hdirs, hmake⟩ | ⟨e, hmake⟩
  · have hnone : d.unlessDirectory cwd p (.disk .exists) = none :=
      (unlessDirectory_eq_none_iff_of_linkless hd).mpr ⟨hp, hdirs⟩
    exact ⟨d, by simp [hmake, hnone], .of_allDirectories hdirs⟩
  · have hparent := ((makeDirectory_eq_ok_iff_of_linkless hd).mp hmake).2.2.1
    exact ⟨e, by simp [hmake], .of_makeDirectory hd (.of_allDirectories hparent) hmake⟩

/-- The directories of a path are made where nothing but directories stands at its waypoints, if
there is room for those that are missing. -/
theorem makeDirectoriesUpTo_of_isClear (hd : d.Linkless) {room depth : Nat}
    (hdepth : p.names.length = depth) (hp : p.IsUsable) (hclear : d.IsClear (p.waypoints cwd))
    (hroom : ¬d.LacksMoreThan cwd room p) :
    ∃ e, d.makeDirectoriesUpTo cwd room depth p = (e, none) ∧ HasMade (p.waypoints cwd) d e := by
  induction depth generalizing room p with
  | zero =>
    have hparent : d.AllDirectories (p.parent.waypoints cwd) := by
      have hnames : p.names = [] := List.length_eq_zero_iff.mp hdepth
      simp [AllDirectories, Path.waypoints, Path.moves, Path.parent, hnames, Move.waypoints]
    obtain hfound | hmake | ⟨hnot, -⟩ := makeDirectory_of_isClear hd hp hclear
    · exact makeDirectoriesUpTo_of_settled hd hp _ 0 (.inl hfound)
    · exact makeDirectoriesUpTo_of_settled hd hp _ 0 (.inr hmake)
    · exact absurd hparent hnot
  | succ depth ih =>
    have hsub : p.parent.waypoints cwd ⊆ p.waypoints cwd := p.parent_onWay.waypoints_subset
    have hlength : p.parent.names.length = depth := by simp [Path.parent, hdepth]
    obtain hfound | hmake | ⟨-, hmake⟩ := makeDirectory_of_isClear hd hp hclear
    · exact makeDirectoriesUpTo_of_settled hd hp _ _ (.inl hfound)
    · exact makeDirectoriesUpTo_of_settled hd hp _ _ (.inr hmake)
    have hmissing := makeDirectory_eq_noEntry_iff.mp hmake
    cases room with
    | zero => exact absurd (lacksMoreThan_zero_iff.mpr ⟨by omega, hmissing⟩) hroom
    | succ room =>
    have hroom' : ¬d.LacksMoreThan cwd room p.parent := fun hlacks =>
      hroom (lacksMoreThan_succ_iff.mpr ⟨hmissing, hlacks⟩)
    obtain ⟨e, hup, hmade⟩ := ih hlength hp.parent (hclear.mono hsub) hroom'
    have he : e.Linkless := hmade.linkless hd
    have hclear' : e.IsClear (p.waypoints cwd) := by
      intro place hplace
      rw [hmade place]
      split
      · exact .inr rfl
      · exact hclear place hplace
    unfold makeDirectoriesUpTo
    -- the directory above is there now, so that the second try does not miss it
    obtain ⟨hdirs, hagain⟩ | ⟨f, hagain⟩ | ⟨hnot, -⟩ := makeDirectory_of_isClear he hp hclear'
    · have hnone : e.unlessDirectory cwd p (.disk .exists) = none :=
        (unlessDirectory_eq_none_iff_of_linkless he).mpr ⟨hp, hdirs⟩
      exact ⟨e, by simp [hmake, hup, hagain, hnone], hmade.of_subset hsub hdirs⟩
    · exact ⟨f, by simp [hmake, hup, hagain], hmade.of_makeDirectory he hagain⟩
    · exact absurd hmade.allDirectories hnot

theorem isClear_of_makeDirectory (hd : d.Linkless) (h : d.makeDirectory cwd p = .ok e) :
    p.IsUsable ∧ d.IsClear (p.waypoints cwd) := by
  obtain ⟨hp, hnamed, hdirs, hnode, -⟩ := (makeDirectory_eq_ok_iff_of_linkless hd).mp h
  refine ⟨hp, ?_⟩
  rw [hnamed.waypoints_eq]
  exact List.forall_mem_append.mpr ⟨fun place hplace => .inr (hdirs place hplace), by simp [hnode]⟩

theorem isClear_of_unlessDirectory {fault : AccessFault} (hd : d.Linkless)
    (h : d.unlessDirectory cwd p fault = none) : p.IsUsable ∧ d.IsClear (p.waypoints cwd) := by
  obtain ⟨hp, hdirs⟩ := (unlessDirectory_eq_none_iff_of_linkless hd).mp h
  exact ⟨hp, fun place hplace => .inr (hdirs place hplace)⟩

/-- Nothing but directories stood at the waypoints of a path whose directories were made. -/
theorem isClear_of_makeDirectoriesUpTo (hd : d.Linkless) {room : Nat}
    (h : d.makeDirectoriesUpTo cwd room p.names.length p = (e, none)) :
    p.IsUsable ∧ d.IsClear (p.waypoints cwd) := by
  generalize hdepth : p.names.length = depth at h
  induction depth generalizing room p e with
  | zero =>
    unfold makeDirectoriesUpTo at h
    split at h
    · exact isClear_of_makeDirectory hd ‹_›
    · cases h
    · cases h
    · exact isClear_of_unlessDirectory hd (Option.map_eq_none_iff.mp (congrArg Prod.snd h))
  | succ depth ih =>
    have hlength : p.parent.names.length = depth := by simp [Path.parent, hdepth]
    unfold makeDirectoriesUpTo at h
    split at h
    · exact isClear_of_makeDirectory hd ‹_›
    · cases h
    · cases room with
      | zero => cases h
      | succ room =>
        dsimp only at h
        split at h
        · cases h
        · rename_i made hup
          obtain ⟨hparent, hclear⟩ := ih hlength hup
          have hroom : ¬d.LacksMoreThan cwd room p.parent := fun hlacks => by
            rw [makeDirectoriesUpTo_of_lacksMoreThan (hlength ▸ hlacks.1) hlacks] at hup
            cases hup
          obtain ⟨_, hup', hmade⟩ := makeDirectoriesUpTo_of_isClear hd hlength hparent hclear hroom
          obtain rfl := congrArg Prod.fst (hup.symm.trans hup')
          have hmadeLinkless := hmade.linkless hd
          have hback (hagain : p.IsUsable ∧ Disk.IsClear _ (p.waypoints cwd)) :
              p.IsUsable ∧ d.IsClear (p.waypoints cwd) :=
            ⟨hagain.1, hmade.isClear_of_isClear hclear hagain.2⟩
          split at h
          · exact hback (isClear_of_makeDirectory hmadeLinkless ‹_›)
          · cases h
          · cases h
          · exact hback (isClear_of_unlessDirectory hmadeLinkless
              (Option.map_eq_none_iff.mp (congrArg Prod.snd h)))
    · exact isClear_of_unlessDirectory hd (Option.map_eq_none_iff.mp (congrArg Prod.snd h))

section

variable [i : Interpreter]

/-- **Which directories can be made.** Exactly those of a usable path at whose waypoints nothing
but directories stands, if there is room for those that are missing. -/
theorem makeDirectories_eq_none_iff (hd : d.Linkless) :
    (d.makeDirectories cwd p).2 = none ↔ p.IsUsable ∧ d.IsClear (p.waypoints cwd) ∧
      ¬d.LacksMoreThan cwd i.directoryRoom p := by
  constructor
  · intro h
    obtain ⟨hp, hclear⟩ := isClear_of_makeDirectoriesUpTo hd (Prod.ext rfl h)
    refine ⟨hp, hclear, fun hlacks => ?_⟩
    rw [makeDirectories_eq_exhausted_iff.mpr hlacks] at h
    cases h
  · rintro ⟨hp, hclear, hroom⟩
    obtain ⟨e, he, -⟩ := makeDirectoriesUpTo_of_isClear hd rfl hp hclear hroom
    exact congrArg Prod.snd he

/-- Directories that are made stand at all waypoints then, and nothing else has changed. -/
theorem hasMade_makeDirectories (hd : d.Linkless) (h : d.makeDirectories cwd p = (e, none)) :
    HasMade (p.waypoints cwd) d e := by
  obtain ⟨hp, hclear, hroom⟩ := (makeDirectories_eq_none_iff hd).mp (congrArg Prod.snd h)
  obtain ⟨f, hf, hmade⟩ := makeDirectoriesUpTo_of_isClear hd rfl hp hclear hroom
  obtain rfl := congrArg Prod.fst (h.symm.trans hf)
  exact hmade

end

/-- A path has no directory to stand in exactly if not all waypoints of that are directories. -/
theorem locate_look_eq_noEntry_iff_of_isClear (hd : d.Linkless) (hp : p.IsUsable)
    (hclear : d.IsClear (p.waypoints cwd)) :
    d.locate cwd .look p = .error (.disk .noEntry) ↔
      ¬d.AllDirectories (p.parent.waypoints cwd) := by
  have hsub : p.parent.waypoints cwd ⊆ p.waypoints cwd := p.parent_onWay.waypoints_subset
  rw [← makeDirectory_eq_noEntry_iff]
  obtain ⟨hdirs, hmake⟩ | ⟨e, hmake⟩ | ⟨hnot, hmake⟩ := makeDirectory_of_isClear hd hp hclear
  · have hparent : d.AllDirectories (p.parent.waypoints cwd) :=
      fun place hplace => hdirs place (hsub hplace)
    simp [hmake, hparent]
  · have hparent := ((makeDirectory_eq_ok_iff_of_linkless hd).mp hmake).2.2.1
    simp [hmake, hparent]
  · exact iff_of_true hmake hnot

/-- Where nothing but directories stands, too many of them are missing exactly if one is that is
further up than there is room for. -/
theorem lacksMoreThan_iff_of_isClear {room : Nat} (hd : d.Linkless) (hp : p.IsUsable)
    (hclear : d.IsClear (p.waypoints cwd)) :
    d.LacksMoreThan cwd room p ↔ ¬d.AllDirectories ((p.ancestor (room + 1)).waypoints cwd) := by
  have hlook {p : Path} (hp : p.IsUsable) (hclear : d.IsClear (p.waypoints cwd)) :=
    locate_look_eq_noEntry_iff_of_isClear hd hp hclear
  induction room generalizing p with
  | zero =>
    rw [lacksMoreThan_zero_iff, hlook hp hclear]
    refine and_iff_right_of_imp fun hnot => ?_
    rw [List.length_pos_iff]
    intro hnames
    exact hnot (by simp [AllDirectories, Path.waypoints, Path.moves, Path.parent, hnames,
      Move.waypoints])
  | succ room ih =>
    have hsub : p.parent.waypoints cwd ⊆ p.waypoints cwd := p.parent_onWay.waypoints_subset
    have hparent : d.LacksMoreThan cwd room p.parent ↔
        ¬d.AllDirectories ((p.ancestor (room + 2)).waypoints cwd) :=
      ih hp.parent (hclear.mono hsub)
    rw [lacksMoreThan_succ_iff, hlook hp hclear, hparent]
    refine and_iff_right_of_imp fun hnot hdirs => hnot ?_
    exact fun place hplace => hdirs place ((p.parent.ancestor_onWay _).waypoints_subset hplace)

/-! ## Files -/

/-- A file can be written under a path: nothing but directories stands on the way, none of them at
its own place, where a file stands or nothing. -/
structure Admits (d : Disk) (cwd : Location) (p : Path) : Prop where
  usable : p.IsUsable
  named : p.IsNamed
  clear : d.IsClear (p.parent.waypoints cwd)
  free : d.node? (p.location cwd) = none ∨ ∃ old, d.node? (p.location cwd) = some (.file old)
  apart : p.location cwd ∉ p.parent.waypoints cwd

theorem Admits.ne_root (h : d.Admits cwd p) : p.location cwd ≠ [] := by
  apply Move.ne_root_of_mem_waypoints
  change p.location cwd ∈ p.waypoints cwd
  simp [h.named.waypoints_eq]

theorem placeToWrite_eq_ok_iff_of_linkless (hd : d.Linkless) :
    d.placeToWrite cwd p = .ok place ↔
      p.IsUsable ∧ p.IsNamed ∧ d.AllDirectories (p.parent.waypoints cwd) ∧
        (d.node? place = none ∨ ∃ old, d.node? place = some (.file old)) ∧
        place = p.location cwd := by
  constructor
  · intro h
    obtain ⟨r, hr, hseat⟩ := placeToWrite_eq_ok_iff.mp h
    obtain rfl := placeToWrite_location hd h
    obtain ⟨hp, ⟨-, rfl⟩ | ⟨hnamed, hdirs, -⟩⟩ := (locate_eq_ok_iff_of_linkless hd).mp hr
    · simp [Place.IsSeat] at hseat
    · exact ⟨hp, hnamed, hdirs, node?_of_placeToWrite h, rfl⟩
  · rintro ⟨hp, hnamed, hdirs, hnode, rfl⟩
    have hlocate {r : Place} (hseat : r.IsSeat (p.location cwd)) (hon : r.IsOn d) :
        d.locate cwd .write p = .ok r :=
      (locate_eq_ok_iff_of_linkless hd).mpr ⟨hp, .inr ⟨hnamed, hdirs, hseat, hon⟩⟩
    rcases hnode with hnode | ⟨old, hnode⟩
    · exact placeToWrite_eq_ok_iff.mpr ⟨_, hlocate (.inl rfl) hnode, .inl rfl⟩
    · exact placeToWrite_eq_ok_iff.mpr
        ⟨_, hlocate (.inr ⟨old, rfl⟩) fun _ => hnode, .inr ⟨old, rfl⟩⟩

/-- A file can be opened after its directories are made exactly if the disk admits it and there is
room for the directories that are missing. -/
theorem opens_iff [i : Interpreter] (hd : d.Linkless) :
    (∃ e, d.makeDirectories cwd p.parent = (e, none) ∧
      e.placeToWrite cwd p = .ok (p.location cwd)) ↔
      d.Admits cwd p ∧ ¬d.LacksMoreThan cwd i.directoryRoom p.parent := by
  refine Iff.symm ⟨?_, ?_⟩
  · rintro ⟨h, hroom⟩
    have hnone := (makeDirectories_eq_none_iff hd).mpr ⟨h.usable.parent, h.clear, hroom⟩
    have hmade := hasMade_makeDirectories hd (Prod.ext rfl hnone)
    refine ⟨_, Prod.ext rfl hnone, (placeToWrite_eq_ok_iff_of_linkless (hmade.linkless hd)).mpr
      ⟨h.usable, h.named, hmade.allDirectories, ?_, rfl⟩⟩
    rw [hmade (p.location cwd), if_neg h.apart]
    exact h.free
  · rintro ⟨e, he, hplace⟩
    have hmade := hasMade_makeDirectories hd he
    obtain ⟨-, hclear, hroom⟩ := (makeDirectories_eq_none_iff hd).mp (congrArg Prod.snd he)
    obtain ⟨hp, hnamed, -, hfree, -⟩ :=
      (placeToWrite_eq_ok_iff_of_linkless (hmade.linkless hd)).mp hplace
    have happart : p.location cwd ∉ p.parent.waypoints cwd := by
      intro hmem
      rw [hmade.allDirectories _ hmem] at hfree
      simp at hfree
    rw [hmade (p.location cwd), if_neg happart] at hfree
    exact ⟨⟨hp, hnamed, hclear, hfree, happart⟩, hroom⟩

/-- A file stands at the place of a path, directories on the way to it, and elsewhere what stood
there before. -/
def HasWritten (cwd : Location) (p : Path) (content : Bytes) (d e : Disk) : Prop :=
  ∀ place, e.node? place =
    if place = p.location cwd then some (.file content)
    else if place ∈ p.parent.waypoints cwd then some .directory
    else d.node? place

namespace HasWritten

variable {q : Path} {content : Bytes}

theorem of_hasMade (hmade : HasMade (p.parent.waypoints cwd) d e) (hroot : p.location cwd ≠ []) :
    HasWritten cwd p content d (e.put (p.location cwd) (.file content)) := by
  intro place
  rw [node?_put hroot, hmade place]

theorem linkless (h : HasWritten cwd p content d e) (hd : d.Linkless) : e.Linkless := by
  intro place target hlink
  rw [h place] at hlink
  split at hlink
  · cases hlink
  split at hlink
  · cases hlink
  · exact hd place target hlink

theorem node?_directory (h : HasWritten cwd p content d e) (hp : d.Admits cwd p)
    (hmem : place ∈ p.parent.waypoints cwd) : e.node? place = some .directory := by
  have hne : place ≠ p.location cwd := fun heq => hp.apart (heq ▸ hmem)
  rw [h place, if_neg hne, if_pos hmem]

/-- Directories stand where they stood before, and on the way to the file. -/
theorem node?_eq_directory_iff (h : HasWritten cwd p content d e) (hp : d.Admits cwd p) :
    e.node? place = some .directory ↔
      d.node? place = some .directory ∨ place ∈ p.parent.waypoints cwd := by
  constructor
  · intro hdir
    rw [h place] at hdir
    split at hdir
    · cases hdir
    split at hdir
    · exact .inr ‹_›
    · exact .inl hdir
  · rintro (hdir | hmem)
    · have hne : place ≠ p.location cwd := by
        rintro rfl
        have hfree := hp.free
        simp [hdir] at hfree
      rw [h place, if_neg hne, hdir, ite_self]
    · exact h.node?_directory hp hmem

/-- The file neither has files on its way that are admitted later, nor stands on the way to them. -/
theorem apart_of_admits (h : HasWritten cwd p content d e) (hp : d.Admits cwd p)
    (hq : e.Admits cwd q) :
    p.location cwd ∉ q.parent.waypoints cwd ∧ q.location cwd ∉ p.parent.waypoints cwd := by
  constructor
  · intro hmem
    have hnode := hq.clear _ hmem
    simp [h (p.location cwd)] at hnode
  · intro hmem
    have hnode := hq.free
    simp [h.node?_directory hp hmem] at hnode

theorem admits_before (h : HasWritten cwd p content d e) (hp : d.Admits cwd p)
    (hq : e.Admits cwd q) : d.Admits cwd q := by
  obtain ⟨hfile, hplace⟩ := h.apart_of_admits hp hq
  refine ⟨hq.usable, hq.named, ?_, ?_, hq.apart⟩
  · intro place hmem
    have hne : place ≠ p.location cwd := fun heq => hfile (heq ▸ hmem)
    have hnode := hq.clear place hmem
    rw [h place, if_neg hne] at hnode
    split at hnode
    · exact hp.clear place ‹_›
    · exact hnode
  · by_cases hsame : q.location cwd = p.location cwd
    · rw [hsame]
      exact hp.free
    · have hnode := hq.free
      rwa [h (q.location cwd), if_neg hsame, if_neg hplace] at hnode

theorem admits_after (h : HasWritten cwd p content d e) (hq : d.Admits cwd q)
    (hfile : p.location cwd ∉ q.parent.waypoints cwd)
    (hplace : q.location cwd ∉ p.parent.waypoints cwd) : e.Admits cwd q := by
  refine ⟨hq.usable, hq.named, ?_, ?_, hq.apart⟩
  · intro place hmem
    have hne : place ≠ p.location cwd := fun heq => hfile (heq ▸ hmem)
    rw [h place, if_neg hne]
    split
    · exact .inr rfl
    · exact hq.clear place hmem
  · rw [h (q.location cwd), if_neg hplace]
    split
    · exact .inr ⟨content, rfl⟩
    · exact hq.free

/-- After a file was written, a disk admits those that it admitted before and that neither have the
file on their way nor stand on the way to it. -/
theorem admits_iff (h : HasWritten cwd p content d e) (hp : d.Admits cwd p) :
    e.Admits cwd q ↔ d.Admits cwd q ∧ p.location cwd ∉ q.parent.waypoints cwd ∧
      q.location cwd ∉ p.parent.waypoints cwd := by
  constructor
  · intro hq
    exact ⟨h.admits_before hp hq, h.apart_of_admits hp hq⟩
  · rintro ⟨hq, hfile, hplace⟩
    exact h.admits_after hq hfile hplace

end HasWritten

end Disk

end CollectionInterfaces
