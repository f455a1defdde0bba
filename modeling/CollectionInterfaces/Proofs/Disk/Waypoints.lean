import CollectionInterfaces.Proofs.Disk.Operations

/-!
# Waypoints

On a disk without links a path leads somewhere exactly if its text and names are not too long and
directories stand at its waypoints, the places that it steps down to
(`Disk.locate_eq_ok_iff_of_linkless`). All that a path asks of a disk is therefore said place by
place, and does not depend on the order in which the places came to hold what they hold.
-/

namespace CollectionInterfaces

namespace Move

/-- The places that moves step down to, in order. -/
def waypoints (here : Location) : List Move → List Location
  | [] => []
  | .stay :: rest => waypoints here rest
  | .slash :: rest => waypoints here rest
  | .up :: rest => waypoints here.dropLast rest
  | .down name :: rest => (here ++ [name]) :: waypoints (here ++ [name]) rest

/-- The move is not to a name that is too long for a disk. -/
def IsShort (m : Move) : Prop := ∀ name, m = .down name → name.length ≤ maxNameBytes

variable {here place : Location} {before after moves : List Move}

theorem waypoints_append :
    waypoints here (before ++ after) =
      waypoints here before ++ waypoints (before.foldl destination here) after := by
  induction before generalizing here with
  | nil => rfl
  | cons m before ih =>
    cases m with
    | stay | slash | up => exact ih
    | down name => exact congrArg (_ :: ·) ih

theorem ne_root_of_mem_waypoints (h : place ∈ waypoints here moves) : place ≠ [] := by
  induction moves generalizing here with
  | nil => cases h
  | cons m moves ih =>
    cases m with
    | stay | slash | up => exact ih h
    | down name =>
      rcases List.mem_cons.mp h with rfl | h
      · simp
      · exact ih h

theorem foldl_destination_down {names : List Bytes} :
    (names.map Move.down).foldl destination here = here ++ names := by
  induction names generalizing here with
  | nil => simp
  | cons name names ih => simp [destination, ih]

theorem mem_waypoints_down_iff {names : List Bytes} :
    place ∈ waypoints here (names.map .down) ↔
      ∃ before, before ≠ [] ∧ before <+: names ∧ place = here ++ before := by
  induction names generalizing here with
  | nil => exact ⟨nofun, fun ⟨_, hne, hstarts, _⟩ => absurd (List.prefix_nil.mp hstarts) hne⟩
  | cons name names ih =>
    rw [List.map_cons, waypoints, List.mem_cons, ih]
    constructor
    · rintro (rfl | ⟨before, -, hstarts, rfl⟩)
      · exact ⟨[name], by simp, by simp, rfl⟩
      · exact ⟨name :: before, by simp, List.cons_prefix_cons.mpr ⟨rfl, hstarts⟩, by simp⟩
    · rintro ⟨_ | ⟨first, before⟩, hne, hstarts, rfl⟩
      · exact absurd rfl hne
      obtain ⟨rfl, hrest⟩ := List.cons_prefix_cons.mp hstarts
      by_cases hbefore : before = []
      · exact .inl (by simp [hbefore])
      · exact .inr ⟨before, hbefore, hrest, by simp⟩

end Move

namespace Disk

variable {d e : Disk} {cwd here place : Location} {purpose : Purpose} {moves : List Move}
  {expand : Location → List Move → Except DiskFault Place} {r : Place} {places : List Location}

/-- A directory stands at each of the places. -/
def AllDirectories (d : Disk) (places : List Location) : Prop :=
  ∀ place ∈ places, d.node? place = some .directory

/-- Nothing but directories stands at the places. -/
def IsClear (d : Disk) (places : List Location) : Prop :=
  ∀ place ∈ places, d.node? place = none ∨ d.node? place = some .directory

theorem IsClear.mono {more : List Location} (h : d.IsClear places) (hsub : more ⊆ places) :
    d.IsClear more := fun place hplace => h place (hsub hplace)

/-! ## Walks -/

theorem isFinalSlash_eq_false (h : .slash ∉ moves) : isFinalSlash moves = false := by
  cases moves with
  | nil => rfl
  | cons m moves =>
    have hm : m ≠ .slash := fun heq => h (by simp [heq])
    simp [isFinalSlash, hm]

/-- Directories are walked through to what follows them. -/
theorem walkWith_append {before after : List Move} (hslash : .slash ∉ before ++ after)
    (hshort : ∀ m ∈ before, m.IsShort) (hdirs : d.AllDirectories (Move.waypoints here before)) :
    d.walkWith purpose expand here (before ++ after) =
      d.walkWith purpose expand (before.foldl Move.destination here) after := by
  induction before generalizing here with
  | nil => rfl
  | cons m before ih =>
    have hslash' : .slash ∉ before ++ after := fun h => hslash (List.mem_cons_of_mem m h)
    have hshort' : ∀ m ∈ before, m.IsShort := fun n hn => hshort n (List.mem_cons_of_mem m hn)
    cases m with
    | stay | slash | up => exact ih hslash' hshort' hdirs
    | down name =>
      have hname : name.length ≤ maxNameBytes := hshort _ (by simp) name rfl
      have hnode : d.node? (here ++ [name]) = some .directory := hdirs _ (by simp [Move.waypoints])
      have hrest := ih hslash' hshort' fun place hplace =>
        hdirs place (List.mem_cons_of_mem _ hplace)
      rw [List.cons_append, walkWith]
      simp only [isFinalSlash_eq_false hslash', hnode, Bool.false_eq_true, and_false, if_false,
        Nat.not_lt.mpr hname]
      exact hrest

/-- Where a walk on a disk without links ends: all its waypoints are directories, or all but the
last are, at which a file stands or nothing. -/
theorem walkWith_ends (hd : d.Linkless) (h : d.walkWith purpose expand here moves = .ok r) :
    (∀ m ∈ moves, m.IsShort) ∧
      (d.AllDirectories (Move.waypoints here moves) ∧
          r = .found (moves.foldl Move.destination here) .directory ∨
        ∃ before name, moves = before ++ [.down name] ∧
          d.AllDirectories (Move.waypoints here before) ∧
          r.IsSeat (moves.foldl Move.destination here)) := by
  induction moves generalizing here with
  | nil =>
    obtain rfl := Except.ok.inj h
    exact ⟨by simp, .inl ⟨by simp [AllDirectories, Move.waypoints], rfl⟩⟩
  | cons m rest ih =>
    cases m with
    | stay | slash | up =>
      obtain ⟨hshort, hend⟩ := ih h
      refine ⟨List.forall_mem_cons.mpr ⟨nofun, hshort⟩, hend.imp_right ?_⟩
      rintro ⟨before, name, rfl, hdirs, hseat⟩
      exact ⟨_ :: before, name, rfl, hdirs, hseat⟩
    | down name =>
      obtain ⟨-, hlength, hdescent⟩ := walkWith_down_iff.mp h
      have hname : Move.IsShort (.down name) := by
        rintro _ ⟨⟩
        exact hlength
      cases hdescent with
      | missing hnode hrest =>
        subst hrest
        refine ⟨by simpa using hname, .inr ⟨[], name, rfl, ?_, .inl rfl⟩⟩
        simp [AllDirectories, Move.waypoints]
      | file hnode hrest =>
        subst hrest
        refine ⟨by simpa using hname, .inr ⟨[], name, rfl, ?_, .inr ⟨_, rfl⟩⟩⟩
        simp [AllDirectories, Move.waypoints]
      | directory hnode hwalk =>
        obtain ⟨hshort, hend⟩ := ih hwalk
        refine ⟨List.forall_mem_cons.mpr ⟨hname, hshort⟩, ?_⟩
        rcases hend with ⟨hdirs, hr⟩ | ⟨before, last, rfl, hdirs, hseat⟩
        · exact .inl ⟨List.forall_mem_cons.mpr ⟨hnode, hdirs⟩, hr⟩
        · exact .inr ⟨.down name :: before, last, rfl,
            List.forall_mem_cons.mpr ⟨hnode, hdirs⟩, hseat⟩
      | seenLink hnode | followedLink hnode => exact absurd hnode (hd _ _)

/-- Where nothing but directories stands, a walk comes to an end or misses one of them. -/
theorem walkWith_of_isClear (purpose : Purpose)
    (expand : Location → List Move → Except DiskFault Place) (hslash : .slash ∉ moves)
    (hshort : ∀ m ∈ moves, m.IsShort) (hclear : d.IsClear (Move.waypoints here moves)) :
    (∃ r, d.walkWith purpose expand here moves = .ok r) ∨
      d.walkWith purpose expand here moves = .error .noEntry := by
  induction moves generalizing here with
  | nil => exact .inl ⟨_, rfl⟩
  | cons m rest ih =>
    have hslash' : .slash ∉ rest := fun h => hslash (List.mem_cons_of_mem m h)
    have hshort' : ∀ m ∈ rest, m.IsShort := fun n hn => hshort n (List.mem_cons_of_mem m hn)
    cases m with
    | stay | slash | up => exact ih hslash' hshort' hclear
    | down name =>
      have hname : name.length ≤ maxNameBytes := hshort _ (by simp) name rfl
      have hrest := @ih (here ++ [name]) hslash' hshort'
        fun place hplace => hclear place (List.mem_cons_of_mem _ hplace)
      rw [walkWith]
      simp only [isFinalSlash_eq_false hslash', Bool.false_eq_true, and_false, if_false,
        Nat.not_lt.mpr hname]
      rcases hclear (here ++ [name]) (by simp [Move.waypoints]) with hnode | hnode
      · simp only [hnode]
        split
        · exact .inl ⟨_, rfl⟩
        · exact .inr rfl
      · simp only [hnode]
        exact hrest

theorem exists_walkWith (d : Disk) (purpose : Purpose) (links : Nat) :
    ∃ expand, d.walk purpose links = d.walkWith purpose expand := by
  cases links with
  | zero => exact ⟨_, rfl⟩
  | succ links => exact ⟨_, rfl⟩

end Disk

/-! ## Paths -/

namespace Path

variable {cwd place : Location} {p q : Path} {name : Text}

/-- The places that a path steps down to on a disk without links. -/
def waypoints (cwd : Location) (p : Path) : List Location := Move.waypoints (p.start cwd) p.moves

/-- The text and the names of the path are not too long for a disk. -/
structure IsUsable (p : Path) : Prop where
  text : ∃ bytes, Disk.pathBytes p = .ok bytes ∧ bytes.length ≤ maxPathBytes
  moves : ∀ m ∈ p.moves, m.IsShort

/-- The path ends in a name. -/
def IsNamed (p : Path) : Prop := ∃ name, p.names.getLast? = some name ∧ name ≠ dotDot

theorem slash_not_mem_moves (p : Path) : .slash ∉ p.moves := by
  intro h
  obtain ⟨name, -, hname⟩ := List.mem_map.mp h
  unfold Disk.moveOfName at hname
  split at hname <;> cases hname

theorem names_eq_parent_names_append (h : p.names.getLast? = some name) :
    p.names = p.parent.names ++ [name] := by
  obtain ⟨before, hbefore⟩ := List.getLast?_eq_some_iff.mp h
  simp [parent, hbefore]

theorem moves_eq_parent_moves_append (h : p.names.getLast? = some name) :
    p.moves = p.parent.moves ++ [Disk.moveOfName name] := by
  have hnames := congrArg (List.map Disk.moveOfName) (names_eq_parent_names_append h)
  rwa [List.map_append] at hnames

theorem IsNamed.exists_moves (h : p.IsNamed) :
    ∃ name, p.moves = p.parent.moves ++ [.down name] := by
  obtain ⟨name, hlast, hname⟩ := h
  refine ⟨Disk.nameBytes name, ?_⟩
  rw [moves_eq_parent_moves_append hlast, Disk.moveOfName, if_neg hname]

theorem isNamed_of_moves {before : List Move} {bytes : Bytes}
    (h : p.moves = before ++ [.down bytes]) : p.IsNamed ∧ before = p.parent.moves := by
  cases hlast : p.names.getLast? with
  | none =>
    rw [List.getLast?_eq_none_iff] at hlast
    simp [moves, hlast] at h
  | some name =>
    rw [moves_eq_parent_moves_append hlast] at h
    obtain ⟨hbefore, hmove⟩ := List.append_inj' h rfl
    refine ⟨⟨name, hlast, ?_⟩, hbefore.symm⟩
    rintro rfl
    simp [Disk.moveOfName] at hmove

/-- The place that a path with a name leads to is the last of its waypoints. -/
theorem IsNamed.waypoints_eq (h : p.IsNamed) :
    p.waypoints cwd = p.parent.waypoints cwd ++ [p.location cwd] := by
  obtain ⟨name, hmoves⟩ := h.exists_moves
  rw [waypoints, location, hmoves, Move.waypoints_append, List.foldl_append]
  rfl

theorem waypoints_parent_of_not_isNamed (h : ¬p.IsNamed) :
    p.waypoints cwd = p.parent.waypoints cwd := by
  cases hlast : p.names.getLast? with
  | none =>
    rw [List.getLast?_eq_none_iff] at hlast
    simp [waypoints, moves, parent, start, isAbsolute, hlast]
  | some name =>
    have hname : name = dotDot := Classical.not_not.mp fun hname => h ⟨name, hlast, hname⟩
    rw [waypoints, moves_eq_parent_moves_append hlast, Move.waypoints_append, hname]
    exact List.append_nil _

theorem OnWay.waypoints_subset (h : q.OnWay p) : q.waypoints cwd ⊆ p.waypoints cwd := by
  obtain ⟨hroot, after, hnames⟩ := h
  have hstart : q.start cwd = p.start cwd := by simp [start, isAbsolute, hroot]
  have hmoves : p.moves = q.moves ++ after.map Disk.moveOfName := by
    simp [moves, ← hnames]
  rw [waypoints, waypoints, hmoves, hstart, Move.waypoints_append]
  exact List.subset_append_left _ _

theorem parent_onWay (p : Path) : p.parent.OnWay p := OnWay.refl.of_parent

/-! ## Paths that only go down -/

theorem moves_of_not_mem (h : dotDot ∉ p.names) :
    p.moves = (p.names.map Disk.nameBytes).map .down := by
  rw [moves, List.map_map]
  refine List.map_congr_left fun name hname => ?_
  have hne : name ≠ dotDot := by
    rintro rfl
    exact h hname
  rw [Disk.moveOfName, if_neg hne, Function.comp_apply]

/-- The waypoints of a path that only goes down are the places on the way. -/
theorem mem_waypoints_iff_of_not_mem (h : dotDot ∉ p.names) :
    place ∈ p.waypoints cwd ↔ ∃ before, before ≠ [] ∧ before <+: p.names ∧
      place = p.start cwd ++ before.map Disk.nameBytes := by
  rw [waypoints, moves_of_not_mem h, Move.mem_waypoints_down_iff]
  constructor
  · rintro ⟨before, hne, hstarts, rfl⟩
    obtain ⟨names, hnames, rfl⟩ := List.prefix_map_iff.mp hstarts
    exact ⟨names, by simpa using hne, hnames, rfl⟩
  · rintro ⟨names, hne, hstarts, rfl⟩
    exact ⟨_, by simpa using hne, hstarts.map Disk.nameBytes, rfl⟩

theorem location_of_not_mem (h : dotDot ∉ p.names) :
    p.location cwd = p.start cwd ++ p.names.map Disk.nameBytes := by
  rw [location, moves_of_not_mem h, Move.foldl_destination_down]

/-- A path that never goes up steps down to places on the way to its own. -/
theorem waypoints_prefix (cwd : Location) (h : dotDot ∉ p.names) :
    ∀ place ∈ p.waypoints cwd, place <+: p.location cwd := by
  intro place hplace
  obtain ⟨before, -, hstarts, rfl⟩ := (mem_waypoints_iff_of_not_mem h).mp hplace
  rw [location_of_not_mem h]
  exact (List.prefix_append_right_inj _).mpr (hstarts.map Disk.nameBytes)

end Path

namespace Disk

variable {d e : Disk} {cwd place : Location} {purpose : Purpose} {p : Path} {r : Place}

/-- **Where a path leads on a disk without links.** Its waypoints are directories, or it ends in a
name, the other waypoints are directories, and a file stands at its place or nothing. -/
theorem locate_eq_ok_iff_of_linkless (hd : d.Linkless) :
    d.locate cwd purpose p = .ok r ↔ p.IsUsable ∧
      (d.AllDirectories (p.waypoints cwd) ∧ r = .found (p.location cwd) .directory ∨
        p.IsNamed ∧ d.AllDirectories (p.parent.waypoints cwd) ∧
          r.IsSeat (p.location cwd) ∧ r.IsOn d) := by
  obtain ⟨expand, hexpand⟩ := exists_walkWith d purpose maxLinks
  rw [locate_eq_ok_iff, hexpand]
  constructor
  · rintro ⟨bytes, hbytes, hlength, hwalk⟩
    have hon : r.IsOn d :=
      locate_isOn (locate_eq_ok_iff.mpr ⟨bytes, hbytes, hlength, hexpand ▸ hwalk⟩)
    obtain ⟨hshort, hend⟩ := walkWith_ends hd hwalk
    refine ⟨⟨⟨bytes, hbytes, hlength⟩, hshort⟩, hend.imp_right ?_⟩
    rintro ⟨before, name, hmoves, hdirs, hseat⟩
    obtain ⟨hnamed, rfl⟩ := Path.isNamed_of_moves hmoves
    exact ⟨hnamed, hdirs, hseat, hon⟩
  · rintro ⟨⟨⟨bytes, hbytes, hlength⟩, hshort⟩, hend⟩
    refine ⟨bytes, hbytes, hlength, ?_⟩
    rcases hend with ⟨hdirs, rfl⟩ | ⟨hnamed, hdirs, hseat, hon⟩
    · have hwalk : d.walkWith purpose expand (p.start cwd) (p.moves ++ []) = .ok _ :=
        walkWith_append (by simpa using p.slash_not_mem_moves) hshort hdirs
      rw [List.append_nil] at hwalk
      exact hwalk
    · obtain ⟨name, hmoves⟩ := hnamed.exists_moves
      have hplace : p.location cwd = p.parent.location cwd ++ [name] := by
        rw [Path.location, hmoves, List.foldl_append]
        rfl
      have hslash := p.slash_not_mem_moves
      rw [hmoves] at hslash hshort ⊢
      have hwalk : d.walkWith purpose expand (p.start cwd) (p.parent.moves ++ [.down name]) = _ :=
        walkWith_append hslash (fun m hm => hshort m (List.mem_append_left _ hm)) hdirs
      refine hwalk.trans (walkWith_down_iff.mpr ⟨by simp [isFinalSlash], ?_, ?_⟩)
      · exact hshort (.down name) (by simp) name rfl
      rw [hplace] at hseat
      rcases hseat with rfl | ⟨content, rfl⟩
      · exact .missing hon rfl
      · exact .file (hon (by simp)) rfl

/-- Where nothing but directories stands, a path leads somewhere or misses one of them. -/
theorem locate_of_isClear (purpose : Purpose) (hp : p.IsUsable)
    (hclear : d.IsClear (p.waypoints cwd)) :
    (∃ r, d.locate cwd purpose p = .ok r) ∨ d.locate cwd purpose p = .error (.disk .noEntry) := by
  obtain ⟨bytes, hbytes, hlength⟩ := hp.text
  obtain ⟨expand, hexpand⟩ := exists_walkWith d purpose maxLinks
  rcases walkWith_of_isClear purpose expand p.slash_not_mem_moves hp.moves
    hclear with ⟨r, hr⟩ | hnone
  · exact .inl ⟨r, locate_eq_ok_iff.mpr ⟨bytes, hbytes, hlength, hexpand ▸ hr⟩⟩
  · right
    rw [← hexpand] at hnone
    unfold Path.start Path.moves at hnone
    simp [locate, hbytes, Nat.not_lt.mpr hlength, hnone]
    rfl

end Disk

end CollectionInterfaces
