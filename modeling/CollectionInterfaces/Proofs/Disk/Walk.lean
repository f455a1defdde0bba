import CollectionInterfaces.Disk.Walk
import CollectionInterfaces.Proofs.Disk.Growth

/-!
# Walks

What a step down can meet is said once, by `Disk.Descent`. From it follow the place where a walk
ends on a disk without links, which is fixed by the path alone (`Disk.walk_location`), and that
the way to a file stays open while directories and links are left alone (`Disk.walk_file`).
-/

namespace CollectionInterfaces

/-- Where the end of a walk is. -/
def Place.location : Place → Location
  | .found place _ => place
  | .missing place => place

/-- The walk ends at a place where a file stands or can be made. -/
def Place.IsSeat (place : Location) (r : Place) : Prop :=
  r = .missing place ∨ ∃ content, r = .found place (.file content)

/-- The end of a walk is as the disk has it. A directory can be where the walk started, too, which
nothing is known of. -/
def Place.IsOn (d : Disk) : Place → Prop
  | .missing place => d.node? place = none
  | .found place node => node ≠ .directory → d.node? place = some node

/-- Where a move leads to on a disk without links. -/
def Move.destination (here : Location) : Move → Location
  | .stay => here
  | .slash => here
  | .up => here.dropLast
  | .down name => here ++ [name]

namespace Path

/-- Where a walk along a path starts. -/
def start (cwd : Location) (p : Path) : Location := if p.isAbsolute then [] else cwd

def moves (p : Path) : List Move := p.names.map Disk.moveOfName

/-- The place that a path denotes on a disk without links. -/
def location (cwd : Location) (p : Path) : Location :=
  p.moves.foldl Move.destination (p.start cwd)

end Path

namespace Disk

/-- What a step down to a name can meet, with the end of the walk. -/
inductive Descent (d : Disk) (purpose : Purpose)
    (expand : Location → List Move → Except DiskFault Place) (here : Location) (name : Bytes)
    (rest : List Move) : Place → Prop
  | missing : d.node? (here ++ [name]) = none → rest = [] →
      Descent d purpose expand here name rest (.missing (here ++ [name]))
  | directory : d.node? (here ++ [name]) = some .directory →
      d.walkWith purpose expand (here ++ [name]) rest = .ok r →
      Descent d purpose expand here name rest r
  | file : d.node? (here ++ [name]) = some (.file content) → rest = [] →
      Descent d purpose expand here name rest (.found (here ++ [name]) (.file content))
  | seenLink : d.node? (here ++ [name]) = some (.link target) → rest = [] → purpose = .look →
      Descent d purpose expand here name rest (.found (here ++ [name]) (.link target))
  | followedLink : d.node? (here ++ [name]) = some (.link target) →
      ¬(rest = [] ∧ purpose = .look) →
      expand (if startsAtRoot target then [] else here) (movesOf target ++ rest) = .ok r →
      Descent d purpose expand here name rest r

variable {d e : Disk} {purpose : Purpose} {here : Location} {name : Bytes} {moves rest : List Move}
  {expand expand' : Location → List Move → Except DiskFault Place} {r : Place}

theorem walkWith_down_iff :
    d.walkWith purpose expand here (.down name :: rest) = .ok r ↔
      ¬(purpose = .write ∧ isFinalSlash rest) ∧ name.length ≤ maxNameBytes ∧
        Descent d purpose expand here name rest r := by
  rw [walkWith]
  constructor
  · -- the cases that fail are closed on the way, the others are the constructors
    intro h
    split at h
    · cases h
    · rename_i hslash
      split at h
      · cases h
      · rename_i hlength
        refine ⟨hslash, Nat.le_of_not_lt hlength, ?_⟩
        split at h
        · rename_i hnode
          split at h
          · rename_i hrest
            cases h
            exact .missing hnode (List.isEmpty_iff.mp hrest)
          · cases h
        · rename_i hnode
          exact .directory hnode h
        · rename_i content hnode
          split at h
          · rename_i hrest
            cases h
            exact .file hnode (List.isEmpty_iff.mp hrest)
          · cases h
        · rename_i target hnode
          split at h
          · rename_i hrest
            cases h
            exact .seenLink hnode (List.isEmpty_iff.mp hrest.1) hrest.2
          · rename_i hrest
            exact .followedLink hnode (by simpa using hrest) h
  · rintro ⟨hslash, hlength, hdescent⟩
    rw [if_neg hslash, if_neg (Nat.not_lt.mpr hlength)]
    cases hdescent with
    | missing hnode hrest => simp [hnode, hrest]
    | directory hnode hwalk => simpa [hnode] using hwalk
    | file hnode hrest => simp [hnode, hrest]
    | seenLink hnode hrest hpurpose => simp [hnode, hrest, hpurpose]
    | followedLink hnode hrest hexpand =>
      simp only [hnode]
      rw [if_neg (by simpa using hrest)]
      exact hexpand

/-! ## Disks without links -/

theorem walkWith_location (hd : d.Linkless)
    (h : d.walkWith purpose expand here moves = .ok r) :
    r.location = moves.foldl Move.destination here := by
  induction moves generalizing here with
  | nil =>
    simp only [walkWith, Except.ok.injEq] at h
    simp [← h, Place.location]
  | cons move rest ih =>
    cases move with
    | stay | slash | up => exact ih h
    | down name =>
      rw [walkWith_down_iff] at h
      obtain ⟨-, -, hdescent⟩ := h
      cases hdescent with
      | missing _ hrest | file _ hrest | seenLink _ hrest =>
        simp [hrest, Place.location, Move.destination]
      | directory _ hwalk => exact ih hwalk
      | followedLink hnode => exact absurd hnode (hd _ _)

theorem walk_location {links : Nat} (hd : d.Linkless)
    (h : d.walk purpose links here moves = .ok r) :
    r.location = moves.foldl Move.destination here := by
  cases links <;> exact walkWith_location hd h

/-! ## What a walk finds -/

theorem walkWith_isOn (hexpand : ∀ {here moves r}, expand here moves = .ok r → r.IsOn d)
    (h : d.walkWith purpose expand here moves = .ok r) : r.IsOn d := by
  induction moves generalizing here with
  | nil =>
    simp only [walkWith, Except.ok.injEq] at h
    simp [← h, Place.IsOn]
  | cons move rest ih =>
    cases move with
    | stay | slash | up => exact ih h
    | down name =>
      rw [walkWith_down_iff] at h
      obtain ⟨-, -, hdescent⟩ := h
      cases hdescent with
      | missing hnode _ => exact hnode
      | directory _ hwalk => exact ih hwalk
      | file hnode _ | seenLink hnode _ _ => exact fun _ => hnode
      | followedLink _ _ hlink => exact hexpand hlink

theorem walk_isOn {links : Nat} (h : d.walk purpose links here moves = .ok r) : r.IsOn d := by
  induction links generalizing here moves r with
  | zero => exact walkWith_isOn (by rintro _ _ _ ⟨⟩) h
  | succ links ih => exact walkWith_isOn ih h

/-! ## Ways that stay open -/

/-- A walk to a seat for a file finds the file on every disk that kept the ways and has a file
there. -/
theorem walkWith_file {place : Location} {content : Bytes} (hkeeps : KeepsWays d e)
    (hfile : e.node? place = some (.file content)) (hr : r.IsSeat place)
    (hexpand : ∀ {here moves}, expand here moves = .ok r →
      expand' here moves = .ok (.found place (.file content)))
    (h : d.walkWith purpose expand here moves = .ok r) :
    e.walkWith purpose expand' here moves = .ok (.found place (.file content)) := by
  induction moves generalizing here with
  | nil =>
    simp only [walkWith, Except.ok.injEq] at h
    subst h
    simp [Place.IsSeat] at hr
  | cons move rest ih =>
    cases move with
    | stay | slash | up => exact ih h
    | down name =>
      rw [walkWith_down_iff] at h
      obtain ⟨hslash, hlength, hdescent⟩ := h
      rw [walkWith_down_iff]
      refine ⟨hslash, hlength, ?_⟩
      cases hdescent with
      | missing hnode hrest =>
        obtain rfl : here ++ [name] = place := by simpa [Place.IsSeat] using hr
        exact .file hfile hrest
      | directory hnode hwalk => exact .directory (hkeeps.directory hnode) (ih hwalk)
      | file hnode hrest =>
        obtain rfl : here ++ [name] = place := by simpa [Place.IsSeat] using hr
        exact .file hfile hrest
      | seenLink => simp [Place.IsSeat] at hr
      | followedLink hnode hrest hlink =>
        exact .followedLink (hkeeps.link hnode) hrest (hexpand hlink)

theorem walk_file {links : Nat} {place : Location} {content : Bytes} (hkeeps : KeepsWays d e)
    (hfile : e.node? place = some (.file content)) (hr : r.IsSeat place)
    (h : d.walk purpose links here moves = .ok r) :
    e.walk purpose links here moves = .ok (.found place (.file content)) := by
  induction links generalizing here moves with
  | zero => exact walkWith_file hkeeps hfile hr (by rintro _ _ ⟨⟩) h
  | succ links ih => exact walkWith_file hkeeps hfile hr ih h

/-! ## Walks to write and to follow -/

theorem walkWith_follow_of_write
    (hexpand : ∀ {here moves}, expand here moves = .ok r → expand' here moves = .ok r)
    (h : d.walkWith .write expand here moves = .ok r) :
    d.walkWith .follow expand' here moves = .ok r := by
  induction moves generalizing here with
  | nil => exact h
  | cons move rest ih =>
    cases move with
    | stay | slash | up => exact ih h
    | down name =>
      rw [walkWith_down_iff] at h
      obtain ⟨-, hlength, hdescent⟩ := h
      rw [walkWith_down_iff]
      refine ⟨by simp, hlength, ?_⟩
      cases hdescent with
      | missing hnode hrest => exact .missing hnode hrest
      | directory hnode hwalk => exact .directory hnode (ih hwalk)
      | file hnode hrest => exact .file hnode hrest
      | seenLink _ _ hpurpose => cases hpurpose
      | followedLink hnode _ hlink => exact .followedLink hnode (by simp) (hexpand hlink)

/-- A walk to write a file leads where the path leads. -/
theorem walk_follow_of_write {links : Nat} (h : d.walk .write links here moves = .ok r) :
    d.walk .follow links here moves = .ok r := by
  induction links generalizing here moves with
  | zero => exact walkWith_follow_of_write (by rintro _ _ ⟨⟩) h
  | succ links ih => exact walkWith_follow_of_write ih h

end Disk

end CollectionInterfaces
