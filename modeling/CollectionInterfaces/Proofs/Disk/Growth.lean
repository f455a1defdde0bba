import CollectionInterfaces.Disk.Basic
import CollectionInterfaces.Proofs.Value.Insertion

/-!
# What stays on a disk

Operations put nodes at places, one at a time. Two relations say what a sequence of such steps
leaves as it was: `Disk.GrowsBy` holds while only directories are made, and `Disk.KeepsWays` holds
while no directory and no link is touched, so that every walk over them stays possible.
-/

namespace CollectionInterfaces

namespace Disk

variable {d e f : Disk} {place other : Location} {node : Node} {made : Location → Prop}

@[simp] theorem node?_root : d.node? [] = some .directory := rfl

theorem ne_root_of_node?_eq_none (h : d.node? place = none) : place ≠ [] := by
  rintro rfl
  simp at h

theorem node?_put (h : place ≠ []) :
    (d.put place node).node? other = if other = place then some node else d.node? other := by
  by_cases hother : other = []
  · subst hother
    simp [node?, h.symm]
  · simp [node?, put, hother, lookup_insertEntry]

theorem node?_put_self (h : place ≠ []) : (d.put place node).node? place = some node := by
  simp [node?_put h]

theorem node?_put_of_ne (h : place ≠ []) (hne : other ≠ place) :
    (d.put place node).node? other = d.node? other := by
  simp [node?_put h, hne]

theorem linkless_of_entries (h : ∀ entry ∈ d.entries, ∀ target, entry.2 ≠ .link target) :
    d.Linkless := by
  intro place target hlink
  unfold node? at hlink
  split at hlink
  · cases hlink
  · obtain ⟨before, after, hentries, -⟩ := List.lookup_eq_some_iff.mp hlink
    exact h (place, .link target) (by simp [hentries]) target rfl

theorem linkless_empty : empty.Linkless := linkless_of_entries (by simp [empty])

theorem Linkless.put (hd : d.Linkless) (h : place ≠ []) (hnode : ∀ target, node ≠ .link target) :
    (d.put place node).Linkless := by
  intro other target hlink
  rw [node?_put h] at hlink
  split at hlink
  · exact hnode target (Option.some.inj hlink)
  · exact hd other target hlink

/-! ## Growth by directories -/

/-- Every place holds what it held before, except that directories stand now at some of the `made`
places that held nothing. -/
def GrowsBy (made : Location → Prop) (d e : Disk) : Prop :=
  ∀ place, e.node? place = d.node? place ∨
    d.node? place = none ∧ e.node? place = some .directory ∧ made place

namespace GrowsBy

theorem refl : GrowsBy made d d := fun _ => .inl rfl

theorem trans (h₁ : GrowsBy made d e) (h₂ : GrowsBy made e f) : GrowsBy made d f := by
  intro place
  rcases h₁ place with h₁ | ⟨hnone, hdir, hmade⟩
  · rw [← h₁]
    exact h₂ place
  · rcases h₂ place with h₂ | ⟨hnone', -, -⟩
    · exact .inr ⟨hnone, h₂.trans hdir, hmade⟩
    · rw [hdir] at hnone'
      cases hnone'

theorem put (hnone : d.node? place = none) (hmade : made place) :
    GrowsBy made d (d.put place .directory) := by
  have hroot := ne_root_of_node?_eq_none hnone
  intro other
  by_cases h : other = place
  · subst h
    exact .inr ⟨hnone, node?_put_self hroot, hmade⟩
  · exact .inl (node?_put_of_ne hroot h)

/-- What stood somewhere still stands there. -/
theorem node?_eq (h : GrowsBy made d e) (hnode : d.node? place = some node) :
    e.node? place = some node := by
  rcases h place with h | ⟨hnone, -, -⟩
  · exact h.trans hnode
  · rw [hnode] at hnone
    cases hnone

theorem linkless (h : GrowsBy made d e) (hd : d.Linkless) : e.Linkless := by
  intro place target hlink
  rcases h place with h | ⟨-, hdir, -⟩
  · exact hd place target (h ▸ hlink)
  · rw [hdir] at hlink
    cases hlink

end GrowsBy

/-! ## Ways -/

/-- Directories and links stay as they are. Files may come and change. -/
def KeepsWays (d e : Disk) : Prop :=
  ∀ place node, d.node? place = some node → (∀ content, node ≠ .file content) →
    e.node? place = some node

namespace KeepsWays

theorem refl : KeepsWays d d := fun _ _ h _ => h

theorem trans (h₁ : KeepsWays d e) (h₂ : KeepsWays e f) : KeepsWays d f :=
  fun place node hnode hfile => h₂ place node (h₁ place node hnode hfile) hfile

theorem directory (h : KeepsWays d e) (hdir : d.node? place = some .directory) :
    e.node? place = some .directory := h place _ hdir (by simp)

theorem link {target : Bytes} (h : KeepsWays d e) (hlink : d.node? place = some (.link target)) :
    e.node? place = some (.link target) := h place _ hlink (by simp)

/-- A file is put where there was nothing or a file. -/
theorem putFile {content : Bytes} (hroot : place ≠ [])
    (hseat : d.node? place = none ∨ ∃ old, d.node? place = some (.file old)) :
    KeepsWays d (d.put place (.file content)) := by
  intro other node hnode hfile
  by_cases h : other = place
  · subst h
    rcases hseat with hnone | ⟨old, hold⟩
    · rw [hnone] at hnode
      cases hnode
    · rw [hold] at hnode
      exact absurd (Option.some.inj hnode).symm (hfile old)
  · rwa [node?_put_of_ne hroot h]

end KeepsWays

theorem GrowsBy.keepsWays (h : GrowsBy made d e) : KeepsWays d e :=
  fun _ _ hnode _ => h.node?_eq hnode

end Disk

end CollectionInterfaces
