import CollectionInterfaces.Proofs.Value.Insertion
import CollectionInterfaces.Proofs.Value.Tree
import CollectionInterfaces.Proofs.Yaml.Grammar
import CollectionInterfaces.Yaml.Document

/-!
# The steps of making values

Values are made in rounds: nodes are visited, mappings are merged, and the values of collections are
recorded. What these steps keep is kept by all rounds (`Make.Invariant.lookIntoAll`). What is
recorded for a node has its parts from the node, and no key in it twice (`Made.Fits`).
-/

namespace CollectionInterfaces.Yaml

/-- What is recorded at a place was so before, or it is new. -/
theorem of_setIfInBounds {α : Type} {xs : Array (Option α)} {i j : Nat} {a b : α}
    (h : (xs.setIfInBounds i (some a))[j]?.join = some b) :
    i = j ∧ a = b ∨ xs[j]?.join = some b := by
  rw [Array.getElem?_setIfInBounds] at h
  split at h
  · rename_i hij
    split at h
    · exact .inl ⟨hij, Option.some.inj h⟩
    · cases h
  · exact .inr h

/-! ## Made values -/

/-- The nodes that a value is made of. -/
def Made.parts : Made → List NodeId
  | .list items => items
  | .map entries => entries.map (·.2)
  | .pairs entries => entries.flatMap fun (key, value) => [key, value]
  | .scalar _ | .pending | .set _ => []

def Made.keys : Made → List Scalar
  | .map entries => entries.map (·.1)
  | _ => []

/-- A value can be that of a node: its parts are related to the node, and its keys are distinct. -/
structure Made.Fits (R : NodeId → NodeId → Prop) (id : NodeId) (m : Made) : Prop where
  parts : ∀ part ∈ m.parts, R id part
  keys : AreDistinct m.keys

/-- Entries can be those of a mapping while they are collected. -/
structure EntriesFit (R : NodeId → NodeId → Prop) (id : NodeId) (entries : List (Key × NodeId)) :
    Prop where
  parts : ∀ entry ∈ entries, R id entry.2
  keys : (entries.map (·.1)).Pairwise fun k k' => Key.same k k' = false

theorem Key.sameKey_of_same {k k' : Key} (h : Key.same k k' = false) :
    k.scalar.sameKey k'.scalar = false := by
  unfold Key.same at h
  split at h
  · rename_i hk hk'
    rw [hk, hk']
    rfl
  · exact h

namespace EntriesFit

variable {R : NodeId → NodeId → Prop} {id value : NodeId} {entries : List (Key × NodeId)}

theorem insert (h : EntriesFit R id entries) (hvalue : R id value) (k : Key) :
    EntriesFit R id (insertEntry Key.same k value entries) where
  parts := by
    intro entry hentry
    rcases snd_of_mem_insertEntry hentry with heq | ⟨before, hbefore, heq⟩
    · exact heq ▸ hvalue
    · exact heq ▸ h.parts before hbefore
  keys := pairwise_insertEntry h.keys

theorem foldl {keyed : List (Key × NodeId)} (h : EntriesFit R id entries)
    (hkeyed : ∀ entry ∈ keyed, R id entry.2) :
    EntriesFit R id (keyed.foldl (fun entries (k, value) => insertEntry Key.same k value entries)
      entries) := by
  induction keyed generalizing entries with
  | nil => exact h
  | cons entry keyed ih =>
    rw [List.forall_mem_cons] at hkeyed
    exact ih (h.insert hkeyed.1 entry.1) hkeyed.2

theorem fits (h : EntriesFit R id entries) :
    (Made.map (entries.map fun (k, value) => (k.scalar, value))).Fits R id where
  parts := by
    simp only [Made.parts, List.map_map]
    exact List.forall_mem_map.mpr h.parts
  keys := by
    have hkeys := (List.pairwise_map.mp h.keys).imp Key.sameKey_of_same
    exact List.pairwise_map.mpr (List.pairwise_map.mpr hkeys)

end EntriesFit

/-! ## Nodes -/

namespace Graph

theorem node_setIfInBounds (g : Graph) (id j : NodeId) (n : Node) :
    id = j ∧ node (g.setIfInBounds id n) j = n ∨ node (g.setIfInBounds id n) j = g.node j := by
  unfold node
  rw [Array.getElem?_setIfInBounds]
  split
  · rename_i hj
    split
    · exact .inl ⟨hj, rfl⟩
    · rename_i hsize
      rw [← hj, Array.getElem?_eq_none (Nat.le_of_not_lt hsize)]
      exact .inr rfl
  · exact .inr rfl

theorem parts_of_mem_entries {g : Graph} {id : NodeId} {entry : NodeId × NodeId}
    (h : entry ∈ g.entries id) :
    entry.1 ∈ (g.node id).body.parts ∧ entry.2 ∈ (g.node id).body.parts := by
  unfold entries at h
  split at h
  · rename_i heq
    rw [heq]
    exact Body.forall_mem_parts_mapping.mp (fun _ hpart => hpart) entry h
  · cases h

end Graph

namespace Make

variable [i : Interpreter]

/-! ## Steps -/

/-- What the single steps of making values keep. The state is as `I` says. `R` relates a node to
those inside it. -/
structure Invariant (I : Maker → Prop) (R : NodeId → NodeId → Prop) : Prop where
  flatten {s : Maker} (id : NodeId) : I s →
    Ends (fun _ => True) (s.graph.flatten id) fun g => ∀ s', I s' → I { s' with graph := g }
  record {s : Maker} {id : NodeId} {m : Made} :
    I s → m.Fits R id → I { s with made := s.made.setIfInBounds id (some m) }
  queue {s : Maker} (all : List NodeId) : I s → I { s with queue := all }
  parts {s : Maker} (id : NodeId) : I s → ∀ part ∈ (s.graph.node id).body.parts, R id part
  trans {id part deeper : NodeId} : R id part → R part deeper → R id deeper

omit i in
theorem made?_runs {I : Maker → Prop} {id : NodeId} : Runs I (made? id) fun _ => True :=
  .bind .get fun _ _ => .pure trivial

namespace Invariant

variable {I : Maker → Prop} {R : NodeId → NodeId → Prop} {id : NodeId} (H : Invariant I R)
include H

theorem record_runs (h : m.Fits R id) : Runs I (Make.record id m) fun _ => True :=
  .modify fun _ hs => H.record hs h

theorem convert : Runs I (convert id tag) fun _ => True := by
  refine .bind .get fun s _ => ?_
  dsimp only
  split
  · exact .bind (Q := fun _ => False) .error fun _ h => h.elim
  refine .bind (.lift (.trivial _)) fun text _ => ?_
  split
  · exact .bind (Q := fun _ => False) .error fun _ h => h.elim
  split
  · exact .bind (.lift (.trivial _)) fun _ _ => H.record_runs ⟨nofun, .nil⟩
  · exact .error

theorem visit : Runs I (visit id) fun _ => True := by
  refine .bind made?_runs fun made _ => ?_
  split
  · exact .pure trivial
  refine .bind .get fun s hs => ?_
  have hpending : Runs I (do
      Make.record id .pending
      modify fun s => { s with queue := id :: s.queue }) fun _ => True :=
    .bind (H.record_runs ⟨nofun, .nil⟩) fun _ _ => .modify fun _ => H.queue _
  dsimp only
  split
  · exact hpending
  · exact hpending
  · exact hpending
  · exact hpending
  · exact hpending
  · exact H.convert
  · exact .error

theorem keyOf : Runs I (keyOf mark id) fun _ => True := by
  refine .bind H.visit fun _ _ => .bind made?_runs fun made _ => ?_
  split
  · exact .pure trivial
  · exact .bind .get fun _ _ => .error

theorem keyedEntry {entry : NodeId × NodeId} :
    Runs I (keyedEntry mark entry) fun keyed => keyed.2 = entry.2 :=
  .bind H.keyOf fun _ _ => .bind H.visit fun _ _ => .pure rfl

/-- Entries are added with distinct keys. -/
theorem mappingEntries : Runs I (mappingEntries id) fun entries =>
    (Made.map entries).Fits R id := by
  refine .bind .get fun s hs => ?_
  dsimp only
  split
  · refine .bind .get fun s hs => .bind (.lift (H.flatten id hs)) fun g hg => ?_
    refine .bind (.modify hg) fun _ _ => ?_
    have hparts : ∀ entry ∈ g.entries id, R id entry.2 := fun entry hentry =>
      H.parts id (hg s hs) _ (Graph.parts_of_mem_entries hentry).2
    refine .bind (.mapM (R := fun keyed => R id keyed.2) fun entry hentry =>
      H.keyedEntry.mono fun keyed hkeyed => hkeyed ▸ hparts entry hentry) fun keyed hkeyed => ?_
    exact .pure (EntriesFit.foldl ⟨nofun, .nil⟩ hkeyed).fits
  · exact .error

theorem pairOf {item : NodeId} : Runs I (pairOf context mark item) fun entry =>
    R item entry.1 ∧ R item entry.2 := by
  refine .bind .get fun s hs => ?_
  dsimp only
  split
  · rename_i key value heq
    have hparts := H.parts item hs
    rw [heq, Body.forall_mem_parts_mapping, List.forall_mem_singleton] at hparts
    exact .bind H.visit fun _ _ => .bind H.visit fun _ _ => .pure hparts
  · exact .error
  · exact .error

theorem pairEntries : Runs I (pairEntries context id) fun entries =>
    (Made.pairs entries).Fits R id := by
  refine .bind .get fun s hs => ?_
  dsimp only
  split
  · rename_i items heq
    have hitems : ∀ item ∈ items, R id item := by
      have hparts := H.parts id hs
      rwa [heq] at hparts
    refine (Runs.mapM (R := fun entry : NodeId × NodeId => R id entry.1 ∧ R id entry.2)
      fun item hitem => H.pairOf.mono fun entry hentry => ?_).mono fun entries hentries =>
        ⟨Body.forall_mem_parts_mapping.mpr hentries, .nil⟩
    exact hentry.imp (H.trans (hitems item hitem)) (H.trans (hitems item hitem))
  · exact .error

theorem lookInto : Runs I (lookInto id) fun m => m.Fits R id := by
  have hset : Runs I (do return Made.set ((← Make.mappingEntries id).map (·.1)))
      fun m => m.Fits R id := .bind H.mappingEntries fun _ _ => .pure ⟨nofun, .nil⟩
  have hmap : Runs I (do return Made.map (← Make.mappingEntries id)) fun m => m.Fits R id :=
    .bind H.mappingEntries fun _ hentries => .pure hentries
  have hpairs {context : Context} :
      Runs I (do return Made.pairs (← Make.pairEntries context id)) fun m => m.Fits R id :=
    .bind H.pairEntries fun _ hentries => .pure hentries
  refine .bind .get fun s hs => ?_
  dsimp only
  split
  · split
    · rename_i items heq
      have hitems := H.parts id hs
      rw [heq] at hitems
      exact .bind (.forM fun _ => H.visit) fun _ _ => .pure ⟨hitems, .nil⟩
    · exact .error
  · exact hset
  · exact hpairs
  · exact hpairs
  · exact hmap

theorem lookIntoAll : Runs I (lookIntoAll fuel) fun _ => True := by
  induction fuel with
  | zero => exact .pure trivial
  | succ fuel ih =>
    refine .bind (.modifyGet (Q := fun _ => True) fun _ hs => ⟨trivial, H.queue [] hs⟩)
      fun waiting _ => ?_
    split
    · exact .pure trivial
    refine .bind (.forM fun id => ?_) fun _ _ => ih
    exact .bind H.lookInto fun _ hm => H.record_runs hm

theorem visitAll : Runs I (do
    Make.visit id
    Make.lookIntoAll fuel) fun _ => True := .bind H.visit fun _ _ => H.lookIntoAll

end Invariant

end Make

end CollectionInterfaces.Yaml
