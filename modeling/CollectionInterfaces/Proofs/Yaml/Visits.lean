import CollectionInterfaces.Proofs.Results
import CollectionInterfaces.Proofs.Yaml.Merging

/-!
# Where making values stops

Nodes are visited in the order in which the collections around them are looked into. Making values
fails without a fault of the notation exactly if it comes to a node that cannot be converted, or to
a mapping that there is no room to merge into (`Graph.toDocument_eq_error_iff`).
-/

namespace CollectionInterfaces.Yaml

/-- The tag is one of those for scalars. -/
def CoreTag.isScalar : CoreTag → Bool
  | .null | .bool | .int | .float | .binary | .timestamp | .text => true
  | _ => false

theorem scalarOf?_isSome {tag : CoreTag} {mark : Mark} {t : Text} :
    (scalarOf? tag mark t).isSome = tag.isScalar := by
  cases tag <;> rfl

variable [i : Interpreter] {s s' : Maker} {id : NodeId} {tag : CoreTag} {e : Error}

namespace Maker

/-- A tag cannot make a scalar of a node: the defaults of the node lead too far, or it is a mapping
with the tag of a date or a time, or the tag cannot be applied to the text that it stands for. -/
inductive ConversionStops (s : Maker) (id : NodeId) : CoreTag → Error → Prop
  | defaults {tag : CoreTag} : tag.isScalar = true →
    s.graph.DefaultsExceed i.defaultRoom id → ConversionStops s id tag .exhausted
  | timestamp {t : Text} : s.graph.StandsFor t i.defaultRoom id →
    (s.graph.node id).body.kind = .mapping →
    ConversionStops s id .timestamp (.conversion .collectionAsTimestamp)
  | scalar {tag : CoreTag} {t : Text} {e : Error} : s.graph.StandsFor t i.defaultRoom id →
    ¬(tag = .timestamp ∧ (s.graph.node id).body.kind = .mapping) →
    scalarOf? tag (s.graph.node id).mark t = some (.error e) → ConversionStops s id tag e

theorem ConversionStops.isScalar (h : s.ConversionStops id tag e) : tag.isScalar = true := by
  cases h with
  | defaults hscalar => exact hscalar
  | timestamp => rfl
  | scalar _ _ hconverted =>
    rw [← scalarOf?_isSome, hconverted]
    rfl

/-- A node is visited for the first time, and its tag cannot make a scalar of it. -/
def VisitStops (s : Maker) (id : NodeId) (e : Error) : Prop :=
  s.made[id]?.join = none ∧
    ∃ tag, CoreTag.ofText? (s.graph.node id).tag = some tag ∧ s.ConversionStops id tag e

end Maker

namespace Make

omit i in
theorem made?_gives : Gives (made? id) s s.made[id]?.join s := rfl

omit i in
theorem not_fails_malformed {m : Malformation} (he : e.isFault = false) :
    ¬Fails (throw (.malformed m) : Make α) s e := by
  intro h
  cases Fails.throw_iff.mp h
  cases he

theorem convert_fails_iff (he : e.isFault = false) :
    Fails (convert id tag) s e ↔ s.ConversionStops id tag e := by
  rw [convert, Fails.get_bind_iff]
  dsimp only
  split
  · rename_i hscalar
    refine ⟨fun h => ?_, fun h => ?_⟩
    · exact (not_fails_malformed he ((Fails.bind_iff.mp h).resolve_right nofun)).elim
    · rw [Option.isNone_iff_eq_none, ← Option.not_isSome_iff_eq_none, scalarOf?_isSome] at hscalar
      exact absurd h.isScalar hscalar
  rename_i hscalar
  have hscalar : tag.isScalar = true := by
    rwa [Option.isNone_iff_eq_none, ← ne_eq, Option.ne_none_iff_isSome, scalarOf?_isSome] at hscalar
  rw [Fails.bind_iff, Fails.lift_iff, Graph.scalarText_eq_error_iff he]
  constructor
  · rintro (⟨rfl, hexceed⟩ | ⟨t, s', hgives, h⟩)
    · exact .defaults hscalar hexceed
    obtain ⟨htext, rfl⟩ := Gives.lift_iff.mp hgives
    rw [Graph.scalarText_eq_ok_iff] at htext
    split at h
    · rename_i hc
      obtain ⟨rfl, hkind⟩ := hc
      cases Fails.throw_iff.mp ((Fails.bind_iff.mp h).resolve_right nofun)
      exact .timestamp htext hkind
    rename_i hc
    split at h
    · rename_i converted hconverted
      rcases Fails.bind_iff.mp h with hfail | ⟨_, _, _, h⟩
      · cases Fails.lift_iff.mp hfail
        exact .scalar htext hc hconverted
      · exact (Fails.not_modify h).elim
    · exact (not_fails_malformed he h).elim
  · intro h
    have hgives {t : Text} (htext : s.graph.StandsFor t i.defaultRoom id) :
        Gives (liftM (s.graph.scalarText i.defaultRoom id) : Make Text) s t s :=
      Gives.lift_iff.mpr ⟨Graph.scalarText_eq_ok_iff.mpr htext, rfl⟩
    cases h with
    | defaults _ hexceed => exact .inl ⟨rfl, hexceed⟩
    | timestamp htext hkind =>
      refine .inr ⟨_, s, hgives htext, ?_⟩
      rw [if_pos ⟨rfl, hkind⟩]
      exact Fails.bind_left rfl
    | scalar htext hc hconverted =>
      refine .inr ⟨_, s, hgives htext, ?_⟩
      rw [if_neg hc, hconverted]
      exact Fails.bind_left rfl

theorem visit_fails_iff (he : e.isFault = false) : Fails (visit id) s e ↔ s.VisitStops id e := by
  rw [visit, Fails.bind_iff_of_gives made?_gives]
  split
  · rename_i hmade
    refine ⟨fun h => (Fails.not_pure h).elim, fun ⟨hnew, _⟩ => ?_⟩
    rw [hnew] at hmade
    cases hmade
  rename_i hmade
  rw [Fails.get_bind_iff]
  dsimp only
  have hnew : s.made[id]?.join = none := by simpa using hmade
  have hpending {tag : CoreTag} (htag : CoreTag.ofText? (s.graph.node id).tag = some tag)
      (hscalar : tag.isScalar = false) : Fails (do
        record id .pending
        modify fun s => { s with queue := id :: s.queue }) s e ↔ s.VisitStops id e := by
    refine ⟨nofun, fun ⟨_, tag', htag', h⟩ => ?_⟩
    cases htag.symm.trans htag'
    cases hscalar.symm.trans h.isScalar
  split
  · exact hpending ‹_› rfl
  · exact hpending ‹_› rfl
  · exact hpending ‹_› rfl
  · exact hpending ‹_› rfl
  · exact hpending ‹_› rfl
  · rename_i tag _ _ _ _ _ htag
    rw [convert_fails_iff he]
    refine ⟨fun h => ⟨hnew, tag, htag, h⟩, fun ⟨_, tag', htag', h⟩ => ?_⟩
    cases htag.symm.trans htag'
    exact h
  · rename_i htag
    refine ⟨fun h => (not_fails_malformed he h).elim, fun ⟨_, tag', htag', _⟩ => ?_⟩
    cases htag.symm.trans htag'

end Make

/-! ## Collections -/

namespace Maker

/-- The key of an entry in a mapping at a place, or the value after it, cannot be converted. -/
def EntryStops (s : Maker) (mapping : Mark) (entry : NodeId × NodeId) (e : Error) : Prop :=
  s.VisitStops entry.1 e ∨
    ∃ k s', Gives (Make.keyOf mapping entry.1) s k s' ∧ s'.VisitStops entry.2 e

/-- There is no room to merge into a mapping, or one of its entries cannot be converted. Those in
front of it are. -/
inductive MappingStops (s : Maker) (id : NodeId) : Error → Prop
  | merging {entries : List (NodeId × NodeId)} : (s.graph.node id).body = .mapping entries →
    Graph.MergingExceeds (i.mergeRoom + 1) id s.graph → MappingStops s id .exhausted
  | entry {g : Graph} {entries before after : List (NodeId × NodeId)} {entry : NodeId × NodeId}
    {s' : Maker} {e : Error} : (s.graph.node id).body = .mapping entries →
    s.graph.flatten id = .ok g → g.entries id = before ++ entry :: after →
    Goes (Make.keyedEntry (s.graph.node id).mark) before { s with graph := g } s' →
    s'.EntryStops (s.graph.node id).mark entry e → MappingStops s id e

/-- The key or the value of a pair cannot be converted. -/
def PairStops (s : Maker) (item : NodeId) (e : Error) : Prop :=
  ∃ key value, (s.graph.node item).body = .mapping [(key, value)] ∧
    (s.VisitStops key e ∨ ∃ s', Gives (Make.visit key) s () s' ∧ s'.VisitStops value e)

/-- In a list of pairs the key or the value of one cannot be converted. Those in front of it are. -/
def PairsStop (s : Maker) (context : Context) (id : NodeId) (e : Error) : Prop :=
  ∃ before item after s', (s.graph.node id).body = .sequence (before ++ item :: after) ∧
    Goes (Make.pairOf context (s.graph.node id).mark) before s s' ∧ s'.PairStops item e

/-- An item of a sequence cannot be converted. Those in front of it are. -/
def ItemsStop (s : Maker) (id : NodeId) (e : Error) : Prop :=
  ∃ before item after s', (s.graph.node id).body = .sequence (before ++ item :: after) ∧
    Goes Make.visit before s s' ∧ s'.VisitStops item e

/-- Looking into a collection comes to a part that cannot be converted, or to merging that there is
no room for. -/
def LookStops (s : Maker) (id : NodeId) (e : Error) : Prop :=
  match CoreTag.ofText? (s.graph.node id).tag with
  | some .list => s.ItemsStop id e
  | some .orderedMap => s.PairsStop .orderedMapping id e
  | some .pairs => s.PairsStop .pairs id e
  | _ => s.MappingStops id e

end Maker

namespace Make

theorem keyOf_fails_iff {mapping : Mark} (he : e.isFault = false) :
    Fails (keyOf mapping id) s e ↔ s.VisitStops id e := by
  rw [keyOf, Fails.bind_iff_left, visit_fails_iff he]
  intro _ s' h
  rw [Fails.bind_iff_of_gives made?_gives] at h
  split at h
  · exact Fails.not_pure h
  · rw [Fails.get_bind_iff] at h
    exact not_fails_malformed he h

theorem keyedEntry_fails_iff {mapping : Mark} {entry : NodeId × NodeId} (he : e.isFault = false) :
    Fails (keyedEntry mapping entry) s e ↔ s.EntryStops mapping entry e := by
  rw [keyedEntry, Fails.bind_iff, keyOf_fails_iff he]
  refine or_congr_right (exists₂_congr fun k s' => and_congr_right fun _ => ?_)
  rw [Fails.bind_iff_left fun _ _ => Fails.not_pure, visit_fails_iff he]

theorem mappingEntries_fails_iff (he : e.isFault = false) :
    Fails (mappingEntries id) s e ↔ s.MappingStops id e := by
  rw [mappingEntries, Fails.get_bind_iff]
  dsimp only
  split
  · rename_i entries hbody
    rw [Fails.get_bind_iff, Fails.bind_iff, Fails.lift_iff, Graph.flatten_eq_error_iff he]
    simp only [Gives.lift_iff, Fails.modify_bind_iff, Fails.bind_iff_left fun _ _ => Fails.not_pure,
      Fails.mapM_iff, keyedEntry_fails_iff he]
    constructor
    · rintro (⟨rfl, hexceeds⟩ |
        ⟨g, _, ⟨hflatten, rfl⟩, before, entry, after, s', hentries, hgoes, h⟩)
      · exact .merging hbody hexceeds
      · exact .entry hbody hflatten hentries hgoes h
    · rintro (⟨_, hexceeds⟩ | ⟨_, hflatten, hentries, hgoes, h⟩)
      · exact .inl ⟨rfl, hexceeds⟩
      · exact .inr ⟨_, _, ⟨hflatten, rfl⟩, _, _, _, _, hentries, hgoes, h⟩
  · rename_i hbody
    refine ⟨fun h => (not_fails_malformed he h).elim, fun h => ?_⟩
    cases h with
    | merging h => exact absurd h (hbody _)
    | entry h => exact absurd h (hbody _)

theorem pairOf_fails_iff {context : Context} {list : Mark} {item : NodeId}
    (he : e.isFault = false) :
    Fails (pairOf context list item) s e ↔ s.PairStops item e := by
  rw [pairOf, Fails.get_bind_iff]
  dsimp only
  split
  · rename_i key value hbody
    rw [Fails.bind_iff, visit_fails_iff he]
    simp only [Fails.bind_iff_left fun _ _ => Fails.not_pure, visit_fails_iff he]
    refine ⟨fun h => ⟨key, value, hbody, h.imp_right fun ⟨_, h⟩ => h⟩, ?_⟩
    rintro ⟨_, _, hbody', h⟩
    cases hbody.symm.trans hbody'
    exact h.imp_right fun h => ⟨(), h⟩
  · rename_i hlone hbody
    refine ⟨fun h => (not_fails_malformed he h).elim, ?_⟩
    rintro ⟨key, value, hbody', _⟩
    exact absurd (Body.mapping.inj (hbody.symm.trans hbody')) (hlone key value)
  · rename_i hbody
    refine ⟨fun h => (not_fails_malformed he h).elim, ?_⟩
    rintro ⟨_, _, hbody', _⟩
    exact absurd hbody' (hbody _)

theorem pairEntries_fails_iff {context : Context} (he : e.isFault = false) :
    Fails (pairEntries context id) s e ↔ s.PairsStop context id e := by
  rw [pairEntries, Fails.get_bind_iff]
  dsimp only
  split
  · rename_i items hbody
    simp only [Fails.mapM_iff, pairOf_fails_iff he, Maker.PairsStop, hbody, Body.sequence.injEq]
  · rename_i hbody
    refine ⟨fun h => (not_fails_malformed he h).elim, ?_⟩
    rintro ⟨_, _, _, _, hbody', _⟩
    exact absurd hbody' (hbody _)

theorem lookInto_fails_iff (he : e.isFault = false) :
    Fails (lookInto id) s e ↔ s.LookStops id e := by
  rw [lookInto, Fails.get_bind_iff, Maker.LookStops]
  dsimp only
  split
  · rename_i htag
    simp only [htag]
    split
    · rename_i items hbody
      simp only [Fails.bind_iff_left fun _ _ => Fails.not_pure, Fails.forM_iff, visit_fails_iff he,
        Maker.ItemsStop, hbody, Body.sequence.injEq]
    · rename_i hbody
      refine ⟨fun h => (not_fails_malformed he h).elim, ?_⟩
      rintro ⟨_, _, _, _, hbody', _⟩
      exact absurd hbody' (hbody _)
  · rename_i htag
    simp only [htag, Fails.bind_iff_left fun _ _ => Fails.not_pure, mappingEntries_fails_iff he]
  · rename_i htag
    simp only [htag, Fails.bind_iff_left fun _ _ => Fails.not_pure, pairEntries_fails_iff he]
  · rename_i htag
    simp only [htag, Fails.bind_iff_left fun _ _ => Fails.not_pure, pairEntries_fails_iff he]
  · simp only [Fails.bind_iff_left fun _ _ => Fails.not_pure, mappingEntries_fails_iff he]

end Make

/-! ## Rounds -/

namespace Make

/-- The step for a collection that waits. -/
def lookAt (id : NodeId) : Make Unit := do record id (← lookInto id)

/-- After some rounds, in each of which collections were waiting, a state is another one. -/
inductive Rounds : (count : Nat) → Maker → Maker → Prop
  | zero {start : Maker} : Rounds 0 start start
  | succ {count : Nat} {start next stop : Maker} : start.queue ≠ [] →
    Goes lookAt start.queue.reverse { start with queue := [] } next → Rounds count next stop →
    Rounds (count + 1) start stop

end Make

/-- Looking into the collections that wait comes to one in which it stops. -/
def Maker.RoundStops (s : Maker) (e : Error) : Prop :=
  ∃ before id after s', s.queue.reverse = before ++ id :: after ∧
    Goes Make.lookAt before { s with queue := [] } s' ∧ s'.LookStops id e

namespace Make

theorem lookAt_fails_iff (he : e.isFault = false) : Fails (lookAt id) s e ↔ s.LookStops id e := by
  rw [lookAt, Fails.bind_iff_left, lookInto_fails_iff he]
  exact fun _ _ => Fails.not_modify

theorem lookIntoAll_fails_iff {fuel : Nat} (he : e.isFault = false) :
    Fails (lookIntoAll fuel) s e ↔ ∃ count < fuel, ∃ s', Rounds count s s' ∧ s'.RoundStops e := by
  induction fuel generalizing s with
  | zero => exact ⟨fun h => (Fails.not_pure h).elim, fun ⟨_, h, _⟩ => (Nat.not_lt_zero _ h).elim⟩
  | succ fuel ih =>
    have hwaits : Gives
        (modifyGet fun s => (s.queue.reverse, { s with queue := [] }) : Make (List NodeId))
        s s.queue.reverse { s with queue := [] } := rfl
    rw [lookIntoAll, Fails.bind_iff_of_gives hwaits]
    split
    · rename_i hempty
      have hqueue : s.queue = [] := by simpa using hempty
      refine ⟨fun h => (Fails.not_pure h).elim, ?_⟩
      rintro ⟨_, _, _, hrounds, _, _, _, _, hstops, _⟩
      cases hrounds with
      | zero => simp [hqueue] at hstops
      | succ hne => exact absurd hqueue hne
    · rename_i hempty
      have hqueue : s.queue ≠ [] := by simpa using hempty
      rw [Fails.bind_iff, Fails.forM_iff]
      constructor
      · rintro (⟨before, id, after, s', hwaiting, hgoes, h⟩ | ⟨_, s', hgoes, h⟩)
        · exact ⟨0, Nat.succ_pos _, s, .zero, before, id, after, s', hwaiting, hgoes,
            (lookAt_fails_iff he).mp h⟩
        · obtain ⟨count, hcount, s'', hrounds, hstops⟩ := ih.mp h
          exact ⟨count + 1, Nat.succ_lt_succ hcount, s'',
            .succ hqueue (Goes.gives_forM_iff.mp hgoes) hrounds, hstops⟩
      · rintro ⟨count, hcount, s', hrounds, hstops⟩
        cases hrounds with
        | zero =>
          obtain ⟨before, id, after, s', hwaiting, hgoes, h⟩ := hstops
          exact .inl ⟨before, id, after, s', hwaiting, hgoes, (lookAt_fails_iff he).mpr h⟩
        | succ _ hgoes hrounds =>
          exact .inr ⟨(), _, Goes.gives_forM_iff.mpr hgoes,
            ih.mpr ⟨_, Nat.lt_of_succ_lt_succ hcount, s', hrounds, hstops⟩⟩

end Make

/-- Making the values of a graph from a root on comes to a node that cannot be converted, or to
merging that there is no room for. -/
inductive Graph.Stops (g : Graph) (root : NodeId) (e : Error) : Prop
  | root : Maker.VisitStops ⟨g, .replicate g.size none, []⟩ root e → Stops g root e
  | inside {s s' : Maker} {count : Nat} :
    Gives (Make.visit root) ⟨g, .replicate g.size none, []⟩ () s → count ≤ g.size →
    Make.Rounds count s s' → s'.RoundStops e → Stops g root e

/-- **When the values of a graph cannot be made.** -/
theorem Graph.toDocument_eq_error_iff {g : Graph} {root : NodeId} (he : e.isFault = false) :
    g.toDocument root = .error e ↔ g.Stops root e := by
  have hwork : g.toDocument root = .error e ↔ Fails (do
      Make.visit root
      Make.lookIntoAll (g.size + 1)) ⟨g, .replicate g.size none, []⟩ e := by
    rw [toDocument, bind_eq_error_iff]
    exact ⟨fun h => h.resolve_right nofun, .inl⟩
  rw [hwork, Fails.bind_iff, Make.visit_fails_iff he]
  simp only [Make.lookIntoAll_fails_iff he, Nat.lt_succ_iff]
  constructor
  · rintro (h | ⟨_, s, hvisit, count, hcount, s', hrounds, hstops⟩)
    · exact .root h
    · exact .inside hvisit hcount hrounds hstops
  · rintro (h | ⟨hvisit, hcount, hrounds, hstops⟩)
    · exact .inl h
    · exact .inr ⟨(), _, hvisit, _, hcount, _, hrounds, hstops⟩

end CollectionInterfaces.Yaml
