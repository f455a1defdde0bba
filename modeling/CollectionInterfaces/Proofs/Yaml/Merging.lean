import CollectionInterfaces.Proofs.Yaml.Outcome
import CollectionInterfaces.Yaml.Document
import Mathlib.Data.List.TakeDrop
import Mathlib.Data.List.TakeWhile

/-!
# Where there is no room for merging and for defaults

A mapping is merged into another one after what is merged into the former, and a mapping with a
default stands for what the default stands for. Both follow the nodes of a document without looking
whether they were there before. They run out of room exactly at nodes that lead too far
(`flatten_eq_error_iff`, `scalarText_eq_error_iff`).
-/

namespace CollectionInterfaces.Yaml.Graph

variable {g : Graph} {id : NodeId} {room count : Nat} {t : Text} {mark : Mark} {e : Error}

/-! ## Defaults -/

/-- A node stands for a text: for its own, or as a mapping for that of its default. Defaults are
followed `room` times at most. -/
inductive StandsFor (g : Graph) (t : Text) : (room : Nat) → NodeId → Prop
  | scalar {room : Nat} {id : NodeId} : (g.node id).body = .scalar t → StandsFor g t room id
  | default {room : Nat} {id value : NodeId} : g.default? id = some value →
    StandsFor g t room value → StandsFor g t (room + 1) id

/-- A node has a default, which has a default, and so on, more than `room` times. -/
def DefaultsExceed (g : Graph) : (room : Nat) → NodeId → Prop
  | 0, id => ∃ value, g.default? id = some value
  | room + 1, id => ∃ value, g.default? id = some value ∧ g.DefaultsExceed room value

theorem default?_of_scalar (h : (g.node id).body = .scalar t) : g.default? id = none := by
  simp [default?, entries, h]

theorem scalarText_of_scalar (h : (g.node id).body = .scalar t) :
    g.scalarText room id = .ok t := by
  cases room <;> simp [scalarText, h]

theorem scalarText_of_default {value : NodeId} (h : g.default? id = some value) :
    g.scalarText room id =
      match room with
      | 0 => .error .exhausted
      | room + 1 => g.scalarText room value := by
  have hbody (t : Text) : (g.node id).body ≠ .scalar t := fun hbody => by
    rw [default?_of_scalar hbody] at h
    cases h
  cases room <;> cases hkind : (g.node id).body <;> simp_all [scalarText]

theorem scalarText_ends :
    Ends (fun e => e.isFault = true ∨ e = .exhausted ∧ g.DefaultsExceed room id)
      (g.scalarText room id) fun t => g.StandsFor t room id := by
  induction room generalizing id with
  | zero =>
    unfold scalarText
    split
    · exact .scalar ‹_›
    · exact .inl rfl
    · exact .inr ⟨rfl, _, ‹_›⟩
    · contradiction
  | succ room ih =>
    unfold scalarText
    split
    · exact .scalar ‹_›
    · exact .inl rfl
    · contradiction
    · rename_i value _ hdefault hroom _
      cases hroom
      refine (ih.weaken fun e he => ?_).mono fun t ht => .default hdefault ht
      exact he.imp_right fun ⟨he, hexceed⟩ => ⟨he, value, hdefault, hexceed⟩

theorem scalarText_eq_ok_iff : g.scalarText room id = .ok t ↔ g.StandsFor t room id := by
  refine ⟨scalarText_ends.result, fun h => ?_⟩
  induction h with
  | scalar hbody => exact scalarText_of_scalar hbody
  | default hdefault _ ih => exact (scalarText_of_default hdefault).trans ih

theorem scalarText_of_exceed (h : g.DefaultsExceed room id) :
    g.scalarText room id = .error .exhausted := by
  induction room generalizing id with
  | zero =>
    obtain ⟨value, hdefault⟩ := h
    exact scalarText_of_default hdefault
  | succ room ih =>
    obtain ⟨value, hdefault, h⟩ := h
    exact (scalarText_of_default hdefault).trans (ih h)

/-- **When there is no room for the defaults of a node.** -/
theorem scalarText_eq_error_iff (he : e.isFault = false) :
    g.scalarText room id = .error e ↔ e = .exhausted ∧ g.DefaultsExceed room id := by
  constructor
  · intro h
    have hends := scalarText_ends.error h
    rw [he] at hends
    exact hends.resolve_left Bool.false_ne_true
  · rintro ⟨rfl, h⟩
    exact scalarText_of_exceed h

/-! ## Merging -/

theorem takeDefaults_eq_self (h : ∀ entry ∈ g.entries id, g.hasTag entry.1 .default = false) :
    g.takeDefaults id = g := by
  unfold takeDefaults
  generalize g.entries id = entries at h
  induction entries with
  | nil => rfl
  | cons entry entries ih =>
    rw [List.forall_mem_cons] at h
    rw [List.foldl_cons]
    simpa [h.1] using ih h.2

theorem splitMerge_eq_none (h : ∀ entry ∈ g.entries id, g.hasTag entry.1 .merge = false) :
    g.splitMerge id = none := by
  rw [splitMerge, List.span_eq_takeWhile_dropWhile, List.dropWhile_eq_nil_iff.mpr]
  intro entry hentry
  simp [h entry hentry]

/-- A mapping without keys for merging and for a default stays as it is. -/
theorem flatten_eq_self [Interpreter] (h : ∀ entry ∈ g.entries id,
    g.hasTag entry.1 .merge = false ∧ g.hasTag entry.1 .default = false) :
    g.flatten id = .ok g := by
  have hmerged {flatten : NodeId → Merge Unit} {count : Nat} :
      Gives (mergeKeys flatten id count) g [] g := by
    cases count with
    | zero => exact .pure
    | succ count =>
      refine .bind rfl ?_
      rw [splitMerge_eq_none fun entry hentry => (h entry hentry).1]
      exact .pure
  have hdefaults := takeDefaults_eq_self fun entry hentry => (h entry hentry).2
  have htaken : Gives (modify fun g => g.takeDefaults id : Merge Unit) g () g := by
    rw [Gives, StateT.run_modify, hdefaults]
    rfl
  have hflatten {room : Nat} : Gives (flattenWithin (room + 1) id) g () g :=
    htaken.bind (.bind rfl (.bind hmerged .pure))
  rw [flatten, hflatten]
  rfl

/-- The first merge key of a mapping is taken away, which leaves a graph. The value of the key
stands for some sources. -/
def TakesKey (g : Graph) (id : NodeId) (g' : Graph) (sources : List NodeId) : Prop :=
  ∃ before value after, g.splitMerge id = some (before, value, after) ∧
    g' = g.setBody id (.mapping (before ++ after)) ∧
    g'.mergeSources (g'.node id).mark value = .ok sources

/-- Merging the keys of a mapping, `count` of them at most, comes to a mapping in which it stops.
The keys before it and the sources in front of it are merged. -/
inductive KeysStop (flatten : NodeId → Merge Unit) (Stops : NodeId → Graph → Prop) (id : NodeId) :
    (count : Nat) → Graph → Prop
  | here {count : Nat} {g g' g'' : Graph} {merged rest : List NodeId} {source : NodeId}
    {entries : List (NodeId × NodeId)} : g.TakesKey id g' (merged ++ source :: rest) →
    Goes (mergeSource flatten (g'.node id).mark) merged g' g'' →
    (g''.node source).body = .mapping entries → Stops source g'' →
    KeysStop flatten Stops id (count + 1) g
  | later {count : Nat} {g g' g'' : Graph} {sources : List NodeId} : g.TakesKey id g' sources →
    Goes (mergeSource flatten (g'.node id).mark) sources g' g'' →
    KeysStop flatten Stops id count g'' → KeysStop flatten Stops id (count + 1) g

/-- Merging the keys of a mapping comes to mappings inside each other, more than `room` of them. -/
def MergingExceeds : (room : Nat) → NodeId → Graph → Prop
  | 0, _, _ => True
  | room + 1, id, g =>
    KeysStop (flattenWithin room) (MergingExceeds room) id ((g.takeDefaults id).entries id).length
      (g.takeDefaults id)

variable {flatten : NodeId → Merge Unit} {Stops : NodeId → Graph → Prop}

theorem mergeSources_ends {value : NodeId} :
    Ends (fun e => e.isFault = true) (g.mergeSources mark value) fun _ => True := by
  unfold mergeSources
  split
  · trivial
  · trivial
  · rfl

theorem mergeSource_fails_iff (he : e.isFault = false)
    (H : ∀ source g, Fails (flatten source) g e ↔ e = .exhausted ∧ Stops source g)
    {source : NodeId} :
    Fails (mergeSource flatten mark source) g e ↔
      e = .exhausted ∧ (∃ entries, (g.node source).body = .mapping entries) ∧ Stops source g := by
  have hfault {context : Context} {problem : Problem} {m m' : Mark} :
      Error.within .values context m problem m' ≠ e := by
    rintro rfl
    cases he
  rw [mergeSource, Fails.get_bind_iff]
  dsimp only
  split
  · rename_i entries hbody
    have hrest : Fails (do
        flatten source
        return (← get).entries source) g e ↔ Fails (flatten source) g e :=
      ⟨fun h => (Fails.bind_iff.mp h).resolve_right nofun, Fails.bind_left⟩
    rw [hrest, H]
    simp [hbody]
  · rename_i hbody
    rw [Fails.throw_iff]
    exact ⟨fun h => absurd h hfault, fun ⟨_, ⟨_, h⟩, _⟩ => absurd h (hbody _)⟩

/-- Merging the keys goes on with the first one, or it ends, or there is a fault. -/
theorem mergeKeys_fails_cases (he : e.isFault = false) :
    Fails (mergeKeys flatten id (count + 1)) g e ↔ ∃ g' sources, g.TakesKey id g' sources ∧
      (Fails (sources.mapM (mergeSource flatten (g'.node id).mark)) g' e ∨
        ∃ g'', Goes (mergeSource flatten (g'.node id).mark) sources g' g'' ∧
          Fails (mergeKeys flatten id count) g'' e) := by
  rw [mergeKeys, Fails.get_bind_iff]
  cases hsplit : g.splitMerge id with
  | none =>
    refine ⟨fun h => (Fails.not_pure h).elim, fun ⟨_, _, ⟨_, _, _, h, _⟩, _⟩ => ?_⟩
    cases hsplit.symm.trans h
  | some split =>
    obtain ⟨before, value, after⟩ := split
    dsimp only
    rw [Fails.set_bind_iff, Fails.bind_iff, Fails.lift_iff]
    constructor
    · rintro (hfault | ⟨sources, g', hsources, h⟩)
      · rw [mergeSources_ends.error hfault] at he
        cases he
      · obtain ⟨hmerge, rfl⟩ := Gives.lift_iff.mp hsources
        refine ⟨_, _, ⟨before, value, after, hsplit, rfl, hmerge⟩,
          (Fails.bind_iff.mp h).imp_right ?_⟩
        rintro ⟨groups, g'', hgroups, h⟩
        exact ⟨g'', Goes.gives_mapM_iff.mp ⟨groups, hgroups⟩,
          (Fails.bind_iff.mp h).resolve_right fun ⟨_, _, _, h⟩ => Fails.not_pure h⟩
    · rintro ⟨g', sources, ⟨_, _, _, hsplit', rfl, hsources⟩, h⟩
      cases hsplit.symm.trans hsplit'
      refine .inr ⟨sources, _, Gives.lift_iff.mpr ⟨hsources, rfl⟩,
        Fails.bind_iff.mpr (h.imp_right ?_)⟩
      rintro ⟨g'', hgoes, h⟩
      obtain ⟨groups, hgroups⟩ := Goes.gives_mapM_iff.mpr hgoes
      exact ⟨groups, g'', hgroups, h.bind_left⟩

theorem mergeKeys_fails_iff (he : e.isFault = false)
    (H : ∀ source g, Fails (flatten source) g e ↔ e = .exhausted ∧ Stops source g) :
    Fails (mergeKeys flatten id count) g e ↔
      e = .exhausted ∧ KeysStop flatten Stops id count g := by
  induction count generalizing g with
  | zero => exact ⟨fun h => (Fails.not_pure h).elim, nofun⟩
  | succ count ih =>
    simp only [mergeKeys_fails_cases he, ih, Fails.mapM_iff, mergeSource_fails_iff he H]
    constructor
    · rintro ⟨g', _, hkey, ⟨merged, source, rest, g'', rfl, hgoes, rfl, ⟨_, hbody⟩, hstops⟩ |
        ⟨g'', hgoes, rfl, hstops⟩⟩
      · exact ⟨rfl, .here hkey hgoes hbody hstops⟩
      · exact ⟨rfl, .later hkey hgoes hstops⟩
    · rintro ⟨rfl, h⟩
      cases h with
      | here hkey hgoes hbody hstops =>
        exact ⟨_, _, hkey, .inl ⟨_, _, _, _, rfl, hgoes, rfl, ⟨_, hbody⟩, hstops⟩⟩
      | later hkey hgoes hstops => exact ⟨_, _, hkey, .inr ⟨_, hgoes, rfl, hstops⟩⟩

/-- Merging fails without a fault exactly if there is no room for it. -/
theorem flattenWithin_fails_iff (he : e.isFault = false) :
    Fails (flattenWithin room id) g e ↔ e = .exhausted ∧ MergingExceeds room id g := by
  induction room generalizing id g with
  | zero =>
    exact Fails.throw_iff.trans ⟨fun h => ⟨h.symm, trivial⟩, fun h => h.1.symm⟩
  | succ room ih =>
    have hrest : Fails (flattenWithin (room + 1) id) g e ↔
        Fails (mergeKeys (flattenWithin room) id ((g.takeDefaults id).entries id).length)
          (g.takeDefaults id) e := by
      rw [flattenWithin, Fails.modify_bind_iff, Fails.get_bind_iff]
      refine ⟨fun h => (Fails.bind_iff.mp h).resolve_right ?_, Fails.bind_left⟩
      rintro ⟨merged, g', _, h⟩
      split at h
      · exact Fails.not_modify h
      · exact Fails.not_pure h
    rw [hrest, mergeKeys_fails_iff he fun _ _ => ih]
    rfl

/-- **When there is no room to merge mappings into one.** -/
theorem flatten_eq_error_iff [i : Interpreter] (he : e.isFault = false) :
    g.flatten id = .error e ↔ e = .exhausted ∧ MergingExceeds (i.mergeRoom + 1) id g := by
  rw [← flattenWithin_fails_iff he, Graph.flatten, bind_eq_error_iff]
  exact ⟨fun h => h.resolve_right nofun, .inl⟩

end CollectionInterfaces.Yaml.Graph
