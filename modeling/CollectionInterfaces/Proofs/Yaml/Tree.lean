import CollectionInterfaces.Proofs.Results
import CollectionInterfaces.Proofs.Yaml.Nesting
import CollectionInterfaces.Proofs.Yaml.Rounds
import Mathlib.Data.List.TakeDrop

/-!
# YAML documents without aliases

Without aliases the parts of a node are added after the node, and merging mappings keeps this order
of the numbers. So nothing stands inside itself, and what a text without aliases says is a tree
(`isTree_of_parse`).
-/

namespace CollectionInterfaces.Yaml

/-- The token is a node that is named elsewhere. -/
def TokenKind.isAlias : TokenKind → Bool
  | .alias _ => true
  | _ => false

/-- No node of a text is named elsewhere. -/
def IsAliasFree (t : Text) : Prop :=
  ∀ token ∈ (TokenStream.ofText t).tokens, token.kind.isAlias = false

instance (t : Text) : Decidable (IsAliasFree t) :=
  inferInstanceAs (Decidable (∀ token ∈ (TokenStream.ofText t).tokens, token.kind.isAlias = false))

variable {g : Graph} {id : NodeId} {n : Node}

/-! ## Nodes -/

namespace Graph

/-- Nodes have parts with greater numbers. -/
def IsOrdered (g : Graph) : Prop := ∀ id, ∀ part ∈ (g.node id).body.parts, id < part

namespace IsOrdered

theorem setNode (h : g.IsOrdered) (hn : ∀ part ∈ n.body.parts, id < part) :
    IsOrdered (g.setIfInBounds id n) := by
  intro j
  rcases node_setIfInBounds g id j n with ⟨rfl, hj⟩ | hj
  · rw [hj]
    exact hn
  · rw [hj]
    exact h j

theorem push (h : g.IsOrdered) (hn : n.body.parts = []) : IsOrdered (g.push n) := by
  intro j
  have hnode : (node (g.push n) j) = n ∨ node (g.push n) j = g.node j := by
    unfold node
    rw [Array.getElem?_push]
    split
    · exact .inl rfl
    · exact .inr rfl
  rcases hnode with hj | hj
  · rw [hj, hn]
    exact nofun
  · rw [hj]
    exact h j

theorem entries (h : g.IsOrdered) : ∀ entry ∈ g.entries id, id < entry.1 ∧ id < entry.2 :=
  fun _ hentry => ⟨h id _ (parts_of_mem_entries hentry).1, h id _ (parts_of_mem_entries hentry).2⟩

theorem setEntries {entries : List (NodeId × NodeId)} (h : g.IsOrdered)
    (hentries : ∀ entry ∈ entries, id < entry.1 ∧ id < entry.2) :
    (g.setBody id (.mapping entries)).IsOrdered :=
  h.setNode (Body.forall_mem_parts_mapping.mpr hentries)

end IsOrdered

/-! ## Merging -/

theorem mergeSources_above {mark : Mark} {value : NodeId} (h : g.IsOrdered) (hvalue : id < value) :
    Ends (fun _ => True) (g.mergeSources mark value) fun sources =>
      ∀ source ∈ sources, id < source := by
  unfold mergeSources
  split
  · exact List.forall_mem_singleton.mpr hvalue
  · rename_i items heq
    have hitems := h value
    rw [heq] at hitems
    exact fun source hsource => Nat.lt_trans hvalue (hitems source hsource)
  · trivial

theorem mergeSource_runs {flatten : NodeId → Merge Unit} {mark : Mark} {source : NodeId}
    (H : Runs IsOrdered (flatten source) fun _ => True) (hsource : id < source) :
    Runs IsOrdered (mergeSource flatten mark source) fun entries =>
      ∀ entry ∈ entries, id < entry.1 ∧ id < entry.2 := by
  refine .bind .get fun g _ => ?_
  dsimp only
  split
  · refine .bind H fun _ _ => .bind .get fun g hg => .pure fun entry hentry => ?_
    exact (hg.entries entry hentry).imp (Nat.lt_trans hsource) (Nat.lt_trans hsource)
  · exact .error

theorem mem_of_splitMerge {before after : List (NodeId × NodeId)} {value : NodeId}
    (h : g.splitMerge id = some (before, value, after)) :
    ∃ key, g.entries id = before ++ (key, value) :: after := by
  unfold splitMerge at h
  split at h
  · rename_i before' key value' after' hspan
    cases h
    rw [List.span_eq_takeWhile_dropWhile, Prod.mk.injEq] at hspan
    exact ⟨key, by rw [← hspan.1, ← hspan.2, List.takeWhile_append_dropWhile]⟩
  · cases h

/-- What is merged into a node are parts of its parts, whose numbers are greater still. -/
theorem mergeKeys_runs {flatten : NodeId → Merge Unit}
    (H : ∀ source, Runs IsOrdered (flatten source) fun _ => True) {count : Nat} :
    Runs IsOrdered (mergeKeys flatten id count) fun entries =>
      ∀ entry ∈ entries, id < entry.1 ∧ id < entry.2 := by
  induction count with
  | zero => exact .pure nofun
  | succ count ih =>
    refine .bind .get fun g hg => ?_
    split
    · exact .pure nofun
    rename_i before value after hsplit
    obtain ⟨key, hentries⟩ := mem_of_splitMerge hsplit
    have hparts : ∀ entry ∈ g.entries id, id < entry.1 ∧ id < entry.2 := hg.entries
    rw [hentries, List.forall_mem_append, List.forall_mem_cons] at hparts
    have hleft : (g.setBody id (.mapping (before ++ after))).IsOrdered :=
      hg.setEntries (List.forall_mem_append.mpr ⟨hparts.1, hparts.2.2⟩)
    refine .bind (.set hleft) fun _ _ => ?_
    refine .bind (.lift (mergeSources_above hleft hparts.2.1.2)) fun sources hsources => ?_
    refine .bind (.mapM fun source hsource => mergeSource_runs (H source) (hsources source hsource))
      fun groups hgroups => .bind ih fun merged hmerged => .pure ?_
    refine List.forall_mem_append.mpr ⟨fun entry hentry => ?_, hmerged⟩
    obtain ⟨group, hgroup, hentry⟩ := List.mem_flatten.mp hentry
    exact hgroups group (List.mem_reverse.mp hgroup) entry hentry

theorem takeDefaults_isOrdered (h : g.IsOrdered) : (g.takeDefaults id).IsOrdered := by
  unfold takeDefaults
  generalize g.entries id = entries
  induction entries generalizing g with
  | nil => exact h
  | cons entry entries ih =>
    refine ih ?_
    dsimp only
    split
    · exact h.setNode (h entry.1)
    · exact h

theorem flattenWithin_runs {room : Nat} :
    Runs IsOrdered (flattenWithin room id) fun _ => True := by
  induction room generalizing id with
  | zero => exact .error
  | succ room ih =>
    refine .bind (.modify fun _ => takeDefaults_isOrdered) fun _ _ => .bind .get fun _ _ => ?_
    refine .bind (mergeKeys_runs fun _ => ih) fun merged hmerged => ?_
    split
    · refine .modify fun g hg => ?_
      exact hg.setEntries (List.forall_mem_append.mpr ⟨hmerged, hg.entries⟩)
    · exact .pure trivial

theorem flatten_isOrdered [Interpreter] (h : g.IsOrdered) :
    Ends (fun _ => True) (g.flatten id) IsOrdered :=
  Ends.bind (flattenWithin_runs g h) fun _ hr => .pure hr.2

end Graph

/-! ## Reading -/

/-- What is known between two tokens of a text without aliases: from a node on, others can be parts
of it. -/
structure Builder.IsOrdered (first : NodeId) (s : Builder) : Prop where
  aliasFree : ∀ token ∈ s.tokens, token.kind.isAlias = false
  graph : s.graph.IsOrdered
  size : first ≤ s.graph.size

theorem Build.invariant_isOrdered :
    Build.Invariant Builder.IsOrdered (·.isAlias = false) (· ≤ ·) where
  peek := by
    refine .bind .get fun s hs => ?_
    split
    · rename_i token rest heq
      refine .pure (hs.aliasFree token ?_)
      rw [heq]
      exact List.mem_cons_self
    · exact .error
  drop hs :=
    ⟨fun token htoken => hs.aliasFree token (List.mem_of_mem_tail htoken), hs.graph, hs.size⟩
  shorthands _ hs := ⟨hs.aliasFree, hs.graph, hs.size⟩
  anchors _ hs := ⟨hs.aliasFree, hs.graph, hs.size⟩
  aliased := nofun
  add hs hn := ⟨hs.size, hs.aliasFree, hs.graph.push hn, by simp⟩
  set hs hparts := ⟨hs.aliasFree, hs.graph.setNode hparts, by simpa [Graph.setBody] using hs.size⟩
  back hid hs := ⟨hs.aliasFree, hs.graph, Nat.le_trans hid (Nat.le_of_succ_le hs.size)⟩
  trans hid hpart := Nat.le_trans hid (Nat.le_of_succ_le hpart)

/-- What is known of the values that are made: the parts of each have greater numbers, and the keys
are distinct. -/
structure Maker.IsOrdered (s : Maker) : Prop where
  graph : s.graph.IsOrdered
  made : ∀ (id : NodeId) (m : Made), s.made[id]?.join = some m → m.Fits (· < ·) id

theorem Make.invariant_isOrdered [Interpreter] : Make.Invariant Maker.IsOrdered (· < ·) where
  flatten _ hs := (Graph.flatten_isOrdered hs.graph).mono fun _ hg _ hs' => ⟨hg, hs'.made⟩
  record hs hm := ⟨hs.graph, fun j m' hm' => by
    rcases of_setIfInBounds hm' with ⟨rfl, rfl⟩ | hm'
    · exact hm
    · exact hs.made j m' hm'⟩
  queue _ hs := ⟨hs.graph, hs.made⟩
  parts id hs := hs.graph id
  trans := Nat.lt_trans

/-! ## Putting values together -/

/-- What was put together so far are trees. -/
structure Assembly.IsTree (a : Assembly) : Prop where
  values : ∀ (id : NodeId) (v : Value), a.values[id]?.join = some v → v.IsTree
  knots : a.knots = []

namespace Assemble

/-- A step puts trees together, and its result is as `Q` says. -/
def Plants (m : Assemble α) (Q : α → Prop) : Prop :=
  ∀ a : Assembly, a.IsTree → Q (m.run a).1 ∧ (m.run a).2.IsTree

namespace Plants

variable {α β : Type} {m : Assemble α} {Q : α → Prop}

theorem pure {x : α} (h : Q x) : Plants (pure x) Q := fun _ ha => ⟨h, ha⟩

theorem bind {next : α → Assemble β} {Q' : β → Prop} (H1 : Plants m Q)
    (H2 : ∀ x, Q x → Plants (next x) Q') : Plants (m >>= next) Q' :=
  fun a ha => H2 _ (H1 a ha).1 _ (H1 a ha).2

theorem get : Plants get Assembly.IsTree := fun _ ha => ⟨ha, ha⟩

theorem mapM {f : α → Assemble β} {xs : List α} {Q : β → Prop}
    (H : ∀ x ∈ xs, Plants (f x) Q) : Plants (xs.mapM f) fun ys => ∀ y ∈ ys, Q y := by
  induction xs with
  | nil => exact .pure nofun
  | cons x xs ih =>
    rw [List.forall_mem_cons] at H
    rw [List.mapM_cons]
    exact .bind H.1 fun _ hy => .bind (ih H.2) fun _ hys =>
      .pure (List.forall_mem_cons.mpr ⟨hy, hys⟩)

/-- The values of a mapping are put together under its keys. -/
theorem entries {part : NodeId → Assemble Value} {entries : List (Scalar × NodeId)}
    (H : ∀ id ∈ entries.map (·.2), Plants (part id) Value.IsTree) :
    Plants (entries.mapM fun (key, id) => do return (key, ← part id)) fun vs =>
      vs.map (·.1) = entries.map (·.1) ∧ ∀ v ∈ vs, v.2.IsTree := by
  induction entries with
  | nil => exact .pure ⟨rfl, nofun⟩
  | cons entry entries ih =>
    rw [List.map_cons, List.forall_mem_cons] at H
    rw [List.mapM_cons]
    have hfirst : Plants (do return (entry.1, ← part entry.2)) fun x : Scalar × Value =>
        x.1 = entry.1 ∧ x.2.IsTree := .bind H.1 fun _ hv => .pure ⟨rfl, hv⟩
    refine .bind hfirst fun x hx => .bind (ih H.2) fun vs hvs =>
      .pure ⟨?_, List.forall_mem_cons.mpr ⟨hx.2, hvs.2⟩⟩
    rw [List.map_cons, List.map_cons, hx.1, hvs.1]

theorem container {v : Value} (h : v.IsTree) : Plants (container id v) Value.IsTree := by
  intro a ha
  unfold Assemble.container
  rw [h.isKnotted]
  refine ⟨h, fun j v' hv' => ?_, ha.knots⟩
  rcases of_setIfInBounds hv' with ⟨-, rfl⟩ | hv'
  · exact h
  · exact ha.values j v' hv'

end Plants

/-- What is put together at a node is a tree, since the containers around it have smaller
numbers. -/
theorem plants_value [Interpreter] {made : MadeValues} (fuel : Nat)
    (hmade : ∀ (id : NodeId) (m : Made), made[id]?.join = some m → m.Fits (· < ·) id)
    (inside : List NodeId) (id : NodeId) (hinside : ∀ outer ∈ inside, outer < id) :
    Plants (value made fuel inside id) Value.IsTree := by
  induction fuel generalizing inside id with
  | zero => exact .pure .scalar
  | succ fuel ih =>
    have hpart {m : Made} (hm : made[id]?.join = some m) :
        ∀ part ∈ m.parts, Plants (value made fuel (id :: inside) part) Value.IsTree := by
      intro part hpart
      have hlt := (hmade id m hm).parts part hpart
      exact ih (id :: inside) part (List.forall_mem_cons.mpr
        ⟨hlt, fun outer houter => Nat.lt_trans (hinside outer houter) hlt⟩)
    have hnot : inside.contains id = false := by
      rw [← Bool.not_eq_true, List.contains_iff_mem]
      exact fun hmem => Nat.lt_irrefl id (hinside id hmem)
    unfold value
    refine .bind .get fun a ha => ?_
    dsimp only
    split
    · rename_i v hv
      exact .pure (ha.values id v hv)
    rw [hnot, if_neg Bool.false_ne_true]
    split
    · exact .pure .scalar
    · rename_i items hm
      exact .bind (.mapM (hpart hm)) fun vs hvs => .container (.list hvs)
    · rename_i entries hm
      refine .bind (.entries (hpart hm)) fun vs hvs => .container (.map ?_ hvs.2)
      rw [hvs.1]
      exact (hmade id _ hm).keys
    · exact .container .set
    · rename_i entries hm
      have hparts := Body.forall_mem_parts_mapping.mp (hpart hm)
      refine .bind (.mapM fun entry hentry => ?_) fun vs hvs => .container (.list hvs)
      exact .bind (hparts entry hentry).1 fun _ hkey =>
        .bind (hparts entry hentry).2 fun _ hvalue => .pure (.pair hkey hvalue)
    · exact .pure .scalar

end Assemble

/-! ## Documents -/

/-- Tokens without aliases are put together to a graph in which parts have greater numbers. -/
theorem Graph.isOrdered_of_ofTokens {tokens : List Token} {root : Option NodeId}
    (h : ∀ token ∈ tokens, token.kind.isAlias = false)
    (hg : Graph.ofTokens tokens = .ok (g, root)) : g.IsOrdered := by
  have hends : Ends (fun _ => True) (Graph.ofTokens tokens) fun r => r.1.IsOrdered :=
    Ends.bind (Build.invariant_isOrdered.singleDocument 0 _
      ⟨h, fun id => by simp [Graph.node, Body.parts], Nat.zero_le _⟩) fun _ hr => hr.2.graph
  exact hends.result hg

theorem Graph.isTree_of_toDocument [Interpreter] {d : Document} {root : NodeId} (h : g.IsOrdered)
    (hd : g.toDocument root = .ok d) : d.IsTree := by
  have hempty {α : Type} (id : NodeId) (a : α) :
      (Array.replicate g.size none)[id]?.join ≠ some a := by
    rw [Array.getElem?_replicate]
    split <;> exact nofun
  have hends : Ends (fun _ => True) (g.toDocument root) Document.IsTree := by
    refine Ends.bind (Make.invariant_isOrdered.visitAll _ ⟨h, fun id m hm => ?_⟩) fun r hr => ?_
    · exact absurd hm (hempty id m)
    · have hvalue := Assemble.plants_value (g.size + 1) hr.2.made [] root nofun
        ⟨.replicate g.size none, []⟩ ⟨fun id v hv => absurd hv (hempty id v), rfl⟩
      exact ⟨hvalue.1, hvalue.2.knots⟩
  exact hends.result hd

/-- **What a text without aliases says is a tree.** -/
theorem isTree_of_parse [Interpreter] {t : Text} {d : Document} (h : IsAliasFree t)
    (hd : parse t = .ok d) :
    d.IsTree := by
  unfold parse at hd
  split at hd
  · cases hd
  obtain ⟨⟨g, root?⟩, htokens, hd⟩ := bind_eq_ok_iff.mp hd
  cases root? with
  | none =>
    cases hd
    exact ⟨.scalar, rfl⟩
  | some root =>
    refine Graph.isTree_of_toDocument (Graph.isOrdered_of_ofTokens (fun token htoken => ?_)
      (mapError_eq_ok_iff.mp htokens)) hd
    exact h token (TokenStream.mem_of_mem_withinFrom htoken)

end CollectionInterfaces.Yaml
