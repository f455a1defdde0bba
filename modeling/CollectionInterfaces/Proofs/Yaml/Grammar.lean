import CollectionInterfaces.Proofs.Yaml.Outcome
import CollectionInterfaces.Yaml.Node.Grammar

/-!
# The steps of the grammar

The grammar takes tokens, adds nodes and gives bodies to them. What these steps keep is kept by the
whole grammar (`Build.Invariant.singleDocument`).
-/

namespace CollectionInterfaces.Yaml

/-- The nodes that a body is made of. -/
def Body.parts : Body → List NodeId
  | .scalar _ => []
  | .sequence items => items
  | .mapping entries => entries.flatMap fun (key, value) => [key, value]

theorem Body.forall_mem_parts_mapping {R : NodeId → Prop} {entries : List (NodeId × NodeId)} :
    (∀ part ∈ (Body.mapping entries).parts, R part) ↔
      ∀ entry ∈ entries, R entry.1 ∧ R entry.2 := by
  simp only [Body.parts, List.forall_mem_flatMap, List.forall_mem_cons, List.not_mem_nil,
    false_implies, implies_true, and_true]

namespace Build

/-- What the single steps of the grammar keep. The state is as `I` says from a node on, the tokens
are as `T` says. `R` relates a node to those that can be named from it on. -/
structure Invariant (I : NodeId → Builder → Prop) (T : TokenKind → Prop)
    (R : NodeId → NodeId → Prop) : Prop where
  peek {first : NodeId} : Runs (I first) peek fun token => T token.kind
  drop {first : NodeId} {s : Builder} :
    I first s → I first { s with tokens := s.tokens.tail }
  shorthands {first : NodeId} {s : Builder} (all : List (Text × Text)) :
    I first s → I first { s with shorthands := all }
  anchors {first : NodeId} {s : Builder} (all : List (Text × NodeId)) :
    I first s → I first { s with anchors := all }
  aliased {first : NodeId} {name : Text} {mark : Mark} :
    T (.alias name) → Runs (I first) (aliased name mark) (R first)
  /-- A node without parts is added. -/
  add {first : NodeId} {s : Builder} {n : Node} : I first s → n.body.parts = [] →
    R first s.graph.size ∧ I (s.graph.size + 1) { s with graph := s.graph.push n }
  /-- A node gets parts that were added after it. -/
  set {id : NodeId} {s : Builder} {body : Body} : I (id + 1) s →
    (∀ part ∈ body.parts, R (id + 1) part) → I (id + 1) { s with graph := s.graph.setBody id body }
  back {first id : NodeId} {s : Builder} : R first id → I (id + 1) s → I first s
  trans {first id part : NodeId} : R first id → R (id + 1) part → R first part

/-- A step adds a node, and those after it go on from the node. -/
def Adds (I : NodeId → Builder → Prop) (R : NodeId → NodeId → Prop) (first : NodeId)
    (m : Build NodeId) : Prop :=
  ∀ s, I first s → Ends (fun _ => True) (m.run s) fun r => R first r.1 ∧ I (r.1 + 1) r.2

/-- The steps for nodes and collections that take some fuel keep an invariant. -/
structure NodesKeep (I : NodeId → Builder → Prop) (R : NodeId → NodeId → Prop) (fuel : Nat) :
    Prop where
  node {first : NodeId} : Runs (I first) (node fuel allowed) (R first)
  nodeUnless {first : NodeId} : Runs (I first) (nodeUnless fuel ends allowed mark) (R first)
  valueUnless {first : NodeId} : Runs (I first) (valueUnless fuel ends allowed) (R first)
  blockItems {first : NodeId} :
    Runs (I first) (blockItems fuel start) fun items => ∀ item ∈ items, R first item
  looseItems {first : NodeId} :
    Runs (I first) (looseItems fuel) fun items => ∀ item ∈ items, R first item
  blockEntries {first : NodeId} : Runs (I first) (blockEntries fuel start) fun entries =>
    ∀ entry ∈ entries, R first entry.1 ∧ R first entry.2
  flowItems {first : NodeId} :
    Runs (I first) (flowItems fuel start isFirst) fun items => ∀ item ∈ items, R first item
  flowEntries {first : NodeId} : Runs (I first) (flowEntries fuel start isFirst) fun entries =>
    ∀ entry ∈ entries, R first entry.1 ∧ R first entry.2

namespace Invariant

variable {α : Type} {I : NodeId → Builder → Prop} {T : TokenKind → Prop}
  {R : NodeId → NodeId → Prop} {first : NodeId} {n : Node} {m : Build NodeId}
  {next : NodeId → Build α} {Q : α → Prop} (H : Invariant I T R)
include H

theorem of_adds (Hm : Adds I R first m) : Runs (I first) m (R first) :=
  fun s hs => (Hm s hs).mono fun _ hr => ⟨hr.1, H.back hr.1 hr.2⟩

omit H in
theorem bind_adds {m : Build α} {next : α → Build NodeId} (Hm : Runs (I first) m Q)
    (Hnext : ∀ a, Q a → Adds I R first (next a)) : Adds I R first (m >>= next) :=
  fun s hs => (Hm s hs).bind fun r hr => Hnext r.1 hr.1 r.2 hr.2

theorem adds_bind (Hm : Adds I R first m)
    (Hnext : ∀ id, R first id → Runs (I (id + 1)) (next id) Q) :
    Runs (I first) (m >>= next) Q :=
  fun s hs => (Hm s hs).bind fun r hr => (Hnext r.1 hr.1 r.2 hr.2).mono fun _ hq =>
    ⟨hq.1, H.back hr.1 hq.2⟩

/-! ## Tokens and new nodes -/

theorem take : Runs (I first) take fun _ => True :=
  .bind H.peek fun _ _ => .bind (.modify fun _ => H.drop) fun _ _ => .pure trivial

theorem nextIs : Runs (I first) (nextIs kinds) fun _ => True :=
  .bind H.peek fun _ _ => .pure trivial

theorem addNode (h : n.body.parts = []) : Adds I R first (addNode n) := fun _ hs => H.add hs h

theorem emptyScalar : Runs (I first) (emptyScalar mark) (R first) := H.of_adds (H.addNode rfl)

theorem setBody {id : NodeId} (h : ∀ part ∈ body.parts, R (id + 1) part) :
    Runs (I (id + 1)) (setBody id body) fun _ => True := .modify fun _ hs => H.set hs h

/-! ## Properties of a node -/

theorem anchor? : Runs (I first) anchor? fun _ => True := by
  refine .bind H.peek fun token _ => ?_
  split
  · exact .bind H.take fun _ _ => .pure trivial
  · exact .pure trivial

theorem tag? : Runs (I first) tag? fun _ => True := by
  refine .bind H.peek fun token _ => ?_
  split
  · exact .bind H.take fun _ _ => .pure trivial
  · exact .pure trivial

omit H in
theorem fullTag : Runs (I first) (fullTag start tag) fun _ => True := by
  unfold Build.fullTag
  split
  · exact .pure trivial
  · refine .bind .get fun s _ => ?_
    split
    · exact .pure trivial
    · exact .error

theorem properties : Runs (I first) properties fun _ => True := by
  refine .bind H.anchor? fun anchor _ => ?_
  split
  · refine .bind H.tag? fun tag _ => ?_
    split
    · exact .bind fullTag fun _ _ => .pure trivial
    · exact .pure trivial
  · refine .bind H.tag? fun tag _ => ?_
    split
    · exact .bind H.anchor? fun _ _ => .bind fullTag fun _ _ => .pure trivial
    · exact .pure trivial

theorem addNamed (h : n.body.parts = []) : Adds I R first (addNamed p n) := by
  unfold Build.addNamed
  cases p.anchor with
  | none => exact fun s hs => H.add hs h
  | some name =>
    have hadd : Adds I R first (do
        let id ← Build.addNode n
        modify fun s => { s with anchors := (name, id) :: s.anchors }
        return id) :=
      fun s hs => (H.add hs h).imp_right (H.anchors _)
    refine bind_adds .get fun s _ => ?_
    dsimp only
    split
    · exact bind_adds .get fun _ _ => bind_adds (Q := fun _ => True) .error fun _ _ => hadd
    · exact hadd

/-! ## Nodes -/

theorem sequence {id : NodeId} {items : Build (List NodeId)} (hid : R first id)
    (Hitems : Runs (I (id + 1)) items fun items => ∀ item ∈ items, R (id + 1) item) :
    Runs (I (id + 1)) (do
      Build.setBody id (.sequence (← items))
      return id) (R first) :=
  .bind Hitems fun _ hitems => .bind (H.setBody hitems) fun _ _ => .pure hid

theorem mapping {id : NodeId} {entries : Build (List (NodeId × NodeId))} (hid : R first id)
    (Hentries : Runs (I (id + 1)) entries fun entries =>
      ∀ entry ∈ entries, R (id + 1) entry.1 ∧ R (id + 1) entry.2) :
    Runs (I (id + 1)) (do
      Build.setBody id (.mapping (← entries))
      return id) (R first) :=
  .bind Hentries fun _ hentries =>
    .bind (H.setBody (Body.forall_mem_parts_mapping.mpr hentries)) fun _ _ => .pure hid

theorem node (HN : NodesKeep I R fuel) :
    Runs (I first) (node (fuel + 1) allowed) (R first) := by
  refine .bind H.peek fun token htoken => ?_
  split
  · rename_i name hname
    rw [hname] at htoken
    exact .bind H.take fun _ _ => H.aliased htoken
  refine .bind H.properties fun p _ => .bind H.peek fun token _ => ?_
  dsimp only
  split
  · exact H.adds_bind (H.addNamed rfl) fun id hid => H.sequence hid HN.looseItems
  · exact .bind H.take fun _ _ => H.of_adds (H.addNamed rfl)
  · exact H.adds_bind (H.addNamed rfl) fun id hid => .bind H.take fun _ _ =>
      H.sequence hid HN.flowItems
  · exact H.adds_bind (H.addNamed rfl) fun id hid => .bind H.take fun _ _ =>
      H.mapping hid HN.flowEntries
  · refine .ite ?_ (.ite ?_ (.ite (H.of_adds (H.addNamed rfl)) .error))
    · exact H.adds_bind (H.addNamed rfl) fun id hid => .bind H.take fun _ _ =>
        H.sequence hid HN.blockItems
    · exact H.adds_bind (H.addNamed rfl) fun id hid => .bind H.take fun _ _ =>
        H.mapping hid HN.blockEntries

theorem nodeUnless (HN : NodesKeep I R fuel) :
    Runs (I first) (nodeUnless (fuel + 1) ends allowed mark) (R first) :=
  .bind H.nextIs fun _ _ => .ite H.emptyScalar HN.node

theorem valueUnless (HN : NodesKeep I R fuel) :
    Runs (I first) (valueUnless (fuel + 1) ends allowed) (R first) :=
  .bind H.nextIs fun _ _ =>
    .ite (.bind H.take fun _ _ => HN.nodeUnless) (.bind H.peek fun _ _ => H.emptyScalar)

omit H in
theorem cons {β : Type} {Q : β → Prop} {b : β} {more : Build (List β)} (hb : Q b)
    (Hmore : Runs (I first) more fun bs => ∀ b ∈ bs, Q b) :
    Runs (I first) (do return b :: (← more)) fun bs => ∀ b ∈ bs, Q b :=
  .bind Hmore fun _ hbs => .pure (List.forall_mem_cons.mpr ⟨hb, hbs⟩)

theorem blockItems (HN : NodesKeep I R fuel) :
    Runs (I first) (blockItems (fuel + 1) start) fun items => ∀ item ∈ items, R first item := by
  refine .bind H.peek fun token _ => .ite ?_ (.ite ?_ .error)
  · exact .bind H.take fun _ _ => .bind HN.nodeUnless fun _ hitem => cons hitem HN.blockItems
  · exact .bind H.take fun _ _ => .pure nofun

theorem looseItems (HN : NodesKeep I R fuel) :
    Runs (I first) (looseItems (fuel + 1)) fun items => ∀ item ∈ items, R first item := by
  refine .bind H.peek fun token _ => .ite ?_ (.pure nofun)
  exact .bind H.take fun _ _ => .bind HN.nodeUnless fun _ hitem => cons hitem HN.looseItems

theorem blockEntries (HN : NodesKeep I R fuel) :
    Runs (I first) (blockEntries (fuel + 1) start) fun entries =>
      ∀ entry ∈ entries, R first entry.1 ∧ R first entry.2 := by
  refine .bind H.peek fun token _ => .ite ?_ (.ite ?_ .error)
  · exact .bind H.take fun _ _ => .bind HN.nodeUnless fun _ hkey =>
      .bind HN.valueUnless fun _ hvalue => cons ⟨hkey, hvalue⟩ HN.blockEntries
  · exact .bind H.take fun _ _ => .pure nofun

/-- A collection in flow notation goes on after a comma only, unless it has just begun. -/
theorem comma {context : Context} {problem : TokenKind → Problem} {m : Build α}
    (Hm : Runs (I first) m Q) :
    Runs (I first) (if !isFirst then do
        let token ← Build.peek
        if token.kind = .flowEntry then
          let _ ← Build.take
          m
        else
          fail context start (problem token.kind) token.start
          m
      else m) Q :=
  .ite (.bind H.peek fun _ _ =>
    .ite (.bind H.take fun _ _ => Hm) (.bind (Q := fun _ => True) .error fun _ _ => Hm)) Hm

theorem flowItems (HN : NodesKeep I R fuel) :
    Runs (I first) (flowItems (fuel + 1) start isFirst) fun items =>
      ∀ item ∈ items, R first item := by
  refine .bind H.nextIs fun _ _ => .ite (.bind H.take fun _ _ => .pure nofun) (H.comma ?_)
  refine .bind H.peek fun token _ => .ite ?_ (.ite ?_ ?_)
  · refine .bind H.take fun _ _ => H.adds_bind (H.addNode rfl) fun id hid => ?_
    refine .bind HN.nodeUnless fun key hkey => .bind HN.valueUnless fun value hvalue => ?_
    refine .bind (H.setBody (Body.forall_mem_parts_mapping.mpr
      (List.forall_mem_singleton.mpr ⟨hkey, hvalue⟩))) fun _ _ => cons hid ?_
    exact HN.flowItems.mono fun _ hitems item hitem => H.trans hid (hitems item hitem)
  · exact .bind H.take fun _ _ => .pure nofun
  · exact .bind HN.node fun _ hitem => cons hitem HN.flowItems

theorem flowEntries (HN : NodesKeep I R fuel) :
    Runs (I first) (flowEntries (fuel + 1) start isFirst) fun entries =>
      ∀ entry ∈ entries, R first entry.1 ∧ R first entry.2 := by
  refine .bind H.nextIs fun _ _ => .ite (.bind H.take fun _ _ => .pure nofun) (H.comma ?_)
  refine .bind H.peek fun token _ => .ite ?_ (.ite ?_ ?_)
  · exact .bind H.take fun _ _ => .bind HN.nodeUnless fun _ hkey =>
      .bind HN.valueUnless fun _ hvalue => cons ⟨hkey, hvalue⟩ HN.flowEntries
  · exact .bind H.take fun _ _ => .pure nofun
  · exact .bind HN.node fun _ hkey => .bind H.peek fun _ _ =>
      .bind H.emptyScalar fun _ hvalue => cons ⟨hkey, hvalue⟩ HN.flowEntries

theorem nodesKeep (fuel : Nat) : NodesKeep I R fuel := by
  induction fuel with
  | zero =>
    exact {
      node := .bind H.peek fun _ _ => .bind H.peek fun _ _ => .error
      nodeUnless := H.emptyScalar
      valueUnless := .bind H.peek fun _ _ => H.emptyScalar
      blockItems := .pure nofun
      looseItems := .pure nofun
      blockEntries := .pure nofun
      flowItems := .pure nofun
      flowEntries := .pure nofun }
  | succ fuel ih =>
    exact {
      node := H.node ih
      nodeUnless := H.nodeUnless ih
      valueUnless := H.valueUnless ih
      blockItems := H.blockItems ih
      looseItems := H.looseItems ih
      blockEntries := H.blockEntries ih
      flowItems := H.flowItems ih
      flowEntries := H.flowEntries ih }

/-! ## Documents -/

theorem addShorthand : Runs (I first) (addShorthand handle beginning mark) fun _ => True := by
  refine .bind .get fun s hs => ?_
  have hset : Runs (I first)
      (MonadStateOf.set { s with shorthands := s.shorthands ++ [(handle, beginning)] } : Build Unit)
      fun _ => True := .set (H.shorthands _ hs)
  dsimp only
  split
  · exact .bind (Q := fun _ => True) .error fun _ _ => hset
  · exact hset

theorem directives : Runs (I first) (directives fuel versionSeen) fun _ => True := by
  induction fuel generalizing versionSeen with
  | zero => exact .pure trivial
  | succ fuel ih =>
    refine .bind H.peek fun token _ => ?_
    split
    · refine .bind H.take fun _ _ => ?_
      have hunless (c : Prop) [Decidable c] {problem : Malformation} {m : Build Unit}
          (Hm : Runs (I first) m fun _ => True) : Runs (I first) (if c then do
            throw (.malformed problem)
            m
          else m) fun _ => True :=
        .ite (.bind (Q := fun _ => True) .error fun _ _ => Hm) Hm
      exact hunless _ (hunless _ ih)
    · exact .bind H.take fun _ _ => .bind H.addShorthand fun _ _ => ih
    · exact .bind H.take fun _ _ => ih
    · exact .pure trivial

theorem documentHead : Runs (I first) (documentHead fuel) fun _ => True := by
  refine .bind (.modify fun _ => H.shorthands _) fun _ _ => .bind H.directives fun _ _ => ?_
  refine .bind (.modify fun _ => H.shorthands _) fun _ _ => .bind H.peek fun token _ => ?_
  exact .ite (.bind H.take fun _ _ => .pure trivial) .error

theorem nextIsDirective : Runs (I first) nextIsDirective fun _ => True := by
  refine .bind H.peek fun token _ => ?_
  split
  · exact .pure trivial
  · exact .pure trivial

theorem documentContent : Runs (I first) (documentContent fuel) (R first) := by
  refine .bind H.nextIs fun stops _ => .bind H.nextIsDirective fun _ _ => ?_
  exact .ite (.bind H.peek fun _ _ => H.emptyScalar) (H.nodesKeep fuel).node

theorem documentEnds : Runs (I first) (documentEnds fuel) fun _ => True := by
  induction fuel with
  | zero => exact .pure trivial
  | succ fuel ih =>
    exact .bind H.nextIs fun _ _ => .ite (.bind H.take fun _ _ => ih) (.pure trivial)

theorem streamEnd : Runs (I first) (streamEnd fuel root) fun _ => True := by
  refine .bind H.documentEnds fun _ _ => .bind H.nextIs fun _ _ => .ite (.pure trivial) ?_
  refine .bind H.peek fun _ _ => .bind H.documentHead fun _ _ => ?_
  exact .bind .get fun _ _ => .error

theorem singleDocument (first : NodeId) : Runs (I first) (singleDocument fuel) fun _ => True := by
  have hend {root : NodeId} : Runs (I first) (do
      Build.streamEnd fuel root
      return some root) fun _ => True :=
    .bind H.streamEnd fun _ _ => .pure trivial
  refine .bind H.take fun _ _ => .bind H.nextIs fun _ _ => .ite (.pure trivial) ?_
  refine .bind (Q := fun _ => True)
    (.bind H.nextIs fun _ _ => .bind H.nextIsDirective fun _ _ => .pure trivial) fun _ _ => ?_
  refine .ite ?_ ?_
  · exact .bind H.documentHead fun _ _ => .bind H.documentContent fun _ _ => hend
  · exact .bind (H.nodesKeep fuel).node fun _ _ => hend

end Invariant

end Build

end CollectionInterfaces.Yaml
