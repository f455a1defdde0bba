import CollectionInterfaces.Proofs.Results
import CollectionInterfaces.Proofs.Value.Reordering
import CollectionInterfaces.Yaml.Document

/-!
# Texts read with sets in another order

A text says the same to interpreters that go through sets in different orders, except for the order
of the members (`Yaml.parse_reordered`). The order is asked for only when values are put together,
after all of them are made.
-/

namespace CollectionInterfaces

/-- The document with the members of its sets in another order. -/
def Document.reorder (order : List Scalar → List Scalar) (d : Document) : Document :=
  ⟨d.root.reorder order, d.knots.reorder order⟩

namespace Interpreter

/-- The interpreter that keeps the members of a set in the order of their first appearance. -/
@[reducible]
def ordered (i : Interpreter) : Interpreter := i.reordered (fun members => members) fun _ => .refl _

end Interpreter

namespace Yaml

variable {i : Interpreter} {order : List Scalar → List Scalar}
  {h : ∀ members, (order members).Perm members}

/-! ## Making values -/

namespace Make

theorem visit_reordered (id : NodeId) : @visit (i.reordered order h) id = @visit i id := rfl

theorem lookInto_reordered (id : NodeId) :
    @lookInto (i.reordered order h) id = @lookInto i id := rfl

theorem lookIntoAll_reordered (fuel : Nat) :
    @lookIntoAll (i.reordered order h) fuel = @lookIntoAll i fuel := by
  induction fuel with
  | zero => rfl
  | succ fuel ih =>
    unfold lookIntoAll
    rw [ih]
    rfl

end Make

/-! ## Putting values together -/

def Assembly.reorder (order : List Scalar → List Scalar) (a : Assembly) : Assembly :=
  ⟨a.values.map (Option.map (Value.reorder order)), a.knots.reorder order⟩

namespace Assemble

/-- A step gives what another one gives, with the members of all sets in another order. -/
def Follows {α β : Type} (order : List Scalar → List Scalar) (f : α → β) (x : Assemble α)
    (y : Assemble β) : Prop :=
  ∀ a, y.run (a.reorder order) = (f (x.run a).1, (x.run a).2.reorder order)

namespace Follows

variable {α β γ δ : Type} {f : α → β} {g : γ → δ} {x : Assemble α} {y : Assemble β}

theorem pure (a : α) : Follows order f (Pure.pure a) (Pure.pure (f a)) := fun _ => rfl

theorem get : Follows order (Assembly.reorder order) MonadState.get MonadState.get := fun _ => rfl

theorem bind {next : α → Assemble γ} {next' : β → Assemble δ} (hx : Follows order f x y)
    (hnext : ∀ a, Follows order g (next a) (next' (f a))) :
    Follows order g (x >>= next) (y >>= next') := by
  intro a
  have hrun := hnext (x.run a).1 (x.run a).2
  rw [StateT.run_bind, StateT.run_bind, hx a]
  exact hrun

theorem mapM {ι : Type} {part : ι → Assemble α} {part' : ι → Assemble β}
    (hpart : ∀ item, Follows order f (part item) (part' item)) (items : List ι) :
    Follows order (List.map f) (items.mapM part) (items.mapM part') := by
  induction items with
  | nil => exact pure []
  | cons item items ih =>
    rw [List.mapM_cons, List.mapM_cons]
    exact (hpart item).bind fun v => ih.bind fun vs => pure (v :: vs)

end Follows

theorem container_follows (id : NodeId) (v : Value) :
    Follows order (Value.reorder order) (container id v) (container id (v.reorder order)) := by
  intro a
  have hvalues (whole : Value) : (a.values.map (Option.map (Value.reorder order))).setIfInBounds id
      (some (whole.reorder order)) =
      (a.values.setIfInBounds id (some whole)).map (Option.map (Value.reorder order)) := by
    rw [Array.map_setIfInBounds]
    rfl
  unfold container
  rw [Value.isKnotted_reorder]
  cases v.isKnotted with
  | true => exact congrArg (fun values => (_, Assembly.mk values _)) (hvalues (.knot id))
  | false => exact congrArg (fun values => (_, Assembly.mk values _)) (hvalues v)

theorem values_reorder (a : Assembly) (id : NodeId) :
    (a.reorder order).values[id]?.join = (a.values[id]?.join).map (Value.reorder order) := by
  rw [Assembly.reorder, Array.getElem?_map]
  cases a.values[id]? <;> rfl

theorem value_follows (made : MadeValues) (fuel : Nat) (inside : List NodeId) (id : NodeId) :
    Follows order (Value.reorder order) (@value i.ordered made fuel inside id)
      (@value (i.reordered order h) made fuel inside id) := by
  induction fuel generalizing inside id with
  | zero => exact .pure _
  | succ fuel ih =>
    unfold value
    refine .bind .get fun a => ?_
    dsimp only
    rw [values_reorder]
    cases a.values[id]?.join with
    | some v => exact .pure v
    | none =>
      dsimp only [Option.map_none]
      split
      · exact .pure _
      split
      · exact .pure _
      · refine .bind (.mapM (ih _) _) fun items => ?_
        rw [← Value.reorderItems_eq_map]
        exact container_follows id (.list items)
      · refine .bind (f := List.map fun entry => (entry.1, entry.2.reorder order))
          (.mapM (fun entry => (ih _ _).bind fun v => .pure (entry.1, v)) _) fun entries => ?_
        rw [← Value.reorderEntries_eq_map]
        exact container_follows id (.map entries)
      · exact container_follows id (.set _)
      · refine .bind (f := List.map (Value.reorder order)) (.mapM (fun entry =>
          (ih _ _).bind fun key => (ih _ _).bind fun v => .pure (Value.pair key v)) _)
          fun items => ?_
        rw [← Value.reorderItems_eq_map]
        exact container_follows id (.list items)
      · exact .pure _

end Assemble

/-! ## Texts -/

theorem toDocument_reordered (g : Graph) (root : NodeId) :
    @Graph.toDocument (i.reordered order h) g root =
      (@Graph.toDocument i.ordered g root).map (Document.reorder order) := by
  simp only [Graph.toDocument, Make.visit_reordered, Make.lookIntoAll_reordered]
  generalize StateT.run (do Make.visit root; Make.lookIntoAll (g.size + 1) : Make Unit)
    ⟨g, .replicate g.size none, []⟩ = outcome
  cases outcome with
  | error e => rfl
  | ok result =>
    have hempty : Assembly.reorder order ⟨.replicate g.size none, []⟩ =
        ⟨.replicate g.size none, []⟩ := by
      rw [Assembly.reorder, Array.map_replicate]
      rfl
    have hfollows := Assemble.value_follows (i := i) (h := h) result.2.made (g.size + 1) [] root
      ⟨.replicate g.size none, []⟩
    rw [hempty] at hfollows
    exact congrArg (fun r : Value × Assembly => Except.ok (Document.mk r.1 r.2.knots)) hfollows

/-- **A text says the same to all interpreters**, but for the order in which they go through
sets. -/
theorem parse_reordered (t : Text) : @parse (i.reordered order h) t =
    (@parse i.ordered t).map (Document.reorder order) := by
  unfold parse
  split
  · rfl
  · generalize ((TokenStream.ofText t).within i.yamlRoom).toGraph = outcome
    rcases outcome with e | ⟨g, _ | root⟩
    · rfl
    · rfl
    · exact toDocument_reordered g root

end Yaml

end CollectionInterfaces
