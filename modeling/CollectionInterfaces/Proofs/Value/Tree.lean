import CollectionInterfaces.Value.Basic

/-!
# Documents that are trees

A document is a tree if no container stands inside itself and no key stands in a mapping twice.
-/

namespace CollectionInterfaces

/-- No two of some keys are the same. -/
def AreDistinct (keys : List Scalar) : Prop := keys.Pairwise fun k k' => k.sameKey k' = false

/-- There is no knot in a value, and no key is in one of its mappings twice. -/
inductive Value.IsTree : Value → Prop
  | scalar : IsTree (.scalar s)
  | list (h : ∀ item ∈ items, IsTree item) : IsTree (.list items)
  | map (hkeys : AreDistinct (entries.map (·.1))) (h : ∀ entry ∈ entries, IsTree entry.2) :
    IsTree (.map entries)
  | set : IsTree (.set members)
  | pair (hfirst : IsTree first) (hsecond : IsTree second) : IsTree (.pair first second)

structure Document.IsTree (d : Document) : Prop where
  root : d.root.IsTree
  knots : d.knots = []

theorem Value.IsTree.hasKnot {v : Value} (h : v.IsTree) : v.hasKnot = false := by
  induction h with
  | pair _ _ ihFirst ihSecond => rw [Value.hasKnot, ihFirst, ihSecond, Bool.or_false]
  | _ => rfl

theorem Value.IsTree.isKnotted {v : Value} (h : v.IsTree) : v.isKnotted = false := by
  cases h with
  | list h => exact List.any_eq_false.mpr fun item hitem => by simp [(h item hitem).hasKnot]
  | map _ h => exact List.any_eq_false.mpr fun entry hentry => by simp [(h entry hentry).hasKnot]
  | _ => rfl

end CollectionInterfaces
