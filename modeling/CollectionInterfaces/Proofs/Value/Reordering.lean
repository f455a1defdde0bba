import CollectionInterfaces.Proofs.Text.Join
import CollectionInterfaces.Value.Display

/-!
# Sets in another order

A value may have the members of its sets in another order (`Value.reorder`). Then it is shown with
the same code points in another order (`Value.display_reorder_perm`), the same keeps it from being
shown, and it counts as true in the same conditions.
-/

namespace CollectionInterfaces

namespace Value

mutual

/-- The value with the members of its sets in another order. -/
def reorder (order : List Scalar → List Scalar) : Value → Value
  | .scalar s => .scalar s
  | .list items => .list (reorderItems order items)
  | .map entries => .map (reorderEntries order entries)
  | .set members => .set (order members)
  | .pair first second => .pair (reorder order first) (reorder order second)
  | .knot number => .knot number

/-- The items with the members of their sets in another order. -/
def reorderItems (order : List Scalar → List Scalar) : List Value → List Value
  | [] => []
  | v :: rest => reorder order v :: reorderItems order rest

/-- The entries with the members of their sets in another order. -/
def reorderEntries (order : List Scalar → List Scalar) :
    List (Scalar × Value) → List (Scalar × Value)
  | [] => []
  | (k, v) :: rest => (k, reorder order v) :: reorderEntries order rest

end

/-- Values are built from parts that are values. -/
@[elab_as_elim]
theorem parts_induction {P : Value → Prop} (scalar : ∀ s, P (.scalar s))
    (list : ∀ items, (∀ v ∈ items, P v) → P (.list items))
    (map : ∀ entries : Entries, (∀ entry ∈ entries, P entry.2) → P (.map entries))
    (set : ∀ members, P (.set members))
    (pair : ∀ first second, P first → P second → P (.pair first second))
    (knot : ∀ number, P (.knot number)) (v : Value) : P v :=
  @Value.rec P (fun items => ∀ v ∈ items, P v) (fun entries => ∀ entry ∈ entries, P entry.2)
    (fun entry => P entry.2)
    scalar list map set pair knot nofun
    (fun _ _ hv hitems => List.forall_mem_cons.mpr ⟨hv, hitems⟩) nofun
    (fun _ _ hentry hentries => List.forall_mem_cons.mpr ⟨hentry, hentries⟩) (fun _ _ hv => hv) v

variable {order : List Scalar → List Scalar}

theorem reorderItems_eq_map (items : List Value) :
    reorderItems order items = items.map (reorder order) := by
  induction items with
  | nil => rfl
  | cons v items ih => rw [reorderItems, ih, List.map_cons]

theorem reorderEntries_eq_map (entries : Entries) :
    reorderEntries order entries = entries.map fun entry => (entry.1, entry.2.reorder order) := by
  induction entries with
  | nil => rfl
  | cons entry entries ih => rw [reorderEntries, ih, List.map_cons]

end Value

/-- The knots with the members of their sets in another order. -/
def Knots.reorder (order : List Scalar → List Scalar) (knots : Knots) : Knots :=
  knots.map fun knot => (knot.1, knot.2.reorder order)

section

variable {order : List Scalar → List Scalar} {knots : Knots} {v : Value}

theorem Knots.lookup_reorder (number : Nat) :
    (knots.reorder order).lookup number = (knots.lookup number).map (Value.reorder order) := by
  induction knots with
  | nil => rfl
  | cons knot knots ih =>
    rw [reorder] at ih ⊢
    rw [List.map_cons, List.lookup_cons, List.lookup_cons, ih]
    cases number == knot.1 <;> rfl

theorem Knots.untie_reorder (v : Value) :
    (knots.reorder order).untie (v.reorder order) = (knots.untie v).reorder order := by
  cases v with
  | knot number =>
    rw [Value.reorder, untie, untie, lookup_reorder]
    cases knots.lookup number <;> rfl
  | _ => rfl

theorem Knots.untie_knot_reorder (number : Nat) : (knots.reorder order).untie (.knot number) =
    (knots.untie (.knot number)).reorder order := untie_reorder (.knot number)

theorem Knots.length_reorder : (knots.reorder order).length = knots.length := List.length_map _

namespace Value

theorem entries?_reorder : (v.reorder order).entries? = v.entries?.map (reorderEntries order) := by
  cases v <;> rfl

theorem hasKnot_reorder (v : Value) : (v.reorder order).hasKnot = v.hasKnot := by
  induction v using parts_induction with
  | pair first second ihFirst ihSecond => rw [reorder, hasKnot, ihFirst, ihSecond, hasKnot]
  | _ => rfl

theorem isKnotted_reorder (v : Value) : (v.reorder order).isKnotted = v.isKnotted := by
  cases v with
  | list items =>
    simp only [reorder, isKnotted, reorderItems_eq_map, List.any_map, Function.comp_def,
      hasKnot_reorder]
  | map entries =>
    simp only [reorder, isKnotted, reorderEntries_eq_map, List.any_map, Function.comp_def,
      hasKnot_reorder]
  | _ => rfl

theorem brackets_reorder (v : Value) : (v.reorder order).brackets = v.brackets := by
  cases v <;> rfl

theorem itemLiterals_eq_map {ofKnot : Nat → Text} (items : List Value) :
    itemLiterals ofKnot items = items.map (literalWith ofKnot) := by
  induction items with
  | nil => rfl
  | cons v items ih => rw [itemLiterals, ih, List.map_cons]

theorem entryLiterals_eq_map {ofKnot : Nat → Text} (entries : Entries) :
    entryLiterals ofKnot entries =
      entries.map fun entry => entry.1.literal ++ (": " : Text) ++ entry.2.literalWith ofKnot := by
  induction entries with
  | nil => rfl
  | cons entry entries ih => rw [entryLiterals, ih, List.map_cons]

theorem enclose_perm {b : Brackets} {s t : Text} (h : s.Perm t) :
    (b.enclose s).Perm (b.enclose t) := by
  cases b with
  | square | round => exact (h.append_left _).append_right _
  | curly => exact (h.append_right _).cons _

end Value

end

namespace Value

variable {order order' : List Scalar → List Scalar}
  (h : ∀ members, (order members).Perm members) (h' : ∀ members, (order' members).Perm members)
include h h'

theorem order_perm (members : List Scalar) : (order members).Perm (order' members) :=
  (h members).trans (h' members).symm

theorem isTruthy_reorder (v : Value) :
    (v.reorder order).isTruthy = (v.reorder order').isTruthy := by
  cases v with
  | list items => simp [reorder, isTruthy, reorderItems_eq_map]
  | map entries => simp [reorder, isTruthy, reorderEntries_eq_map]
  | set members => rw [reorder, reorder, isTruthy, isTruthy, (order_perm h h' members).isEmpty_eq]
  | _ => rfl

/-! ## Showing -/

theorem literalWith_reorder_perm {ofKnot ofKnot' : Nat → Text}
    (hknot : ∀ number, (ofKnot number).Perm (ofKnot' number)) (v : Value) :
    ((v.reorder order).literalWith ofKnot).Perm ((v.reorder order').literalWith ofKnot') := by
  induction v using parts_induction with
  | scalar s => exact .refl _
  | list items ih =>
    simp only [reorder, literalWith, reorderItems_eq_map, itemLiterals_eq_map, List.map_map]
    refine enclose_perm (Text.join_perm_of_forall₂ ?_)
    rw [List.forall₂_map_left_iff, List.forall₂_map_right_iff]
    exact List.forall₂_same.mpr ih
  | map entries ih =>
    simp only [reorder, literalWith, reorderEntries_eq_map, entryLiterals_eq_map, List.map_map]
    refine enclose_perm (Text.join_perm_of_forall₂ ?_)
    rw [List.forall₂_map_left_iff, List.forall₂_map_right_iff]
    exact List.forall₂_same.mpr fun entry hentry => (ih entry hentry).append_left _
  | set members =>
    have hperm := order_perm h h' members
    rw [reorder, reorder, literalWith, literalWith, hperm.isEmpty_eq]
    split
    · exact .refl _
    · exact enclose_perm (Text.join_perm (hperm.map _))
  | pair first second ihFirst ihSecond =>
    exact enclose_perm ((ihFirst.append_right _).append ihSecond)
  | knot number => exact hknot number

theorem knotLiteral_reorder_perm (knots : Knots) (fuel : Nat) (inside : List Nat) (number : Nat) :
    (knotLiteral (knots.reorder order) fuel inside number).Perm
      (knotLiteral (knots.reorder order') fuel inside number) := by
  induction fuel generalizing inside number with
  | zero =>
    rw [knotLiteral, knotLiteral, Knots.untie_knot_reorder, Knots.untie_knot_reorder,
      brackets_reorder, brackets_reorder]
  | succ fuel ih =>
    simp only [knotLiteral, Knots.untie_knot_reorder, brackets_reorder]
    split
    · exact .refl _
    · exact literalWith_reorder_perm h h' (fun number => ih _ _) _

/-- **A value is shown with the same code points**, whatever the order of its sets. -/
theorem display_reorder_perm (knots : Knots) (v : Value) :
    ((v.reorder order).display (knots.reorder order)).Perm
      ((v.reorder order').display (knots.reorder order')) := by
  have hliteral (v : Value) : ((v.reorder order).literal (knots.reorder order)).Perm
      ((v.reorder order').literal (knots.reorder order')) := by
    rw [literal, literal, Knots.length_reorder, Knots.length_reorder]
    exact literalWith_reorder_perm h h' (knotLiteral_reorder_perm h h' knots _ _) v
  cases v with
  | scalar s => exact .refl _
  | list | map | set | pair | knot => exact hliteral _

/-! ## What keeps a value from being shown -/

theorem showableWith_reorder {ofKnot ofKnot' : Nat → Bool}
    (hknot : ∀ number, ofKnot number = ofKnot' number) (v : Value) :
    (v.reorder order).showableWith ofKnot = (v.reorder order').showableWith ofKnot' := by
  induction v using parts_induction with
  | scalar s => rfl
  | list items ih =>
    simp only [reorder, showableWith]
    induction items with
    | nil => rfl
    | cons v items ihItems =>
      rw [List.forall_mem_cons] at ih
      simp only [reorderItems, itemsShowable, ih.1, ihItems ih.2]
  | map entries ih =>
    simp only [reorder, showableWith]
    induction entries with
    | nil => rfl
    | cons entry entries ihEntries =>
      rw [List.forall_mem_cons] at ih
      simp only [reorderEntries, entriesShowable, ih.1, ihEntries ih.2]
  | set members => exact (order_perm h h' members).all_eq
  | pair first second ihFirst ihSecond => exact congrArg₂ and ihFirst ihSecond
  | knot number => exact hknot number

theorem allShowable_reorder (knots : Knots) (v : Value) :
    (v.reorder order).allShowable (knots.reorder order) =
      (v.reorder order').allShowable (knots.reorder order') := by
  have hknot (fuel : Nat) : ∀ inside number,
      knotShowable (knots.reorder order) fuel inside number =
        knotShowable (knots.reorder order') fuel inside number := by
    induction fuel with
    | zero => exact fun _ _ => rfl
    | succ fuel ih =>
      intro inside number
      rw [knotShowable, knotShowable, Knots.untie_knot_reorder, Knots.untie_knot_reorder,
        showableWith_reorder h h' (ih _)]
  rw [allShowable, allShowable, Knots.length_reorder, Knots.length_reorder]
  exact showableWith_reorder h h' (hknot _ _) v

omit h h' in
theorem findSome?_perm {α β : Type} {f : α → Option β} {b : β} {as as' : List α}
    (hf : ∀ a, f a = none ∨ f a = some b) (hperm : as.Perm as') :
    as.findSome? f = as'.findSome? f := by
  induction hperm with
  | nil => rfl
  | cons a _ ih => rw [List.findSome?_cons, List.findSome?_cons, ih]
  | swap a a' as =>
    simp only [List.findSome?_cons]
    rcases hf a with h | h <;> rcases hf a' with h' | h' <;> rw [h, h']
  | trans _ _ ih ih' => exact ih.trans ih'

omit h h' in
/-- All scalars that cannot be shown in some room cannot be for the same reason. -/
theorem exists_scalarObstacle? (room : Nat) :
    ∃ b, ∀ s, scalarObstacle? room s = none ∨ scalarObstacle? room s = some b := by
  unfold scalarObstacle?
  cases room with
  | zero => exact ⟨.depth, fun s => .inr rfl⟩
  | succ room =>
    refine ⟨.longInteger, fun s => ?_⟩
    cases isShowable s
    · exact .inr rfl
    · exact .inl rfl

theorem obstacleWith_reorder {ofKnot ofKnot' : Nat → Nat → Option Obstacle}
    (hknot : ∀ room number, ofKnot room number = ofKnot' room number) (v : Value) (room : Nat) :
    (v.reorder order).obstacleWith ofKnot room = (v.reorder order').obstacleWith ofKnot' room := by
  induction v using parts_induction generalizing room with
  | scalar s => cases room <;> simp only [reorder, obstacleWith]
  | list items ih =>
    obtain _ | room := room
    · simp only [reorder, obstacleWith]
    simp only [reorder, obstacleWith]
    induction items with
    | nil => rfl
    | cons v items ihItems =>
      rw [List.forall_mem_cons] at ih
      simp only [reorderItems, itemsObstacle, ih.1 room, ihItems ih.2]
  | map entries ih =>
    obtain _ | room := room
    · simp only [reorder, obstacleWith]
    simp only [reorder, obstacleWith]
    induction entries with
    | nil => rfl
    | cons entry entries ihEntries =>
      rw [List.forall_mem_cons] at ih
      simp only [reorderEntries, entriesObstacle, ih.1 room, ihEntries ih.2]
  | set members =>
    obtain _ | room := room
    · simp only [reorder, obstacleWith]
    obtain ⟨b, hb⟩ := exists_scalarObstacle? room
    simp only [reorder, obstacleWith, findSome?_perm hb (order_perm h h' members)]
  | pair first second ihFirst ihSecond =>
    cases room <;> simp only [reorder, obstacleWith, ihFirst, ihSecond]
  | knot number => cases room <;> simp only [reorder, obstacleWith, hknot]

theorem obstacle?_reorder [i : Interpreter] (knots : Knots) (v : Value) :
    (v.reorder order).obstacle? (knots.reorder order) =
      (v.reorder order').obstacle? (knots.reorder order') := by
  have hknot (fuel : Nat) : ∀ inside room number,
      knotObstacle (knots.reorder order) fuel inside room number =
        knotObstacle (knots.reorder order') fuel inside room number := by
    induction fuel with
    | zero => exact fun _ _ _ => rfl
    | succ fuel ih =>
      intro inside room number
      rw [knotObstacle, knotObstacle, Knots.untie_knot_reorder, Knots.untie_knot_reorder,
        obstacleWith_reorder h h' (ih _)]
  rw [obstacle?, obstacle?, Knots.length_reorder, Knots.length_reorder]
  exact obstacleWith_reorder h h' (hknot _ _) v _

end Value

end CollectionInterfaces
