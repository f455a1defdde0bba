import Mathlib.Data.List.Forall2
import CollectionInterfaces.Schema.Validation

/-!
# Checks that find every violation

A check finds the violations of a value if it succeeds where there are none, and otherwise lists
each of them once, in the order of the document (`Checked.Finds`). Checks that do so can be put
together: both of two, under a step, and for all items of a list.
-/

namespace CollectionInterfaces

/-! ## Lists that correspond -/

theorem map_eq_map_of_forall₂ {α β γ : Type} {f : α → γ} {g : β → γ} {as : List α} {bs : List β}
    (h : List.Forall₂ (fun a b => f a = g b) as bs) : as.map f = bs.map g := by
  induction h with
  | nil => rfl
  | cons hab _ ih => rw [List.map_cons, List.map_cons, hab, ih]

theorem filterMap_eq_filterMap_of_forall₂ {α β γ : Type} {f : α → Option γ} {g : β → Option γ}
    {as : List α} {bs : List β} (h : List.Forall₂ (fun a b => f a = g b) as bs) :
    as.filterMap f = bs.filterMap g := by
  have hmap := congrArg (List.filterMap id) (map_eq_map_of_forall₂ h)
  rwa [List.filterMap_map, List.filterMap_map] at hmap

theorem flatMap_eq_flatMap_of_forall₂ {α β γ : Type} {f : α → List γ} {g : β → List γ}
    {as : List α} {bs : List β} (h : List.Forall₂ (fun a b => f a = g b) as bs) :
    as.flatMap f = bs.flatMap g := by
  rw [List.flatMap_def, List.flatMap_def, map_eq_map_of_forall₂ h]

/-! ## The order of the document -/

/-- The rank of a step among the steps from one place: that of an item is its index, and the entries
of an object have the order in which they are described. -/
def Step.rank : Step → Nat
  | .item index => index
  | .entry key => if key = "attributes" then 2 else if key = "name" then 1 else 0

/-- A violation stands before another one in the document. -/
def Violation.Before (v w : Violation) : Prop :=
  List.Lex (fun s t : Step => s.rank < t.rank) v.place w.place

namespace Violation

variable {s t : Step} {v w : Violation}

theorem lex_irrefl (place : List Step) :
    ¬List.Lex (fun s t : Step => s.rank < t.rank) place place := by
  induction place with
  | nil => exact nofun
  | cons step place ih =>
    intro h
    cases h with
    | cons h => exact ih h
    | rel h => exact Nat.lt_irrefl _ h

theorem Before.ne (h : v.Before w) : v ≠ w := by
  rintro rfl
  exact lex_irrefl v.place h

theorem Before.under (h : v.Before w) : (v.under s).Before (w.under s) := List.Lex.cons h

theorem before_of_rank_lt (h : s.rank < t.rank) : (v.under s).Before (w.under t) := List.Lex.rel h

end Violation

/-! ## Results of checks -/

namespace Checked

section

variable {α β γ : Type} {a : α} {x : γ} {c : Checked α} {d : Checked β}

theorem under_eq_ok_iff {step : Step} : c.under step = .ok a ↔ c = .ok a := by
  cases c with
  | ok b => exact ⟨fun | rfl => rfl, fun | rfl => rfl⟩
  | error es => exact ⟨nofun, nofun⟩

theorem both_eq_ok_iff {f : α → β → γ} :
    both f c d = .ok x ↔ ∃ a b, c = .ok a ∧ d = .ok b ∧ f a b = x := by
  cases c <;> cases d <;> simp [both]

/-- A list is checked item by item. -/
theorem all_eq_ok_iff {check : α → Checked β} {items : List α} {bs : List β} {index : Nat} :
    all check index items = .ok bs ↔ List.Forall₂ (fun a b => check a = .ok b) items bs := by
  induction items generalizing index bs with
  | nil => simp [all, eq_comm]
  | cons a items ih =>
    rw [all, both_eq_ok_iff]
    constructor
    · rintro ⟨b, rest, ha, hrest, rfl⟩
      exact .cons (under_eq_ok_iff.mp ha) (ih.mp hrest)
    · rintro (_ | ⟨ha, hrest⟩)
      exact ⟨_, _, under_eq_ok_iff.mpr ha, ih.mpr hrest, rfl⟩

theorem all_map {check : β → Checked γ} {f : α → β} {items : List α} {index : Nat} :
    all check index (items.map f) = all (fun a => check (f a)) index items := by
  induction items generalizing index with
  | nil => rfl
  | cons a items ih => simp only [List.map_cons, all, ih]

end

/-! ## Finding violations -/

/-- A check accepts a value that violates nothing, and otherwise lists everything that the value
violates, each violation once and in the order of the document. -/
structure Finds {α : Type} (c : Checked α) (IsViolated : Violation → Prop) : Prop where
  accepts : ∀ a, c = .ok a → ∀ w, ¬IsViolated w
  refuses : ∀ es, c = .error es →
    es ≠ [] ∧ (∀ w, w ∈ es ↔ IsViolated w) ∧ es.Pairwise Violation.Before

variable {α β γ : Type} {a : α} {c : Checked α} {d : Checked β} {P Q : Violation → Prop}

theorem Finds.congr (h : c.Finds P) (hPQ : ∀ w, P w ↔ Q w) : c.Finds Q := by
  obtain rfl : P = Q := funext fun w => propext (hPQ w)
  exact h

/-- A check that finds everything succeeds exactly if nothing is violated. -/
theorem Finds.exists_ok_iff (h : c.Finds P) : (∃ a, c = .ok a) ↔ ∀ w, ¬P w := by
  constructor
  · rintro ⟨a, ha⟩
    exact h.accepts a ha
  · intro hnone
    cases c with
    | ok a => exact ⟨a, rfl⟩
    | error es =>
      obtain ⟨hne, hmem, -⟩ := h.refuses es rfl
      obtain ⟨w, hw⟩ := List.exists_mem_of_ne_nil es hne
      exact absurd ((hmem w).mp hw) (hnone w)

theorem finds_ok (a : α) : Finds (.ok a) fun _ => False := ⟨fun _ _ _ => id, nofun⟩

theorem finds_refuse (α : Type) (r : Requirement) : Finds (α := α) (refuse r) (· = ⟨[], r⟩) := by
  refine ⟨nofun, ?_⟩
  rintro es ⟨⟩
  exact ⟨by simp, by simp, by simp⟩

theorem Finds.map (h : c.Finds P) (f : α → β) : Finds (Except.map f c) P := by
  cases c with
  | ok a => exact ⟨fun _ _ => h.accepts a rfl, nofun⟩
  | error es =>
    refine ⟨nofun, ?_⟩
    rintro _ ⟨⟩
    exact h.refuses es rfl

theorem Finds.under (h : c.Finds P) (step : Step) :
    (c.under step).Finds fun w => ∃ u, P u ∧ u.under step = w := by
  cases c with
  | ok a =>
    refine ⟨fun _ _ w hw => ?_, nofun⟩
    obtain ⟨u, hu, -⟩ := hw
    exact h.accepts a rfl u hu
  | error es =>
    refine ⟨nofun, ?_⟩
    rintro _ ⟨⟩
    obtain ⟨hne, hmem, hpairwise⟩ := h.refuses es rfl
    refine ⟨by simpa using hne, fun w => ?_, ?_⟩
    · simp only [List.mem_map, hmem]
    · exact List.pairwise_map.mpr (hpairwise.imp Violation.Before.under)

/-- Two checks find the violations of both, if those of the first stand before those of the
second. -/
theorem Finds.both (hc : c.Finds P) (hd : d.Finds Q) (f : α → β → γ)
    (hbefore : ∀ v w, P v → Q w → v.Before w) : (both f c d).Finds fun w => P w ∨ Q w := by
  cases c with
  | ok a =>
    have hnone := hc.accepts a rfl
    refine Finds.congr (P := Q) ?_ fun w => by simp [hnone w]
    cases d with
    | ok b => exact ⟨fun _ _ => hd.accepts b rfl, nofun⟩
    | error fs =>
      refine ⟨nofun, ?_⟩
      rintro _ ⟨⟩
      exact hd.refuses fs rfl
  | error es =>
    obtain ⟨hne, hmem, hpairwise⟩ := hc.refuses es rfl
    cases d with
    | ok b =>
      have hnone := hd.accepts b rfl
      refine Finds.congr (P := P) ⟨nofun, ?_⟩ fun w => by simp [hnone w]
      rintro _ ⟨⟩
      exact ⟨hne, hmem, hpairwise⟩
    | error fs =>
      obtain ⟨-, hmem', hpairwise'⟩ := hd.refuses fs rfl
      refine ⟨nofun, ?_⟩
      rintro _ ⟨⟩
      refine ⟨by simp [hne], fun w => by simp [hmem, hmem'], ?_⟩
      refine List.pairwise_append.mpr ⟨hpairwise, hpairwise', fun v hv w hw => ?_⟩
      exact hbefore v w ((hmem v).mp hv) ((hmem' w).mp hw)

/-- A check of all items finds the violations of every item, under its index. -/
theorem finds_all {check : α → Checked β} {Violates : α → Violation → Prop} {items : List α}
    (h : ∀ a ∈ items, (check a).Finds (Violates a)) (index : Nat) :
    (all check index items).Finds fun w =>
      ∃ i a u, items[i]? = some a ∧ Violates a u ∧ u.under (.item (index + i)) = w := by
  induction items generalizing index with
  | nil => exact (finds_ok []).congr fun w => by simp
  | cons a items ih =>
    rw [List.forall_mem_cons] at h
    refine Finds.congr ((h.1.under (.item index)).both (ih h.2 (index + 1)) List.cons ?_) ?_
    · rintro _ _ ⟨u, -, rfl⟩ ⟨i, b, v, -, -, rfl⟩
      exact Violation.before_of_rank_lt (by simp only [Step.rank]; omega)
    · intro w
      constructor
      · rintro (⟨u, hu, rfl⟩ | ⟨i, b, u, hb, hu, rfl⟩)
        · exact ⟨0, a, u, rfl, hu, rfl⟩
        · exact ⟨i + 1, b, u, hb, hu, by rw [Nat.add_assoc, Nat.add_comm 1 i]⟩
      · rintro ⟨_ | i, b, u, hb, hu, rfl⟩
        · obtain rfl := Option.some.inj hb
          exact .inl ⟨u, hu, rfl⟩
        · exact .inr ⟨i, b, u, hb, hu, by rw [Nat.add_assoc, Nat.add_comm 1 i]⟩

end Checked

end CollectionInterfaces
