import CollectionInterfaces.Text.Basic
import Mathlib.Data.List.Forall2

/-!
# Joined texts

A joined text is cut at any of its separators, and holds what its pieces hold. If the pieces change
their places, or their code points theirs, so do the code points of the joined text.
-/

namespace CollectionInterfaces

namespace Text

variable {sep piece : Text} {pieces before after : List Text} {c : CodePoint}

theorem join_cons (h : pieces ≠ []) :
    join sep (piece :: pieces) = piece ++ sep ++ join sep pieces := by
  cases pieces with
  | nil => exact absurd rfl h
  | cons next pieces => rfl

theorem join_append (hbefore : before ≠ []) (hafter : after ≠ []) :
    join sep (before ++ after) = join sep before ++ sep ++ join sep after := by
  induction before with
  | nil => exact absurd rfl hbefore
  | cons first before ih =>
    by_cases hrest : before = []
    · subst hrest
      exact join_cons hafter
    · rw [List.cons_append, join_cons (by simp [hrest]), join_cons hrest, ih hrest]
      simp only [List.append_assoc]

/-- A joined text with a separator after it is its pieces with a separator after each. -/
theorem join_append_sep (h : pieces ≠ []) :
    join sep pieces ++ sep = pieces.flatMap fun piece => piece ++ sep := by
  induction pieces with
  | nil => exact absurd rfl h
  | cons piece pieces ih =>
    by_cases hrest : pieces = []
    · simp [hrest, join]
    · rw [join_cons hrest, List.flatMap_cons, ← ih hrest, List.append_assoc]

/-- A piece in the middle stands between two separators. -/
theorem infix_join_of_middle (hbefore : before ≠ []) (hafter : after ≠ []) :
    sep ++ piece ++ sep <:+: join sep (before ++ piece :: after) := by
  refine ⟨join sep before, join sep after, ?_⟩
  rw [join_append hbefore (by simp), join_cons hafter]
  simp only [List.append_assoc]

/-- The pieces in front, joined, start the joined text. -/
theorem join_prefix_of_prefix (h : before <+: pieces) : join sep before <+: join sep pieces := by
  obtain ⟨after, rfl⟩ := h
  by_cases hbefore : before = []
  · subst hbefore
    exact List.nil_prefix
  by_cases hafter : after = []
  · simp [hafter]
  · exact ⟨sep ++ join sep after, by rw [join_append hbefore hafter, List.append_assoc]⟩

theorem mem_join_of_mem (hc : c ∈ piece) (h : piece ∈ pieces) : c ∈ join sep pieces := by
  induction pieces with
  | nil => cases h
  | cons first pieces ih =>
    by_cases hrest : pieces = []
    · subst hrest
      rwa [List.mem_singleton.mp h] at hc
    · rw [join_cons hrest]
      rcases List.mem_cons.mp h with rfl | h
      · simp [hc]
      · simp [ih h]

theorem mem_of_mem_join (hsep : c ∉ sep) (h : c ∈ join sep pieces) :
    ∃ piece ∈ pieces, c ∈ piece := by
  induction pieces with
  | nil => cases h
  | cons first pieces ih =>
    by_cases hrest : pieces = []
    · subst hrest
      exact ⟨first, by simp, h⟩
    · rw [join_cons hrest] at h
      simp only [List.mem_append, hsep, or_false] at h
      rcases h with h | h
      · exact ⟨first, by simp, h⟩
      · obtain ⟨piece, hpiece, hc⟩ := ih h
        exact ⟨piece, List.mem_cons_of_mem first hpiece, hc⟩

/-! ## Pieces that change places -/

theorem join_perm_of_flatMap {pieces' : List Text} (hempty : pieces = [] ↔ pieces' = [])
    (h : (pieces.flatMap fun piece => piece ++ sep).Perm
      (pieces'.flatMap fun piece => piece ++ sep)) :
    (join sep pieces).Perm (join sep pieces') := by
  by_cases hne : pieces = []
  · rw [hne, hempty.mp hne]
  · rw [← join_append_sep hne, ← join_append_sep (mt hempty.mpr hne)] at h
    exact (List.perm_append_right_iff sep).mp h

theorem join_perm {pieces' : List Text} (h : pieces.Perm pieces') :
    (join sep pieces).Perm (join sep pieces') :=
  join_perm_of_flatMap ⟨fun hempty => (hempty ▸ h).nil_eq.symm, fun hempty => (hempty ▸ h).eq_nil⟩
    (h.flatMap_right _)

theorem join_perm_of_forall₂ {pieces' : List Text} (h : List.Forall₂ List.Perm pieces pieces') :
    (join sep pieces).Perm (join sep pieces') := by
  refine join_perm_of_flatMap ?_ ?_
  · cases h <;> simp
  · induction h with
    | nil => exact .refl _
    | cons hpiece _ ih =>
      rw [List.flatMap_cons, List.flatMap_cons]
      exact (hpiece.append_right sep).append ih

/-- Joined texts are the same only if their pieces are, if those are as long. -/
theorem join_eq_join_iff {pieces' : List Text}
    (h : List.Forall₂ (fun piece piece' : Text => piece.length = piece'.length) pieces pieces') :
    join sep pieces = join sep pieces' ↔ pieces = pieces' := by
  refine ⟨fun heq => ?_, congrArg _⟩
  induction h with
  | nil => rfl
  | @cons piece piece' pieces pieces' hlength hrest ih =>
    by_cases hempty : pieces = []
    · subst hempty
      cases hrest
      exact congrArg (fun piece => [piece]) heq
    · have hempty' : pieces' ≠ [] := by
        rintro rfl
        cases hrest
        exact hempty rfl
      rw [join_cons hempty, join_cons hempty', List.append_assoc, List.append_assoc] at heq
      obtain ⟨rfl, hjoin⟩ := List.append_inj heq hlength
      rw [ih (List.append_cancel_left hjoin)]

end Text

end CollectionInterfaces
