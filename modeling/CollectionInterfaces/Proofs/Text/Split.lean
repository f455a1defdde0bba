import CollectionInterfaces.Proofs.Text.Join

/-!
# Split texts

A text is cut after a beginning, and it is split where a separator stands, and nowhere else. Pieces
without the separator are read back from the text that they are joined to (`Text.splitAll_join`).
-/

namespace CollectionInterfaces

namespace Text

variable {sep : CodePoint} {t : Text} {pieces : List Text}

theorem after?_eq_some_iff {beginning rest : Text} :
    after? beginning t = some rest ↔ t = beginning ++ rest := by
  induction beginning generalizing t with
  | nil => simp [after?, eq_comm]
  | cons b beginning ih =>
    cases t with
    | nil => simp [after?]
    | cons c t =>
      by_cases hc : b = c
      · simp [after?, hc, ih]
      · simp [after?, hc, eq_comm]

theorem cut_append (h : sep ∉ t) (after : Text) :
    cut sep (t ++ sep :: after) = (t, some after) := by
  induction t with
  | nil => simp [cut]
  | cons c t ih =>
    simp only [List.mem_cons, not_or] at h
    simp [cut, Ne.symm h.1, ih h.2]

theorem cut_of_not_mem (h : sep ∉ t) : cut sep t = (t, none) := by
  induction t with
  | nil => rfl
  | cons c t ih =>
    simp only [List.mem_cons, not_or] at h
    simp [cut, Ne.symm h.1, ih h.2]

theorem not_mem_cut (sep : CodePoint) (t : Text) : sep ∉ (cut sep t).1 := by
  induction t with
  | nil => simp [cut]
  | cons c t ih =>
    rw [cut]
    split
    · simp
    · rename_i hc
      exact List.not_mem_cons_of_ne_of_not_mem (Ne.symm hc) ih

theorem splitAll_of_not_mem (h : sep ∉ t) : splitAll sep t = [t] := by
  induction t with
  | nil => rfl
  | cons c rest ih =>
    simp only [List.mem_cons, not_or] at h
    simp only [splitAll, ih h.2, Ne.symm h.1, if_false]

theorem splitAll_append (h : sep ∉ t) (rest : Text) :
    splitAll sep (t ++ sep :: rest) = t :: splitAll sep rest := by
  have hne (s : Text) : splitAll sep s ≠ [] := by
    cases s with
    | nil => simp [splitAll]
    | cons c s =>
      unfold splitAll
      split
      · simp
      · split <;> simp
  induction t with
  | nil =>
    rw [List.nil_append, splitAll]
    split
    · exact absurd ‹_› (hne rest)
    · rename_i piece pieces hrest
      rw [if_pos rfl, hrest]
  | cons c t ih =>
    simp only [List.mem_cons, not_or] at h
    rw [List.cons_append, splitAll, ih h.2]
    exact if_neg (Ne.symm h.1)

/-- Splitting undoes joining if the separator stands in no piece. -/
theorem splitAll_join (hne : pieces ≠ []) (h : ∀ piece ∈ pieces, sep ∉ piece) :
    splitAll sep (join [sep] pieces) = pieces := by
  induction pieces with
  | nil => exact absurd rfl hne
  | cons piece pieces ih =>
    rw [List.forall_mem_cons] at h
    by_cases hrest : pieces = []
    · subst hrest
      exact splitAll_of_not_mem h.1
    · rw [join_cons hrest, List.append_assoc, List.singleton_append, splitAll_append h.1,
        ih hrest h.2]

/-- Every text is joined from pieces without the separator. -/
theorem exists_eq_join (sep : CodePoint) (t : Text) :
    ∃ pieces, pieces ≠ [] ∧ (∀ piece ∈ pieces, sep ∉ piece) ∧ t = join [sep] pieces := by
  induction t with
  | nil => exact ⟨[[]], by simp, by simp, rfl⟩
  | cons c t ih =>
    obtain ⟨pieces, hne, h, rfl⟩ := ih
    by_cases hc : c = sep
    · refine ⟨[] :: pieces, by simp, List.forall_mem_cons.mpr ⟨by simp, h⟩, ?_⟩
      rw [join_cons hne, hc]
      rfl
    · obtain ⟨piece, pieces, rfl⟩ := List.exists_cons_of_ne_nil hne
      rw [List.forall_mem_cons] at h
      have hpiece : sep ∉ c :: piece := List.not_mem_cons_of_ne_of_not_mem (Ne.symm hc) h.1
      refine ⟨(c :: piece) :: pieces, by simp, List.forall_mem_cons.mpr ⟨hpiece, h.2⟩, ?_⟩
      cases pieces <;> rfl

theorem not_mem_of_mem_splitAll {piece : Text} (h : piece ∈ splitAll sep t) : sep ∉ piece := by
  obtain ⟨pieces, hne, hpieces, rfl⟩ := exists_eq_join sep t
  rw [splitAll_join hne hpieces] at h
  exact hpieces piece h

theorem join_splitAll (sep : CodePoint) (t : Text) : join [sep] (splitAll sep t) = t := by
  obtain ⟨pieces, hne, hpieces, rfl⟩ := exists_eq_join sep t
  rw [splitAll_join hne hpieces]

/-- A text is split where a separator stands, whatever is before it. -/
theorem splitAll_append_sep (sep : CodePoint) (t rest : Text) :
    splitAll sep (t ++ sep :: rest) = splitAll sep t ++ splitAll sep rest := by
  obtain ⟨pieces, hne, hpieces, rfl⟩ := exists_eq_join sep t
  obtain ⟨more, hmore, hmorePieces, rfl⟩ := exists_eq_join sep rest
  have hjoin : join [sep] pieces ++ sep :: join [sep] more = join [sep] (pieces ++ more) := by
    rw [join_append hne hmore]
    simp
  rw [hjoin, splitAll_join (by simp [hne]) (List.forall_mem_append.mpr ⟨hpieces, hmorePieces⟩),
    splitAll_join hne hpieces, splitAll_join hmore hmorePieces]

end Text

end CollectionInterfaces
