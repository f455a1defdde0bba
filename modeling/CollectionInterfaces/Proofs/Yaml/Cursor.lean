import CollectionInterfaces.Yaml.Lexeme.Block
import CollectionInterfaces.Yaml.Lexeme.Plain

/-!
# What a cursor leaves

A cursor that moves on has a suffix of the text that it had before. That holds for all readers that
cannot fail, whatever they skip.
-/

namespace CollectionInterfaces.Yaml

variable {c : Cursor} {p : CodePoint → Bool} {m : Mark} {t : Text} {d : CodePoint}

namespace Cursor

theorem next_suffix : c.next.rest <:+ c.rest := by
  unfold next
  split
  · exact List.suffix_refl _
  · rename_i heq
    rw [heq]
    exact List.suffix_cons _ _

theorem skip_suffix : (c.skip n).rest <:+ c.rest := by
  induction n generalizing c with
  | zero => exact List.suffix_refl _
  | succ n ih => exact ih.trans next_suffix

/-- Nothing is lost between a piece and what follows it. -/
theorem spanFrom_append : (spanFrom p m t).1 ++ (spanFrom p m t).2.rest = t := by
  induction t generalizing m with
  | nil => rfl
  | cons d t ih =>
    unfold spanFrom
    split
    · exact congrArg (d :: ·) ih
    · rfl

theorem span_append : (c.span p).1 ++ (c.span p).2.rest = c.rest := spanFrom_append

theorem span_suffix : (c.span p).2.rest <:+ c.rest := ⟨_, span_append⟩

theorem skipWhile_suffix : (c.skipWhile p).rest <:+ c.rest := span_suffix

theorem skipComment_suffix : c.skipComment.rest <:+ c.rest := by
  unfold skipComment
  split
  · exact skipWhile_suffix
  · exact List.suffix_refl _

theorem lineBreak_suffix : c.lineBreak.2.rest <:+ c.rest := by
  unfold lineBreak
  split
  · exact skip_suffix
  split
  · exact next_suffix
  split
  · exact next_suffix
  · exact List.suffix_refl _

/-- A code point other than the null code point stands at the cursor in the text. -/
theorem rest_of_peek (h : c.peek = d) (hd : d ≠ .null) : c.rest = d :: c.next.rest := by
  unfold peek at h
  unfold next
  cases hrest : c.rest with
  | nil =>
    rw [hrest] at h
    exact absurd h.symm hd
  | cons e rest =>
    rw [hrest] at h
    exact congrArg (· :: rest) h

theorem lt_length_of_peekAt (h : c.peekAt n ≠ .null) : n < c.rest.length := by
  refine Decidable.byContradiction fun hlt => h ?_
  rw [peekAt, List.getElem?_eq_none (Nat.le_of_not_lt hlt), Option.getD_none]

theorem map_peekAt (h : n ≤ c.rest.length) : (List.range n).map c.peekAt = c.rest.take n := by
  refine List.ext_getElem (by simp [Nat.min_eq_left h]) fun i hi _ => ?_
  have hlt : i < c.rest.length := by
    rw [List.length_map, List.length_range] at hi
    omega
  simp [peekAt, hlt]

end Cursor

open Cursor

/-! ## Scalars in block notation -/

theorem readLeadingLines_suffix {fuel : Text} : (readLeadingLines fuel c).2.2.rest <:+ c.rest := by
  induction fuel generalizing c with
  | nil => exact List.suffix_refl _
  | cons _ fuel ih =>
    unfold readLeadingLines
    split
    · exact ih.trans next_suffix
    split
    · exact ih.trans lineBreak_suffix
    · exact List.suffix_refl _

theorem skipSpaces_suffix : (skipSpaces n c).rest <:+ c.rest := by
  induction n generalizing c with
  | zero => exact List.suffix_refl _
  | succ n ih =>
    unfold skipSpaces
    split
    · exact ih.trans next_suffix
    · exact List.suffix_refl _

theorem readBlankLines_suffix {fuel : Text} : (readBlankLines n fuel c).2.rest <:+ c.rest := by
  induction fuel generalizing c with
  | nil => exact List.suffix_refl _
  | cons _ fuel ih =>
    unfold readBlankLines
    dsimp only
    split
    · exact ih.trans (lineBreak_suffix.trans skipSpaces_suffix)
    · exact skipSpaces_suffix

theorem readAllBlankLines_suffix : (readAllBlankLines n c).2.rest <:+ c.rest :=
  readBlankLines_suffix

theorem readBlockLines_suffix {fuel blankLines : Text} :
    (readBlockLines folded n fuel blankLines c).2.2.2.rest <:+ c.rest := by
  induction fuel generalizing c blankLines with
  | nil => exact List.suffix_refl _
  | cons _ fuel ih =>
    have hline : (readAllBlankLines n (c.span fun d => !isLineEnd d).2.lineBreak.2).2.rest <:+
        c.rest := readAllBlankLines_suffix.trans (lineBreak_suffix.trans span_suffix)
    unfold readBlockLines
    dsimp only
    split
    · split
      · exact ih.trans hline
      · exact hline
    · exact List.suffix_refl _

/-! ## Plain scalars -/

theorem plainSpan_suffix : (plainSpan inFlow m t).2.rest <:+ t := by
  induction t generalizing m with
  | nil => exact List.suffix_refl _
  | cons d t ih =>
    unfold plainSpan
    split
    · exact List.suffix_refl _
    · exact ih.trans (List.suffix_cons _ _)

theorem readPlainLines_suffix {fuel : Text} : (readPlainLines fuel c).2.rest <:+ c.rest := by
  induction fuel generalizing c with
  | nil => exact List.suffix_refl _
  | cons _ fuel ih =>
    unfold readPlainLines
    dsimp only
    split
    · exact ih.trans next_suffix
    split
    · split
      · exact lineBreak_suffix
      · exact ih.trans lineBreak_suffix
    · exact List.suffix_refl _

theorem readPlainSpaces_suffix : (readPlainSpaces c).2.2.rest <:+ c.rest := by
  have hbreak : (c.span isSpace).2.lineBreak.2.rest <:+ c.rest :=
    lineBreak_suffix.trans span_suffix
  have hlines : (readPlainLines (c.span isSpace).2.lineBreak.2.bound
      (c.span isSpace).2.lineBreak.2).2.rest <:+ c.rest := readPlainLines_suffix.trans hbreak
  unfold readPlainSpaces
  dsimp only
  split
  · split
    · exact hbreak
    · split
      · rename_i heq
        rwa [heq] at hlines
      · rename_i heq
        rw [heq] at hlines
        split
        · exact hlines
        · split <;> exact hlines
  · exact span_suffix

theorem readPlainPieces_suffix {fuel : Text}
    (h : readPlainPieces inFlow indent fuel c = some (scalar, after)) : after.rest <:+ c.rest := by
  induction fuel generalizing c scalar after with
  | nil => cases h
  | cons _ fuel ih =>
    have hpiece : (readPlainSpaces (plainSpan inFlow c.mark c.rest).2).2.2.rest <:+ c.rest :=
      readPlainSpaces_suffix.trans plainSpan_suffix
    unfold readPlainPieces at h
    dsimp only at h
    split at h
    · cases h
    split at h
    · cases h
    split at h
    · cases h
      exact hpiece
    split at h
    · rename_i hmore
      cases h
      exact (ih hmore).trans hpiece
    · cases h
      exact hpiece

theorem readPlain_suffix : (readPlain inFlow indent c).2.rest <:+ c.rest := by
  unfold readPlain
  cases h : readPlainPieces inFlow indent c.bound c with
  | none => exact List.suffix_refl _
  | some r => exact readPlainPieces_suffix h

end CollectionInterfaces.Yaml
