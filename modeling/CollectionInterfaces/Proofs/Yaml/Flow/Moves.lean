import CollectionInterfaces.Proofs.Json.Reading
import CollectionInterfaces.Yaml.Token.Lexer

/-!
# How a cursor goes on

A reader that goes over a piece of its text counts the code points of the piece, and stays on its
line if no line ends in the piece. The blanks of JSON are skipped in YAML as well, tabs apart.
-/

namespace CollectionInterfaces.Yaml

variable {c c' c'' : Cursor} {p : CodePoint → Bool} {m : Mark} {d : CodePoint} {t w w' : Text}

namespace Cursor

/-- A cursor goes on over a piece of its text. -/
structure Moves (c : Cursor) (w : Text) (c' : Cursor) : Prop where
  rest : c.rest = w ++ c'.rest
  index : c'.mark.index = c.mark.index + w.length
  line : (∀ d ∈ w, isBreak d = false) → c'.mark.line = c.mark.line

namespace Moves

theorem refl : c.Moves [] c := ⟨rfl, rfl, fun _ => rfl⟩

theorem trans (h : c.Moves w c') (h' : c'.Moves w' c'') : c.Moves (w ++ w') c'' where
  rest := by rw [h.rest, h'.rest, List.append_assoc]
  index := by rw [h'.index, h.index, List.length_append, Nat.add_assoc]
  line hw := by
    rw [List.forall_mem_append] at hw
    rw [h'.line hw.2, h.line hw.1]

theorem rest_eq (h : c.Moves w c') (hrest : c.rest = w ++ t) : c'.rest = t :=
  List.append_cancel_left (h.rest.symm.trans hrest)

theorem mem (h : c.Moves w c') (hd : d ∈ c'.rest) : d ∈ c.rest :=
  h.rest ▸ List.mem_append_right _ hd

end Moves

theorem index_after (m : Mark) (d : CodePoint) (next : Option CodePoint) :
    (m.after d next).index = m.index + 1 := by
  unfold Mark.after
  split
  · split <;> rfl
  split
  · rfl
  split <;> rfl

theorem line_after {next : Option CodePoint} (h : isBreak d = false) :
    (m.after d next).line = m.line := by
  have hd : d ≠ .carriageReturn := by
    rintro rfl
    cases h
  unfold Mark.after
  rw [if_neg hd, if_neg (by simp [h])]
  split <;> rfl

theorem next_rest (h : c.rest = d :: t) : c.next.rest = t := by
  rw [next, h]

theorem next_moves (h : c.rest = d :: t) : c.Moves [d] c.next := by
  have hnext : c.next = ⟨t, c.mark.after d t.head?⟩ := by rw [next, h]
  rw [hnext]
  refine ⟨h, index_after .., fun hd => line_after (hd d List.mem_cons_self)⟩

theorem peek_of_rest (h : c.rest = d :: t) : c.peek = d := by
  rw [peek, h]
  rfl

theorem spanFrom_moves : Moves ⟨t, m⟩ (spanFrom p m t).1 (spanFrom p m t).2 := by
  induction t generalizing m with
  | nil => exact .refl
  | cons d t ih =>
    unfold spanFrom
    split
    · exact (next_moves rfl).trans ih
    · exact .refl

theorem spanFrom_fst : (spanFrom p m t).1 = t.takeWhile p := by
  induction t generalizing m with
  | nil => rfl
  | cons d t ih =>
    unfold spanFrom
    split
    · rename_i hd
      rw [List.takeWhile_cons_of_pos hd, ← ih]
    · rename_i hd
      rw [List.takeWhile_cons_of_neg hd]

theorem span_fst : (c.span p).1 = c.rest.takeWhile p := spanFrom_fst

theorem span_moves : c.Moves (c.rest.takeWhile p) (c.span p).2 := span_fst ▸ spanFrom_moves

theorem span_rest : (c.span p).2.rest = c.rest.dropWhile p := by
  have happend : c.rest.takeWhile p ++ (c.span p).2.rest = _ := span_moves.rest.symm
  exact List.append_cancel_left (happend.trans List.takeWhile_append_dropWhile.symm)

end Cursor

/-- A text is on one line and short enough for a key. -/
structure IsKeySized (w : Text) : Prop where
  length : w.length ≤ 1024
  breaks : ∀ d ∈ w, isBreak d = false

instance : DecidablePred IsKeySized := fun w =>
  decidable_of_iff (w.length ≤ 1024 ∧ ∀ d ∈ w, isBreak d = false)
    ⟨fun h => ⟨h.1, h.2⟩, fun h => ⟨h.length, h.breaks⟩⟩

theorem IsKeySized.of_append (h : IsKeySized (w ++ w')) : IsKeySized w where
  length := Nat.le_trans (List.prefix_append w w').length_le h.length
  breaks d hd := h.breaks d (List.mem_append_left _ hd)

/-! ## Blanks -/

open Json (skipBlanks skipBlanks_of_not_isBlank)

/-- What is not skipped in front of a lexeme, the blanks of JSON apart. -/
def IsLexemeStart (d : CodePoint) : Prop := d ≠ .ofChar '#' ∧ isBreak d = false ∧ d ≠ byteOrderMark

instance : DecidablePred IsLexemeStart := fun d =>
  inferInstanceAs (Decidable (d ≠ .ofChar '#' ∧ isBreak d = false ∧ d ≠ byteOrderMark))

theorem skipBlanks_append (h : ∀ d ∈ w, Json.isBlank d = true) :
    skipBlanks (w ++ t) = skipBlanks t := List.dropWhile_append_of_pos h

theorem skipBlanks_skipBlanks (t : Text) : skipBlanks (skipBlanks t) = skipBlanks t := by
  have hblanks : ∀ d ∈ t.takeWhile Json.isBlank, Json.isBlank d = true :=
    List.all_eq_true.mp List.all_takeWhile
  have happend : t.takeWhile Json.isBlank ++ skipBlanks t = t := List.takeWhile_append_dropWhile
  rw [← skipBlanks_append hblanks, happend]

theorem skipBlanks_of_head (h : ∀ d ∈ t.head?, Json.isBlank d = false) : skipBlanks t = t := by
  cases t with
  | nil => rfl
  | cons d t => exact skipBlanks_of_not_isBlank (h d rfl)

theorem skipBlanks_cons (h : Json.isBlank d = true) : skipBlanks (d :: t) = skipBlanks t :=
  List.dropWhile_cons_of_pos h

theorem isBlank_of_isSpace (h : isSpace d = true) : Json.isBlank d = true := by
  simp_all [isSpace, Json.isBlank]

namespace Cursor

/-- The spaces at a cursor are skipped, and something else follows them. -/
theorem span_isSpace (c : Cursor) : ∃ spaces after, c.span isSpace = (spaces, after) ∧
    c.Moves spaces after ∧ skipBlanks c.rest = skipBlanks after.rest ∧
    ∀ d ∈ after.rest.head?, isSpace d = false := by
  have hmoves := @span_moves c isSpace
  have hspaces : ∀ d ∈ c.rest.takeWhile isSpace, Json.isBlank d = true := fun d hd =>
    isBlank_of_isSpace (List.all_eq_true.mp List.all_takeWhile d hd)
  refine ⟨_, _, Prod.ext span_fst rfl, hmoves, ?_, fun d hd => ?_⟩
  · rw [hmoves.rest, skipBlanks_append hspaces]
  · have hhead := List.head?_dropWhile_not isSpace c.rest
    rw [← span_rest, Option.mem_def.mp hd] at hhead
    exact hhead

theorem skipComment_of_peek (h : c.peek ≠ .ofChar '#') : c.skipComment = c := if_neg h

theorem lineBreak_of_peek (h : isBreak c.peek = false) : c.lineBreak = ([], c) := by
  have hpeek : c.peek ≠ .carriageReturn ∧ isSeparator c.peek = false := by
    constructor
    · intro heq
      rw [heq] at h
      cases h
    · simp_all [isBreak]
  unfold lineBreak
  rw [if_neg (fun h => hpeek.1 h.1), if_neg (by simp [hpeek.2]), if_neg (by simp [h])]

/-- A line end of JSON is one or two code points. -/
theorem lineBreak_moves (hrest : c.rest = d :: t) (hd : d = .lineFeed ∨ d = .carriageReturn) :
    ∃ w, c.Moves w c.lineBreak.2 ∧ c.lineBreak.1 = [.lineFeed] ∧ w ≠ [] ∧
      ∀ e ∈ w, Json.isBlank e = true := by
  have hnext := next_moves hrest
  have hblank : Json.isBlank d = true := by
    rcases hd with rfl | rfl <;> rfl
  unfold lineBreak
  rw [peek_of_rest hrest]
  split
  · rename_i hpair
    obtain ⟨e, t', rfl⟩ : ∃ e t', t = e :: t' := by
      cases t with
      | nil =>
        have hnull : CodePoint.null = .lineFeed := by simpa [peekAt, hrest] using hpair.2
        exact absurd hnull (by decide)
      | cons e t' => exact ⟨e, t', rfl⟩
    have he : e = .lineFeed := by simpa [peekAt, hrest] using hpair.2
    have hnext' := next_moves (next_rest hrest)
    refine ⟨[d] ++ [e], hnext.trans hnext', rfl, by simp, ?_⟩
    rw [he]
    simp [hblank]
    rfl
  · have hbreak : isSeparator d = false ∧ isBreak d = true := by
      rcases hd with rfl | rfl <;> decide
    rw [if_neg (by simp [hbreak.1]), if_pos hbreak.2]
    exact ⟨[d], hnext, rfl, by simp, by simpa using hblank⟩

end Cursor

namespace Lexer

open Cursor

variable {s : Lexer}

/-- Where a lexeme starts, nothing is skipped. -/
theorem peek_of_start (hstart : ∀ d ∈ c.rest.head?, IsLexemeStart d) :
    c.peek ≠ .ofChar '#' ∧ isBreak c.peek = false ∧ c.peek ≠ byteOrderMark := by
  unfold peek
  cases hrest : c.rest with
  | nil => exact ⟨by decide, by decide, by decide⟩
  | cons d t =>
    rw [hrest] at hstart
    exact hstart d rfl

theorem skipToLexemeUpTo_eq {fuel : Text} (hfuel : s.cursor.rest.length < fuel.length)
    (htab : .ofChar '\t' ∉ s.cursor.rest)
    (hstart : ∀ d ∈ (skipBlanks s.cursor.rest).head?, IsLexemeStart d) :
    ∃ w c keyAllowed, skipToLexemeUpTo fuel s = { s with cursor := c, keyAllowed := keyAllowed } ∧
      s.cursor.Moves w c ∧ c.rest = skipBlanks s.cursor.rest ∧
      (s.keyAllowed = true → keyAllowed = true) := by
  induction fuel generalizing s with
  | nil => cases hfuel
  | cons _ fuel ih =>
    obtain ⟨spaces, after, hspan, hmoves, hskip, hhead⟩ := span_isSpace s.cursor
    have hafter : s.cursor.skipWhile isSpace = after := congrArg Prod.snd hspan
    unfold skipToLexemeUpTo
    dsimp only
    rw [hafter]
    -- the blanks go on in the next line, or end with the spaces
    by_cases hbreak : ∃ d t, after.rest = d :: t ∧ (d = .lineFeed ∨ d = .carriageReturn)
    · obtain ⟨d, t, hrest, hd⟩ := hbreak
      obtain ⟨w, hline, hfeed, hne, hblank⟩ := lineBreak_moves hrest hd
      have hcomment : after.peek ≠ .ofChar '#' := by
        rw [peek_of_rest hrest]
        rcases hd with rfl | rfl <;> decide
      rw [skipComment_of_peek hcomment, hfeed, if_neg (by decide)]
      have hwhole := hmoves.trans hline
      have hlength := congrArg List.length hwhole.rest
      have hpos := List.length_pos_iff.mpr hne
      simp only [List.length_append, List.length_cons] at hlength hfuel
      have hnext : skipBlanks s.cursor.rest = skipBlanks after.lineBreak.2.rest := by
        rw [hskip, hline.rest, skipBlanks_append hblank]
      obtain ⟨w', c, keyAllowed, hgives, hmoves', hrest', hkey⟩ :=
        @ih { s with cursor := after.lineBreak.2, keyAllowed := s.keyAllowed || !s.inFlow }
          (by dsimp only; omega)
          (fun hmem => htab (hwhole.mem hmem))
          (by dsimp only; rwa [← hnext])
      exact ⟨spaces ++ w ++ w', c, keyAllowed, hgives, hwhole.trans hmoves', by rw [hrest', hnext],
        fun h => hkey (by simp [h])⟩
    · have hstop : skipBlanks after.rest = after.rest := by
        refine skipBlanks_of_head fun d hd => ?_
        obtain ⟨t, hrest⟩ := List.head?_eq_some_iff.mp hd
        have hspace := hhead d hd
        have hline : ¬(d = .lineFeed ∨ d = .carriageReturn) := fun h => hbreak ⟨d, t, hrest, h⟩
        have hne : d ≠ .ofChar '\t' := by
          rintro rfl
          exact htab (hmoves.mem (hrest ▸ List.mem_cons_self))
        simp_all [Json.isBlank, isSpace]
      have hpeek : after.peek ≠ .ofChar '#' ∧ isBreak after.peek = false ∧
          after.peek ≠ byteOrderMark := by
        refine peek_of_start ?_
        rwa [← hstop, ← hskip]
      rw [skipComment_of_peek hpeek.1, lineBreak_of_peek hpeek.2.1]
      exact ⟨spaces, after, s.keyAllowed, rfl, hmoves, by rw [hskip, hstop], id⟩

theorem skipToLexeme_eq (htab : .ofChar '\t' ∉ s.cursor.rest)
    (hstart : ∀ d ∈ (skipBlanks s.cursor.rest).head?, IsLexemeStart d) :
    ∃ w c keyAllowed, s.skipToLexeme = { s with cursor := c, keyAllowed := keyAllowed } ∧
      s.cursor.Moves w c ∧ c.rest = skipBlanks s.cursor.rest ∧
      (s.keyAllowed = true → keyAllowed = true) := by
  have hpeek : s.cursor.peek ≠ byteOrderMark := by
    cases hrest : s.cursor.rest with
    | nil => rw [peek, hrest]; decide
    | cons d t =>
      rw [peek_of_rest hrest]
      rintro rfl
      rw [hrest, skipBlanks_of_not_isBlank rfl] at hstart
      exact (hstart _ rfl).2.2 rfl
  unfold skipToLexeme
  rw [if_neg fun h => hpeek h.2]
  exact skipToLexemeUpTo_eq (Nat.lt_succ_self _) htab hstart

end Lexer

end CollectionInterfaces.Yaml
