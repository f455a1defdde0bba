import CollectionInterfaces.Proofs.Json.Reading
import CollectionInterfaces.Proofs.Yaml.Flow.Moves
import CollectionInterfaces.Proofs.Yaml.Quotes

/-!
# Scalars in double quotes

What JSON reads between quotes stands for a text, one code point or one escape after another, as
long as no two escapes make a surrogate pair (`Json.standsFor_of_readText`). YAML, which reads words
and the blanks between them, reads the same text then (`Yaml.readQuoted_double`).
-/

namespace CollectionInterfaces

namespace Json

/-- What follows a backslash is the escape of a code point. -/
inductive IsEscape : Text → CodePoint → Prop
  | letter (h : letterEscape? e = some u) : IsEscape [e] u
  | number (h : hexEscape? a b c d = some u) : IsEscape [.ofChar 'u', a, b, c, d] u

/-- A piece of text between quotes stands for a text. -/
inductive StandsFor : Text → Text → Prop
  | nil : StandsFor [] []
  | escape (hescape : IsEscape v u) (h : StandsFor w s) :
      StandsFor (.ofChar '\\' :: (v ++ w)) (u :: s)
  | itself (hquote : c ≠ .ofChar '"') (hslash : c ≠ .ofChar '\\') (hval : 0x20 ≤ c.val)
      (h : StandsFor w s) : StandsFor (c :: w) (c :: s)

/-- A text starts with the escape of a code point by its number. -/
def StartsWithEscape (t : Text) (u : CodePoint) (rest : Text) : Prop :=
  ∃ a b c d, t = .ofChar '\\' :: .ofChar 'u' :: a :: b :: c :: d :: rest ∧
    hexEscape? a b c d = some u

/-- Nowhere in a text do the escapes of both halves of a surrogate pair follow one another. -/
def IsPairFree (t : Text) : Prop :=
  ∀ u high rest low rest', u <:+ t → StartsWithEscape u high rest →
    StartsWithEscape rest low rest' → high.isHighSurrogate = true → low.isLowSurrogate = false

variable {start half t s rest w : Text}

theorem IsPairFree.suffix (h : IsPairFree t) (hsuffix : w <:+ t) : IsPairFree w :=
  fun u high rest low rest' hu => h u high rest low rest' (hu.trans hsuffix)

/-- A text in quotes without surrogate pairs is read one code point after another. -/
theorem standsFor_of_readText (h : readText start half t = .ok (s, rest)) (hfree : IsPairFree t)
    (hhalf : ∀ low rest', StartsWithEscape t low rest' → half ≠ [] → low.isLowSurrogate = false) :
    ∃ w s', t = w ++ .ofChar '"' :: rest ∧ s = half ++ s' ∧ StandsFor w s' := by
  fun_induction readText start half t generalizing s with
  | case1 | case3 | case4 | case10 | case11 | case13 => cases h
  | case2 half rest =>
    cases h
    exact ⟨[], [], rfl, (List.append_nil _).symm, .nil⟩
  | case5 a b c d next rest' u hnumber high tail hlow =>
    have hnot := hhalf u _ ⟨a, b, c, d, rfl, hnumber⟩ (List.cons_ne_nil _ _)
    rw [hnot] at hlow
    cases hlow
  | case6 a b c d next rest' u hnumber high tail hlow hhigh hslash ih =>
    obtain ⟨more, hmore, rfl⟩ := prepend_eq_ok_iff.mp h
    have hstart : StartsWithEscape _ u (next :: rest') := ⟨a, b, c, d, rfl, hnumber⟩
    obtain ⟨w, s', hrest, rfl, hstands⟩ := ih hmore (hfree.suffix ⟨[_, _, a, b, c, d], rfl⟩)
      fun low rest'' hlow _ => hfree _ u _ low rest'' (List.suffix_refl _) hstart hlow hhigh
    exact ⟨_, u :: s', by rw [hrest]; rfl, rfl, .escape (.number hnumber) hstands⟩
  | case7 a b c d next rest' u hnumber high tail hlow hhigh hslash ih =>
    obtain ⟨more, hmore, rfl⟩ := prepend_eq_ok_iff.mp h
    obtain ⟨w, _, hrest, rfl, hstands⟩ :=
      ih hmore (hfree.suffix ⟨[_, _, a, b, c, d], rfl⟩) fun _ _ _ hne => absurd rfl hne
    exact ⟨_, u :: more, by rw [hrest]; rfl, by simp, .escape (.number hnumber) hstands⟩
  | case8 a b c d next rest' u hnumber hhigh hslash ih =>
    have hstart : StartsWithEscape _ u (next :: rest') := ⟨a, b, c, d, rfl, hnumber⟩
    obtain ⟨w, s', hrest, rfl, hstands⟩ := ih h (hfree.suffix ⟨[_, _, a, b, c, d], rfl⟩)
      fun low rest'' hlow _ => hfree _ u _ low rest'' (List.suffix_refl _) hstart hlow hhigh
    exact ⟨_, u :: s', by rw [hrest]; rfl, rfl, .escape (.number hnumber) hstands⟩
  | case9 a b c d next rest' u hnumber hhigh hslash ih =>
    obtain ⟨more, hmore, rfl⟩ := prepend_eq_ok_iff.mp h
    obtain ⟨w, _, hrest, rfl, hstands⟩ :=
      ih hmore (hfree.suffix ⟨[_, _, a, b, c, d], rfl⟩) fun _ _ _ hne => absurd rfl hne
    exact ⟨_, u :: more, by rw [hrest]; rfl, rfl, .escape (.number hnumber) hstands⟩
  | case12 half e rest' he u hletter hslash ih =>
    obtain ⟨more, hmore, rfl⟩ := prepend_eq_ok_iff.mp h
    obtain ⟨w, _, hrest, rfl, hstands⟩ :=
      ih hmore (hfree.suffix ⟨[_, e], rfl⟩) fun _ _ _ hne => absurd rfl hne
    exact ⟨_, u :: more, by rw [hrest]; rfl, by simp, .escape (.letter hletter) hstands⟩
  | case14 half c rest' hquote hslash hcontrol ih =>
    obtain ⟨more, hmore, rfl⟩ := prepend_eq_ok_iff.mp h
    obtain ⟨w, _, hrest, rfl, hstands⟩ :=
      ih hmore (hfree.suffix ⟨[c], rfl⟩) fun _ _ _ hne => absurd rfl hne
    exact ⟨_, c :: more, by rw [hrest]; rfl, by simp, .itself hquote hslash (by omega) hstands⟩

end Json

namespace Yaml

open Json Cursor

/-- A line end of Unicode that JSON knows nothing of. -/
def isForeignBreak (d : CodePoint) : Bool := d.val == 0x85 || isSeparator d

variable {c : Cursor} {d e u : CodePoint} {p : CodePoint → Bool} {s t w rest fuel : Text}

theorem isBreak_of_not_foreign (h : isForeignBreak d = false) (hval : 0x20 ≤ d.val) :
    isBreak d = false := by
  have hd : d ≠ .lineFeed ∧ d ≠ .carriageReturn := by
    constructor
    all_goals
      rintro rfl
      exact absurd hval (by decide)
  simp_all [isForeignBreak, isBreak]

/-! ## Pieces -/

theorem takeWhile_append_of_neg (h : p d = false) : (w ++ d :: t).takeWhile p = w.takeWhile p := by
  induction w with
  | nil => simp [h]
  | cons e w ih =>
    rw [List.cons_append, List.takeWhile_cons, List.takeWhile_cons, ih]

theorem dropWhile_append_of_neg (h : p d = false) :
    (w ++ d :: t).dropWhile p = w.dropWhile p ++ d :: t := by
  induction w with
  | nil => simp [h]
  | cons e w ih =>
    rw [List.cons_append, List.dropWhile_cons, List.dropWhile_cons, ih]
    split <;> rfl

/-- Code points that stand for themselves can be read in one piece. -/
theorem exists_standsFor_dropWhile (h : StandsFor w s) (hslash : p (.ofChar '\\') = false) :
    ∃ s', s = w.takeWhile p ++ s' ∧ StandsFor (w.dropWhile p) s' := by
  induction h with
  | nil => exact ⟨[], rfl, .nil⟩
  | @escape v u w s hescape h _ =>
    exact ⟨u :: s, by simp [hslash], by simpa [hslash] using StandsFor.escape hescape h⟩
  | @itself c w s hquote hnot hval h ih =>
    cases hc : p c with
    | true =>
      obtain ⟨s', rfl, hstands⟩ := ih
      exact ⟨s', by simp [hc], by simpa [hc] using hstands⟩
    | false =>
      exact ⟨c :: s, by simp [hc], by simpa [hc] using StandsFor.itself hquote hnot hval h⟩

/-! ## Escapes -/

/-- The code points of the escapes with one letter. -/
def escapeLetters : List CodePoint :=
  ['"', .ofChar '\\', .ofChar '/', .ofChar 'b', .ofChar 'f', .ofChar 'n', .ofChar 'r', .ofChar 't']

theorem mem_escapeLetters (h : letterEscape? e = some u) : e ∈ escapeLetters := by
  simp only [escapeLetters, List.mem_cons]
  unfold letterEscape? at h
  grind

theorem lookup_of_letterEscape? (h : letterEscape? e = some u) :
    escapeTable.lookup e = some u := by
  have hletters : ∀ e ∈ escapeLetters, escapeTable.lookup e = letterEscape? e := by decide
  rw [hletters e (mem_escapeLetters h), h]

theorem isHexDigit_of_readDigits {acc n : Nat} {digits : Text}
    (h : Text.readDigits 16 acc digits = some n) : ∀ d ∈ digits, d.isHexDigit = true := by
  induction digits generalizing acc with
  | nil => nofun
  | cons c digits ih =>
    unfold Text.readDigits at h
    split at h
    · rename_i d hd
      split at h
      · rename_i hlt
        refine List.forall_mem_cons.mpr ⟨?_, ih h⟩
        simp [CodePoint.isHexDigit, CodePoint.hexValue?, hd, hlt]
      · cases h
    · cases h

theorem skip_moves {n : Nat} (h : n ≤ c.rest.length) : c.Moves (c.rest.take n) (c.skip n) := by
  induction n generalizing c with
  | zero => exact .refl
  | succ n ih =>
    obtain ⟨d, t, hrest⟩ := List.exists_cons_of_length_pos (Nat.lt_of_lt_of_le n.succ_pos h)
    have hnext := next_rest hrest
    have hmoves := (next_moves hrest).trans (ih (c := c.next) (by
      rw [hnext]
      rw [hrest] at h
      exact Nat.le_of_succ_le_succ h))
    rw [hnext] at hmoves
    rw [hrest]
    exact hmoves

theorem readEscape_escape {v : Text} (start : Mark) (hrest : c.rest = v ++ t) (h : IsEscape v u) :
    ∃ c', readEscape start c = .ok ([u], c') ∧ c.Moves v c' := by
  cases h with
  | letter hletter =>
    refine ⟨c.next, ?_, next_moves hrest⟩
    rw [readEscape, peek_of_rest hrest, lookup_of_letterEscape? hletter]
  | @number a b e d _ hnumber =>
    obtain ⟨n, hread, rfl⟩ := Option.map_eq_some_iff.mp hnumber
    have hnext : c.next.rest = a :: b :: e :: d :: t := next_rest hrest
    have hmoves := (next_moves hrest).trans (skip_moves (c := c.next) (n := 4) (by simp [hnext]))
    refine ⟨c.next.skip 4, ?_, by simpa [hnext] using hmoves⟩
    have hdigits : (List.range 4).map c.next.peekAt = [a, b, e, d] := by
      rw [map_peekAt (by simp [hnext]), hnext]
      rfl
    have hhex : [a, b, e, d].find? (!·.isHexDigit) = none := by
      rw [List.find?_eq_none]
      intro x hx
      simp [isHexDigit_of_readDigits hread x hx]
    have hlt : n < 0x110000 := by
      have hfour := Text.readDigits_lt hread
      simp only [List.length_cons, List.length_nil] at hfour
      omega
    have hvalue : hexNumber [a, b, e, d] = n := by rw [hexNumber, hread, Option.getD_some]
    rw [readEscape, peek_of_rest hrest, show escapeTable.lookup (.ofChar 'u') = none from rfl]
    dsimp only
    rw [show escapeWidth? (.ofChar 'u') = some 4 from rfl]
    dsimp only
    rw [hdigits, hhex, hvalue, codePointOf, dif_pos hlt, CodePoint.ofNat, dif_pos hlt]
    rfl

/-! ## Words and spaces -/

theorem span_of_rest (hrest : c.rest = w ++ d :: t) (hd : p d = false) :
    ∃ after, c.span p = (w.takeWhile p, after) ∧ c.Moves (w.takeWhile p) after ∧
      after.rest = w.dropWhile p ++ d :: t := by
  have hpiece : (c.span p).1 = w.takeWhile p := by
    rw [span_fst, hrest, takeWhile_append_of_neg hd]
  have hmoves := @span_moves c p
  rw [← span_fst, hpiece] at hmoves
  exact ⟨_, Prod.ext hpiece rfl, hmoves, by rw [span_rest, hrest, dropWhile_append_of_neg hd]⟩

theorem isBlank_of_not_isQuotedPart (hpart : isQuotedPart d = false) (hval : 0x20 ≤ d.val)
    (hforeign : isForeignBreak d = false) (hquote : d ≠ .ofChar '"') (hslash : d ≠ .ofChar '\\')
    (hsingle : d ≠ .ofChar '\'') : isBlank d = true := by
  have hnull : d ≠ .null := by
    rintro rfl
    exact absurd hval (by decide)
  simpa [isQuotedPart, isBlankOrEnd, isLineEnd, isBreak_of_not_foreign hforeign hval, hnull, hquote,
    hsingle, show d ≠ .backslash from hslash] using hpart

/-- A word between quotes ends at the closing quote or at a space. -/
theorem readQuotedWord_double (start : Mark) (hstands : StandsFor w s)
    (hforeign : ∀ d ∈ w, isForeignBreak d = false) (hrest : c.rest = w ++ .ofChar '"' :: rest)
    (hfuel : w.length < fuel.length) :
    ∃ w₁ w₂ s₁ s₂ c', w = w₁ ++ w₂ ∧ s = s₁ ++ s₂ ∧
      readQuotedWord .double start fuel c = .ok (s₁, c') ∧ c.Moves w₁ c' ∧ StandsFor w₂ s₂ ∧
      ∀ d ∈ w₂.head?, isBlank d = true := by
  -- every turn of the loop takes a piece without marks, and then an escape or a single quote
  induction fuel generalizing c w s with
  | nil => cases hfuel
  | cons _ fuel ih =>
    obtain ⟨s', rfl, hstands'⟩ := exists_standsFor_dropWhile (p := isQuotedPart) hstands rfl
    obtain ⟨after, hspan, hmoves, hafter⟩ := span_of_rest (p := isQuotedPart) hrest rfl
    have hw : w.takeWhile isQuotedPart ++ w.dropWhile isQuotedPart = w :=
      List.takeWhile_append_dropWhile
    have hstop := List.head?_dropWhile_not isQuotedPart w
    generalize w.takeWhile isQuotedPart = piece at *
    generalize w.dropWhile isQuotedPart = w' at *
    subst hw
    rw [List.forall_mem_append] at hforeign
    rw [List.length_append] at hfuel
    rw [List.length_cons] at hfuel
    unfold readQuotedWord
    rw [hspan]
    dsimp only
    cases hstands' with
    | nil =>
      rw [peek_of_rest hafter]
      exact ⟨piece, [], piece, [], after, by simp, by simp, rfl, hmoves, .nil, by simp⟩
    | @escape v u w s hescape h =>
      have hnext : after.next.rest = v ++ (w ++ .ofChar '"' :: rest) :=
        (next_rest hafter).trans (List.append_assoc ..)
      obtain ⟨c₁, hread, hmoves₁⟩ := readEscape_escape start hnext hescape
      simp only [List.length_cons, List.length_append] at hfuel
      obtain ⟨w₁, w₂, s₁, s₂, c', rfl, rfl, hword, hmoves', hrest'⟩ :=
        ih h (fun d hd => hforeign.2 d (by simp [hd])) (hmoves₁.rest_eq hnext) (by omega)
      refine ⟨piece ++ (.ofChar '\\' :: v ++ w₁), w₂, piece ++ [u] ++ s₁, s₂, c', by simp, by simp,
        ?_, by simpa using hmoves.trans ((next_moves hafter).trans (hmoves₁.trans hmoves')), hrest'⟩
      rw [peek_of_rest hafter, hread]
      simp [bind, Except.bind, hword, CodePoint.backslash]
      rfl
    | @itself d w s hquote hslash hval h =>
      by_cases hsingle : d = .ofChar '\''
      · subst hsingle
        obtain ⟨w₁, w₂, s₁, s₂, c', rfl, rfl, hword, hmoves', hrest'⟩ :=
          ih h (fun d hd => hforeign.2 d (by simp [hd])) (next_rest hafter)
            (by simp only [List.length_cons] at hfuel; omega)
        refine ⟨piece ++ (.ofChar '\'' :: w₁), w₂, piece ++ .ofChar '\'' :: s₁, s₂, c', by simp,
          by simp, ?_, hmoves.trans ((next_moves hafter).trans hmoves'), hrest'⟩
        rw [peek_of_rest hafter]
        simp [bind, Except.bind, hword]
        rfl
      · have hblank : isBlank d = true :=
          isBlank_of_not_isQuotedPart hstop hval (hforeign.2 d List.mem_cons_self) hquote hslash
            hsingle
        refine ⟨piece, d :: w, piece, d :: s, after, rfl, rfl, ?_, hmoves,
          .itself hquote hslash hval h, fun e he => Option.some.inj he ▸ hblank⟩
        rw [peek_of_rest hafter]
        simp [hsingle, show d ≠ .backslash from hslash]
        rfl

theorem le_val_of_head (hstands : StandsFor w s) : ∀ d ∈ w.head?, 0x20 ≤ d.val := by
  cases hstands with
  | nil => nofun
  | escape => exact fun d hd => Option.some.inj hd ▸ by decide
  | itself _ _ hval => exact fun d hd => Option.some.inj hd ▸ hval

/-- Blanks between quotes stand for themselves. -/
theorem readQuotedSpaces_blanks (start : Mark) (hstands : StandsFor w s)
    (hforeign : ∀ d ∈ w, isForeignBreak d = false) (hrest : c.rest = w ++ .ofChar '"' :: rest) :
    ∃ s' after, s = w.takeWhile isBlank ++ s' ∧
      readQuotedSpaces start c = .ok (w.takeWhile isBlank, after) ∧
      c.Moves (w.takeWhile isBlank) after ∧ StandsFor (w.dropWhile isBlank) s' ∧
      after.rest = w.dropWhile isBlank ++ .ofChar '"' :: rest := by
  obtain ⟨s', rfl, hstands'⟩ := exists_standsFor_dropWhile (p := isBlank) hstands rfl
  obtain ⟨after, hspan, hmoves, hafter⟩ := span_of_rest (p := isBlank) hrest rfl
  have hpeek : after.peek ≠ .null ∧ isBreak after.peek = false := by
    cases hdrop : w.dropWhile isBlank with
    | nil =>
      rw [hdrop] at hafter
      rw [peek_of_rest hafter]
      decide
    | cons d w' =>
      rw [hdrop] at hafter hstands'
      have hd : d ∈ w := (List.dropWhile_sublist isBlank).subset (hdrop ▸ List.mem_cons_self)
      have hval := le_val_of_head hstands' d rfl
      rw [peek_of_rest hafter]
      refine ⟨?_, isBreak_of_not_foreign (hforeign d hd) hval⟩
      rintro rfl
      exact absurd hval (by decide)
  refine ⟨s', after, rfl, ?_, hmoves, hstands', hafter⟩
  unfold readQuotedSpaces
  rw [hspan]
  dsimp only
  rw [decide_eq_true hpeek.1, hpeek.2]
  rfl

/-- What stands for a text is read as the text, up to the closing quote. -/
theorem readQuotedWords_double (start : Mark) (hstands : StandsFor w s)
    (hforeign : ∀ d ∈ w, isForeignBreak d = false) (hrest : c.rest = w ++ .ofChar '"' :: rest)
    (hfuel : w.length < fuel.length) :
    ∃ c', readQuotedWords .double start fuel c = .ok (s, c') ∧ c.Moves (w ++ [.ofChar '"']) c' := by
  -- a word, and the blanks after it with what follows them, which is less
  induction fuel generalizing c w s with
  | nil => cases hfuel
  | cons _ fuel ih =>
    have hbound : w.length < c.bound.length := by
      simp only [bound, hrest, List.length_cons, List.length_append]
      omega
    obtain ⟨w₁, w₂, s₁, s₂, c₁, rfl, rfl, hword, hmoves₁, hstands₂, hhead⟩ :=
      readQuotedWord_double start hstands hforeign hrest hbound
    rw [List.forall_mem_append] at hforeign
    have hrest₁ : c₁.rest = w₂ ++ .ofChar '"' :: rest :=
      hmoves₁.rest_eq (hrest.trans (List.append_assoc ..))
    unfold readQuotedWords
    rw [hword]
    cases w₂ with
    | nil =>
      cases hstands₂
      refine ⟨c₁.next, ?_, by simpa using hmoves₁.trans (next_moves hrest₁)⟩
      simp [bind, Except.bind, peek_of_rest hrest₁, Quotes.codePoint]
      rfl
    | cons d w₂ =>
      have hblank : isBlank d = true := hhead d rfl
      have hquote : d ≠ .ofChar '"' := by
        rintro rfl
        cases hblank
      obtain ⟨s', after, rfl, hspaces, hmoves₂, hstands', hafter⟩ :=
        readQuotedSpaces_blanks start hstands₂ hforeign.2 hrest₁
      have hsub := List.dropWhile_sublist (l := d :: w₂) isBlank
      have hless : ((d :: w₂).dropWhile isBlank).length < fuel.length := by
        have hle := (List.dropWhile_sublist (l := w₂) isBlank).length_le
        simp only [List.length_append, List.length_cons] at hfuel
        rw [List.dropWhile_cons_of_pos hblank]
        omega
      obtain ⟨c', hwords, hmoves'⟩ :=
        ih hstands' (fun e he => hforeign.2 e (hsub.subset he)) hafter hless
      have hwhole := hmoves₁.trans (hmoves₂.trans hmoves')
      rw [← List.append_assoc _ _ [_], List.takeWhile_append_dropWhile,
        ← List.append_assoc] at hwhole
      refine ⟨c', ?_, hwhole⟩
      simp [bind, Except.bind, peek_of_rest hrest₁, Quotes.codePoint, hquote, hspaces, hwords]
      rfl

theorem readQuoted_double (hstands : StandsFor w s) (hforeign : ∀ d ∈ w, isForeignBreak d = false)
    (hrest : c.rest = .ofChar '"' :: (w ++ .ofChar '"' :: rest)) :
    ∃ c', readQuoted .double c = .ok (s, c') ∧
      c.Moves (.ofChar '"' :: (w ++ [.ofChar '"'])) c' := by
  have hbound : w.length < c.bound.length := by
    simp only [bound, hrest, List.length_cons, List.length_append]
    omega
  obtain ⟨c', hwords, hmoves⟩ :=
    readQuotedWords_double c.mark hstands hforeign (next_rest hrest) hbound
  exact ⟨c', hwords, (next_moves hrest).trans hmoves⟩

end Yaml

end CollectionInterfaces
