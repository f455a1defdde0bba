import CollectionInterfaces.Proofs.Text.Digits
import CollectionInterfaces.Proofs.Yaml.Lexeme
import CollectionInterfaces.Yaml.Lexeme.Quoted
import Mathlib.Logic.Relation

/-!
# Where scalars in quotes stop

What is refused in quotes is a fault of the text, except for escapes in double quotes with numbers
past the last code point. The reader fails at such an escape exactly if it comes to it, one piece of
the scalar after another (`readQuoted_eq_error_iff`).
-/

namespace CollectionInterfaces.Yaml

open Cursor

variable {t : Text} {c c' after : Cursor} {start : Mark} {fuel fuel' : Text} {quotes : Quotes}
  {e : Error}

/-! ## Spaces -/

theorem readEmptyLines_ends (h : c.rest <:+ t) : ReadsIn t (readEmptyLines start fuel c) := by
  induction fuel generalizing c with
  | nil => exact h
  | cons _ fuel ih =>
    have hblanks : (c.skipWhile isBlank).rest <:+ t := skipWhile_suffix.trans h
    refine Ends.bind .require fun _ _ => ?_
    dsimp only
    split
    · exact Ends.bind (ih (lineBreak_suffix.trans hblanks)) fun _ hx => hx
    · exact .pure hblanks

theorem readQuotedSpaces_ends (h : c.rest <:+ t) : ReadsIn t (readQuotedSpaces start c) := by
  have hblanks : (c.span isBlank).2.rest <:+ t := span_suffix.trans h
  refine Ends.bind .require fun _ _ => ?_
  dsimp only
  split
  · refine Ends.bind (readEmptyLines_ends (lineBreak_suffix.trans hblanks)) fun _ hx => ?_
    split
    · exact .pure hx
    split
    · exact .pure hx
    · exact .pure hx
  · exact .pure hblanks

/-! ## Escapes -/

/-- A text starts with the number of an escape that is past the last code point. -/
inductive IsPastEscape : Text → Error → Prop
  | code {digits rest : Text} : digits.length = 8 → (∀ d ∈ digits, d.isHexDigit = true) →
    0x110000 ≤ hexNumber digits → hexNumber digits < 0x80000000 →
    IsPastEscape (CodePoint.ofChar 'U' :: digits ++ rest) (.conversion .noCodePoint)
  /-- The number is past all bounds. -/
  | huge {digits rest : Text} : digits.length = 8 → (∀ d ∈ digits, d.isHexDigit = true) →
    0x80000000 ≤ hexNumber digits →
    IsPastEscape (CodePoint.ofChar 'U' :: digits ++ rest) (.conversion .hugeCodePoint)

theorem hexNumber_lt {digits : Text} : hexNumber digits < 16 ^ digits.length := by
  unfold hexNumber
  cases h : Text.readDigits 16 0 digits with
  | none => exact Nat.pow_pos (by decide)
  | some n => simpa using Text.readDigits_lt h

theorem eq_of_escapeWidth? {d : CodePoint} (h : escapeWidth? d = some width) :
    width = 2 ∨ width = 4 ∨ width = 8 ∧ d = .ofChar 'U' := by
  unfold escapeWidth? at h
  split at h
  · exact .inl (Option.some.inj h).symm
  split at h
  · exact .inr (.inl (Option.some.inj h).symm)
  split at h
  · rename_i hd
    exact .inr (.inr ⟨(Option.some.inj h).symm, hd⟩)
  · cases h

theorem codePointOf_eq_error_iff {n : Nat} :
    codePointOf n = .error e ↔ 0x110000 ≤ n ∧
      e = if n < 0x80000000 then .conversion .noCodePoint else .conversion .hugeCodePoint := by
  unfold codePointOf
  split
  · simp
    omega
  · rename_i hpast
    split <;> simp [Nat.le_of_not_lt hpast, eq_comm]

/-- The digits of an escape are the next code points of the text. -/
theorem rest_of_hexDigits (hpeek : c.peek = .ofChar 'U')
    (hdigits : ∀ d ∈ (List.range 8).map c.next.peekAt, d.isHexDigit = true) :
    ∃ rest, c.rest = .ofChar 'U' :: (List.range 8).map c.next.peekAt ++ rest := by
  have hlength : 7 < c.next.rest.length := by
    refine lt_length_of_peekAt fun hnull => ?_
    have hlast := hdigits (c.next.peekAt 7) (List.mem_map_of_mem (by decide))
    rw [hnull] at hlast
    cases hlast
  refine ⟨c.next.rest.drop 8, ?_⟩
  rw [map_peekAt hlength, List.cons_append, List.take_append_drop]
  exact rest_of_peek hpeek (by decide)

theorem readEscape_ends (h : c.rest <:+ t) :
    Ends (fun e => e.isFault = true ∨ IsPastEscape c.rest e) (readEscape start c)
      fun x => x.2.rest <:+ t := by
  unfold readEscape
  split
  · exact next_suffix.trans h
  split
  · rename_i width hwidth
    dsimp only
    split
    · exact .inl rfl
    · rename_i hnone
      have hdigits : ∀ d ∈ (List.range width).map c.next.peekAt, d.isHexDigit = true := by
        simpa using Option.eq_none_iff_forall_ne_some.mpr hnone
      cases hcode : codePointOf (hexNumber ((List.range width).map c.next.peekAt)) with
      | ok d => exact skip_suffix.trans (next_suffix.trans h)
      | error e =>
        obtain ⟨hpast, rfl⟩ := codePointOf_eq_error_iff.mp hcode
        have hlt := @hexNumber_lt ((List.range width).map c.next.peekAt)
        rw [List.length_map, List.length_range] at hlt
        obtain rfl | rfl | ⟨rfl, hpeek⟩ := eq_of_escapeWidth? hwidth
        · omega
        · omega
        obtain ⟨rest, hrest⟩ := rest_of_hexDigits hpeek hdigits
        refine .inr ?_
        rw [hrest]
        split
        · rename_i hbound
          exact .code (by simp) hdigits hpast hbound
        · rename_i hbound
          exact .huge (by simp) hdigits (Nat.le_of_not_lt hbound)
  split
  · have hbreak : c.lineBreak.2.rest <:+ t := lineBreak_suffix.trans h
    exact (readEmptyLines_ends hbreak).weaken fun _ => .inl
  · exact .inl rfl

theorem IsPastEscape.readEscape (h : IsPastEscape c.rest e) : readEscape start c = .error e := by
  have hread {digits rest : Text} (hrest : c.rest = .ofChar 'U' :: digits ++ rest)
      (hlength : digits.length = 8) (hdigits : ∀ d ∈ digits, d.isHexDigit = true)
      (hcode : codePointOf (hexNumber digits) = .error e) :
      Yaml.readEscape start c = .error e := by
    have hpeek : c.peek = .ofChar 'U' := by
      rw [peek, hrest]
      rfl
    have hnext : c.next.rest = digits ++ rest :=
      (List.cons.inj ((rest_of_peek hpeek (by decide)).symm.trans hrest)).2
    have hmap : (List.range 8).map c.next.peekAt = digits := by
      rw [map_peekAt (by simp [hnext, hlength]), hnext, ← hlength, List.take_left]
    have hnone : digits.find? (!·.isHexDigit) = none := by
      rw [List.find?_eq_none]
      intro d hd
      simp [hdigits d hd]
    rw [Yaml.readEscape, hpeek, show escapeTable.lookup (.ofChar 'U') = none from rfl]
    dsimp only
    rw [show escapeWidth? (.ofChar 'U') = some 8 from rfl]
    dsimp only
    rw [hmap, hnone, hcode]
    rfl
  generalize hrest : c.rest = rest at h
  cases h with
  | code hlength hdigits hpast hbound =>
    exact hread hrest hlength hdigits
      (codePointOf_eq_error_iff.mpr ⟨hpast, (if_pos hbound).symm⟩)
  | huge hlength hdigits hpast =>
    exact hread hrest hlength hdigits
      (codePointOf_eq_error_iff.mpr ⟨by omega, (if_neg (Nat.not_lt.mpr hpast)).symm⟩)

/-! ## Pieces -/

/-- In double quotes the reader goes on to another cursor: over a quote, an escape or spaces, with
what stands in front of them. -/
inductive Passes (start : Mark) (c : Cursor) : Cursor → Prop
  | quote : (c.skipWhile isQuotedPart).peek = .ofChar '\'' →
    Passes start c (c.skipWhile isQuotedPart).next
  | escape {text : Text} {after : Cursor} : (c.skipWhile isQuotedPart).peek = .backslash →
    readEscape start (c.skipWhile isQuotedPart).next = .ok (text, after) → Passes start c after
  | spaces {text : Text} {after : Cursor} :
    isBlankOrEnd (c.skipWhile isQuotedPart).peek = true →
    readQuotedSpaces start (c.skipWhile isQuotedPart) = .ok (text, after) → Passes start c after

/-- The reader comes to an escape that is past the last code point. -/
def ComesToEscape (start : Mark) (c : Cursor) (e : Error) : Prop :=
  ∃ c', Relation.ReflTransGen (Passes start) c c' ∧
    (c'.skipWhile isQuotedPart).peek = .backslash ∧
    IsPastEscape (c'.skipWhile isQuotedPart).next.rest e

theorem ComesToEscape.head (h : ComesToEscape start c' e) (hpasses : Passes start c c') :
    ComesToEscape start c e := by
  obtain ⟨c'', hsteps, hstops⟩ := h
  exact ⟨c'', .head hpasses hsteps, hstops⟩

theorem length_next_lt (h : c.peek ≠ .null) : c.next.rest.length < c.rest.length := by
  rw [rest_of_peek rfl h]
  exact Nat.lt_succ_self _

theorem length_skipWhile_le {p : CodePoint → Bool} :
    (c.skipWhile p).rest.length ≤ c.rest.length := skipWhile_suffix.length_le

/-- The part of a word that the reader goes on from leaves less of the text. -/
theorem length_part_lt (h : (c.skipWhile isQuotedPart).peek ≠ .null) :
    (c.skipWhile isQuotedPart).next.rest.length < c.rest.length :=
  Nat.lt_of_lt_of_le (length_next_lt h) length_skipWhile_le

theorem length_escape_lt {x : Text × Cursor} (h : (c.skipWhile isQuotedPart).peek = .backslash)
    (hescape : readEscape start (c.skipWhile isQuotedPart).next = .ok x) :
    x.2.rest.length < c.rest.length := by
  have hsuffix : x.2.rest <:+ (c.skipWhile isQuotedPart).next.rest :=
    (readEscape_ends (List.suffix_refl _)).result hescape
  exact Nat.lt_of_le_of_lt hsuffix.length_le (length_part_lt (by rw [h]; decide))

/-- With fuel for all code points it does not matter how much more there is. -/
theorem readQuotedWord_fuel (hfuel : c.rest.length < fuel.length)
    (hfuel' : c.rest.length < fuel'.length) :
    readQuotedWord quotes start fuel c = readQuotedWord quotes start fuel' c := by
  induction fuel generalizing c fuel' with
  | nil => simp at hfuel
  | cons _ fuel ih =>
    obtain _ | ⟨_, fuel'⟩ := fuel'
    · simp at hfuel'
    simp only [List.length_cons] at hfuel hfuel'
    have hagain {c' : Cursor} (hless : c'.rest.length < c.rest.length) :
        readQuotedWord quotes start fuel c' = readQuotedWord quotes start fuel' c' :=
      ih (by omega) (by omega)
    have hnext (h : (c.span isQuotedPart).2.peek ≠ .null) :
        readQuotedWord quotes start fuel (c.span isQuotedPart).2.next =
          readQuotedWord quotes start fuel' (c.span isQuotedPart).2.next :=
      hagain (length_part_lt (c := c) h)
    unfold readQuotedWord
    dsimp only
    split
    · rename_i hquote
      have hnull : (c.span isQuotedPart).2.peek ≠ .null := by
        rw [hquote.2.1]
        decide
      have hskip := Nat.lt_of_le_of_lt (next_suffix (c := (c.span isQuotedPart).2.next)).length_le
        (length_part_lt (c := c) hnull)
      rw [show (c.span isQuotedPart).2.skip 2 = (c.span isQuotedPart).2.next.next from rfl,
        hagain hskip]
    split
    · rename_i hquote
      rw [hnext (by rcases hquote with ⟨-, h⟩ | ⟨-, h | h⟩ <;> rw [h] <;> decide)]
    split
    · rename_i hescape
      cases hread : readEscape start (c.span isQuotedPart).2.next with
      | error e => rfl
      | ok x =>
        have hless := hagain (length_escape_lt hescape.2 hread)
        simp only [bind, Except.bind, hless]
    · rfl

theorem peek_skipWhile {p : CodePoint → Bool} (hnull : p .null = false) :
    p (c.skipWhile p).peek = false := by
  have hrest {m : Mark} {t : Text} : p ((spanFrom p m t).2.rest.head?.getD .null) = false := by
    induction t generalizing m with
    | nil => exact hnull
    | cons d t ih =>
      unfold spanFrom
      split
      · exact ih
      · rename_i hd
        simpa using hd
  exact hrest

/-- In double quotes a word ends at a cursor that the reader comes to, in front of the closing quote
or of spaces. -/
theorem readQuotedWord_ends (h : c.rest <:+ t) (hfuel : c.rest.length < fuel.length) :
    Ends (fun e => e.isFault = true ∨ quotes = .double ∧ ComesToEscape start c e)
      (readQuotedWord quotes start fuel c) fun x => x.2.rest <:+ t ∧ (quotes = .double →
        ∃ c', Relation.ReflTransGen (Passes start) c c' ∧ x.2 = c'.skipWhile isQuotedPart ∧
          (x.2.peek = .ofChar '"' ∨ isBlankOrEnd x.2.peek = true)) := by
  induction fuel generalizing c with
  | nil => simp at hfuel
  | cons _ fuel ih =>
    have hafter : (c.span isQuotedPart).2.rest <:+ t := span_suffix.trans h
    have hless (hnull : (c.span isQuotedPart).2.peek ≠ .null) :
        (c.span isQuotedPart).2.next.rest.length < fuel.length :=
      Nat.lt_of_lt_of_le (length_part_lt (c := c) hnull) (Nat.le_of_lt_succ hfuel)
    -- what the word goes on with is passed on, together with the step that leads to it
    have hagain (whole : Text → Text) {c' : Cursor} (h' : c'.rest <:+ t)
        (hfuel' : c'.rest.length < fuel.length) (hpasses : quotes = .double → Passes start c c') :
        Ends (fun e => e.isFault = true ∨ quotes = .double ∧ ComesToEscape start c e)
          (do
            let x ← readQuotedWord quotes start fuel c'
            return (whole x.1, x.2)) fun x => x.2.rest <:+ t ∧ (quotes = .double →
              ∃ c', Relation.ReflTransGen (Passes start) c c' ∧ x.2 = c'.skipWhile isQuotedPart ∧
                (x.2.peek = .ofChar '"' ∨ isBlankOrEnd x.2.peek = true)) := by
      refine Ends.bind ((ih h' hfuel').weaken fun e he => ?_) fun x hx => .pure ⟨hx.1, fun hq => ?_⟩
      · exact he.imp_right fun ⟨hq, hcomes⟩ => ⟨hq, hcomes.head (hpasses hq)⟩
      · obtain ⟨c'', hsteps, hword⟩ := hx.2 hq
        exact ⟨c'', .head (hpasses hq) hsteps, hword⟩
    unfold readQuotedWord
    dsimp only
    split
    · rename_i hquote
      have hnull : (c.span isQuotedPart).2.peek ≠ .null := by
        rw [hquote.2.1]
        decide
      have hskip : ((c.span isQuotedPart).2.skip 2).rest <:+ (c.span isQuotedPart).2.next.rest :=
        next_suffix
      refine hagain (_ ++ _ :: ·) (hskip.trans (next_suffix.trans hafter))
        (Nat.lt_of_le_of_lt hskip.length_le (hless hnull)) fun hq => ?_
      rw [hquote.1] at hq
      cases hq
    split
    · rename_i hquote
      have hnull : (c.span isQuotedPart).2.peek ≠ .null := by
        rcases hquote with ⟨-, h⟩ | ⟨-, h | h⟩ <;> rw [h] <;> decide
      refine hagain (_ ++ _ :: ·) (next_suffix.trans hafter) (hless hnull) fun hq => .quote ?_
      rcases hquote with ⟨-, h⟩ | ⟨hsingle, -⟩
      · exact h
      · rw [hsingle] at hq
        cases hq
    split
    · rename_i hescape
      refine Ends.bind (Ends.self fun e hfail => ?_) fun x hx => ?_
      · have hends := (readEscape_ends (List.suffix_refl _)).error hfail
        exact hends.imp_right fun hpast => ⟨hescape.1, c, .refl, hescape.2, hpast⟩
      · have hless := length_escape_lt (c := c) hescape.2 hx
        exact hagain (_ ++ ·) ((readEscape_ends (next_suffix.trans hafter)).result hx)
          (Nat.lt_of_lt_of_le hless (Nat.le_of_lt_succ hfuel)) fun _ => .escape hescape.2 hx
    · rename_i hsingle hquote hescape
      refine .pure ⟨hafter, fun hq => ⟨c, .refl, rfl, ?_⟩⟩
      subst hq
      have hpart : isQuotedPart (c.span isQuotedPart).2.peek = false := peek_skipWhile rfl
      cases hblank : isBlankOrEnd (c.span isQuotedPart).2.peek with
      | true => exact .inr rfl
      | false => exact .inl (by simp_all [isQuotedPart])

/-! ## Scalars -/

theorem length_lineBreak_lt (h : isBreak c.peek = true) :
    c.lineBreak.2.rest.length < c.rest.length := by
  have hnext : c.next.rest.length < c.rest.length := length_next_lt fun hnull => by
    rw [hnull] at h
    cases h
  unfold lineBreak
  split
  · exact Nat.lt_of_le_of_lt (next_suffix (c := c.next)).length_le hnext
  split
  · exact hnext
  · exact hnext

/-- Spaces inside quotes take some of the text. -/
theorem length_spaces_lt {text : Text} (h : isBlankOrEnd c.peek = true)
    (hspaces : readQuotedSpaces start c = .ok (text, after)) :
    after.rest.length < c.rest.length := by
  have hle : (c.span isBlank).2.rest.length ≤ c.rest.length := span_suffix.length_le
  simp only [readQuotedSpaces] at hspaces
  obtain ⟨_, hnull, hspaces⟩ := bind_eq_ok_iff.mp hspaces
  rw [require_eq_ok_iff, decide_eq_true_eq] at hnull
  split at hspaces
  · rename_i hbreak
    obtain ⟨⟨more, rest⟩, hlines, hspaces⟩ := bind_eq_ok_iff.mp hspaces
    have hrest : rest.rest <:+ (c.span isBlank).2.lineBreak.2.rest :=
      (readEmptyLines_ends (List.suffix_refl _)).result hlines
    have hafter : after = rest := by
      split at hspaces
      · exact (congrArg Prod.snd (Except.ok.inj hspaces)).symm
      split at hspaces
      · exact (congrArg Prod.snd (Except.ok.inj hspaces)).symm
      · exact (congrArg Prod.snd (Except.ok.inj hspaces)).symm
    have hless := Nat.lt_of_le_of_lt hrest.length_le (length_lineBreak_lt hbreak)
    rw [hafter]
    omega
  · rename_i hbreak
    rw [← show (c.span isBlank).2 = after from congrArg Prod.snd (Except.ok.inj hspaces)]
    refine Nat.lt_of_le_of_ne hle fun hlength => ?_
    -- without a blank at the cursor nothing is taken, and a line end or the end stands there
    have hpeek : (c.span isBlank).2.peek = c.peek := by
      rw [peek, span_suffix.eq_of_length hlength, ← peek]
    have hblank : isBlank (c.span isBlank).2.peek = false := peek_skipWhile rfl
    simp_all [isBlankOrEnd, isLineEnd]

/-- A scalar in quotes is refused for a fault, or in double quotes at an escape that is past the
last code point. -/
theorem readQuotedWords_ends (h : c.rest <:+ t) :
    Ends (fun e => e.isFault = true ∨ quotes = .double ∧ ComesToEscape start c e)
      (readQuotedWords quotes start fuel c) fun x => x.2.rest <:+ t := by
  induction fuel generalizing c with
  | nil => exact h
  | cons _ fuel ih =>
    refine Ends.bind (readQuotedWord_ends h (Nat.lt_succ_self _)) fun x hx => ?_
    dsimp only
    split
    · exact .pure (next_suffix.trans hx.1)
    rename_i hclose
    refine Ends.bind (Ends.self fun e hspaces => ?_) fun y hspaces => ?_
    · exact .inl ((readQuotedSpaces_ends (List.suffix_refl _)).error hspaces)
    refine Ends.bind ((ih ((readQuotedSpaces_ends hx.1).result hspaces)).weaken fun e he => ?_)
      fun _ hz => .pure hz
    refine he.imp_right fun ⟨hq, hcomes⟩ => ⟨hq, ?_⟩
    obtain ⟨c', hsteps, hword, hends⟩ := hx.2 hq
    subst hq
    have hblank := hends.resolve_left hclose
    rw [hword] at hblank hspaces
    obtain ⟨c'', hsteps', hstops⟩ := hcomes.head (.spaces hblank hspaces)
    exact ⟨c'', hsteps.trans hsteps', hstops⟩

theorem readQuotedWords_eq_error_iff {d : CodePoint} :
    readQuotedWords quotes start (d :: fuel) c = .error e ↔
      readQuotedWord quotes start c.bound c = .error e ∨
        ∃ after, (∃ word, readQuotedWord quotes start c.bound c = .ok (word, after)) ∧
          after.peek ≠ quotes.codePoint ∧ (readQuotedSpaces start after = .error e ∨
            ∃ spaces next, readQuotedSpaces start after = .ok (spaces, next) ∧
              readQuotedWords quotes start fuel next = .error e) := by
  have hrest {before : Text} {next : Cursor} :
      (do
        let x ← readQuotedWords quotes start fuel next
        return (before ++ x.1, x.2)) = .error e ↔
      readQuotedWords quotes start fuel next = .error e :=
    ⟨fun h => (bind_eq_error_iff.mp h).resolve_right nofun, fun h => bind_eq_error_iff.mpr (.inl h)⟩
  rw [readQuotedWords, bind_eq_error_iff]
  constructor
  · rintro (hword | ⟨⟨word, after⟩, hword, h⟩)
    · exact .inl hword
    · dsimp only at h
      split at h
      · cases h
      · rename_i hclose
        refine .inr ⟨after, ⟨word, hword⟩, hclose, ?_⟩
        rcases bind_eq_error_iff.mp h with hspaces | ⟨⟨spaces, next⟩, hspaces, h⟩
        · exact .inl hspaces
        · exact .inr ⟨spaces, next, hspaces, hrest.mp h⟩
  · rintro (hword | ⟨after, ⟨word, hword⟩, hclose, h⟩)
    · exact .inl hword
    · refine .inr ⟨(word, after), hword, ?_⟩
      dsimp only
      rw [if_neg hclose]
      rcases h with hspaces | ⟨spaces, next, hspaces, h⟩
      · exact bind_eq_error_iff.mpr (.inl hspaces)
      · exact bind_eq_error_iff.mpr (.inr ⟨(spaces, next), hspaces, hrest.mpr h⟩)

/-- A step over a quote or an escape stays in the word, of which only the text changes. -/
theorem readQuotedWord_eq_map (whole : Text → Text) {d : CodePoint}
    (hless : c'.rest.length < c.rest.length)
    (h : ∀ fuel, readQuotedWord .double start (d :: fuel) c = do
      let x ← readQuotedWord .double start fuel c'
      return (whole x.1, x.2)) :
    readQuotedWord .double start c.bound c =
      (readQuotedWord .double start c'.bound c').map fun x => (whole x.1, x.2) := by
  have hlonger : c.rest.length < (d :: c.rest).length := Nat.lt_succ_self _
  have hbound : c'.rest.length < c'.bound.length := Nat.lt_succ_self _
  rw [readQuotedWord_fuel (Nat.lt_succ_self _) hlonger, h, readQuotedWord_fuel hless hbound]
  cases readQuotedWord .double start c'.bound c' <;> rfl

theorem not_isKept_of_backslash (h : (c.span isQuotedPart).2.peek = .backslash) :
    ¬(Quotes.double = .double ∧ (c.span isQuotedPart).2.peek = .ofChar '\'' ∨
      Quotes.double = .single ∧ ((c.span isQuotedPart).2.peek = .ofChar '"' ∨
        (c.span isQuotedPart).2.peek = .backslash)) := by
  rw [h]
  decide

theorem readQuotedWords_of_passes (hpasses : Passes start c c')
    (h : ∀ fuel : Text, c'.rest.length < fuel.length →
      readQuotedWords .double start fuel c' = .error e) (hfuel : c.rest.length < fuel.length) :
    readQuotedWords .double start fuel c = .error e := by
  obtain _ | ⟨d, fuel⟩ := fuel
  · simp at hfuel
  have hinside (whole : Text → Text) (hless : c'.rest.length < c.rest.length)
      (hstep : ∀ fuel, readQuotedWord .double start (d :: fuel) c = do
        let x ← readQuotedWord .double start fuel c'
        return (whole x.1, x.2)) :
      readQuotedWords .double start (d :: fuel) c = .error e := by
    have hword := readQuotedWord_eq_map whole hless hstep
    have hlater := readQuotedWords_eq_error_iff.mp (h (d :: fuel) (by omega))
    refine readQuotedWords_eq_error_iff.mpr (hlater.imp (fun h => ?_) ?_)
    · rw [hword, h]
      rfl
    · rintro ⟨after, ⟨word, h⟩, hafter⟩
      refine ⟨after, ⟨whole word, ?_⟩, hafter⟩
      rw [hword, h]
      rfl
  cases hpasses with
  | quote hpeek =>
    refine hinside ((c.span isQuotedPart).1 ++ (c.span isQuotedPart).2.peek :: ·)
      (length_part_lt (by rw [hpeek]; decide)) fun fuel => ?_
    rw [readQuotedWord]
    dsimp only
    rw [if_neg (by simp), if_pos (.inl ⟨rfl, hpeek⟩)]
    rfl
  | @escape text after hpeek hescape =>
    refine hinside ((c.span isQuotedPart).1 ++ text ++ ·) (length_escape_lt hpeek hescape)
      fun fuel => ?_
    rw [readQuotedWord]
    dsimp only
    rw [if_neg (by simp), if_neg (not_isKept_of_backslash hpeek), if_pos ⟨rfl, hpeek⟩,
      show readEscape start (c.span isQuotedPart).2.next = _ from hescape]
    rfl
  | spaces hblank hspaces =>
    have hne {d : CodePoint} (hd : isBlankOrEnd d = false) : (c.span isQuotedPart).2.peek ≠ d := by
      rintro rfl
      cases hblank.symm.trans hd
    have hquote := hne (d := .ofChar '\'') (by decide)
    have hescape := hne (d := .backslash) (by decide)
    have hword : readQuotedWord .double start c.bound c =
        .ok ((c.span isQuotedPart).1, c.skipWhile isQuotedPart) := by
      rw [bound, readQuotedWord]
      dsimp only
      rw [if_neg (by simp), if_neg (by simp [hquote]), if_neg (by simp [hescape])]
      rfl
    have hless := Nat.lt_of_lt_of_le (length_spaces_lt hblank hspaces) length_skipWhile_le
    refine readQuotedWords_eq_error_iff.mpr (.inr ⟨_, ⟨_, hword⟩, ?_, .inr ⟨_, _, hspaces, h _ ?_⟩⟩)
    · exact hne (by decide)
    · simp only [List.length_cons] at hfuel
      omega

/-- The failure at an escape is passed on by all that the reader comes from. -/
theorem ComesToEscape.readQuotedWords (h : ComesToEscape start c e)
    (hfuel : c.rest.length < fuel.length) :
    Yaml.readQuotedWords .double start fuel c = .error e := by
  obtain ⟨c', hsteps, hpeek, hpast⟩ := h
  induction hsteps using Relation.ReflTransGen.head_induction_on generalizing fuel with
  | refl =>
    obtain _ | ⟨d, fuel⟩ := fuel
    · simp at hfuel
    refine readQuotedWords_eq_error_iff.mpr (.inl ?_)
    rw [bound, readQuotedWord]
    dsimp only
    rw [if_neg (by simp), if_neg (not_isKept_of_backslash hpeek), if_pos ⟨rfl, hpeek⟩,
      show readEscape start (c'.span isQuotedPart).2.next = _ from hpast.readEscape]
    rfl
  | head hpasses _ ih => exact readQuotedWords_of_passes hpasses (fun _ h => ih h) hfuel

/-- **When a scalar in quotes cannot be converted.** -/
theorem readQuoted_eq_error_iff (he : e.isFault = false) :
    readQuoted quotes c = .error e ↔ quotes = .double ∧ ComesToEscape c.mark c.next e := by
  constructor
  · intro h
    have hends := (readQuotedWords_ends (List.suffix_refl _)).error h
    rw [he] at hends
    exact hends.resolve_left Bool.false_ne_true
  · rintro ⟨rfl, hcomes⟩
    exact hcomes.readQuotedWords (Nat.lt_succ_of_le next_suffix.length_le)

theorem readQuoted_ends (h : c.rest <:+ t) :
    Ends (fun _ => True) (readQuoted quotes c) fun x => x.2.rest <:+ t :=
  (readQuotedWords_ends (next_suffix.trans h)).forget

end CollectionInterfaces.Yaml
