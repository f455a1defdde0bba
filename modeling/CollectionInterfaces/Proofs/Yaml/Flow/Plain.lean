import CollectionInterfaces.Proofs.Yaml.Flow.Moves

/-!
# Plain scalars in brackets

A plain scalar may go on after blanks. Before a comma and before a closing bracket it does not, so
that a word in front of them is read as it stands, and all blanks behind it are skipped
(`readPlain_word`).
-/

namespace CollectionInterfaces.Yaml

open Json (skipBlanks skipBlanks_of_not_isBlank)
open Cursor

variable {c : Cursor} {d : CodePoint} {m : Mark} {t w rest fuel : Text} {indent : Int}

/-- An item of a collection ends in front of a text: there is a comma or a closing bracket after
blanks, if there is anything. -/
def EndsItem (t : Text) : Prop :=
  ∀ d ∈ (skipBlanks t).head?, d = .ofChar ',' ∨ d = .ofChar ']' ∨ d = .ofChar '}'

/-- A code point of a literal or a number. -/
def isAtomPart (c : CodePoint) : Bool :=
  c.isLower || c.isUpper || c.isDigit || c = .ofChar '-' || c = .ofChar '+' || c = .ofChar '.'

theorem EndsItem.skip (h : EndsItem t) (ht : skipBlanks t = skipBlanks rest) : EndsItem rest := by
  rwa [EndsItem, ← ht]

/-- In front of the end of an item are only blanks. -/
theorem EndsItem.head (h : EndsItem t) : ∀ d ∈ t.head?,
    Json.isBlank d = true ∨ (d = .ofChar ',' ∨ d = .ofChar ']' ∨ d = .ofChar '}') := by
  intro d hd
  cases t with
  | nil => cases hd
  | cons e t =>
    obtain rfl := Option.some.inj hd
    cases hblank : Json.isBlank e with
    | true => exact .inl rfl
    | false =>
      rw [EndsItem, skipBlanks_of_not_isBlank hblank] at h
      exact .inr (h e rfl)

theorem atTriple_of_head (h : ∀ e ∈ c.rest.head?, e ≠ d) : c.atTriple d = false := by
  have hne : c.rest.take 3 ≠ [d, d, d] := by
    intro heq
    cases hrest : c.rest with
    | nil =>
      rw [hrest] at heq
      cases heq
    | cons e t =>
      rw [hrest] at h heq
      exact h e rfl (List.cons.inj heq).1
  simp [atTriple, hne]

theorem EndsItem.atDocumentMark (h : EndsItem c.rest) : c.atDocumentMark = false := by
  have hhead : ∀ d ∈ c.rest.head?, d ≠ .ofChar '-' ∧ d ≠ .ofChar '.' := by
    intro d hd
    rcases h.head d hd with hblank | rfl | rfl | rfl
    · constructor
      all_goals
        rintro rfl
        cases hblank
    all_goals decide
  rw [Cursor.atDocumentMark, atTriple_of_head fun e he => (hhead e he).1,
    atTriple_of_head fun e he => (hhead e he).2]
  rfl

theorem EndsItem.cases (h : EndsItem (d :: t)) (htab : d ≠ .ofChar '\t') :
    d = .ofChar ' ' ∨ (d = .lineFeed ∨ d = .carriageReturn) ∨
      (d = .ofChar ',' ∨ d = .ofChar ']' ∨ d = .ofChar '}') := by
  rcases h.head d rfl with hblank | hend
  · simp only [Json.isBlank, Bool.or_eq_true, decide_eq_true_eq] at hblank
    grind
  · exact .inr (.inr hend)

theorem EndsItem.tail (h : EndsItem (d :: t)) (hd : Json.isBlank d = true) : EndsItem t := by
  rwa [EndsItem, skipBlanks_cons hd] at h

theorem EndsItem.lineBreak (h : EndsItem c.rest) (htab : .ofChar '\t' ∉ c.rest)
    (hrest : c.rest = d :: t) (hd : d = .lineFeed ∨ d = .carriageReturn) :
    ∃ c', c.lineBreak = ([.lineFeed], c') ∧ EndsItem c'.rest ∧ .ofChar '\t' ∉ c'.rest ∧
      skipBlanks c'.rest = skipBlanks c.rest ∧ c'.rest.length < c.rest.length := by
  obtain ⟨w, hmoves, hfeed, hne, hblanks⟩ := lineBreak_moves hrest hd
  have hskip : skipBlanks c.rest = skipBlanks c.lineBreak.2.rest := by
    rw [hmoves.rest, skipBlanks_append hblanks]
  have hpos := List.length_pos_iff.mpr hne
  refine ⟨c.lineBreak.2, Prod.ext hfeed rfl, h.skip hskip, fun hmem => htab (hmoves.mem hmem),
    hskip.symm, ?_⟩
  rw [hmoves.rest, List.length_append]
  omega

theorem readPlainLines_eq (hends : EndsItem c.rest) (htab : .ofChar '\t' ∉ c.rest)
    (hfuel : c.rest.length < fuel.length) :
    ∃ m c', readPlainLines fuel c = (some m, c') ∧ c'.rest = skipBlanks c.rest := by
  induction fuel generalizing c with
  | nil => cases hfuel
  | cons _ fuel ih =>
    rw [List.length_cons] at hfuel
    unfold readPlainLines
    cases hrest : c.rest with
    | nil =>
      have hpeek : c.peek = .null := by
        rw [peek, hrest]
        rfl
      rw [hpeek]
      exact ⟨[], c, rfl, hrest⟩
    | cons d t =>
      have hd := hrest ▸ hends
      have hmem : d ≠ .ofChar '\t' ∧ .ofChar '\t' ∉ t := by
        rw [hrest, List.mem_cons, not_or] at htab
        exact ⟨Ne.symm htab.1, htab.2⟩
      rw [peek_of_rest hrest]
      -- a space, the end of a line, or what the item ends with
      rcases hd.cases hmem.1 with rfl | hbreak | hclose
      · have hnext := next_rest hrest
        rw [hrest, List.length_cons] at hfuel
        obtain ⟨m, c', hread, hrest'⟩ := @ih c.next (hnext ▸ hd.tail rfl) (hnext ▸ hmem.2)
          (by rw [hnext]; omega)
        exact ⟨m, c', hread, by rw [hrest', hnext, skipBlanks_cons rfl]⟩
      · obtain ⟨next, hline, hends', htab', hskip, hlength⟩ := hends.lineBreak htab hrest hbreak
        have hnot : isSpace d = false ∧ isBreak d = true := by
          rcases hbreak with rfl | rfl <;> decide
        obtain ⟨m, c', hread, hrest'⟩ := ih hends' htab' (by omega)
        refine ⟨[.lineFeed] ++ m, c', ?_, by rw [hrest', hskip, hrest]⟩
        rw [if_neg (by simp [hnot.1]), if_pos hnot.2, hline]
        dsimp only
        rw [hends'.atDocumentMark, hread]
        rfl
      · have hstop : Json.isBlank d = false ∧ isSpace d = false ∧ isBreak d = false := by
          rcases hclose with rfl | rfl | rfl <;> decide
        rw [if_neg (by simp [hstop]), if_neg (by simp [hstop]), skipBlanks_of_not_isBlank hstop.1]
        exact ⟨[], c, rfl, hrest⟩

/-- All blanks behind a plain scalar are skipped. -/
theorem readPlainSpaces_eq (hends : EndsItem c.rest) (htab : .ofChar '\t' ∉ c.rest) :
    ∃ spaces lineEnded c', readPlainSpaces c = (spaces, lineEnded, c') ∧
      c'.rest = skipBlanks c.rest := by
  obtain ⟨spaces, after, hspan, hmoves, hskip, hhead⟩ := span_isSpace c
  have hends' := hends.skip hskip
  have htab' : .ofChar '\t' ∉ after.rest := fun hmem => htab (hmoves.mem hmem)
  unfold readPlainSpaces
  rw [hspan]
  dsimp only
  cases hrest : after.rest with
  | nil =>
    have hpeek : isBreak after.peek = false := by
      rw [peek, hrest]
      decide
    rw [if_neg (by simp [hpeek])]
    exact ⟨_, _, _, rfl, by rw [hskip, hrest]; rfl⟩
  | cons d t =>
    have hspace : isSpace d = false := hhead d (by rw [hrest]; rfl)
    have hd := hrest ▸ hends'
    have hmem : d ≠ .ofChar '\t' := by
      rintro rfl
      exact htab' (by rw [hrest]; exact List.mem_cons_self)
    rw [peek_of_rest hrest]
    rcases hd.cases hmem with rfl | hbreak | hclose
    · cases hspace
    · obtain ⟨next, hline, hends', htab', hskip', -⟩ := hends'.lineBreak htab' hrest hbreak
      have hfuel : next.rest.length < next.bound.length := Nat.lt_succ_self _
      obtain ⟨m, c', hread, hrest'⟩ := readPlainLines_eq hends' htab' hfuel
      have hnot : isBreak d = true := by
        rcases hbreak with rfl | rfl <;> decide
      have hend : c'.rest = skipBlanks c.rest := by rw [hrest', hskip', hskip]
      rw [if_pos hnot, hline]
      dsimp only
      rw [hends'.atDocumentMark, hread]
      simp only [Bool.false_eq_true, if_false, ne_eq, not_true_eq_false]
      split
      · exact ⟨_, _, _, rfl, hend⟩
      · exact ⟨_, _, _, rfl, hend⟩
    · have hstop : Json.isBlank d = false ∧ isBreak d = false := by
        rcases hclose with rfl | rfl | rfl <;> decide
      rw [if_neg (by simp [hstop])]
      exact ⟨_, _, _, rfl, by rw [hskip, hrest, skipBlanks_of_not_isBlank hstop.1]⟩

/-! ## Literals and numbers -/

/-- A decidable property of ASCII is one of all code points of ASCII. -/
theorem of_ascii {P : CodePoint → Prop} (h : ∀ n < 0x80, P (.ofNat n)) (hd : d.val < 0x80) :
    P d := by
  have hof : CodePoint.ofNat d.val = d := by rw [CodePoint.ofNat, dif_pos d.isLt]
  exact hof ▸ h d.val hd

theorem val_lt_of_isAtomPart (h : isAtomPart d = true) : d.val < 0x80 := by
  simp only [isAtomPart, CodePoint.isLower, CodePoint.isUpper,
    CodePoint.isDigit, Bool.or_eq_true, Bool.and_eq_true, decide_eq_true_eq] at h
  rcases h with ((((h | h) | h) | rfl) | rfl) | rfl
  iterate 3 omega
  all_goals decide

theorem endsPlain_of_isAtomPart (h : isAtomPart d = true) (next : CodePoint) :
    endsPlain true d next = false := by
  have hd : isBlankOrEnd d = false ∧ d ≠ .ofChar ':' ∧ isFlowIndicator d = false ∧
      d ≠ .ofChar '?' := by
    refine of_ascii (P := fun d => isAtomPart d = true → isBlankOrEnd d = false ∧
      d ≠ .ofChar ':' ∧ isFlowIndicator d = false ∧ d ≠ .ofChar '?') ?_ (val_lt_of_isAtomPart h) h
    decide
  simp [endsPlain, hd]

theorem EndsItem.endsPlain (h : EndsItem (d :: t)) (next : CodePoint) :
    endsPlain true d next = true := by
  rcases h.head d rfl with hblank | rfl | rfl | rfl
  · have hend : isBlankOrEnd d = true := by
      simp only [Json.isBlank, Bool.or_eq_true, decide_eq_true_eq] at hblank
      rcases hblank with ((rfl | rfl) | rfl) | rfl
      all_goals decide
    simp [Yaml.endsPlain, hend]
  all_goals rfl

theorem plainSpan_append (hw : ∀ d ∈ w, isAtomPart d = true) (hends : EndsItem t) :
    ∃ after, plainSpan true m (w ++ t) = (w, after) ∧ after.rest = t := by
  induction w generalizing m with
  | nil =>
    cases t with
    | nil => exact ⟨_, rfl, rfl⟩
    | cons d t =>
      refine ⟨⟨d :: t, m⟩, ?_, rfl⟩
      rw [List.nil_append, plainSpan, if_pos (hends.endsPlain _)]
  | cons d w ih =>
    rw [List.forall_mem_cons] at hw
    obtain ⟨after, hspan, hafter⟩ := @ih (m.after d (w ++ t).head?) hw.2
    refine ⟨after, ?_, hafter⟩
    rw [List.cons_append, plainSpan, if_neg (by simp [endsPlain_of_isAtomPart hw.1]), hspan]

/-- No plain scalar starts where an item ends. -/
theorem readPlainPieces_eq_none (h : EndsItem c.rest) :
    readPlainPieces true indent fuel c = none := by
  cases fuel with
  | nil => rfl
  | cons _ fuel =>
    unfold readPlainPieces
    split
    · rfl
    · cases hrest : c.rest with
      | nil => rfl
      | cons d t =>
        rw [plainSpan, if_pos ((hrest ▸ h).endsPlain _)]
        rfl

theorem EndsItem.skipBlanks (h : EndsItem t) : EndsItem (skipBlanks t) :=
  h.skip (skipBlanks_skipBlanks t).symm

/-- A plain scalar in an item is read up to the end of the item. -/
theorem readPlain_word (hw : ∀ d ∈ w, isAtomPart d = true) (hne : w ≠ []) (hrest : c.rest = w ++ t)
    (hends : EndsItem t) (htab : .ofChar '\t' ∉ t) :
    ∃ stop lineEnded c', readPlain true indent c = (⟨w, stop, lineEnded⟩, c') ∧
      c'.rest = Json.skipBlanks t := by
  obtain ⟨after, hspan, hafter⟩ := plainSpan_append (m := c.mark) hw hends
  obtain ⟨spaces, lineEnded, c', hread, hrest'⟩ :=
    readPlainSpaces_eq (c := after) (hafter ▸ hends) (hafter ▸ htab)
  rw [hafter] at hrest'
  refine ⟨after.mark, lineEnded, c', ?_, hrest'⟩
  have hpeek : c.peek ≠ .ofChar '#' := by
    obtain ⟨d, w, rfl⟩ := List.exists_cons_of_ne_nil hne
    rw [peek_of_rest hrest]
    rintro rfl
    exact absurd (hw _ List.mem_cons_self) (by decide)
  have hnone := @readPlainPieces_eq_none c' c.rest indent (hrest' ▸ hends.skipBlanks)
  rw [← hrest] at hspan
  rw [readPlain, bound, readPlainPieces, if_neg hpeek, hspan]
  dsimp only
  rw [if_neg (by simpa using hne), hread]
  dsimp only
  rw [hnone]
  split <;> rfl

end CollectionInterfaces.Yaml
