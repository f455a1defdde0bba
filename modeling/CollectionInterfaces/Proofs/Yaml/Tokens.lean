import CollectionInterfaces.Proofs.Yaml.Quotes
import CollectionInterfaces.Yaml.Token.Lexer

/-!
# Where the lexer stops

The lexer goes on from lexeme to lexeme and never goes back in its text. It fails without a fault of
the text exactly if it comes to an escape or to a version that cannot be converted
(`TokenStream.ofText_eq_iff`).
-/

namespace CollectionInterfaces.Yaml

open Cursor

/-- A step of a lexer in a text leaves a suffix of it or finds a fault. -/
def LexesIn (t : Text) (r : Except Error Lexer) : Prop :=
  Ends (fun e => e.isFault = true) r fun s => s.cursor.rest <:+ t

namespace Lexer

variable {s s' : Lexer} {t : Text} {kind : TokenKind} {column indent : Int} {outer : List Int}
  {e : Error} {fuel : Nat}

/-! ## What stays at the cursor -/

theorem unwindFrom_cursor : (unwindFrom column indent outer s).cursor = s.cursor := by
  induction outer generalizing indent s with
  | nil => rfl
  | cons next outer ih =>
    unfold unwindFrom
    split
    · exact ih
    · rfl

theorem unwind_cursor : (s.unwind column).cursor = s.cursor := by
  unfold unwind
  split
  · rfl
  · exact unwindFrom_cursor

theorem openBlock_cursor : (s.openBlock column).1.cursor = s.cursor := by
  unfold openBlock
  split
  · rfl
  · rfl

theorem startBlockHere_cursor : (s.startBlockHere kind).cursor = s.cursor := by
  unfold startBlockHere
  split
  · rfl
  split
  all_goals
    rename_i heq
    exact (congrArg (·.1.cursor) heq).symm.trans openBlock_cursor

theorem confirmKey_cursor : (s.confirmKey k).cursor = s.cursor := by
  unfold confirmKey
  dsimp only
  split
  · rfl
  split
  all_goals
    rename_i heq
    exact (congrArg (·.1.cursor) heq).symm.trans openBlock_cursor

theorem dropStale_ends :
    Ends (fun e => e.isFault = true) s.dropStale fun u => u.cursor = s.cursor := by
  unfold dropStale
  split
  · rfl
  · rfl

theorem dropCandidate_ends :
    Ends (fun e => e.isFault = true) s.dropCandidate fun u => u.cursor = s.cursor := by
  unfold dropCandidate
  split
  · split
    · rfl
    · rfl
  · rfl

theorem saveCandidate_ends :
    Ends (fun e => e.isFault = true) s.saveCandidate fun u => u.cursor = s.cursor := by
  unfold saveCandidate
  split
  · exact Ends.bind dropCandidate_ends fun _ hu => hu
  · rfl

theorem skipToLexemeUpTo_suffix {fuel : Text} :
    (skipToLexemeUpTo fuel s).cursor.rest <:+ s.cursor.rest := by
  induction fuel generalizing s with
  | nil => exact List.suffix_refl _
  | cons _ fuel ih =>
    have hafter : (s.cursor.skipWhile isSpace).skipComment.rest <:+ s.cursor.rest :=
      skipComment_suffix.trans skipWhile_suffix
    unfold skipToLexemeUpTo
    dsimp only
    split
    · exact hafter
    · exact ih.trans (lineBreak_suffix.trans hafter)

theorem skipToLexeme_suffix : s.skipToLexeme.cursor.rest <:+ s.cursor.rest := by
  refine skipToLexemeUpTo_suffix.trans ?_
  dsimp only
  split
  · exact next_suffix
  · exact List.suffix_refl _

/-! ## Lexemes -/

theorem lexEnd_ends (h : s.cursor.rest <:+ t) : LexesIn t s.lexEnd := by
  refine Ends.bind dropCandidate_ends fun u hu => ?_
  rw [unwind_cursor] at hu
  exact skip_suffix.trans (hu ▸ h)

theorem lexDocumentMark_ends (h : s.cursor.rest <:+ t) : LexesIn t (s.lexDocumentMark kind) := by
  refine Ends.bind dropCandidate_ends fun u hu => ?_
  rw [unwind_cursor] at hu
  exact skip_suffix.trans (hu ▸ h)

theorem lexFlowStart_ends (h : s.cursor.rest <:+ t) : LexesIn t (s.lexFlowStart kind) :=
  Ends.bind saveCandidate_ends fun _ hu => skip_suffix.trans (hu ▸ h)

theorem lexFlowEnd_ends (h : s.cursor.rest <:+ t) : LexesIn t (s.lexFlowEnd kind) :=
  Ends.bind dropCandidate_ends fun _ hu => skip_suffix.trans (hu ▸ h)

theorem lexFlowEntry_ends (h : s.cursor.rest <:+ t) : LexesIn t s.lexFlowEntry :=
  Ends.bind dropCandidate_ends fun _ hu => skip_suffix.trans (hu ▸ h)

theorem lexBlockEntry_ends (h : s.cursor.rest <:+ t) : LexesIn t s.lexBlockEntry := by
  refine Ends.bind .require fun _ _ => Ends.bind dropCandidate_ends fun u hu => ?_
  rw [startBlockHere_cursor] at hu
  exact skip_suffix.trans (hu ▸ h)

theorem lexKey_ends (h : s.cursor.rest <:+ t) : LexesIn t s.lexKey := by
  refine Ends.bind .require fun _ _ => Ends.bind dropCandidate_ends fun u hu => ?_
  rw [startBlockHere_cursor] at hu
  exact skip_suffix.trans (hu ▸ h)

theorem lexValue_ends (h : s.cursor.rest <:+ t) : LexesIn t s.lexValue := by
  unfold lexValue
  split
  · rename_i k _
    rw [← @confirmKey_cursor s k] at h
    exact skip_suffix.trans h
  · refine Ends.bind .require fun _ _ => Ends.bind dropCandidate_ends fun u hu => ?_
    rw [startBlockHere_cursor] at hu
    exact skip_suffix.trans (hu ▸ h)

theorem lexAnchor_ends {name : Text → TokenKind} (h : s.cursor.rest <:+ t) :
    LexesIn t (s.lexAnchor context name) := by
  refine Ends.bind saveCandidate_ends fun u hu => ?_
  exact Ends.bind (readAnchor_ends (hu ▸ h)) fun _ hx => hx

theorem lexTag_ends (h : s.cursor.rest <:+ t) : LexesIn t s.lexTag := by
  refine Ends.bind saveCandidate_ends fun u hu => ?_
  exact Ends.bind (readTag_ends (hu ▸ h)) fun _ hx => hx

theorem lexBlockScalar_ends (h : s.cursor.rest <:+ t) : LexesIn t (s.lexBlockScalar folded) := by
  refine Ends.bind dropCandidate_ends fun u hu => ?_
  exact Ends.bind (readBlock_ends (hu ▸ h)) fun _ hx => hx

theorem lexPlain_ends (h : s.cursor.rest <:+ t) : LexesIn t s.lexPlain :=
  Ends.bind saveCandidate_ends fun _ hu => readPlain_suffix.trans (hu ▸ h)

/-- The lexeme at the cursor cannot be converted: it is a version with a number that is too long, or
a scalar in double quotes with an escape past the last code point. -/
inductive LexemeStops (s : Lexer) (e : Error) : Prop
  | version {u : Lexer} {after : Cursor} : s.cursor.peek = percent → s.cursor.mark.column = 0 →
    (s.unwind (-1)).dropCandidate = .ok u →
    readName .directive s.cursor.mark isSpaceOrEnd s.cursor.next = .ok ("YAML", after) →
    IsLongVersion s.cursor.mark after e → LexemeStops s e
  | escape {u : Lexer} : s.cursor.peek = .ofChar '"' → s.saveCandidate = .ok u →
    ComesToEscape s.cursor.mark s.cursor.next e → LexemeStops s e

theorem lexDirective_ends (h : s.cursor.rest <:+ t) (hpeek : s.cursor.peek = percent)
    (hcolumn : s.cursor.mark.column = 0) :
    Ends (fun e => e.isFault = true ∨ s.LexemeStops e) s.lexDirective
      fun u => u.cursor.rest <:+ t := by
  refine Ends.bind (Ends.self fun e he => .inl (dropCandidate_ends.error he)) fun u hdrop => ?_
  have hcursor : u.cursor = s.cursor := (dropCandidate_ends.result hdrop).trans unwind_cursor
  refine Ends.bind (Ends.self fun e he => ?_) fun x hread => ?_
  · cases hfault : e.isFault with
    | true => exact .inl rfl
    | false =>
      rw [hcursor] at he
      obtain ⟨after, hname, hlong⟩ := (readDirective_eq_error_iff hfault).mp he
      exact .inr (.version hpeek hcolumn hdrop hname hlong)
  · exact (readDirective_ends (hcursor ▸ h)).result hread

theorem lexQuoted_ends (h : s.cursor.rest <:+ t) (hpeek : s.cursor.peek = quotes.codePoint) :
    Ends (fun e => e.isFault = true ∨ s.LexemeStops e) (s.lexQuoted quotes)
      fun u => u.cursor.rest <:+ t := by
  refine Ends.bind (Ends.self fun e he => .inl (saveCandidate_ends.error he)) fun u hsave => ?_
  have hcursor : u.cursor = s.cursor := saveCandidate_ends.result hsave
  refine Ends.bind (Ends.self fun e he => ?_) fun x hread => ?_
  · cases hfault : e.isFault with
    | true => exact .inl rfl
    | false =>
      rw [hcursor] at he
      obtain ⟨rfl, hcomes⟩ := (readQuoted_eq_error_iff hfault).mp he
      exact .inr (.escape hpeek hsave hcomes)
  · exact (readQuoted_ends (hcursor ▸ h)).result hread

theorem lexLexeme_ends (h : s.cursor.rest <:+ t) :
    Ends (fun e => e.isFault = true ∨ s.LexemeStops e) s.lexLexeme
      fun u => u.cursor.rest <:+ t := by
  have hlexes {r : Except Error Lexer} (H : LexesIn t r) :
      Ends (fun e => e.isFault = true ∨ s.LexemeStops e) r fun u => u.cursor.rest <:+ t :=
    H.weaken fun _ => .inl
  refine Ends.ite (fun _ => hlexes (lexEnd_ends h)) fun _ => ?_
  refine Ends.ite (fun hc => lexDirective_ends h hc.1 hc.2) fun _ => ?_
  refine Ends.ite (fun _ => hlexes (lexDocumentMark_ends h)) fun _ => ?_
  refine Ends.ite (fun _ => hlexes (lexDocumentMark_ends h)) fun _ => ?_
  refine Ends.ite (fun _ => hlexes (lexFlowStart_ends h)) fun _ => ?_
  refine Ends.ite (fun _ => hlexes (lexFlowStart_ends h)) fun _ => ?_
  refine Ends.ite (fun _ => hlexes (lexFlowEnd_ends h)) fun _ => ?_
  refine Ends.ite (fun _ => hlexes (lexFlowEnd_ends h)) fun _ => ?_
  refine Ends.ite (fun _ => hlexes (lexFlowEntry_ends h)) fun _ => ?_
  refine Ends.ite (fun _ => hlexes (lexBlockEntry_ends h)) fun _ => ?_
  refine Ends.ite (fun _ => hlexes (lexKey_ends h)) fun _ => ?_
  refine Ends.ite (fun _ => hlexes (lexValue_ends h)) fun _ => ?_
  refine Ends.ite (fun _ => hlexes (lexAnchor_ends h)) fun _ => ?_
  refine Ends.ite (fun _ => hlexes (lexAnchor_ends h)) fun _ => ?_
  refine Ends.ite (fun _ => hlexes (lexTag_ends h)) fun _ => ?_
  refine Ends.ite (fun _ => hlexes (lexBlockScalar_ends h)) fun _ => ?_
  refine Ends.ite (fun _ => hlexes (lexBlockScalar_ends h)) fun _ => ?_
  refine Ends.ite (fun hc => lexQuoted_ends h hc) fun _ => ?_
  refine Ends.ite (fun hc => lexQuoted_ends h hc) fun _ => ?_
  refine Ends.ite (fun _ => hlexes (lexPlain_ends h)) fun _ => ?_
  exact .inl rfl

/-- **When the lexeme at the cursor cannot be converted.** -/
theorem lexLexeme_eq_error_iff (he : e.isFault = false) :
    s.lexLexeme = .error e ↔ s.LexemeStops e := by
  constructor
  · intro h
    have hends := (lexLexeme_ends (List.suffix_refl _)).error h
    rw [he] at hends
    exact hends.resolve_left Bool.false_ne_true
  · rintro (⟨hpeek, hcolumn, hdrop, hname, hlong⟩ | ⟨hpeek, hsave, hcomes⟩)
    · have hcursor := (dropCandidate_ends.result hdrop).trans unwind_cursor
      have hread := (readDirective_eq_error_iff he).mpr ⟨_, hname, hlong⟩
      have hlex : s.lexDirective = .error e :=
        bind_eq_error_iff.mpr (.inr ⟨_, hdrop, bind_eq_error_iff.mpr (.inl (hcursor ▸ hread))⟩)
      rw [lexLexeme, hpeek, hcolumn]
      exact hlex
    · have hcursor := saveCandidate_ends.result hsave
      have hread := (readQuoted_eq_error_iff he).mpr ⟨rfl, hcomes⟩
      have hlex : s.lexQuoted .double = .error e :=
        bind_eq_error_iff.mpr (.inr ⟨_, hsave, bind_eq_error_iff.mpr (.inl (hcursor ▸ hread))⟩)
      have htriple {d : CodePoint} (hd : .ofChar '"' ≠ d) : s.cursor.atTriple d = false := by
        simp [atTriple, rest_of_peek hpeek (by decide), hd]
      rw [lexLexeme, htriple (by decide), htriple (by decide), hpeek]
      simp only [Bool.false_eq_true, and_false, if_false]
      exact hlex

/-! ## Steps -/

/-- The lexeme that comes next cannot be converted. -/
def Stops (s : Lexer) (e : Error) : Prop :=
  ∃ u, s.skipToLexeme.dropStale = .ok u ∧ (u.unwind u.column).LexemeStops e

theorem step_ends (h : s.cursor.rest <:+ t) :
    Ends (fun e => e.isFault = true ∨ s.Stops e) s.step fun u => u.cursor.rest <:+ t := by
  refine Ends.bind (Ends.self fun e he => .inl (dropStale_ends.error he)) fun u hstale => ?_
  have hcursor : (u.unwind u.column).cursor.rest <:+ t := by
    rw [unwind_cursor, dropStale_ends.result hstale]
    exact skipToLexeme_suffix.trans h
  refine Ends.bind ((lexLexeme_ends hcursor).weaken fun e he => ?_) fun v hv => ?_
  · exact he.imp_right fun hstops => ⟨u, hstale, hstops⟩
  split
  · exact .pure hv
  · exact (dropStale_ends.weaken fun _ => .inl).mono fun _ hw => hw ▸ hv

theorem step_eq_error_iff (he : e.isFault = false) : s.step = .error e ↔ s.Stops e := by
  constructor
  · intro h
    have hends := (step_ends (List.suffix_refl _)).error h
    rw [he] at hends
    exact hends.resolve_left Bool.false_ne_true
  · rintro ⟨u, hstale, hstops⟩
    exact bind_eq_error_iff.mpr (.inr ⟨u, hstale,
      bind_eq_error_iff.mpr (.inl ((lexLexeme_eq_error_iff he).mpr hstops))⟩)

/-! ## A whole text -/

/-- After some lexemes, none of them the end of the text, the lexer is another one. -/
inductive Lexes : (count : Nat) → Lexer → Lexer → Prop
  | zero {start : Lexer} : Lexes 0 start start
  | succ {count : Nat} {start next stop : Lexer} : start.step = .ok next → next.isDone = false →
    Lexes count next stop → Lexes (count + 1) start stop

theorem run_eq_iff (he : e.isFault = false) :
    run fuel s = ⟨tokens, some e⟩ ↔
      ∃ count < fuel, ∃ s', Lexes count s s' ∧ s'.Stops e ∧ s'.certainTokens = tokens := by
  induction fuel generalizing s with
  | zero => simp [run]
  | succ fuel ih =>
    unfold run
    constructor
    · intro h
      split at h
      · rename_i e' hstep
        cases h
        exact ⟨0, Nat.succ_pos _, s, .zero, (step_eq_error_iff he).mp hstep, rfl⟩
      · rename_i next hstep
        split at h
        · cases h
        · rename_i hdone
          obtain ⟨count, hcount, s', hlexes, hstops⟩ := ih.mp h
          exact ⟨count + 1, Nat.succ_lt_succ hcount, s',
            .succ hstep (Bool.eq_false_iff.mpr hdone) hlexes, hstops⟩
    · rintro ⟨count, hcount, s', hlexes, hstops, rfl⟩
      cases hlexes with
      | zero => rw [(step_eq_error_iff he).mpr hstops]
      | succ hstep hdone hlexes =>
        rw [hstep]
        dsimp only
        rw [if_neg (by simp [hdone])]
        exact ih.mpr ⟨_, Nat.lt_of_succ_lt_succ hcount, s', hlexes, hstops, rfl⟩

end Lexer

/-- **When the tokens of a text end with what cannot be converted.** -/
theorem TokenStream.ofText_eq_iff {tokens : List Token} (he : e.isFault = false) :
    TokenStream.ofText t = ⟨tokens, some e⟩ ↔ ∃ count ≤ t.length + 1, ∃ s,
      (Lexer.ofText t).Lexes count s ∧ s.Stops e ∧ s.certainTokens = tokens := by
  simp only [ofText, Lexer.run_eq_iff he, Nat.lt_succ_iff]

end CollectionInterfaces.Yaml
