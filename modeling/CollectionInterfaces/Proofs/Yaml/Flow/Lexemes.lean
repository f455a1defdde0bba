import CollectionInterfaces.Proofs.Yaml.Flow.Plain
import CollectionInterfaces.Proofs.Yaml.Flow.Quoted
import CollectionInterfaces.Proofs.Yaml.Tokens

/-!
# Lexemes in brackets

Between brackets a step of the lexer skips the blanks in front of a lexeme and leaves the lexeme
behind (`Stands.next_open` and those after it). A name is found to be a key at the colon only; up to
there the candidate in front of it has to stay fresh (`Stands.next_text`, `Stands.next_colon`).
-/

namespace CollectionInterfaces.Yaml.Lexer

open Cursor
open Json (skipBlanks skipBlanks_of_not_isBlank)

variable {s t u : Lexer} {level : Nat} {kinds : List TokenKind} {kind : TokenKind} {d : CodePoint}
  {rest w : Text} {candidates : List (Int × KeyCandidate)} {column : Int}

/-- No candidate has to become a key. -/
def IsCalm (candidates : List (Int × KeyCandidate)) : Prop :=
  ∀ k ∈ candidates, k.2.required = false

/-- A lexer between brackets, or around them, has found tokens of some kinds, the last one first. -/
structure Stands (s : Lexer) (level : Nat) (kinds : List TokenKind) : Prop where
  level : s.flowLevel = level
  kinds : s.newest.map (·.kind) = kinds
  count : s.count = s.newest.length
  calm : IsCalm s.candidates
  outer : s.outerIndents = []

theorem isCalm_nil : IsCalm [] := List.forall_mem_nil _

theorem IsCalm.filter (h : IsCalm candidates) (p : Int × KeyCandidate → Bool) :
    IsCalm (candidates.filter p) := fun k hk => h k (List.mem_filter.mp hk).1

/-- The lexer without the candidates that are stale. -/
def keepFresh (s : Lexer) : Lexer :=
  { s with candidates := s.candidates.filter fun (_, k) => s.isFresh k }

theorem dropStale_eq (h : IsCalm s.candidates) : s.dropStale = .ok s.keepFresh := by
  have hnone : (s.candidates.find? fun (_, k) => !s.isFresh k && k.required) = none := by
    rw [List.find?_eq_none]
    intro k hk
    simp [h k hk]
  unfold dropStale
  rw [hnone]
  rfl

theorem dropCandidate_eq (h : IsCalm s.candidates) :
    ∃ candidates, s.dropCandidate = .ok { s with candidates := candidates } ∧
      IsCalm candidates := by
  unfold dropCandidate
  split
  · rename_i k hk
    obtain ⟨before, after, hcandidates, -⟩ := List.lookup_eq_some_iff.mp hk
    have hcalm : k.required = false := h (s.flowLevel, k) (by simp [hcandidates])
    rw [if_neg (by simp [hcalm])]
    exact ⟨_, rfl, h.filter _⟩
  · exact ⟨s.candidates, rfl, h⟩

theorem saveCandidate_eq (h : IsCalm s.candidates)
    (hrequired : (!s.inFlow && s.indent == s.column) = false) :
    ∃ candidates, s.saveCandidate = .ok { s with candidates := candidates } ∧
      IsCalm candidates ∧ (s.keyAllowed = true →
        candidates.lookup s.flowLevel = some ⟨s.count, false, s.cursor.mark⟩) := by
  unfold saveCandidate
  split
  · obtain ⟨candidates, hdrop, hcalm⟩ := dropCandidate_eq h
    rw [hdrop, hrequired]
    refine ⟨_, rfl, List.forall_mem_cons.mpr ⟨rfl, hcalm⟩, fun _ => ?_⟩
    exact List.lookup_cons_self
  · rename_i hkey
    exact ⟨s.candidates, rfl, h, fun h => absurd h hkey⟩

theorem unwind_eq (h : s.outerIndents = []) : s.unwind column = s := by
  obtain ⟨_, _, _, _, indent, outer, _, _⟩ := s
  obtain rfl : outer = [] := h
  unfold unwind
  split <;> rfl

namespace Stands

theorem withCandidates (h : s.Stands level kinds) (hcalm : IsCalm candidates) :
    { s with candidates := candidates }.Stands level kinds :=
  ⟨h.level, h.kinds, h.count, hcalm, h.outer⟩

theorem keepFresh (h : s.Stands level kinds) : s.keepFresh.Stands level kinds :=
  h.withCandidates (h.calm.filter _)

theorem emitTo (h : s.Stands level kinds) (after : Cursor) :
    (s.emitTo kind after).Stands level (kind :: kinds) :=
  ⟨h.level, congrArg (kind :: ·) h.kinds, congrArg (· + 1) h.count, h.calm, h.outer⟩

theorem inFlow (h : s.Stands (level + 1) kinds) : s.inFlow = true := by
  have hlevel := h.level
  simp only [Lexer.inFlow, hlevel]
  exact decide_eq_true (by omega)

end Stands

/-! ## Steps -/

/-- A step leads on in the text, and not to its end. -/
structure Next (s s' : Lexer) : Prop where
  step : s.step = .ok s'
  more : s'.isDone = false
  less : s'.cursor.rest.length < s.cursor.rest.length

/-- A step first comes to a lexeme. -/
theorem Stands.arrive (h : s.Stands level kinds) (htab : .ofChar '\t' ∉ s.cursor.rest)
    (hstart : ∀ d ∈ (skipBlanks s.cursor.rest).head?, IsLexemeStart d) :
    ∃ (t : Lexer) (w : Text), t.Stands level kinds ∧ s.cursor.Moves w t.cursor ∧
      t.cursor.rest = skipBlanks s.cursor.rest ∧ (s.keyAllowed = true → t.keyAllowed = true) ∧
      t.indent = s.indent ∧ t.candidates = s.candidates.filter (fun k => t.isFresh k.2) ∧
      ∀ u, t.lexLexeme = .ok u → s.step = if u.isDone then .ok u else u.dropStale := by
  obtain ⟨w, c, keyAllowed, hskip, hmoves, hrest, hkey⟩ := skipToLexeme_eq htab hstart
  let s' : Lexer := { s with cursor := c, keyAllowed := keyAllowed }
  have hs' : s'.Stands level kinds := ⟨h.level, h.kinds, h.count, h.calm, h.outer⟩
  refine ⟨s'.keepFresh, w, hs'.keepFresh, hmoves, hrest, hkey, rfl, rfl, fun u hu => ?_⟩
  unfold step
  rw [hskip, dropStale_eq hs'.calm]
  dsimp only [bind, Except.bind]
  rw [unwind_eq hs'.keepFresh.outer, hu]
  rfl

theorem Stands.isDone (h : u.Stands level (kind :: kinds)) (hkind : kind ≠ .streamEnd) :
    u.isDone = false := by
  have hkinds := h.kinds
  unfold Lexer.isDone
  cases hnewest : u.newest with
  | nil =>
    rw [hnewest] at hkinds
    cases hkinds
  | cons token tokens =>
    rw [hnewest] at hkinds
    obtain rfl := (List.cons.inj hkinds).1
    simpa using hkind

/-- A step then leaves the lexeme behind. -/
theorem Stands.leave (h : u.Stands level (kind :: kinds)) (hkind : kind ≠ .streamEnd)
    (hstep : s.step = if u.isDone then .ok u else u.dropStale)
    (hless : u.cursor.rest.length < s.cursor.rest.length) : s.Next u.keepFresh where
  step := by
    rw [hstep, h.isDone hkind, dropStale_eq h.calm]
    rfl
  more := h.isDone hkind
  less := hless

theorem emit_one (hrest : t.cursor.rest = d :: rest) : (t.emit kind 1).cursor.rest = rest :=
  next_rest hrest

/-! ## Brackets and commas -/

theorem atTriple_of_rest {c : Cursor} {a b : Char} (hrest : c.rest = .ofChar a :: rest)
    (hab : a ≠ b) : c.atTriple (.ofChar b) = false := by
  refine atTriple_of_head fun e he => ?_
  rw [hrest] at he
  obtain rfl := Option.some.inj he
  simpa using hab

/-- What the marks mean that mean the same everywhere. -/
def markLexers : List (Char × (Lexer → Except Error Lexer)) :=
  [('[', lexFlowStart .flowSequenceStart), ('{', lexFlowStart .flowMappingStart),
    (']', lexFlowEnd .flowSequenceEnd), ('}', lexFlowEnd .flowMappingEnd), (',', lexFlowEntry),
    ('"', lexQuoted .double)]

theorem lexLexeme_mark {a : Char} {lex : Lexer → Except Error Lexer}
    (hrest : t.cursor.rest = .ofChar a :: rest) (h : (a, lex) ∈ markLexers) :
    t.lexLexeme = lex t := by
  simp only [markLexers, List.mem_cons, Prod.mk.injEq, List.not_mem_nil, or_false] at h
  have hnull : CodePoint.ofChar a ≠ .null := by
    rcases h with ⟨rfl, -⟩ | ⟨rfl, -⟩ | ⟨rfl, -⟩ | ⟨rfl, -⟩ | ⟨rfl, -⟩ | ⟨rfl, -⟩ <;> decide
  rcases h with ⟨rfl, rfl⟩ | ⟨rfl, rfl⟩ | ⟨rfl, rfl⟩ | ⟨rfl, rfl⟩ | ⟨rfl, rfl⟩ | ⟨rfl, rfl⟩ <;>
    simp [lexLexeme, peek_of_rest hrest, atTriple_of_rest hrest, hnull]

theorem lexLexeme_quote (hrest : t.cursor.rest = .ofChar '"' :: rest) :
    t.lexLexeme = t.lexQuoted .double := lexLexeme_mark hrest (by simp [markLexers])

theorem lexLexeme_colon (hrest : t.cursor.rest = .ofChar ':' :: rest) (hflow : t.inFlow = true) :
    t.lexLexeme = t.lexValue := by
  have hnull : CodePoint.ofChar ':' ≠ .null := by decide
  simp [lexLexeme, peek_of_rest hrest, atTriple_of_rest hrest, hnull, hflow]

theorem lexLexeme_end (hrest : t.cursor.rest = []) : t.lexLexeme = t.lexEnd := by
  have hpeek : t.cursor.peek = .null := by
    rw [peek, hrest]
    rfl
  rw [lexLexeme, hpeek]
  rfl

/-- A step over a lexeme. -/
theorem Stands.next {level' : Nat} {kinds' : List TokenKind} {P : Lexer → Prop}
    (h : s.Stands level kinds) (htab : .ofChar '\t' ∉ s.cursor.rest)
    (hskip : skipBlanks s.cursor.rest = d :: rest) (hd : IsLexemeStart d)
    (hkind : kind ≠ .streamEnd)
    (H : ∀ t : Lexer, t.Stands level kinds → t.cursor.rest = d :: rest → t.indent = s.indent →
      ∃ u, t.lexLexeme = .ok u ∧ u.Stands level' (kind :: kinds') ∧
        u.cursor.rest.length ≤ rest.length ∧ P u) :
    ∃ u : Lexer, s.Next u.keepFresh ∧ u.Stands level' (kind :: kinds') ∧ P u := by
  obtain ⟨t, w, ht, hmoves, hrest, -, hindent, -, hstep⟩ := h.arrive htab (by
    rw [hskip]
    exact fun e he => Option.some.inj he ▸ hd)
  rw [hskip] at hrest
  obtain ⟨u, hlex, hu, hlength, hP⟩ := H t ht hrest hindent
  refine ⟨u, hu.leave hkind (hstep u hlex) ?_, hu, hP⟩
  have hless := congrArg List.length hmoves.rest
  rw [hrest, List.length_append, List.length_cons] at hless
  omega

theorem not_required (h : s.inFlow = true ∨ s.indent = -1) :
    (!s.inFlow && s.indent == s.column) = false := by
  rcases h with h | h
  · simp [h]
  · have hcolumn : (-1 : Int) ≠ s.column := by
      unfold column
      omega
    simp [h, hcolumn]

theorem lexFlowStart_eq (ht : t.Stands level kinds) (hrest : t.cursor.rest = d :: rest)
    (hopen : t.inFlow = true ∨ t.indent = -1) :
    ∃ u, t.lexFlowStart kind = .ok u ∧ u.Stands (level + 1) (kind :: kinds) ∧
      u.cursor.rest = rest ∧ u.keyAllowed = true := by
  obtain ⟨candidates, hsave, hcalm, -⟩ := saveCandidate_eq ht.calm (not_required hopen)
  have hopened : Stands
      { t with candidates := candidates, flowLevel := t.flowLevel + 1, keyAllowed := true }
      (level + 1) kinds :=
    ⟨by simp [ht.level], ht.kinds, ht.count, hcalm, ht.outer⟩
  refine ⟨_, ?_, hopened.emitTo _, emit_one hrest, rfl⟩
  rw [lexFlowStart, hsave]
  rfl

theorem lexFlowEnd_eq (ht : t.Stands (level + 1) kinds) (hrest : t.cursor.rest = d :: rest) :
    ∃ u, t.lexFlowEnd kind = .ok u ∧ u.Stands level (kind :: kinds) ∧ u.cursor.rest = rest := by
  obtain ⟨candidates, hdrop, hcalm⟩ := dropCandidate_eq ht.calm
  have hclosed : Stands
      { t with candidates := candidates, flowLevel := t.flowLevel - 1, keyAllowed := false }
      level kinds :=
    ⟨by simp [ht.level], ht.kinds, ht.count, hcalm, ht.outer⟩
  refine ⟨_, ?_, hclosed.emitTo _, emit_one hrest⟩
  rw [lexFlowEnd, hdrop]
  rfl

theorem lexFlowEntry_eq (ht : t.Stands level kinds) (hrest : t.cursor.rest = d :: rest) :
    ∃ u, t.lexFlowEntry = .ok u ∧ u.Stands level (.flowEntry :: kinds) ∧ u.cursor.rest = rest ∧
      u.keyAllowed = true := by
  obtain ⟨candidates, hdrop, hcalm⟩ := dropCandidate_eq ht.calm
  have hnext : { t with candidates := candidates, keyAllowed := true }.Stands level kinds :=
    ⟨ht.level, ht.kinds, ht.count, hcalm, ht.outer⟩
  refine ⟨_, ?_, hnext.emitTo _, emit_one hrest, rfl⟩
  rw [lexFlowEntry, hdrop]
  rfl

theorem lexQuoted_eq {text : Text} (ht : t.Stands (level + 1) kinds)
    (hread : ∃ c', readQuoted .double t.cursor = .ok (text, c') ∧ t.cursor.Moves w c') :
    ∃ u, t.lexQuoted .double = .ok u ∧ u.Stands (level + 1) (.scalar text false :: kinds) ∧
      t.cursor.Moves w u.cursor ∧ (t.keyAllowed = true →
        u.candidates.lookup u.flowLevel = some ⟨t.count, false, t.cursor.mark⟩) := by
  obtain ⟨c', hread, hmoves⟩ := hread
  obtain ⟨candidates, hsave, hcalm, hkey⟩ :=
    saveCandidate_eq ht.calm (not_required (.inl ht.inFlow))
  have hsaved : { t with candidates := candidates, keyAllowed := false }.Stands (level + 1) kinds :=
    ⟨ht.level, ht.kinds, ht.count, hcalm, ht.outer⟩
  refine ⟨_, ?_, hsaved.emitTo c', hmoves, hkey⟩
  rw [lexQuoted, hsave]
  dsimp only [bind, Except.bind]
  rw [hread]
  rfl

/-! ## Plain scalars -/

/-- A letter or a digit. -/
def isLetterOrDigit (d : CodePoint) : Bool := d.isLower || d.isUpper || d.isDigit

/-- No letter and no digit has a meaning of its own. -/
theorem not_of_isLetterOrDigit (h : isLetterOrDigit d = true) :
    isOneOf "-?:,[]\x7b\x7d#&*!|>'\"%@\x60" d = false ∧ isBlankOrEnd d = false ∧ d ≠ .null ∧
      d ≠ .ofChar '.' ∧ IsLexemeStart d ∧ Json.isBlank d = false := by
  have hlt : d.val < 0x80 := val_lt_of_isAtomPart (by
    simp only [isLetterOrDigit, Bool.or_eq_true] at h
    simp [isAtomPart, h])
  refine of_ascii (P := fun d => isLetterOrDigit d = true → isOneOf _ d = false ∧
    isBlankOrEnd d = false ∧ d ≠ .null ∧ d ≠ .ofChar '.' ∧ IsLexemeStart d ∧
    Json.isBlank d = false) ?_ hlt h
  unfold IsLexemeStart
  decide

theorem lexLexeme_letter (hrest : t.cursor.rest = d :: rest) (hd : isLetterOrDigit d = true) :
    t.lexLexeme = t.lexPlain := by
  obtain ⟨hmarks, hblank, hnull, hdot, -⟩ := not_of_isLetterOrDigit hd
  have hplain : t.startsPlain = true := by
    simp [startsPlain, peek_of_rest hrest, hmarks, hblank]
  simp [isOneOf, Text.ofString] at hmarks
  have hhead : ∀ e ∈ t.cursor.rest.head?, e ≠ .ofChar '-' ∧ e ≠ .ofChar '.' := by
    rw [hrest]
    exact fun e he => Option.some.inj he ▸ ⟨hmarks.1, hdot⟩
  simp [lexLexeme, peek_of_rest hrest, hmarks, hnull, hplain,
    atTriple_of_head fun e he => (hhead e he).1, atTriple_of_head fun e he => (hhead e he).2]

theorem lexLexeme_minus (hrest : t.cursor.rest = .ofChar '-' :: d :: rest)
    (hd : isLetterOrDigit d = true) : t.lexLexeme = t.lexPlain := by
  obtain ⟨hmarks, hblank, hnull, hdot, -⟩ := not_of_isLetterOrDigit hd
  have hpeekAt : t.cursor.peekAt 1 = d := by simp [peekAt, hrest]
  have hdash : t.cursor.atTriple (.ofChar '-') = false := by
    have hne : d ≠ .ofChar '-' := by
      rintro rfl
      cases hd
    simp [atTriple, hrest, hne]
  have hminus : CodePoint.ofChar '-' ≠ .null := by decide
  have hplain : t.startsPlain = true := by
    simp [startsPlain, peek_of_rest hrest, hpeekAt, hblank]
  simp [lexLexeme, peek_of_rest hrest, hminus, hplain, hdash, standsAlone, hpeekAt, hblank,
    atTriple_of_rest hrest]

theorem lexPlain_eq (ht : t.Stands (level + 1) kinds) (hw : ∀ d ∈ w, isAtomPart d = true)
    (hne : w ≠ []) (hrest : t.cursor.rest = w ++ rest) (hends : EndsItem rest)
    (htab : .ofChar '\t' ∉ rest) :
    ∃ u, t.lexPlain = .ok u ∧ u.Stands (level + 1) (.scalar w true :: kinds) ∧
      u.cursor.rest = skipBlanks rest := by
  obtain ⟨candidates, hsave, hcalm, -⟩ := saveCandidate_eq ht.calm (not_required (.inl ht.inFlow))
  obtain ⟨stop, lineEnded, c', hread, hrest'⟩ := readPlain_word hw hne hrest hends htab
  let saved : Lexer := { t with candidates := candidates }
  have hflow : saved.inFlow = true := ht.inFlow
  refine ⟨{ saved.push ⟨.scalar w true, t.cursor.mark, stop⟩ with
      cursor := c', keyAllowed := lineEnded }, ?_,
    ⟨ht.level, congrArg (_ :: ·) ht.kinds, congrArg (· + 1) ht.count, hcalm, ht.outer⟩, hrest'⟩
  have hread : readPlain saved.inFlow saved.indent saved.cursor = (⟨w, stop, lineEnded⟩, c') := by
    rw [hflow]
    exact hread
  unfold lexPlain
  rw [hsave]
  dsimp only [bind, Except.bind]
  rw [hread]
  rfl

/-! ## Keys -/

theorem lookup_filter {α β : Type} [BEq α] {p : β → Bool} {a : α} {b : β} {l : List (α × β)}
    (h : l.lookup a = some b) (hb : p b = true) :
    (l.filter fun e => p e.2).lookup a = some b := by
  induction l with
  | nil => cases h
  | cons e l ih =>
    obtain ⟨a', b'⟩ := e
    rw [List.lookup_cons] at h
    split at h
    · rename_i ha
      obtain rfl := Option.some.inj h
      simp [hb, List.lookup_cons, ha]
    · rename_i ha
      cases hb' : p b' with
      | true => simpa [hb', List.lookup_cons, ha] using ih h
      | false => simpa [hb'] using ih h

/-- A piece of text behind the lexer can become a key, after some tokens. -/
def HasCandidate (s : Lexer) (w : Text) (before : Nat) : Prop :=
  ∃ start : Cursor, start.Moves w s.cursor ∧
    s.candidates.lookup s.flowLevel = some ⟨before, false, start.mark⟩

/-- A candidate is fresh as long as its line and its length allow it. -/
theorem isFresh_of_moves {c : Cursor} {k : KeyCandidate} (h : c.Moves w s.cursor)
    (hk : k.mark = c.mark) (hsized : IsKeySized w) : s.isFresh k = true := by
  have hindex := h.index
  have hline := h.line hsized.breaks
  have hlength := hsized.length
  simp only [isFresh, hk, hline, hindex, beq_self_eq_true, Bool.true_and, decide_eq_true_eq]
  omega

/-- A candidate in front of the last token becomes a key. -/
theorem lexValue_eq {k : KeyCandidate} (ht : t.Stands (level + 1) (kind :: kinds))
    (hrest : t.cursor.rest = d :: rest) (hk : t.candidates.lookup t.flowLevel = some k)
    (hbefore : k.tokensBefore = kinds.length) :
    ∃ u, t.lexValue = .ok u ∧ u.Stands (level + 1) (.value :: kind :: .key :: kinds) ∧
      u.cursor.rest = rest := by
  have hflow := ht.inFlow
  obtain ⟨token, tokens, hnewest, hkind, hkinds⟩ := List.map_eq_cons_iff.mp ht.kinds
  have hcount : t.count = tokens.length + 1 := by rw [ht.count, hnewest, List.length_cons]
  have hbefore : k.tokensBefore = tokens.length := by rw [hbefore, ← hkinds, List.length_map]
  have hconfirm : (t.confirmKey k).Stands (level + 1) (kind :: .key :: kinds) := by
    unfold confirmKey
    rw [if_pos hflow]
    refine ⟨ht.level, ?_, ?_, ht.calm.filter _, ht.outer⟩
    · simp [insertToken, forgetCandidate, hcount, hbefore, hnewest, hkind, hkinds]
    · simp [insertToken, forgetCandidate, hcount, hbefore, hnewest]
  have hplain : Stands { t.confirmKey k with keyAllowed := false } (level + 1)
      (kind :: .key :: kinds) :=
    ⟨hconfirm.level, hconfirm.kinds, hconfirm.count, hconfirm.calm, hconfirm.outer⟩
  have hcursor : (t.confirmKey k).cursor.rest = d :: rest := by rw [confirmKey_cursor, hrest]
  refine ⟨_, ?_, hplain.emitTo _, next_rest hcursor⟩
  unfold lexValue candidate?
  rw [hk]
  rfl

/-! ## Steps over lexemes -/

namespace Stands

theorem next_open {a : Char} (h : s.Stands level kinds) (hopen : 0 < level ∨ s.indent = -1)
    (htab : .ofChar '\t' ∉ s.cursor.rest) (hskip : skipBlanks s.cursor.rest = .ofChar a :: rest)
    (ha : a = '[' ∧ kind = .flowSequenceStart ∨ a = '{' ∧ kind = .flowMappingStart) :
    ∃ s' : Lexer, s.Next s' ∧ s'.Stands (level + 1) (kind :: kinds) ∧ s'.cursor.rest = rest ∧
      s'.keyAllowed = true := by
  have hstart : IsLexemeStart (.ofChar a) ∧ kind ≠ .streamEnd := by
    rcases ha with ⟨rfl, rfl⟩ | ⟨rfl, rfl⟩ <;> exact ⟨by decide, nofun⟩
  have hmark : (a, lexFlowStart kind) ∈ markLexers := by
    rcases ha with ⟨rfl, rfl⟩ | ⟨rfl, rfl⟩ <;> simp [markLexers]
  obtain ⟨u, hnext, hu, hrest, hkey⟩ := h.next htab hskip hstart.1 hstart.2
    (P := fun u => u.cursor.rest = rest ∧ u.keyAllowed = true) fun t ht hrest hindent => by
      have hopen : t.inFlow = true ∨ t.indent = -1 := by
        rw [hindent, Lexer.inFlow, ht.level]
        exact hopen.imp_left fun hpos => decide_eq_true (by omega)
      obtain ⟨u, hlex, hu, hrest', hkey⟩ := lexFlowStart_eq ht hrest hopen
      exact ⟨u, (lexLexeme_mark hrest hmark).trans hlex, hu, Nat.le_of_eq (congrArg _ hrest'),
        hrest', hkey⟩
  exact ⟨u.keepFresh, hnext, hu.keepFresh, hrest, hkey⟩

theorem next_close {a : Char} (h : s.Stands (level + 1) kinds)
    (htab : .ofChar '\t' ∉ s.cursor.rest) (hskip : skipBlanks s.cursor.rest = .ofChar a :: rest)
    (ha : a = ']' ∧ kind = .flowSequenceEnd ∨ a = '}' ∧ kind = .flowMappingEnd) :
    ∃ s' : Lexer, s.Next s' ∧ s'.Stands level (kind :: kinds) ∧ s'.cursor.rest = rest := by
  have hstart : IsLexemeStart (.ofChar a) ∧ kind ≠ .streamEnd := by
    rcases ha with ⟨rfl, rfl⟩ | ⟨rfl, rfl⟩ <;> exact ⟨by decide, nofun⟩
  have hmark : (a, lexFlowEnd kind) ∈ markLexers := by
    rcases ha with ⟨rfl, rfl⟩ | ⟨rfl, rfl⟩ <;> simp [markLexers]
  obtain ⟨u, hnext, hu, hrest⟩ := h.next htab hskip hstart.1 hstart.2
    (P := fun u => u.cursor.rest = rest) fun t ht hrest _ => by
      obtain ⟨u, hlex, hu, hrest'⟩ := lexFlowEnd_eq ht hrest
      exact ⟨u, (lexLexeme_mark hrest hmark).trans hlex, hu, Nat.le_of_eq (congrArg _ hrest'),
        hrest'⟩
  exact ⟨u.keepFresh, hnext, hu.keepFresh, hrest⟩

theorem next_comma (h : s.Stands level kinds) (htab : .ofChar '\t' ∉ s.cursor.rest)
    (hskip : skipBlanks s.cursor.rest = .ofChar ',' :: rest) :
    ∃ s' : Lexer, s.Next s' ∧ s'.Stands level (.flowEntry :: kinds) ∧ s'.cursor.rest = rest ∧
      s'.keyAllowed = true := by
  have hstart : IsLexemeStart (.ofChar ',') := by decide
  have hkind : TokenKind.flowEntry ≠ .streamEnd := nofun
  have hmark : (',', lexFlowEntry) ∈ markLexers := by simp [markLexers]
  obtain ⟨u, hnext, hu, hrest, hkey⟩ := h.next htab hskip hstart hkind
    (P := fun u => u.cursor.rest = rest ∧ u.keyAllowed = true) fun t ht hrest _ => by
      obtain ⟨u, hlex, hu, hrest', hkey⟩ := lexFlowEntry_eq ht hrest
      exact ⟨u, (lexLexeme_mark hrest hmark).trans hlex, hu, Nat.le_of_eq (congrArg _ hrest'),
        hrest', hkey⟩
  exact ⟨u.keepFresh, hnext, hu.keepFresh, hrest, hkey⟩

theorem next_atom (h : s.Stands (level + 1) kinds) (htab : .ofChar '\t' ∉ s.cursor.rest)
    (hskip : skipBlanks s.cursor.rest = w ++ rest) (hw : ∀ d ∈ w, isAtomPart d = true)
    (hhead : ∃ d w', (w = d :: w' ∨ w = .ofChar '-' :: d :: w') ∧ isLetterOrDigit d = true)
    (hends : EndsItem rest) :
    ∃ s' : Lexer, s.Next s' ∧ s'.Stands (level + 1) (.scalar w true :: kinds) ∧
      s'.cursor.rest = skipBlanks rest := by
  have htab' : .ofChar '\t' ∉ rest := by
    refine fun hmem => htab ((List.dropWhile_sublist Json.isBlank).subset ?_)
    rw [← skipBlanks, hskip]
    exact List.mem_append_right _ hmem
  have hplain : ∃ e w', w = e :: w' ∧ IsLexemeStart e ∧
      ∀ t : Lexer, t.cursor.rest = w ++ rest → t.lexLexeme = t.lexPlain := by
    obtain ⟨d, w', rfl | rfl, hd⟩ := hhead
    · exact ⟨d, w', rfl, (not_of_isLetterOrDigit hd).2.2.2.2.1, fun t ht => lexLexeme_letter ht hd⟩
    · exact ⟨_, _, rfl, by decide, fun t ht => lexLexeme_minus ht hd⟩
  obtain ⟨e, w', rfl, hstart, hplain⟩ := hplain
  have hkind : TokenKind.scalar (e :: w') true ≠ .streamEnd := by simp
  obtain ⟨u, hnext, hu, hrest⟩ := h.next htab hskip hstart hkind
    (P := fun u => u.cursor.rest = skipBlanks rest) fun t ht hrest _ => by
      obtain ⟨u, hlex, hu, hrest'⟩ := lexPlain_eq ht hw (List.cons_ne_nil e w') hrest hends htab'
      refine ⟨u, (hplain t hrest).trans hlex, hu, ?_, hrest'⟩
      rw [hrest']
      exact Nat.le_trans (Json.length_skipBlanks_le rest) (List.suffix_append w' rest).length_le
  exact ⟨u.keepFresh, hnext, hu.keepFresh, hrest⟩

/-- A quoted scalar. On one line, and if it is not too long, it is a candidate where a key is
allowed. -/
theorem next_text {text : Text} (h : s.Stands (level + 1) kinds)
    (htab : .ofChar '\t' ∉ s.cursor.rest)
    (hskip : skipBlanks s.cursor.rest = .ofChar '"' :: (w ++ .ofChar '"' :: rest))
    (hstands : Json.StandsFor w text) (hforeign : ∀ d ∈ w, isForeignBreak d = false) :
    ∃ s' : Lexer, s.Next s' ∧ s'.Stands (level + 1) (.scalar text false :: kinds) ∧
      s'.cursor.rest = rest ∧ (s.keyAllowed = true →
        IsKeySized (.ofChar '"' :: (w ++ [.ofChar '"'])) →
        s'.HasCandidate (.ofChar '"' :: (w ++ [.ofChar '"'])) kinds.length) := by
  obtain ⟨t, spaces, ht, hspaces, hrest, hkeep, -, -, hstep⟩ := h.arrive htab (by
    rw [hskip]
    exact fun d hd => Option.some.inj hd ▸ by decide)
  rw [hskip] at hrest
  obtain ⟨u, hlex, hu, hmoves, hcandidate⟩ :=
    lexQuoted_eq ht (readQuoted_double hstands hforeign hrest)
  have hafter : u.cursor.rest = rest := hmoves.rest_eq (by simpa using hrest)
  refine ⟨u.keepFresh, hu.leave nofun (hstep u ((lexLexeme_quote hrest).trans hlex)) ?_,
    hu.keepFresh, hafter, fun hkey hsized => ?_⟩
  · have hspaces := congrArg List.length hspaces.rest
    have hword := congrArg List.length hmoves.rest
    simp only [List.length_append, List.length_cons] at hspaces hword
    omega
  · have hcount : t.count = kinds.length := by rw [ht.count, ← ht.kinds, List.length_map]
    have hlookup : u.candidates.lookup u.flowLevel = some ⟨kinds.length, false, t.cursor.mark⟩ :=
      hcount ▸ hcandidate (hkeep hkey)
    exact ⟨t.cursor, hmoves, lookup_filter hlookup (isFresh_of_moves hmoves rfl hsized)⟩

theorem next_colon {blanks : Text} (h : s.Stands (level + 1) (kind :: kinds))
    (hcandidate : s.HasCandidate w kinds.length) (htab : .ofChar '\t' ∉ s.cursor.rest)
    (hrest : s.cursor.rest = blanks ++ .ofChar ':' :: rest)
    (hblanks : ∀ d ∈ blanks, Json.isBlank d = true) (hsized : IsKeySized (w ++ blanks)) :
    ∃ s' : Lexer, s.Next s' ∧ s'.Stands (level + 1) (.value :: kind :: .key :: kinds) ∧
      s'.cursor.rest = rest := by
  obtain ⟨start, hword, hlookup⟩ := hcandidate
  have hskip : skipBlanks s.cursor.rest = .ofChar ':' :: rest := by
    have hblank : Json.isBlank (.ofChar ':') = false := by decide
    rw [hrest, skipBlanks_append hblanks, skipBlanks_of_not_isBlank hblank]
  obtain ⟨t, skipped, ht, hmoves, hcolon, -, -, hcandidates, hstep⟩ := h.arrive htab (by
    rw [hskip]
    exact fun d hd => Option.some.inj hd ▸ by decide)
  rw [hskip] at hcolon
  obtain rfl : skipped = blanks := by
    have happend := hmoves.rest
    rw [hcolon, hrest] at happend
    exact (List.append_cancel_right happend).symm
  -- the candidate is still fresh at the colon
  have hfresh : t.candidates.lookup t.flowLevel = some ⟨kinds.length, false, start.mark⟩ := by
    rw [hcandidates, ht.level, ← h.level]
    exact lookup_filter hlookup (isFresh_of_moves (hword.trans hmoves) rfl hsized)
  obtain ⟨u, hlex, hu, hafter⟩ := lexValue_eq ht hcolon hfresh rfl
  refine ⟨u.keepFresh, hu.leave nofun
    (hstep u ((lexLexeme_colon hcolon ht.inFlow).trans hlex)) ?_, hu.keepFresh, hafter⟩
  rw [hafter, hrest, List.length_append, List.length_cons]
  omega

/-- The end of the text. -/
theorem step_end (h : s.Stands 0 kinds) (htab : .ofChar '\t' ∉ s.cursor.rest)
    (hskip : skipBlanks s.cursor.rest = []) :
    ∃ u : Lexer, s.step = .ok u ∧ u.isDone = true ∧
      u.newest.map (·.kind) = .streamEnd :: kinds := by
  obtain ⟨t, w, ht, -, hrest, -, -, -, hstep⟩ := h.arrive htab (by rw [hskip]; nofun)
  obtain ⟨candidates, hdrop, -⟩ := dropCandidate_eq ht.calm
  have hlex : t.lexEnd = .ok (({ t with keyAllowed := false, candidates := [] } : Lexer).emit
      .streamEnd 0) := by
    unfold lexEnd
    rw [unwind_eq ht.outer, hdrop]
    rfl
  have hstep := hstep _ ((lexLexeme_end (hrest.trans hskip)).trans hlex)
  exact ⟨_, hstep, rfl, congrArg (_ :: ·) ht.kinds⟩

end Stands

end CollectionInterfaces.Yaml.Lexer
