import CollectionInterfaces.Yaml.Lexeme.Block
import CollectionInterfaces.Yaml.Lexeme.Plain
import CollectionInterfaces.Yaml.Lexeme.Quoted
import CollectionInterfaces.Yaml.Lexeme.Tag

/-!
# Cutting a YAML text into tokens

A lexer reads one lexeme after another and knows the indentation and the nesting of brackets. A
colon can turn what was read before it into a key: the lexer remembers where a key may have
started, and puts the mark of the key there when it meets the colon. A key stands on one line and
is not longer than 1024 code points.
-/

namespace CollectionInterfaces.Yaml

/-- A place where a key may have started. -/
structure KeyCandidate where
  /-- The number of tokens in front of it. -/
  tokensBefore : Nat
  /-- A key must stand here, since a line of a mapping starts here. -/
  required : Bool
  mark : Mark
  deriving DecidableEq, Repr

/-- A lexer between two lexemes. -/
structure Lexer where
  cursor : Cursor
  /-- The tokens that were found, the last one first. -/
  newest : List Token
  count : Nat
  /-- The number of brackets that are open; too many closing ones make it negative. -/
  flowLevel : Int
  /-- The column of the block collection that is open, or minus one. -/
  indent : Int
  outerIndents : List Int
  keyAllowed : Bool
  /-- The places where keys may have started, by the number of brackets open there. -/
  candidates : List (Int × KeyCandidate)
  deriving DecidableEq, Repr

namespace Lexer

/-- The lexer at the start of a text. -/
def ofText (t : Text) : Lexer :=
  ⟨.ofText t, [⟨.streamStart, .start, .start⟩], 1, 0, -1, [], true, []⟩

def inFlow (s : Lexer) : Bool := s.flowLevel ≠ 0

def column (s : Lexer) : Int := s.cursor.mark.column

def push (s : Lexer) (token : Token) : Lexer :=
  { s with newest := token :: s.newest, count := s.count + 1 }

/-- The lexer with a token more, which ends at a given cursor. -/
def emitTo (s : Lexer) (kind : TokenKind) (after : Cursor) : Lexer :=
  { s.push ⟨kind, s.cursor.mark, after.mark⟩ with cursor := after }

/-- The lexer with a token more, which starts at the cursor and takes `width` code points. -/
def emit (s : Lexer) (kind : TokenKind) (width : Nat) : Lexer :=
  s.emitTo kind (s.cursor.skip width)

/-- The lexer with a token put behind the first `before` tokens. -/
def insertToken (s : Lexer) (before : Nat) (token : Token) : Lexer :=
  let later := s.count - before
  { s with newest := s.newest.take later ++ token :: s.newest.drop later, count := s.count + 1 }

/-- The error that no colon follows a place where a key must be. -/
def missingColon (s : Lexer) (k : KeyCandidate) : Error :=
  .within .tokens .simpleKey k.mark .noColon s.cursor.mark

/-! ## Keys -/

/-- A candidate that can still become a key. -/
def isFresh (s : Lexer) (k : KeyCandidate) : Bool :=
  k.mark.line == s.cursor.mark.line && s.cursor.mark.index - k.mark.index ≤ 1024

/-- The lexer without the candidates that cannot become keys any more. -/
def dropStale (s : Lexer) : Except Error Lexer :=
  match s.candidates.find? fun (_, k) => !s.isFresh k && k.required with
  | some (_, k) => .error (s.missingColon k)
  | none => .ok { s with candidates := s.candidates.filter fun (_, k) => s.isFresh k }

/-- The candidate between the same brackets. -/
def candidate? (s : Lexer) : Option KeyCandidate := s.candidates.lookup s.flowLevel

/-- The lexer without the candidate between the same brackets. -/
def forgetCandidate (s : Lexer) : Lexer :=
  { s with candidates := s.candidates.filter fun (level, _) => level != s.flowLevel }

/-- The lexer after a lexeme has made a key between the same brackets impossible. -/
def dropCandidate (s : Lexer) : Except Error Lexer :=
  match s.candidate? with
  | some k => if k.required then .error (s.missingColon k) else .ok s.forgetCandidate
  | none => .ok s

/-- The lexer with the cursor as a candidate, if a key may start there. -/
def saveCandidate (s : Lexer) : Except Error Lexer :=
  if s.keyAllowed then do
    let t ← s.dropCandidate
    let k : KeyCandidate :=
      ⟨s.count, !s.inFlow && s.indent == s.column, s.cursor.mark⟩
    return { t with candidates := (s.flowLevel, k) :: t.candidates }
  else .ok s

/-! ## Indentation -/

/-- The lexer, in which a block collection is open inside others, after the end of those that are
indented more than a column. -/
def unwindFrom (column : Int) : (indent : Int) → (outer : List Int) → Lexer → Lexer
  | indent, [], s => { s with indent := indent, outerIndents := [] }
  | indent, next :: outer, s =>
    if column < indent then
      unwindFrom column next outer (s.push ⟨.blockEnd, s.cursor.mark, s.cursor.mark⟩)
    else { s with indent := indent, outerIndents := next :: outer }

/-- The lexer after the end of the block collections that are indented more than a column. -/
def unwind (s : Lexer) (column : Int) : Lexer :=
  if s.inFlow then s else unwindFrom column s.indent s.outerIndents s

/-- The lexer with a block collection opened at a column, and whether it was not open yet. -/
def openBlock (s : Lexer) (column : Int) : Lexer × Bool :=
  if s.indent < column then
    ({ s with indent := column, outerIndents := s.indent :: s.outerIndents }, true)
  else (s, false)

/-- The lexer in a block collection at the cursor, with the token that starts it if it is new. -/
def startBlockHere (s : Lexer) (kind : TokenKind) : Lexer :=
  if s.inFlow then s
  else
    match s.openBlock s.column with
    | (t, true) => t.emit kind 0
    | (t, false) => t

/-! ## Lexemes -/

/-- The lexer after blanks, comments and line ends. A key may start on a new line. -/
def skipToLexemeUpTo : (fuel : Text) → Lexer → Lexer
  | [], s => s
  | _ :: fuel, s =>
    let after := (s.cursor.skipWhile isSpace).skipComment
    let (lineEnd, next) := after.lineBreak
    if lineEnd.isEmpty then { s with cursor := after }
    else skipToLexemeUpTo fuel { s with cursor := next, keyAllowed := s.keyAllowed || !s.inFlow }

def skipToLexeme (s : Lexer) : Lexer :=
  let start :=
    if s.cursor.mark.index = 0 ∧ s.cursor.peek = byteOrderMark then s.cursor.next else s.cursor
  skipToLexemeUpTo s.cursor.bound { s with cursor := start }

def lexEnd (s : Lexer) : Except Error Lexer := do
  let t ← (s.unwind (-1)).dropCandidate
  return { t with keyAllowed := false, candidates := [] }.emit .streamEnd 0

def lexDirective (s : Lexer) : Except Error Lexer := do
  let t ← (s.unwind (-1)).dropCandidate
  let (directive, after) ← readDirective t.cursor
  return { t with keyAllowed := false }.emitTo (.directive directive) after

/-- The mark of the start or the end of a document. -/
def lexDocumentMark (kind : TokenKind) (s : Lexer) : Except Error Lexer := do
  let t ← (s.unwind (-1)).dropCandidate
  return { t with keyAllowed := false }.emit kind 3

def lexFlowStart (kind : TokenKind) (s : Lexer) : Except Error Lexer := do
  let t ← s.saveCandidate
  return { t with flowLevel := t.flowLevel + 1, keyAllowed := true }.emit kind 1

def lexFlowEnd (kind : TokenKind) (s : Lexer) : Except Error Lexer := do
  let t ← s.dropCandidate
  return { t with flowLevel := t.flowLevel - 1, keyAllowed := false }.emit kind 1

def lexFlowEntry (s : Lexer) : Except Error Lexer := do
  let t ← s.dropCandidate
  return { t with keyAllowed := true }.emit .flowEntry 1

/-- The mark of an entry of a sequence. -/
def lexBlockEntry (s : Lexer) : Except Error Lexer := do
  require (s.inFlow || s.keyAllowed) (.plain .tokens .misplacedEntry s.cursor.mark)
  let t ← (s.startBlockHere .blockSequenceStart).dropCandidate
  return { t with keyAllowed := true }.emit .blockEntry 1

def lexKey (s : Lexer) : Except Error Lexer := do
  require (s.inFlow || s.keyAllowed) (.plain .tokens .misplacedKey s.cursor.mark)
  let t ← (s.startBlockHere .blockMappingStart).dropCandidate
  return { t with keyAllowed := !s.inFlow }.emit .key 1

/-- The lexer with a candidate turned into a key, which may start a mapping. -/
def confirmKey (s : Lexer) (k : KeyCandidate) : Lexer :=
  let t := s.forgetCandidate.insertToken k.tokensBefore ⟨.key, k.mark, k.mark⟩
  if s.inFlow then t
  else
    match t.openBlock k.mark.column with
    | (u, true) => u.insertToken k.tokensBefore ⟨.blockMappingStart, k.mark, k.mark⟩
    | (u, false) => u

def lexValue (s : Lexer) : Except Error Lexer :=
  match s.candidate? with
  | some k => .ok ({ s.confirmKey k with keyAllowed := false }.emit .value 1)
  | none => do
    require (s.inFlow || s.keyAllowed) (.plain .tokens .misplacedValue s.cursor.mark)
    let t ← (s.startBlockHere .blockMappingStart).dropCandidate
    return { t with keyAllowed := !s.inFlow }.emit .value 1

def lexAnchor (context : Context) (kind : Text → TokenKind) (s : Lexer) :
    Except Error Lexer := do
  let t ← s.saveCandidate
  let (name, after) ← readAnchor context t.cursor
  return { t with keyAllowed := false }.emitTo (kind name) after

def lexTag (s : Lexer) : Except Error Lexer := do
  let t ← s.saveCandidate
  let ((handle, rest), after) ← readTag t.cursor
  return { t with keyAllowed := false }.emitTo (.tag handle rest) after

def lexBlockScalar (folded : Bool) (s : Lexer) : Except Error Lexer := do
  let t ← s.dropCandidate
  let (text, after) ← readBlock folded t.indent t.cursor
  return { t with keyAllowed := true }.emitTo (.scalar text false) after

def lexQuoted (quotes : Quotes) (s : Lexer) : Except Error Lexer := do
  let t ← s.saveCandidate
  let (text, after) ← readQuoted quotes t.cursor
  return { t with keyAllowed := false }.emitTo (.scalar text false) after

/-- A plain scalar. A key may start after it if a line ended. -/
def lexPlain (s : Lexer) : Except Error Lexer := do
  let t ← s.saveCandidate
  let (scalar, after) := readPlain t.inFlow t.indent t.cursor
  let token : Token := ⟨.scalar scalar.text true, t.cursor.mark, scalar.stop⟩
  return { t.push token with cursor := after, keyAllowed := scalar.lineEnded }

def startsPlain (s : Lexer) : Bool :=
  let c := s.cursor.peek
  !(isBlankOrEnd c || isOneOf "-?:,[]\x7b\x7d#&*!|>'\"%@\x60" c) ||
    (!isBlankOrEnd (s.cursor.peekAt 1) &&
      (c = .ofChar '-' || (!s.inFlow && (c = .ofChar '?' || c = .ofChar ':'))))

/-- The mark of an entry, a key or a value at the cursor stands by itself: a blank follows it. -/
def standsAlone (s : Lexer) : Bool := isBlankOrEnd (s.cursor.peekAt 1)

/-- The lexeme at the cursor. -/
def lexLexeme (s : Lexer) : Except Error Lexer :=
  let c := s.cursor.peek
  let lineStart := s.cursor.mark.column = 0
  if c = .null then s.lexEnd
  else if c = .ofChar '%' ∧ lineStart then s.lexDirective
  else if lineStart ∧ s.cursor.atTriple '-' then s.lexDocumentMark .documentStart
  else if lineStart ∧ s.cursor.atTriple '.' then s.lexDocumentMark .documentEnd
  else if c = .ofChar '[' then s.lexFlowStart .flowSequenceStart
  else if c = .ofChar '{' then s.lexFlowStart .flowMappingStart
  else if c = .ofChar ']' then s.lexFlowEnd .flowSequenceEnd
  else if c = .ofChar '}' then s.lexFlowEnd .flowMappingEnd
  else if c = .ofChar ',' then s.lexFlowEntry
  else if c = .ofChar '-' ∧ s.standsAlone then s.lexBlockEntry
  else if c = .ofChar '?' ∧ (s.inFlow ∨ s.standsAlone) then s.lexKey
  else if c = .ofChar ':' ∧ (s.inFlow ∨ s.standsAlone) then s.lexValue
  else if c = .ofChar '*' then s.lexAnchor .alias .alias
  else if c = .ofChar '&' then s.lexAnchor .anchor .anchor
  else if c = .ofChar '!' then s.lexTag
  else if c = .ofChar '|' ∧ !s.inFlow then s.lexBlockScalar false
  else if c = .ofChar '>' ∧ !s.inFlow then s.lexBlockScalar true
  else if c = .ofChar '\'' then s.lexQuoted .single
  else if c = .ofChar '"' then s.lexQuoted .double
  else if s.startsPlain then s.lexPlain
  else .error (.malformed ⟨.tokens, some .nextToken, none, .noToken c, s.cursor.mark⟩)

def isDone (s : Lexer) : Bool := s.newest.head?.any (·.kind = .streamEnd)

/-- The lexer after the next lexeme. -/
def step (s : Lexer) : Except Error Lexer := do
  let t ← s.skipToLexeme.dropStale
  let u ← (t.unwind t.column).lexLexeme
  if u.isDone then return u else u.dropStale

/-- The tokens that are certain: those in front of every place where a key may have started. -/
def certainTokens (s : Lexer) : List Token :=
  let count := s.candidates.foldl (fun n (_, k) => min n k.tokensBefore) s.count
  s.newest.reverse.take count

end Lexer

/-- The tokens of a text, up to an error if there is one. -/
structure TokenStream where
  tokens : List Token
  /-- The error that comes after the tokens. -/
  error : Option Error
  deriving DecidableEq, Repr

namespace Lexer

/-- The tokens from a lexer on, after `fuel` lexemes at most. -/
def run : (fuel : Nat) → Lexer → TokenStream
  | 0, s => ⟨s.newest.reverse, none⟩
  | fuel + 1, s =>
    match s.step with
    | .error e => ⟨s.certainTokens, some e⟩
    | .ok t => if t.isDone then ⟨t.newest.reverse, none⟩ else run fuel t

end Lexer

/-- The tokens of a text. Every lexeme but the end takes a code point. -/
def TokenStream.ofText (t : Text) : TokenStream := (Lexer.ofText t).run (t.length + 2)

end CollectionInterfaces.Yaml
