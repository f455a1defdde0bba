import CollectionInterfaces.Yaml.Token.Lexer

/-!
# Collections inside each other

Tokens open and close collections. Nodes are put together from inside to outside, which takes room
for the collections that are open: no token is asked for in a collection that there is no room for.
-/

namespace CollectionInterfaces.Yaml

/-- A collection that is open between two tokens. -/
inductive OpenCollection
  | blockSequence
  | blockMapping
  /-- A sequence that is not indented, as the key or the value of a mapping. -/
  | looseSequence
  | flowSequence
  | flowMapping
  /-- The mapping that a key makes among the items of a sequence in flow notation. -/
  | loneEntry
  deriving DecidableEq, Repr

/-- The collections around the innermost one, if that is of some form. No token closes it. -/
def leave (form : OpenCollection) : List OpenCollection → List OpenCollection
  | c :: outer => if c = form then outer else c :: outer
  | [] => []

/-- The collections that are open after a token, by those before it; the innermost comes first. -/
def TokenKind.nest (inside : List OpenCollection) : TokenKind → List OpenCollection
  | .blockSequenceStart => .blockSequence :: inside
  | .blockMappingStart => .blockMapping :: inside
  | .flowSequenceStart => .flowSequence :: inside
  | .flowMappingStart => .flowMapping :: inside
  | .blockEntry => if inside.head? = some .blockMapping then .looseSequence :: inside else inside
  | .key =>
    if inside.head? = some .flowSequence then .loneEntry :: inside
    else leave .looseSequence inside
  | .value => leave .looseSequence inside
  | .blockEnd => (leave .looseSequence inside).tail
  | .flowEntry => leave .loneEntry inside
  | .flowSequenceEnd => (leave .loneEntry inside).tail
  | .flowMappingEnd => inside.tail
  | _ => inside

namespace TokenStream

/-- The tokens up to the one that opens one collection more inside others than there is room for,
where some collections are open in front of them. -/
def withinFrom (room : Nat) (e : Option Error) :
    (inside : List OpenCollection) → List Token → TokenStream
  | _, [] => ⟨[], e⟩
  | inside, token :: tokens =>
    let inside := token.kind.nest inside
    if room < inside.length then ⟨[token], some .exhausted⟩
    else
      let rest := withinFrom room e inside tokens
      ⟨token :: rest.tokens, rest.error⟩

/-- The tokens up to the one that opens one collection more inside others than there is room for. -/
def within (room : Nat) (stream : TokenStream) : TokenStream :=
  withinFrom room stream.error [] stream.tokens

end TokenStream

end CollectionInterfaces.Yaml
