import CollectionInterfaces.Yaml.Node
import CollectionInterfaces.Yaml.Token.Lexer

/-!
# From tokens to nodes

The grammar of YAML over tokens. Names of nodes and shorthands of tags are looked up on the way, so
the first error in the order of the text is the one that is reported. Tokens are asked for one after
another: an error after them counts only if they do not suffice.
-/

namespace CollectionInterfaces.Yaml

/-- What is known between two tokens. -/
structure Builder where
  /-- The tokens that follow. -/
  tokens : List Token
  /-- The shorthands of tags and what they stand for. -/
  shorthands : List (Text × Text)
  graph : Graph
  anchors : List (Text × NodeId)

/-- Why nodes are not put together. -/
inductive GrammarFault
  | malformed (m : Malformation)
  /-- A token is asked for, and there are no more of them. -/
  | wanting
  deriving DecidableEq, Repr

/-- A step of putting nodes together. -/
abbrev Build := StateT Builder (Except GrammarFault)

namespace Build

def defaultShorthands : List (Text × Text) := [("!", "!"), ("!!", CoreTag.space)]

def fail {α : Type} (context : Context) (contextMark : Mark) (problem : Problem) (mark : Mark) :
    Build α :=
  throw (.malformed (.within .grammar context contextMark problem mark))

def peek : Build Token := do
  match (← get).tokens with
  | token :: _ => return token
  | [] => throw .wanting

def take : Build Token := do
  let token ← peek
  modify fun s => { s with tokens := s.tokens.tail }
  return token

/-- The next token is of one of some kinds. -/
def nextIs (kinds : List TokenKind) : Build Bool := do return kinds.contains (← peek).kind

def addNode (n : Node) : Build NodeId :=
  modifyGet fun s => (s.graph.size, { s with graph := s.graph.push n })

def emptyScalar (mark : Mark) : Build NodeId :=
  addNode ⟨(tagByLook []).toText, mark, .scalar []⟩

/-! ## Properties of a node -/

/-- What stands in front of the content of a node. -/
structure Properties where
  anchor : Option Text
  tag : Option Text
  start : Option Mark

/-- The name at the next token, if one stands there. -/
def anchor? : Build (Option (Text × Mark)) := do
  let token ← peek
  match token.kind with
  | .anchor name => do
    let _ ← take
    return some (name, token.start)
  | _ => return none

/-- The tag at the next token, if one stands there. -/
def tag? : Build (Option ((Option Text × Text) × Mark)) := do
  let token ← peek
  match token.kind with
  | .tag handle rest => do
    let _ ← take
    return some ((handle, rest), token.start)
  | _ => return none

def fullTag (start : Mark) (tag : (Option Text × Text) × Mark) : Build Text := do
  match tag with
  | ((none, rest), _) => return rest
  | ((some handle, rest), mark) =>
    match (← get).shorthands.lookup handle with
    | some beginning => return beginning ++ rest
    | none => fail .node start (.unknownShorthand handle) mark

/-- The properties in front of a node: a name and a tag in either order. -/
def properties : Build Properties := do
  match ← anchor? with
  | some (name, start) => do
    match ← tag? with
    | some tag => return ⟨some name, some (← fullTag start tag), some start⟩
    | none => return ⟨some name, none, some start⟩
  | none =>
    match ← tag? with
    | some tag => do
      let anchor ← anchor?
      return ⟨anchor.map (·.1), some (← fullTag tag.2 tag), some tag.2⟩
    | none => return ⟨none, none, none⟩

/-- The tag that leaves the choice to the look of a node. -/
def byLookTag : Text := "!"

/-- The tag of a node with properties, which is the given one unless they tell. -/
def Properties.tagOr (p : Properties) (tag : CoreTag) : Text :=
  match p.tag with
  | some t => if t = byLookTag then tag.toText else t
  | none => tag.toText

/-- The tag of a scalar. A scalar in quotes is a text unless its tag leaves the choice. -/
def Properties.scalarTag (p : Properties) (plain : Bool) (t : Text) : Text :=
  p.tagOr (if plain || p.tag = some byLookTag then tagByLook t else .text)

/-- A new node with properties. A name must be new. -/
def addNamed (p : Properties) (n : Node) : Build NodeId := do
  if let some name := p.anchor then
    if let some first := (← get).anchors.lookup name then
      throw (.malformed (.within .names (.firstAnchor name) ((← get).graph.node first).mark
        .secondAnchor n.mark))
  let id ← addNode n
  if let some name := p.anchor then
    modify fun s => { s with anchors := (name, id) :: s.anchors }
  return id

def aliased (name : Text) (mark : Mark) : Build NodeId := do
  match (← get).anchors.lookup name with
  | some id => return id
  | none => throw (.malformed (.plain .names (.unknownAlias name) mark))

def setBody (id : NodeId) (body : Body) : Build Unit :=
  modify fun s => { s with graph := s.graph.setBody id body }

/-! ## Nodes -/

/-- Which nodes can stand at a place. -/
inductive Notation
  /-- Nodes between brackets. -/
  | flow
  /-- All nodes. -/
  | block
  /-- All nodes, and sequences that are not indented. -/
  | entry
  deriving DecidableEq, Repr

/-- The tokens after the mark of a key or a value in block notation that leave it empty. -/
def blockEnds : List TokenKind := [.key, .value, .blockEnd]

mutual

/-- A node; `fuel` bounds the number of steps. -/
def node : (fuel : Nat) → Notation → Build NodeId
  | 0, _ => do throw (.malformed (.plain .grammar (.noContent (← peek).kind) (← peek).start))
  | fuel + 1, allowed => do
    let token ← peek
    if let .alias name := token.kind then
      let _ ← take
      return ← aliased name token.start
    let p ← properties
    let token ← peek
    let start := p.start.getD token.start
    match token.kind, allowed with
    | .blockEntry, .entry => do
      let id ← addNamed p ⟨p.tagOr .list, start, .sequence []⟩
      setBody id (.sequence (← looseItems fuel))
      return id
    | .scalar t plain, _ => do
      let _ ← take
      addNamed p ⟨p.scalarTag (plain && p.tag.isNone) t, start, .scalar t⟩
    | .flowSequenceStart, _ => do
      let id ← addNamed p ⟨p.tagOr .list, start, .sequence []⟩
      let _ ← take
      setBody id (.sequence (← flowItems fuel token.start true))
      return id
    | .flowMappingStart, _ => do
      let id ← addNamed p ⟨p.tagOr .map, start, .mapping []⟩
      let _ ← take
      setBody id (.mapping (← flowEntries fuel token.start true))
      return id
    | kind, _ =>
      if kind = .blockSequenceStart ∧ allowed ≠ .flow then
        let id ← addNamed p ⟨p.tagOr .list, start, .sequence []⟩
        let _ ← take
        setBody id (.sequence (← blockItems fuel token.start))
        return id
      else if kind = .blockMappingStart ∧ allowed ≠ .flow then
        let id ← addNamed p ⟨p.tagOr .map, start, .mapping []⟩
        let _ ← take
        setBody id (.mapping (← blockEntries fuel token.start))
        return id
      -- properties with no content after them are those of an empty scalar
      else if p.start.isSome then
        addNamed p ⟨p.scalarTag p.tag.isNone [], start, .scalar []⟩
      else
        fail (if allowed = .flow then .flowNode else .blockNode) start (.noContent kind) token.start

/-- A node, or an empty scalar at a place if one of some tokens follows. -/
def nodeUnless : (fuel : Nat) → List TokenKind → Notation → Mark → Build NodeId
  | 0, _, _, mark => emptyScalar mark
  | fuel + 1, ends, allowed, mark => do
    if ← nextIs ends then emptyScalar mark else node fuel allowed

/-- The node after the mark of a value, or an empty scalar if there is no such mark. -/
def valueUnless : (fuel : Nat) → List TokenKind → Notation → Build NodeId
  | 0, _, _ => do emptyScalar (← peek).start
  | fuel + 1, ends, allowed => do
    if ← nextIs [.value] then
      let mark ← take
      nodeUnless fuel ends allowed mark.stop
    else emptyScalar (← peek).start

/-- The items of a sequence in block notation that starts at a place. -/
def blockItems : (fuel : Nat) → Mark → Build (List NodeId)
  | 0, _ => return []
  | fuel + 1, start => do
    let token ← peek
    if token.kind = .blockEntry then
      let _ ← take
      let item ← nodeUnless fuel [.blockEntry, .blockEnd] .block token.stop
      return item :: (← blockItems fuel start)
    else if token.kind = .blockEnd then
      let _ ← take
      return []
    else fail .blockCollection start (.noBlockEnd token.kind) token.start

/-- The items of a sequence that is not indented. -/
def looseItems : (fuel : Nat) → Build (List NodeId)
  | 0 => return []
  | fuel + 1 => do
    let token ← peek
    if token.kind = .blockEntry then
      let _ ← take
      let item ← nodeUnless fuel (.blockEntry :: blockEnds) .block token.stop
      return item :: (← looseItems fuel)
    else return []

/-- The entries of a mapping in block notation that starts at a place. -/
def blockEntries : (fuel : Nat) → Mark → Build (List (NodeId × NodeId))
  | 0, _ => return []
  | fuel + 1, start => do
    let token ← peek
    if token.kind = .key then
      let _ ← take
      let key ← nodeUnless fuel blockEnds .entry token.stop
      let value ← valueUnless fuel blockEnds .entry
      return (key, value) :: (← blockEntries fuel start)
    else if token.kind = .blockEnd then
      let _ ← take
      return []
    else fail .blockMapping start (.noBlockEnd token.kind) token.start

/-- The items of a sequence in flow notation that starts at a place. A key among them makes a
mapping with one entry. -/
def flowItems : (fuel : Nat) → Mark → (first : Bool) → Build (List NodeId)
  | 0, _, _ => return []
  | fuel + 1, start, first => do
    if ← nextIs [.flowSequenceEnd] then
      let _ ← take
      return []
    if !first then
      let token ← peek
      if token.kind = .flowEntry then
        let _ ← take
      else fail .flowSequence start (.noSequenceEnd token.kind) token.start
    let token ← peek
    if token.kind = .key then
      let _ ← take
      let id ← addNode ⟨CoreTag.map.toText, token.start, .mapping []⟩
      let key ← nodeUnless fuel [.value, .flowEntry, .flowSequenceEnd] .flow token.stop
      let value ← valueUnless fuel [.flowEntry, .flowSequenceEnd] .flow
      setBody id (.mapping [(key, value)])
      return id :: (← flowItems fuel start false)
    else if token.kind = .flowSequenceEnd then
      let _ ← take
      return []
    else
      let item ← node fuel .flow
      return item :: (← flowItems fuel start false)

/-- The entries of a mapping in flow notation that starts at a place. A node without the mark of a
key is a key without a value. -/
def flowEntries : (fuel : Nat) → Mark → (first : Bool) → Build (List (NodeId × NodeId))
  | 0, _, _ => return []
  | fuel + 1, start, first => do
    if ← nextIs [.flowMappingEnd] then
      let _ ← take
      return []
    if !first then
      let token ← peek
      if token.kind = .flowEntry then
        let _ ← take
      else fail .flowMapping start (.noMappingEnd token.kind) token.start
    let token ← peek
    if token.kind = .key then
      let _ ← take
      let key ← nodeUnless fuel [.value, .flowEntry, .flowMappingEnd] .flow token.stop
      let value ← valueUnless fuel [.flowEntry, .flowMappingEnd] .flow
      return (key, value) :: (← flowEntries fuel start false)
    else if token.kind = .flowMappingEnd then
      let _ ← take
      return []
    else
      let key ← node fuel .flow
      let value ← emptyScalar (← peek).start
      return (key, value) :: (← flowEntries fuel start false)

end

/-! ## Documents -/

/-- The shorthands with one more, which must be new. -/
def addShorthand (handle beginning : Text) (mark : Mark) : Build Unit := do
  let s ← get
  if (s.shorthands.lookup handle).isSome then
    throw (.malformed (.plain .grammar (.secondShorthand handle) mark))
  set { s with shorthands := s.shorthands ++ [(handle, beginning)] }

/-- The directives in front of a document, `fuel` at most. -/
def directives : (fuel : Nat) → (versionSeen : Bool) → Build Unit
  | 0, _ => return
  | fuel + 1, versionSeen => do
    let token ← peek
    match token.kind with
    | .directive (.version major _) => do
      let _ ← take
      if versionSeen then throw (.malformed (.plain .grammar .secondVersion token.start))
      if major ≠ 1 then throw (.malformed (.plain .grammar .wrongVersion token.start))
      directives fuel true
    | .directive (.shorthand handle beginning) => do
      let _ ← take
      addShorthand handle beginning token.start
      directives fuel versionSeen
    | .directive (.other _) => do
      let _ ← take
      directives fuel versionSeen
    | _ => return

/-- The head of a document: directives and the mark of its start. -/
def documentHead (fuel : Nat) : Build Unit := do
  modify fun s => { s with shorthands := [] }
  directives fuel false
  modify fun s => { s with shorthands := s.shorthands ++ defaultShorthands }
  let token ← peek
  if token.kind = .documentStart then
    let _ ← take
  else throw (.malformed (.plain .grammar (.noDocumentStart token.kind) token.start))

def nextIsDirective : Build Bool := do
  match (← peek).kind with
  | .directive _ => return true
  | _ => return false

/-- The content of a document after its head. -/
def documentContent (fuel : Nat) : Build NodeId := do
  let stops ← nextIs [.documentStart, .documentEnd, .streamEnd]
  if stops || (← nextIsDirective) then emptyScalar (← peek).start
  else node fuel .block

/-- Marks of the end of a document, `fuel` at most. -/
def documentEnds : (fuel : Nat) → Build Unit
  | 0 => return
  | fuel + 1 => do
    if ← nextIs [.documentEnd] then
      let _ ← take
      documentEnds fuel
    else return

def streamEnd (fuel : Nat) (root : NodeId) : Build Unit := do
  documentEnds fuel
  if ← nextIs [.streamEnd] then return
  let start := (← peek).start
  documentHead fuel
  throw (.malformed (.within .names .singleDocument ((← get).graph.node root).mark .secondDocument
    start))

/-- The only document of a text, if there is one. -/
def singleDocument (fuel : Nat) : Build (Option NodeId) := do
  let _ ← take
  if ← nextIs [.streamEnd] then return none
  let explicit ← (do return (← nextIs [.documentStart]) || (← nextIsDirective))
  let root ←
    if explicit then do
      documentHead fuel
      documentContent fuel
    else node fuel .block
  streamEnd fuel root
  return some root

end Build

/-- The nodes of the only document that tokens make, with the number of its root if there is one. -/
def Graph.ofTokens (tokens : List Token) : Except GrammarFault (Graph × Option NodeId) := do
  let fuel := 4 * tokens.length + 8
  let (root, s) ← (Build.singleDocument fuel).run ⟨tokens, Build.defaultShorthands, #[], []⟩
  return (s.graph, root)

/-- The nodes of the only document of a text. The error after its tokens counts if they are not
enough. -/
def TokenStream.toGraph (stream : TokenStream) : Except Error (Graph × Option NodeId) :=
  (Graph.ofTokens stream.tokens).mapError fun
    | .malformed m => .malformed m
    | .wanting => stream.error.getD (.plain .grammar (.noContent .streamEnd) .start)

end CollectionInterfaces.Yaml
