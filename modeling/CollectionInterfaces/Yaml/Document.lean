import CollectionInterfaces.Yaml.Node.Grammar
import CollectionInterfaces.Yaml.Scalar
import CollectionInterfaces.Yaml.Token.Nesting

/-!
# Values of YAML documents

A document is read from its text: tokens, nodes, and the value of the root. Mappings can be merged
into others, so the graph of nodes changes while values are made. The contents of collections are
looked at level by level, which fixes which of several errors is reported. In the end the values of
nodes are put together; a node that is used several times is put together once.
-/

namespace CollectionInterfaces.Yaml

def nodeError (n : Node) (problem : Problem) : Error := .plain .values problem n.mark

namespace Graph

def hasTag (g : Graph) (id : NodeId) (tag : CoreTag) : Bool := (g.node id).tag = tag.toText

def entries (g : Graph) (id : NodeId) : List (NodeId × NodeId) :=
  match (g.node id).body with
  | .mapping entries => entries
  | _ => []

/-! ## Merging -/

/-- A step of merging the mappings of a graph. -/
abbrev Merge := StateT Graph (Except Error)

/-- The graph in which the keys of a mapping that stand for a default are texts. -/
def takeDefaults (g : Graph) (id : NodeId) : Graph :=
  (g.entries id).foldl (fun g (key, _) =>
    if g.hasTag key .default then g.setTag key CoreTag.text.toText else g) g

/-- The mappings that the value of a merge key in a mapping at a place stands for. -/
def mergeSources (g : Graph) (mapping : Mark) (value : NodeId) : Except Error (List NodeId) :=
  match (g.node value).body with
  | .mapping _ => .ok [value]
  | .sequence items => .ok items
  | .scalar _ =>
    .error (.within .values .mapping mapping (.notMergeable .scalar) (g.node value).mark)

/-- The entries of a mapping that is merged into one at a place, in which nothing is left to
merge then. -/
def mergeSource (flatten : NodeId → Merge Unit) (mapping : Mark) (source : NodeId) :
    Merge (List (NodeId × NodeId)) := do
  let n := (← get).node source
  match n.body with
  | .mapping _ => do
    flatten source
    return (← get).entries source
  | body => throw (.within .values .mapping mapping (.itemNotMergeable body.kind) n.mark)

/-- The first merge key of a mapping with what is in front of it and behind it. -/
def splitMerge (g : Graph) (id : NodeId) :
    Option (List (NodeId × NodeId) × NodeId × List (NodeId × NodeId)) :=
  match (g.entries id).span fun (key, _) => !g.hasTag key .merge with
  | (before, (_, value) :: after) => some (before, value, after)
  | (_, []) => none

/-- The entries that the merge keys of a mapping stand for. The keys are taken away one after
another, `count` of them at most. -/
def mergeKeys (flatten : NodeId → Merge Unit) (id : NodeId) :
    (count : Nat) → Merge (List (NodeId × NodeId))
  | 0 => return []
  | count + 1 => do
    let g ← get
    match g.splitMerge id with
    | none => return []
    | some (before, value, after) => do
      let g := g.setBody id (.mapping (before ++ after))
      set g
      let sources ← g.mergeSources (g.node id).mark value
      let groups ← sources.mapM (mergeSource flatten (g.node id).mark)
      -- the last entry of a key wins, so that the first one of several mappings comes last
      return groups.reverse.flatten ++ (← mergeKeys flatten id count)

/-- The merge keys of a mapping are replaced by the entries that they stand for. Those go in front
of the others, so that the others win. The key that stands for a default becomes a text. -/
def flattenWithin : (room : Nat) → NodeId → Merge Unit
  | 0, _ => throw .exhausted
  | room + 1, id => do
    modify fun g => g.takeDefaults id
    let count := ((← get).entries id).length
    let merged ← mergeKeys (flattenWithin room) id count
    if !merged.isEmpty then
      modify fun g => g.setBody id (.mapping (merged ++ g.entries id))

/-- The graph after the merge keys of a mapping are replaced. -/
def flatten [i : Interpreter] (g : Graph) (id : NodeId) : Except Error Graph := do
  let (_, g) ← (flattenWithin (i.mergeRoom + 1) id).run g
  return g

/-! ## Defaults -/

/-- The node that a mapping has as a default. -/
def default? (g : Graph) (id : NodeId) : Option NodeId :=
  ((g.entries id).find? fun (key, _) => g.hasTag key .default).map (·.2)

/-- The text of a scalar. A mapping with a default stands for the text of the default. -/
def scalarText (g : Graph) : (room : Nat) → NodeId → Except Error Text
  | room, id =>
    match (g.node id).body, g.default? id, room with
    | .scalar t, _, _ => .ok t
    | body, none, _ => .error (nodeError (g.node id) (.wrongNode .scalar body.kind))
    | _, some _, 0 => .error .exhausted
    | _, some value, room + 1 => g.scalarText room value

end Graph

/-! ## Making values -/

/-- A scalar as a key, with the node that it was read from; what is spelled as the word for no
number comes from no node. -/
structure Key where
  scalar : Scalar
  origin : Option NodeId
  deriving DecidableEq, Repr

/-- Two keys are the same. Keys that are no number have no value to compare: they are the same if
they come from the same node, or from none. -/
def Key.same (a b : Key) : Bool :=
  match a.scalar, b.scalar with
  | .float .nan, .float .nan => a.origin = b.origin
  | s, t => s.sameKey t

/-- The value of a node whose parts are still nodes. -/
inductive Made
  | scalar (k : Key)
  /-- A collection that was not looked into yet. -/
  | pending
  | list (items : List NodeId)
  | map (entries : List (Scalar × NodeId))
  | set (members : List Scalar)
  | pairs (entries : List (NodeId × NodeId))

/-- The values of nodes by the numbers of the nodes, as far as they are made. -/
abbrev MadeValues := Array (Option Made)

structure Maker where
  graph : Graph
  made : MadeValues
  /-- The collections that are still to be looked into, the first one last. -/
  queue : List NodeId

/-- A step of making values. -/
abbrev Make := StateT Maker (Except Error)

namespace Make

def record (id : NodeId) (m : Made) : Make Unit :=
  modify fun s => { s with made := s.made.setIfInBounds id (some m) }

/-- The value of a node, if it is made. -/
def made? (id : NodeId) : Make (Option Made) := return (← get).made[id]?.join

/-- The value of a node that a tag makes a scalar of. -/
def convert [i : Interpreter] (id : NodeId) (tag : CoreTag) : Make Unit := do
  let g := (← get).graph
  let n := g.node id
  if (scalarOf? tag n.mark []).isNone then throw (nodeError n (.unknownTag n.tag))
  let t ← g.scalarText i.defaultRoom id
  if tag = .timestamp ∧ n.body.kind = .mapping then
    throw (.conversion .collectionAsTimestamp)
  match scalarOf? tag n.mark t with
  | some converted =>
    record id (.scalar ⟨← converted, if isNanWord t then none else some id⟩)
  | none => throw (nodeError n (.unknownTag n.tag))

/-- The value of a node of a tag, unless it is made: a scalar at once, a collection later. -/
def visit [Interpreter] (id : NodeId) : Make Unit := do
  if (← made? id).isSome then return
  let n := (← get).graph.node id
  match CoreTag.ofText? n.tag with
  | some .list | some .map | some .set | some .orderedMap | some .pairs => do
    record id .pending
    modify fun s => { s with queue := id :: s.queue }
  | some tag => convert id tag
  | none => throw (nodeError n (.unknownTag n.tag))

/-- The key that a node is, in a mapping at a place. -/
def keyOf [Interpreter] (mapping : Mark) (id : NodeId) : Make Key := do
  visit id
  match ← made? id with
  | some (.scalar key) => return key
  | _ =>
    throw (.within .values .mapping mapping .collectionAsKey ((← get).graph.node id).mark)

/-- An entry of a mapping at a place under its key. -/
def keyedEntry [Interpreter] (mapping : Mark) (entry : NodeId × NodeId) :
    Make (Key × NodeId) := do
  let k ← keyOf mapping entry.1
  visit entry.2
  return (k, entry.2)

def mappingEntries [Interpreter] (id : NodeId) : Make (List (Scalar × NodeId)) := do
  let n := (← get).graph.node id
  match n.body with
  | .mapping _ => do
    let g ← (← get).graph.flatten id
    modify fun s => { s with graph := g }
    let keyed ← (g.entries id).mapM (keyedEntry n.mark)
    let entries := keyed.foldl (fun entries (k, value) => insertEntry Key.same k value entries) []
    return entries.map fun (k, value) => (k.scalar, value)
  | body => throw (nodeError n (.wrongNode .mapping body.kind))

/-- The only entry of an item of a list of pairs at a place. -/
def pairOf [Interpreter] (context : Context) (list : Mark) (item : NodeId) :
    Make (NodeId × NodeId) := do
  let sub := (← get).graph.node item
  match sub.body with
  | .mapping [(key, value)] => do
    visit key
    visit value
    return (key, value)
  | .mapping entries =>
    throw (.within .values context list (.notOneEntry entries.length) sub.mark)
  | body => throw (.within .values context list (.notPair body.kind) sub.mark)

def pairEntries [Interpreter] (context : Context) (id : NodeId) :
    Make (List (NodeId × NodeId)) := do
  let n := (← get).graph.node id
  match n.body with
  | .sequence items => items.mapM (pairOf context n.mark)
  | body => throw (.within .values context n.mark (.notSequence body.kind) n.mark)

/-- The value of a collection, whose parts are visited. -/
def lookInto [Interpreter] (id : NodeId) : Make Made := do
  let n := (← get).graph.node id
  match CoreTag.ofText? n.tag with
  | some .list =>
    match n.body with
    | .sequence items => do
      items.forM visit
      return .list items
    | body => throw (nodeError n (.wrongNode .sequence body.kind))
  | some .set => return .set ((← mappingEntries id).map (·.1))
  | some .orderedMap => return .pairs (← pairEntries .orderedMapping id)
  | some .pairs => return .pairs (← pairEntries .pairs id)
  | _ => return .map (← mappingEntries id)

/-- All collections are looked into, in the order in which they were visited: those that wait, then
those that were visited meanwhile, `fuel` times at most. -/
def lookIntoAll [Interpreter] : (fuel : Nat) → Make Unit
  | 0 => return
  | fuel + 1 => do
    let waiting ← modifyGet fun s => (s.queue.reverse, { s with queue := [] })
    if waiting.isEmpty then return
    waiting.forM fun id => do record id (← lookInto id)
    lookIntoAll fuel

end Make

/-! ## Putting values together -/

structure Assembly where
  values : Array (Option Value)
  /-- The containers among them that are knots. -/
  knots : Knots

/-- A step of putting values together. -/
abbrev Assemble := StateM Assembly

namespace Assemble

/-- The value of a node, which is a container with the given parts. -/
def container (id : NodeId) (v : Value) : Assemble Value := do
  let whole := if v.isKnotted then .knot id else v
  modify fun s =>
    ⟨s.values.setIfInBounds id (some whole), if v.isKnotted then (id, v) :: s.knots else s.knots⟩
  return whole

/-- The value of a node inside containers, at most `fuel` levels deep. A node that is one of the
containers around it makes knots of all of them up to itself. -/
def value [i : Interpreter] (made : MadeValues) : (fuel : Nat) → (inside : List NodeId) → NodeId →
    Assemble Value
  | 0, _, _ => return .scalar .null
  | fuel + 1, inside, id => do
    if let some v := (← get).values[id]?.join then return v
    if inside.contains id then return .knot id
    let part := value made fuel (id :: inside)
    match made[id]?.join with
    | some (.scalar k) => return .scalar k.scalar
    | some (.list items) => container id (.list (← items.mapM part))
    | some (.map entries) =>
      container id (.map (← entries.mapM fun (key, v) => return (key, ← part v)))
    | some (.set members) => container id (.set (i.setOrder members))
    | some (.pairs entries) =>
      container id (.list (← entries.mapM fun (key, v) => return .pair (← part key) (← part v)))
    | _ => return .scalar .null

end Assemble

/-- What a graph of nodes with a root says. -/
def Graph.toDocument [Interpreter] (g : Graph) (root : NodeId) : Except Error Document := do
  let work : Make Unit := do
    Make.visit root
    Make.lookIntoAll (g.size + 1)
  let (_, s) ← work.run ⟨g, .replicate g.size none, []⟩
  let (v, a) := (Assemble.value s.made (g.size + 1) [] root).run ⟨.replicate g.size none, []⟩
  return ⟨v, a.knots⟩

/-! ## Texts -/

def isAllowed (c : CodePoint) : Bool :=
  let n := c.val
  n == 0x09 || n == 0x0A || n == 0x0D || (0x20 ≤ n && n ≤ 0x7E) || n == 0x85 ||
    (0xA0 ≤ n && n ≤ 0xD7FF) || (0xE000 ≤ n && n ≤ 0xFFFD) || 0x10000 ≤ n

/-- What the only document of a text says. A text without a document has no value. -/
def parse [i : Interpreter] (t : Text) : Except Error Document :=
  match t.dropWhile isAllowed with
  | c :: rest => .error (.forbidden (t.length - rest.length - 1) c)
  | [] => do
    let (g, root?) ← ((TokenStream.ofText t).within i.yamlRoom).toGraph
    match root? with
    | some root => g.toDocument root
    | none => return ⟨.scalar .null, []⟩

end CollectionInterfaces.Yaml
