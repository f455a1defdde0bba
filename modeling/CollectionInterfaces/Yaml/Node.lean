import CollectionInterfaces.Yaml.Error
import CollectionInterfaces.Yaml.Tag

/-!
# Nodes of YAML

A document is a graph of nodes, since a node can be named and be used again, inside itself even.
Nodes are numbered in the order in which they start.
-/

namespace CollectionInterfaces.Yaml

abbrev NodeId := Nat

inductive Body
  | scalar (t : Text)
  | sequence (items : List NodeId)
  | mapping (entries : List (NodeId × NodeId))
  deriving DecidableEq, Repr

/-- The kind of node that a body makes. -/
def Body.kind : Body → NodeKind
  | .scalar _ => .scalar
  | .sequence _ => .sequence
  | .mapping _ => .mapping

structure Node where
  tag : Text
  mark : Mark
  body : Body
  deriving DecidableEq, Repr

/-- Nodes by their numbers. -/
abbrev Graph := Array Node

namespace Graph

/-- The node with a number; there is an empty one for every number that is not taken. -/
def node (g : Graph) (id : NodeId) : Node := g[id]?.getD ⟨[], .start, .scalar []⟩

/-- The graph with another body for a node. -/
def setBody (g : Graph) (id : NodeId) (body : Body) : Graph :=
  g.setIfInBounds id { g.node id with body := body }

/-- The graph with another tag for a node. -/
def setTag (g : Graph) (id : NodeId) (tag : Text) : Graph :=
  g.setIfInBounds id { g.node id with tag := tag }

end Graph

end CollectionInterfaces.Yaml
