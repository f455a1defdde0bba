import CollectionInterfaces.Value.Basic

/-!
# What an interpreter leaves open

The program calls itself for what is inside each other: containers of a text, mappings that are
merged, directories that are missing. Its interpreter has room for a number of such calls and ends
it with an error of its own at one call too many. The interpreter also has an order in which it
goes through a set, another one in another process. Both are left open here.
-/

namespace CollectionInterfaces

/-- What the interpreter of a run leaves open. A room is a number of calls inside each other. What
is done inside the innermost of them needs room, too, so that the rooms are those of one run. -/
class Interpreter where
  /-- The room for arrays and objects while a JSON text is read. -/
  jsonRoom : Nat
  /-- The room for collections while the nodes of a YAML text are put together. -/
  yamlRoom : Nat
  /-- The room for mappings that are merged into a mapping. -/
  mergeRoom : Nat
  /-- The room for mappings that stand for their defaults. -/
  defaultRoom : Nat
  /-- The room for containers while a value is shown. -/
  literalRoom : Nat
  /-- The room for directories that are missing on the way to a directory. -/
  directoryRoom : Nat
  /-- The members of a set in the order in which the interpreter goes through them. -/
  setOrder : List Scalar → List Scalar
  setOrder_perm (members : List Scalar) : (setOrder members).Perm members
  /-- There is room for the objects and arrays that every schema document has. -/
  schema_fits : 5 ≤ jsonRoom
  /-- There is as much room for showing values as for reading them. -/
  literal_fits : jsonRoom ≤ literalRoom

namespace Interpreter

/-- The beginning of the message about one call too many. Most messages go on with what was being
done. -/
def exhaustedMessage : Text := "maximum recursion depth exceeded"

/-- An interpreter with a thousand calls altogether, which keeps the members of a set in the order
of their first appearance. -/
@[reducible]
def usual : Interpreter where
  jsonRoom := 990
  yamlRoom := 490
  mergeRoom := 980
  defaultRoom := 980
  literalRoom := 993
  directoryRoom := 980
  setOrder members := members
  setOrder_perm := .refl
  schema_fits := by decide
  literal_fits := by decide

/-- The same interpreter in a process that goes through sets in another order. -/
@[reducible]
def reordered (i : Interpreter) (order : List Scalar → List Scalar)
    (h : ∀ members, (order members).Perm members) : Interpreter :=
  { i with setOrder := order, setOrder_perm := h }

end Interpreter

end CollectionInterfaces
