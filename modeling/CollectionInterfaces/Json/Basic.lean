import CollectionInterfaces.Value.Basic

/-!
# JSON documents

The type of JSON documents and the value that a document denotes. Beyond the standard, numbers may
be infinite or no number at all, and texts may hold surrogates standing alone.
-/

namespace CollectionInterfaces

inductive Json
  | null
  | bool (b : Bool)
  /-- A number without fraction and exponent. -/
  | int (n : Int)
  /-- Any other number. -/
  | float (x : Binary64)
  | text (t : Text)
  | array (elements : List Json)
  /-- An object, in the order of its names' first appearance. -/
  | object (members : List (Text × Json))

namespace Json

mutual

def toValue : Json → Value
  | .null => .scalar .null
  | .bool b => .scalar (.bool b)
  | .int n => .scalar (.int n)
  | .float x => .scalar (.float x)
  | .text t => .scalar (.text t)
  | .array elements => .list (elementValues elements)
  | .object members => .map (memberValues members)

/-- The values of the elements of an array. -/
def elementValues : List Json → List Value
  | [] => []
  | v :: rest => toValue v :: elementValues rest

/-- The values of the members of an object. -/
def memberValues : List (Text × Json) → List (Scalar × Value)
  | [] => []
  | (name, v) :: rest => (.text name, toValue v) :: memberValues rest

end

/-- What a document says. There are no knots in JSON. -/
def toDocument (j : Json) : Document := ⟨j.toValue, []⟩

end Json

end CollectionInterfaces
