import CollectionInterfaces.Calendar
import CollectionInterfaces.Number.Binary64
import CollectionInterfaces.Text.Utf8

/-!
# Values

What a document says, whichever notation it is written in. Keys of mappings and members of sets
are scalars. A container can stand inside itself; it is kept beside the value of the document then,
and has a number wherever it stands.
-/

namespace CollectionInterfaces

/-- A value without parts. -/
inductive Scalar
  | null
  | bool (b : Bool)
  | int (n : Int)
  | float (x : Binary64)
  | text (t : Text)
  | bytes (b : Bytes)
  | date (d : Date)
  | dateTime (t : DateTime)
  deriving DecidableEq, Repr

/-- A value of a document. -/
inductive Value
  | scalar (s : Scalar)
  | list (items : List Value)
  /-- A mapping, in the order of its keys' first appearance. -/
  | map (entries : List (Scalar × Value))
  /-- A set, in the order in which the interpreter goes through it. -/
  | set (members : List Scalar)
  /-- An entry of an ordered mapping that may repeat keys. -/
  | pair (first second : Value)
  /-- A knot of the document, by its number. -/
  | knot (number : Nat)

/-- The knots of a document: the containers in which one can go from part to part without end,
since they lead back to themselves or to others that do. Each of them has a number. -/
abbrev Knots := List (Nat × Value)

/-- What a document says. A value without knots is a finite tree. -/
structure Document where
  root : Value
  knots : Knots

/-- The container that a value is, if it is a knot; any other value is itself. -/
def Knots.untie (knots : Knots) : Value → Value
  | .knot number => (knots.lookup number).getD (.scalar .null)
  | v => v

abbrev Entries := List (Scalar × Value)

namespace Scalar

/-- The number that a scalar counts as when keys are compared: truth values count as zero and
one. -/
def asInt? : Scalar → Option Int
  | .int n => some n
  | .bool b => some b.toNat
  | _ => none

/-- Two scalars are the same key. Numbers are compared by value, whatever their kind, and what is no
number is the same as nothing; times are compared by the moment they denote. -/
def sameKey : Scalar → Scalar → Bool
  | .float x, .float y => x.sameValue y
  | .dateTime a, .dateTime b => a.sameMoment b
  | .float x, b => b.asInt?.any (x.equalsInt ·)
  | a, .float y => a.asInt?.any (y.equalsInt ·)
  | a, b =>
    match a.asInt?, b.asInt? with
    | some m, some n => m == n
    | _, _ => a == b

/-- The scalar counts as true in a condition. -/
def isTruthy : Scalar → Bool
  | .null => false
  | .bool b => b
  | .int n => n != 0
  | .float x => !x.isZero
  | .text t => !t.isEmpty
  | .bytes b => !b.isEmpty
  | .date _ => true
  | .dateTime _ => true

end Scalar

/-- A list of entries with the value of a key replaced in place, or the entry added at the end if
the key is new. -/
def insertEntry {κ ν : Type} (same : κ → κ → Bool) (key : κ) (value : ν) :
    List (κ × ν) → List (κ × ν)
  | [] => [(key, value)]
  | (k, v) :: rest =>
    if same k key then (k, value) :: rest else (k, v) :: insertEntry same key value rest

namespace Value

/-- The items of a list or a set. -/
def items? : Value → Option (List Value)
  | .list items => some items
  | .set members => some (members.map .scalar)
  | _ => none

def entries? : Value → Option Entries
  | .map entries => some entries
  | _ => none

/-- A knot, or a pair with a knot in it. -/
def hasKnot : Value → Bool
  | .knot _ => true
  | .pair first second => first.hasKnot || second.hasKnot
  | _ => false

/-- One of the parts of a container has a knot, which makes a knot of the container. -/
def isKnotted : Value → Bool
  | .list items => items.any hasKnot
  | .map entries => entries.any fun entry => entry.2.hasKnot
  | _ => false

/-- The value counts as true in a condition: a container does unless it is empty, which a knot
never is. -/
def isTruthy : Value → Bool
  | .scalar s => s.isTruthy
  | .list items => !items.isEmpty
  | .map entries => !entries.isEmpty
  | .set members => !members.isEmpty
  | .pair _ _ => true
  | .knot _ => true

end Value

end CollectionInterfaces
