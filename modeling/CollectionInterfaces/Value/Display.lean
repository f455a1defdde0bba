import CollectionInterfaces.Interpreter
import CollectionInterfaces.Number.Shortest
import CollectionInterfaces.Text.Quoted

/-!
# Values as text

A text stands for itself; any other value is shown in a literal notation: lists in brackets,
mappings and sets in braces, pairs in parentheses, text in quotes. A container inside itself is
shown as dots in its brackets. Integers with too many digits are not shown, and neither is what is
too deep inside others.
-/

namespace CollectionInterfaces

def Scalar.literal : Scalar → Text
  | .null => "None"
  | .bool b => if b then "True" else "False"
  | .int n => Text.ofInt n
  | .float x => x.toText
  | .text t => t.quoted
  | .bytes b => Bytes.quoted b
  | .date d => d.call
  | .dateTime t => t.call

def Scalar.display : Scalar → Text
  | .text t => t
  | .date d => d.toText
  | .dateTime t => t.toText " "
  | s => s.literal

inductive Brackets
  | square
  | curly
  | round

def Brackets.enclose : Brackets → Text → Text
  | .square, t => "[" ++ t ++ "]"
  | .curly, t => .ofChar '{' :: t ++ [.ofChar '}']
  | .round, t => "(" ++ t ++ ")"

namespace Value

def brackets : Value → Brackets
  | .map _ => .curly
  | .set _ => .curly
  | .pair _ _ => .round
  | _ => .square

mutual

/-- A value in literal notation, with knots written by `ofKnot`. -/
def literalWith (ofKnot : Nat → Text) : Value → Text
  | .scalar s => s.literal
  | .list items => Brackets.square.enclose (Text.join ", " (itemLiterals ofKnot items))
  | .map entries => Brackets.curly.enclose (Text.join ", " (entryLiterals ofKnot entries))
  | .set members =>
    if members.isEmpty then "set()"
    else Brackets.curly.enclose (Text.join ", " (members.map Scalar.literal))
  | .pair first second =>
    Brackets.round.enclose (literalWith ofKnot first ++ ", " ++ literalWith ofKnot second)
  | .knot number => ofKnot number

/-- The items of a list in literal notation. -/
def itemLiterals (ofKnot : Nat → Text) : List Value → List Text
  | [] => []
  | v :: rest => literalWith ofKnot v :: itemLiterals ofKnot rest

/-- The entries of a mapping in literal notation. -/
def entryLiterals (ofKnot : Nat → Text) : List (Scalar × Value) → List Text
  | [] => []
  | (k, v) :: rest => (k.literal ++ ": " ++ literalWith ofKnot v) :: entryLiterals ofKnot rest

end

/-- A knot in literal notation inside some knots. Inside itself it is shown as dots. `fuel` bounds
the number of knots inside each other. -/
def knotLiteral (knots : Knots) : (fuel : Nat) → (inside : List Nat) → (number : Nat) → Text
  | 0, _, number => (knots.untie (.knot number)).brackets.enclose "..."
  | fuel + 1, inside, number =>
    let v := knots.untie (.knot number)
    if inside.contains number then v.brackets.enclose "..."
    else v.literalWith (knotLiteral knots fuel (number :: inside))

def literal (knots : Knots) (v : Value) : Text :=
  v.literalWith (knotLiteral knots (knots.length + 1) [])

def display (knots : Knots) : Value → Text
  | .scalar s => s.display
  | v => v.literal knots

/-- The least number that has too many digits to be shown. -/
def displayLimit : Nat := Nat.pow 10 Text.maxIntegerDigits

def isShowable : Scalar → Bool
  | .int n => n.natAbs < displayLimit
  | _ => true

mutual

/-- Every integer in the value can be shown, if those in knots can as `ofKnot` tells. -/
def showableWith (ofKnot : Nat → Bool) : Value → Bool
  | .scalar s => isShowable s
  | .list items => itemsShowable ofKnot items
  | .map entries => entriesShowable ofKnot entries
  | .set members => members.all isShowable
  | .pair first second => showableWith ofKnot first && showableWith ofKnot second
  | .knot number => ofKnot number

/-- Every integer in the items can be shown. -/
def itemsShowable (ofKnot : Nat → Bool) : List Value → Bool
  | [] => true
  | v :: rest => showableWith ofKnot v && itemsShowable ofKnot rest

/-- Every integer in the entries can be shown. -/
def entriesShowable (ofKnot : Nat → Bool) : List (Scalar × Value) → Bool
  | [] => true
  | (k, v) :: rest => isShowable k && showableWith ofKnot v && entriesShowable ofKnot rest

end

/-- Every integer in a knot inside some knots can be shown. -/
def knotShowable (knots : Knots) : (fuel : Nat) → (inside : List Nat) → (number : Nat) → Bool
  | 0, _, _ => true
  | fuel + 1, inside, number =>
    inside.contains number ||
      (knots.untie (.knot number)).showableWith (knotShowable knots fuel (number :: inside))

/-- Every integer in the value can be shown. -/
def allShowable (knots : Knots) (v : Value) : Bool :=
  v.showableWith (knotShowable knots (knots.length + 1) [])

/-! ## Room -/

/-- What keeps a value from being shown. -/
inductive Obstacle
  /-- An integer has too many digits. -/
  | longInteger
  /-- There is no room for what is inside others. -/
  | depth
  deriving DecidableEq, Repr

/-- What keeps a scalar from being shown, with room for some values inside each other. -/
def scalarObstacle? (room : Nat) (s : Scalar) : Option Obstacle :=
  if room = 0 then some .depth else if isShowable s then none else some .longInteger

mutual

/-- What keeps a value from being shown first, with room for some values inside each other and knots
kept from it as `ofKnot` tells. -/
def obstacleWith (ofKnot : (room number : Nat) → Option Obstacle) :
    (room : Nat) → Value → Option Obstacle
  | 0, _ => some .depth
  | room + 1, .scalar s => scalarObstacle? (room + 1) s
  | room + 1, .list items => itemsObstacle ofKnot room items
  | room + 1, .map entries => entriesObstacle ofKnot room entries
  | room + 1, .set members => members.findSome? (scalarObstacle? room)
  | room + 1, .pair first second =>
    (obstacleWith ofKnot room first).or (obstacleWith ofKnot room second)
  | room + 1, .knot number => ofKnot (room + 1) number

/-- What keeps the items of a list from being shown first. -/
def itemsObstacle (ofKnot : (room number : Nat) → Option Obstacle) (room : Nat) :
    List Value → Option Obstacle
  | [] => none
  | v :: rest => (obstacleWith ofKnot room v).or (itemsObstacle ofKnot room rest)

/-- What keeps the entries of a mapping from being shown first. -/
def entriesObstacle (ofKnot : (room number : Nat) → Option Obstacle) (room : Nat) :
    List (Scalar × Value) → Option Obstacle
  | [] => none
  | (k, v) :: rest =>
    ((scalarObstacle? room k).or (obstacleWith ofKnot room v)).or
      (entriesObstacle ofKnot room rest)

end

/-- What keeps a knot inside some knots from being shown first. -/
def knotObstacle (knots : Knots) : (fuel : Nat) → (inside : List Nat) → (room number : Nat) →
    Option Obstacle
  | 0, _, _, _ => none
  | fuel + 1, inside, room, number =>
    if inside.contains number then none
    else
      (knots.untie (.knot number)).obstacleWith (knotObstacle knots fuel (number :: inside)) room

/-- What keeps a value from being shown first. -/
def obstacle? [i : Interpreter] (knots : Knots) (v : Value) : Option Obstacle :=
  v.obstacleWith (knotObstacle knots (knots.length + 1) []) i.literalRoom

end Value

end CollectionInterfaces
