import CollectionInterfaces.Json.Basic

/-!
# Shapes of JSON documents

A shape says which JSON documents are meant, in the words of JSON Schema as far as they are needed
here. It is itself written as a JSON document, with the definitions of the names that it uses.
-/

namespace CollectionInterfaces.Json

/-- What a shape says for a reader. -/
structure Annotations where
  title : Option Text := none
  description : Option Text := none
  /-- The value that is taken for an absent entry. -/
  default : Option Json := none

/-- The kinds of documents without parts that shapes speak of. -/
inductive Kind
  | text
  | bool
  | null
  deriving DecidableEq, Repr

inductive Shape
  | ofKind (notes : Annotations) (kind : Kind)
  | array (notes : Annotations) (elements : Shape)
  /-- An object whose members have shapes and of which some members must be there. -/
  | object (notes : Annotations) (members : List (Text × Shape)) (required : List Text)
  | anyOf (notes : Annotations) (shapes : List Shape)
  /-- A shape that is defined by a name. -/
  | named (name : Text)

/-- A shape with the definitions of the names in it. -/
structure ShapeDocument where
  definitions : List (Text × Shape)
  root : Shape

def Kind.name : Kind → Text
  | .text => "string"
  | .bool => "boolean"
  | .null => "null"

namespace Annotations

def none : Annotations := {}

def titled (t : Text) : Annotations := { title := some t }

def titledWith (t : Text) (default : Json) : Annotations :=
  { title := some t, default := some default }

def described (t description : Text) : Annotations :=
  { title := some t, description := some description }

def members (notes : Annotations) : List (Text × Json) :=
  let member (name : Text) (v : Option Json) : List (Text × Json) := (v.map (name, ·)).toList
  member "title" (notes.title.map .text) ++ member "description" (notes.description.map .text) ++
    member "default" notes.default

end Annotations

namespace Shape

def reference (name : Text) : Text := "#/$defs/" ++ name

/-- A text as the value of a member. -/
def textMember (name : Text) (t : Text) : Text × Json := (name, .text t)

/-- The member that names the members that must be there, if any must be. -/
def requiredMember : List Text → List (Text × Json)
  | [] => []
  | required => [("required", .array (required.map .text))]

mutual

/-- The members that a shape is written as. -/
def toMembers : Shape → List (Text × Json)
  | .ofKind notes kind => textMember "type" kind.name :: notes.members
  | .array notes elements =>
    textMember "type" "array" :: ("items", .object (toMembers elements)) :: notes.members
  | .object notes members required =>
    textMember "type" "object" :: ("properties", .object (memberObjects members)) ::
      requiredMember required ++ notes.members
  | .anyOf notes shapes => ("anyOf", .array (shapeObjects shapes)) :: notes.members
  | .named name => [textMember "$ref" (reference name)]

def memberObjects : List (Text × Shape) → List (Text × Json)
  | [] => []
  | (name, shape) :: rest => (name, .object (toMembers shape)) :: memberObjects rest

def shapeObjects : List Shape → List Json
  | [] => []
  | shape :: rest => .object (toMembers shape) :: shapeObjects rest

end

end Shape

def ShapeDocument.toJson (d : ShapeDocument) : Json :=
  .object (("$defs", .object (Shape.memberObjects d.definitions)) :: d.root.toMembers)

end CollectionInterfaces.Json
