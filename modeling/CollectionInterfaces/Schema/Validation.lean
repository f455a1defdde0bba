import CollectionInterfaces.Schema.Basic
import CollectionInterfaces.Schema.Violation
import CollectionInterfaces.Value.Display

/-!
# Reading a schema from a value

The skeleton of a schema is required: collections with a database and a name, attributes with a
key. All violations are reported, in the order of the document. Other entries of an attribute
degrade instead: what does not fit counts as absent.
-/

namespace CollectionInterfaces

/-- A result, or all violations. -/
abbrev Checked (α : Type) := Except (List Violation) α

namespace Checked

/-- A single violation at the place itself. -/
def refuse {α : Type} (r : Requirement) : Checked α := .error [⟨[], r⟩]

/-- The result as seen from one level further out. -/
def under {α : Type} (step : Step) (c : Checked α) : Checked α :=
  c.mapError (·.map (Violation.under step))

/-- Both results, or the violations of both. -/
def both {α β γ : Type} (f : α → β → γ) : Checked α → Checked β → Checked γ
  | .ok a, .ok b => .ok (f a b)
  | .ok _, .error es => .error es
  | .error es, .ok _ => .error es
  | .error es, .error fs => .error (es ++ fs)

/-- All results of a list whose first item has the given index, or the violations of all. -/
def all {α β : Type} (check : α → Checked β) (index : Nat) : List α → Checked (List β)
  | [] => .ok []
  | a :: rest => both List.cons ((check a).under (.item index)) (all check (index + 1) rest)

end Checked

namespace Entries

/-- The value under a key that is a text. -/
def value? (key : Text) (entries : Entries) : Option Value :=
  (entries.find? fun entry => decide (entry.1 = .text key)).map (·.2)

/-- The value under the first of two names, or under the second if the first is absent, with the
name that was found. -/
def either? (first second : Text) (entries : Entries) : Option (Text × Value) :=
  match entries.value? first with
  | some v => some (first, v)
  | none => (entries.value? second).map fun v => (second, v)

end Entries

namespace Value

def text? : Value → Option Text
  | .scalar (.text t) => some t
  | _ => none

/-- A text, or bytes that are the text in UTF-8. -/
def checkText : Value → Checked Text
  | .scalar (.text t) => .ok t
  | .scalar (.bytes b) =>
    match Utf8.decode b with
    | .ok t => .ok t
    | .error _ => .refuse .isUtf8
  | _ => .refuse .isText

def checkList {α : Type} (knots : Knots) (check : Value → Checked α) (v : Value) :
    Checked (List α) :=
  match (knots.untie v).items? with
  | some items => .all check 0 items
  | none => .refuse .isList

end Value

namespace Attribute

/-- The key of an attribute: a text, or any other value as it is displayed. -/
def checkKey (knots : Knots) (v : Value) : Checked Text :=
  match v.text? with
  | some t => .ok t
  | none => if v.allShowable knots then .ok (v.display knots) else .refuse .isShowable

/-- The attribute with a key and the other entries as far as they fit. -/
def ofEntries (entries : Entries) (key : Text) : Attribute where
  key := key
  type := ((entries.value? "type").bind Value.text?).getD []
  required := (entries.value? "required").any Value.isTruthy
  array := (entries.value? "array").any Value.isTruthy
  relationType := (entries.either? "relationType" "relation_type").bind (·.2.text?)
  relatedCollection :=
    (entries.either? "relatedCollection" "related_collection").bind (·.2.text?)

def ofValue (knots : Knots) (v : Value) : Checked Attribute :=
  match (knots.untie v).entries? with
  | none => .refuse (.isObject .attribute)
  | some entries =>
    (Checked.under (.entry "key") (match entries.value? "key" with
      | none => .refuse .present
      | some key => checkKey knots key)).map (ofEntries entries)

end Attribute

namespace Collection

/-- The database of a collection. A violation names the entry that was found. -/
def checkDatabaseId (entries : Entries) : Checked Text :=
  match entries.either? "databaseId" "database_id" with
  | none => (Checked.refuse .present).under (.entry "databaseId")
  | some (key, v) => v.checkText.under (.entry key)

def checkName (entries : Entries) : Checked Text :=
  Checked.under (.entry "name") (match entries.value? "name" with
    | none => .refuse .present
    | some v => v.checkText)

def checkAttributes (knots : Knots) (entries : Entries) : Checked (List Attribute) :=
  Checked.under (.entry "attributes") (match entries.value? "attributes" with
    | none => .ok []
    | some v => v.checkList knots (Attribute.ofValue knots))

def ofValue (knots : Knots) (v : Value) : Checked Collection :=
  match (knots.untie v).entries? with
  | none => .refuse (.isObject .collection)
  | some entries =>
    .both (fun f attributes => f attributes)
      (.both Collection.mk (checkDatabaseId entries) (checkName entries))
      (checkAttributes knots entries)

end Collection

namespace Schema

/-- The collections of a schema. No entry and an entry without value are an empty list. -/
def checkCollections (knots : Knots) (entries : Entries) : Checked (List Collection) :=
  Checked.under (.entry "collections") (match entries.value? "collections" with
    | none => .ok []
    | some (.scalar .null) => .ok []
    | some v => v.checkList knots (Collection.ofValue knots))

def ofValue (knots : Knots) (v : Value) : Checked Schema :=
  match (knots.untie v).entries? with
  | none => .refuse (.isObject .schema)
  | some entries => (checkCollections knots entries).map Schema.mk

def ofDocument (d : Document) : Checked Schema := ofValue d.knots d.root

end Schema

end CollectionInterfaces
