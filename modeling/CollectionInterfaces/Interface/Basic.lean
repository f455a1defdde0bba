import CollectionInterfaces.Config
import CollectionInterfaces.Interface.Casing
import CollectionInterfaces.Schema.Basic

/-!
# Interfaces

The interface that is declared for a collection, and its text. The types of the fields are the
types of a table, the interfaces of related collections, or the fallback type.
-/

namespace CollectionInterfaces

structure Field where
  key : Text
  optional : Bool
  /-- The type of the field, or of its items. -/
  type : Text
  isArray : Bool
  deriving DecidableEq, Repr

/-- An interface, with everything that its file says. -/
structure Interface where
  /-- The arguments to make the file again. -/
  hint : Text
  variant : Variant
  imports : List Text
  name : Text
  fields : List Field
  deriving DecidableEq, Repr

/-! ## From a collection -/

/-- The types of attributes and the types of their fields. -/
def typeTable : List (Text × Text) :=
  [("string", "string"), ("integer", "number"), ("float", "number"), ("boolean", "boolean"),
    ("email", "string"), ("url", "string"), ("ip", "string"), ("enum", "string"),
    ("datetime", "string")]

namespace Attribute

/-- The type of the field of an attribute. A relationship that names no collection has the fallback
type. -/
def fieldType (fallback : Text) (a : Attribute) : Text :=
  if a.isRelationship then (a.target?.map Text.pascalCase).getD fallback
  else (typeTable.lookup a.type).getD fallback

/-- The field of an attribute holds a list. A relation to many documents does, whatever the
attribute says. -/
def holdsList (a : Attribute) : Bool := a.isToMany || a.array

def toField (fallback : Text) (a : Attribute) : Field :=
  ⟨a.key, !a.required, a.fieldType fallback, a.holdsList⟩

end Attribute

/-- The items of a list without repetitions, each at its first place. -/
def firstOccurrences {α : Type} [DecidableEq α] : List α → List α
  | [] => []
  | a :: rest => a :: (firstOccurrences rest).filter (· ≠ a)

namespace Collection

/-- The name of the interface of a collection. -/
def interfaceName (c : Collection) : Text := c.name.pascalCase

/-- The interfaces of the collections that a collection is related to. -/
def relatedTypes (c : Collection) : List Text :=
  c.attributes.filterMap fun a => a.target?.map Text.pascalCase

/-- The interfaces that the interface of a collection imports: each once, and not itself. -/
def imports (c : Collection) : List Text :=
  (firstOccurrences c.relatedTypes).filter (· ≠ c.interfaceName)

/-- The interface of a collection. -/
def toInterface (config : Config) (c : Collection) : Interface where
  hint := "--input=" ++ config.inputArg ++ " --output=" ++ config.outputArg
  variant := config.variant
  imports := c.imports
  name := c.interfaceName
  fields :=
    (config.defaultFields.map fun (key, type) => ⟨key, false, type, false⟩) ++
      c.attributes.map (Attribute.toField config.fallbackType)

end Collection

/-! ## As text -/

/-- The mark of a list after a type. -/
def arrayMark (isArray : Bool) : Text := if isArray then ("[]" : Text) else []

def Field.render (f : Field) : Text :=
  "  " ++ f.key ++ (if f.optional then ("?" : Text) else []) ++ ": " ++ f.type ++
    arrayMark f.isArray ++ ";"

namespace Interface

/-- The line that imports an interface from the file beside this one. -/
def importLine (name : Text) : Text := "import \x7b " ++ name ++ " \x7d from './" ++ name ++ "';"

def headerLines (hint : Text) : List Text :=
  [ "// This file is auto-generated from Appwrite schema by the " ++
      ("appwrite-interface-generator package" : Text),
    "// Any changes you make here will be overwritten",
    "// To regenerate, run: generate-appwrite-interfaces " ++ hint ]

def opening (i : Interface) : Text :=
  "export interface " ++ i.name ++
    (if i.variant.extendsDocument then (" extends Models.Document" : Text) else []) ++ " \x7b"

/-- The line that imports what an interface extends. -/
def baseImport (v : Variant) : List Text :=
  if v.extendsDocument then ["import \x7b Models \x7d from 'appwrite';"] else []

/-- The lines of an interface. The last one is empty, so that the text ends with a line end. -/
def lines (i : Interface) : List Text :=
  headerLines i.hint ++ baseImport i.variant ++ i.imports.map importLine ++ [[], i.opening] ++
    i.fields.map Field.render ++ [("\x7d" : Text), []]

def render (i : Interface) : Text := Text.join [.lineFeed] i.lines

end Interface

end CollectionInterfaces
