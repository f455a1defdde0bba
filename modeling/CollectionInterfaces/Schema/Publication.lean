import CollectionInterfaces.Disk.Operations
import CollectionInterfaces.Json.Printer
import CollectionInterfaces.Json.Shape

/-!
# The published shape of a schema document

The shape of the documents that a schema is read from, so that an editor can check a document while
it is written.
-/

namespace CollectionInterfaces.Schema

/-- The shape of an entry that is a text or nothing. -/
def optionalTextShape (title : Text) : Json.Shape :=
  .anyOf (.titledWith title .null) [.ofKind .none .text, .ofKind .none .null]

def attributeShape : Json.Shape :=
  .object
    (.described "Attribute"
      "One attribute. Values of the wrong shape degrade instead of failing the load.")
    [ ("key", .ofKind (.titled "Key") .text),
      ("type", .ofKind (.titledWith "Type" (.text [])) .text),
      ("required", .ofKind (.titledWith "Required" (.bool false)) .bool),
      ("array", .ofKind (.titledWith "Array" (.bool false)) .bool),
      ("relationType", optionalTextShape "Relationtype"),
      ("relatedCollection", optionalTextShape "Relatedcollection") ]
    ["key"]

def collectionShape : Json.Shape :=
  .object (.described "Collection" "A collection as declared in appwrite.json.")
    [ ("databaseId", .ofKind (.titled "Databaseid") .text),
      ("name", .ofKind (.titled "Name") .text),
      ("attributes", .array (.titled "Attributes") (.named "Attribute")) ]
    ["databaseId", "name"]

/-- The shape of the documents that a schema is read from. -/
def shape : Json.ShapeDocument where
  definitions := [("Attribute", attributeShape), ("Collection", collectionShape)]
  root :=
    .object
      (.described "appwrite.json (collections)"
        "Top-level appwrite.json document. Only ``collections`` is consulted.")
      [("collections", .array (.titled "Collections") (.named "Collection"))] []

def publishedText : Text := shape.toJson.writeLines 0 ++ [.lineFeed]

/-- The disk with the published text in a file, and with the directories on the way. -/
def publish [i : Interpreter] (d : Disk) (cwd : Location) (p : Path) :
    Disk × Option Disk.WriteFault :=
  match d.makeDirectories cwd p.parent with
  | (d, some fault) => (d, some fault)
  | (d, none) => d.writeText cwd p publishedText

end CollectionInterfaces.Schema
