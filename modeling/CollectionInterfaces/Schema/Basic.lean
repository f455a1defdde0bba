import CollectionInterfaces.Text.Basic

/-!
# Schemas

A schema is a list of collections, and a collection has attributes. Of the many entries of a
schema document only those are kept that an interface is made from.
-/

namespace CollectionInterfaces

structure Attribute where
  key : Text
  /-- The type, as the document names it. -/
  type : Text
  /-- A document of the collection must have the attribute. -/
  required : Bool
  array : Bool
  relationType : Option Text
  /-- The collection on the other side of the relation. -/
  relatedCollection : Option Text
  deriving DecidableEq, Repr

structure Collection where
  databaseId : Text
  name : Text
  attributes : List Attribute
  deriving DecidableEq, Repr

structure Schema where
  collections : List Collection
  deriving DecidableEq, Repr

namespace Attribute

/-- The type of an attribute that relates two collections. -/
def relationshipType : Text := "relationship"

def isRelationship (a : Attribute) : Bool := a.type = relationshipType

/-- The end of the relation types that lead to many documents. -/
def toManyEnding : Text := "ToMany"

/-- The relation leads to many documents. -/
def isToMany (a : Attribute) : Bool := a.relationType.any (Text.endsWith toManyEnding)

/-- The related collection of a relationship, if it is named. -/
def target? (a : Attribute) : Option Text :=
  if a.isRelationship then a.relatedCollection.filter (!·.isEmpty) else none

end Attribute

end CollectionInterfaces
