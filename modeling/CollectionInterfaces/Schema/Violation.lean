import CollectionInterfaces.Text.Decimal

/-!
# Violations

What is wrong with a value that should be a schema: a place in the value and the requirement that
it violates.
-/

namespace CollectionInterfaces

/-- A step into a value. -/
inductive Step
  | entry (key : Text)
  /-- To an item, counted from zero. -/
  | item (index : Nat)
  deriving DecidableEq, Repr

/-- What an object in a schema document describes. -/
inductive Model
  | schema
  | collection
  | attribute
  deriving DecidableEq, Repr

/-- A requirement that a value violates. -/
inductive Requirement
  | present
  | isText
  | isUtf8
  | isList
  | isObject (model : Model)
  /-- The integers in the value must have no more digits than can be written. -/
  | isShowable
  deriving DecidableEq, Repr

structure Violation where
  /-- The place, from the whole value inwards. -/
  place : List Step
  requirement : Requirement
  deriving DecidableEq, Repr

namespace Violation

/-- The violation as seen from one level further out. -/
def under (step : Step) (v : Violation) : Violation := { v with place := step :: v.place }

end Violation

def Model.noun : Model → Text
  | .schema => "SchemaDocument"
  | .collection => "Collection"
  | .attribute => "Attribute"

def Requirement.code : Requirement → Text
  | .present => "missing"
  | .isText => "string_type"
  | .isUtf8 => "string_unicode"
  | .isList => "list_type"
  | .isObject _ => "model_type"
  | .isShowable => "value_error"

def Requirement.message : Requirement → Text
  | .present => "Field required"
  | .isText => "Input should be a valid string"
  | .isUtf8 => "Input should be a valid string, unable to parse raw data as a unicode string"
  | .isList => "Input should be a valid list"
  | .isObject model => "Input should be a valid dictionary or instance of " ++ model.noun
  | .isShowable => "Value error, " ++ Text.digitLimitExceeded ++ "; " ++ Text.digitLimitAdvice

/-- The number of violations of a model in words. -/
def violationSummary (model : Model) (violations : List Violation) : Text :=
  let count := violations.length
  Text.ofNat count ++ (if count = 1 then (" validation error for " : Text)
    else " validation errors for ") ++ model.noun

end CollectionInterfaces
