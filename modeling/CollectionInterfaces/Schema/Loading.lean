import CollectionInterfaces.Disk.Operations
import CollectionInterfaces.Json.Reader
import CollectionInterfaces.Schema.Validation
import CollectionInterfaces.Yaml.Document

/-!
# Loading a schema

A schema is read from a text in JSON, or in YAML if the ending of its path says so. Of the faults
that can occur most are reported as faults of the document; the others end the program. Among those
are all for which the interpreter has no room.
-/

namespace CollectionInterfaces

inductive LoadFault
  | unreadable (fault : Disk.ReadFault)
  | json (e : Json.ParseError)
  | yaml (e : Yaml.Error)
  /-- The document has no value. -/
  | empty
  | notObject
  | invalid (violations : List Violation)
  /-- There is no room to show a key. -/
  | exhausted
  deriving DecidableEq, Repr

namespace LoadFault

/-- The fault is reported as one of the document. The others are paths that denote no file, numbers
and dates that cannot be made, and what there is no room for. -/
def isReported : LoadFault → Bool
  | .unreadable (.refused ⟨_, .path _⟩) => false
  | .json (.tooManyDigits _) => false
  | .json (.exhausted _) => false
  | .yaml (.conversion _) => false
  | .yaml .exhausted => false
  | .exhausted => false
  | _ => true

/-- What went wrong with the document at a path, without the details. -/
def title (p : Path) : LoadFault → Text
  | .unreadable _ => "Cannot read schema file " ++ p.toText
  | .json _ => "Malformed JSON in " ++ p.toText
  | .yaml _ => "Malformed YAML in " ++ p.toText
  | .empty => "Empty schema file: " ++ p.toText
  | .notObject => "Schema root must be an object: " ++ p.toText
  | .invalid _ | .exhausted => "Invalid schema in " ++ p.toText

def detail? : LoadFault → Option Text
  | .unreadable (.refused r) => some r.message
  | .unreadable (.undecodable e) => some e.message
  | .json e => some e.message
  | .yaml e => some e.summary
  | .empty => none
  | .notObject => none
  | .invalid violations => some (violationSummary .schema violations)
  | .exhausted => some Interpreter.exhaustedMessage

/-- What went wrong with the document at a path. A fault that is not reported has only its
details. -/
def message (p : Path) (fault : LoadFault) : Text :=
  match fault.detail? with
  | none => fault.title p
  | some detail => if fault.isReported then fault.title p ++ ": " ++ detail else detail

end LoadFault

/-- The endings of paths to documents in YAML. -/
def yamlSuffixes : List Text := [".yaml", ".yml"]

/-- The document at a path is in YAML. Upper and lower case make no difference. -/
def Path.isYaml (p : Path) : Bool := yamlSuffixes.contains p.suffix.lowercase

namespace Schema

/-- The document in the text at a path. -/
def readDocument [i : Interpreter] (p : Path) (t : Text) : Except LoadFault Document :=
  if p.isYaml then (Yaml.parse t).mapError .yaml
  else ((Json.parse t).map Json.toDocument).mapError .json

/-- The document in the text at a path, which must be a mapping. -/
def parseObject [i : Interpreter] (p : Path) (t : Text) : Except LoadFault Document := do
  let d ← readDocument p t
  match d.knots.untie d.root with
  | .scalar .null => .error .empty
  | .map _ => .ok d
  | _ => .error .notObject

/-- The items under a key of a mapping, if there are some. -/
def itemsUnder (knots : Knots) (key : Text) (v : Value) : List Value :=
  (((knots.untie v).entries?.bind (Entries.value? key)).bind fun w =>
    (knots.untie w).items?).getD []

/-- The keys of attributes that a document gives, wherever else it is no schema. -/
def givenKeys (d : Document) : List Value :=
  (itemsUnder d.knots "collections" d.root).flatMap fun c =>
    (itemsUnder d.knots "attributes" c).filterMap fun a =>
      (d.knots.untie a).entries?.bind (Entries.value? "key")

/-- There is room to show every key of an attribute. A text is not shown, but taken as it is. -/
def keysFit [i : Interpreter] (d : Document) : Bool :=
  (givenKeys d).all fun key => key.text?.isSome || key.obstacle? d.knots ≠ some .depth

/-- The schema in the text at a path. -/
def parse [i : Interpreter] (p : Path) (t : Text) : Except LoadFault Schema := do
  let d ← parseObject p t
  if keysFit d then (ofDocument d).mapError .invalid else .error .exhausted

/-- The schema in the file at a path. -/
def load [i : Interpreter] (d : Disk) (cwd : Location) (p : Path) : Except LoadFault Schema := do
  let t ← (d.readText cwd p).mapError .unreadable
  parse p t

end Schema

end CollectionInterfaces
