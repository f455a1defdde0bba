import CollectionInterfaces.Disk.Resolve

/-!
# Configurations

Everything that a run needs besides the schema: where to read and to write, and how the interfaces
look. The two paths are kept as they were given and as they resolve.
-/

namespace CollectionInterfaces

/-- How an interface is declared. -/
inductive Variant
  /-- An extension of the base of all documents, with its system fields. -/
  | document
  | plain
  deriving DecidableEq, Repr

/-- The interfaces of a variant extend the base of all documents. -/
def Variant.extendsDocument (v : Variant) : Bool := v = .document

@[simp] theorem Variant.extendsDocument_document : document.extendsDocument = true := rfl

@[simp] theorem Variant.extendsDocument_plain : plain.extendsDocument = false := rfl

def Variant.name : Variant → Text
  | .document => "document"
  | .plain => "plain"

/-- The variants, the default first. -/
def Variant.all : List Variant := [.document, .plain]

def Variant.ofName? (name : Text) : Option Variant := Variant.all.find? (·.name = name)

/-- Options that a run does not know, in the order of their first appearance. -/
abbrev ExtraOptions := List (Text × Option Text)

structure Config where
  /-- The path of the schema, as it was given. -/
  inputArg : Text
  outputArg : Text
  inputPath : Path
  outputDir : Path
  variant : Variant
  extension : Text
  fallbackType : Text
  /-- Options that are kept and not used. -/
  extraOptions : ExtraOptions
  deriving DecidableEq, Repr

/-- The ending of a file of interfaces, unless another one is asked for. -/
def defaultExtension : Text := ".ts"

/-- The type of an attribute of unknown type, unless another one is asked for. -/
def defaultFallbackType : Text := "any"

/-- What a configuration is made from. -/
structure ConfigArguments where
  input : Text
  output : Text
  base : Path
  variant : Text := Variant.document.name
  extension : Text := defaultExtension
  fallbackType : Text := defaultFallbackType
  /-- Options that are kept and not used. -/
  extraOptions : ExtraOptions := []

inductive ConfigFault
  | unresolved (fault : ResolveFault)
  /-- There is no such variant. The variant is shown as it was given. -/
  | unknownVariant (shown : Text)
  deriving DecidableEq, Repr

def ConfigFault.message : ConfigFault → Text
  | .unresolved fault => fault.message
  | .unknownVariant shown =>
    "Unknown variant " ++ shown ++ ", expected one of " ++
      Text.join ", " (Variant.all.map Variant.name)

namespace Config

/-- The configuration of its arguments. Both paths are resolved before the variant is looked at. -/
def ofArguments (d : Disk) (cwd : Location) (a : ConfigArguments) : Except ConfigFault Config := do
  let inputPath ← (d.resolve cwd (a.base.join (.ofText a.input))).mapError .unresolved
  let outputDir ← (d.resolve cwd (a.base.join (.ofText a.output))).mapError .unresolved
  match Variant.ofName? a.variant with
  | none => .error (.unknownVariant a.variant.quoted)
  | some variant =>
    .ok ⟨a.input, a.output, inputPath, outputDir, variant, a.extension, a.fallbackType,
      a.extraOptions⟩

/-- The interfaces extend the base of all documents. -/
def extendsDocument (c : Config) : Bool := c.variant.extendsDocument

/-- The fields in front of the fields of every collection, with their types. -/
def defaultFields (c : Config) : List (Text × Text) :=
  if c.extendsDocument then [("$sequence", "number")] else []

end Config

end CollectionInterfaces
