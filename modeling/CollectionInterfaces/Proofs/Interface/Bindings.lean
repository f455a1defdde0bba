import CollectionInterfaces.Generation
import CollectionInterfaces.Proofs.Interface.Imports

/-!
# Names that an interface binds

The imports of an interface are the interfaces of the collections that its attributes relate it to,
each once and in the order in which the attributes come to them, without the interface itself
(`Collection.toInterface_importLaw`). The base of all documents is imported apart from them, under a
name that a collection can have as well. This is the only way in which a name is bound twice
(`Collection.toInterface_bindingLaw`).
-/

namespace CollectionInterfaces

variable {config : Config} {c : Collection} {i : Interface} {s t type fallback : Text}

/-! ## Relation imports -/

namespace Collection

/-- The place of the first attribute that relates a collection to an interface. -/
def firstUse (fallback : Text) (c : Collection) (type : Text) : Nat :=
  c.attributes.findIdx fun a => a.target?.isSome && a.fieldType fallback == type

/-- What holds of the interfaces that the interface of a collection imports. -/
structure ImportLaw (config : Config) (c : Collection) (imports : List Text) : Prop where
  nodup : imports.Nodup
  foreign : c.interfaceName ∉ imports
  /-- The type of a relationship that names a collection is not empty, and it is known: it is the
  own interface or an import. -/
  closed : ∀ a ∈ c.attributes, ∀ target, a.isRelationship = true →
    a.relatedCollection = some target → target ≠ [] →
      (a.toField config.fallbackType).type ≠ [] ∧
        ((a.toField config.fallbackType).type = c.interfaceName ∨
          (a.toField config.fallbackType).type ∈ imports)
  /-- Every import is the type of such a relationship. -/
  used : ∀ type ∈ imports, ∃ a ∈ c.attributes, ∃ target, a.isRelationship = true ∧
    a.relatedCollection = some target ∧ target ≠ [] ∧
      (a.toField config.fallbackType).type = type
  /-- An import stands before another one exactly if it is used first. -/
  ordered : ∀ s ∈ imports, ∀ t ∈ imports, imports.idxOf s < imports.idxOf t ↔
    c.firstUse config.fallbackType s < c.firstUse config.fallbackType t

theorem firstUse_eq : c.firstUse fallback type =
    c.attributes.findIdx fun a => a.target?.map Text.pascalCase == some type := by
  unfold firstUse
  congr 1
  funext a
  cases htarget : a.target? with
  | none => simp
  | some target => simp [Attribute.fieldType_of_target htarget]

theorem imports_nodup (c : Collection) : c.imports.Nodup := (nodup_firstOccurrences _).filter _

/-- What is imported first is used first. -/
theorem idxOf_imports_lt_iff (hs : s ∈ c.imports) (ht : t ∈ c.imports) :
    c.imports.idxOf s < c.imports.idxOf t ↔ c.firstUse fallback s < c.firstUse fallback t := by
  have hs' := (mem_imports.mp hs).2
  have ht' := (mem_imports.mp ht).2
  rw [imports, idxOf_filter_lt_iff (by simpa using hs') (by simpa using ht'),
    idxOf_firstOccurrences_lt_iff, relatedTypes, idxOf_filterMap_lt_iff, firstUse_eq, firstUse_eq]

/-- **Imports are closed, used, without repetition and in order.** -/
theorem toInterface_importLaw (config : Config) (c : Collection) :
    ImportLaw config c (c.toInterface config).imports where
  nodup := c.imports_nodup
  foreign hmem := (mem_imports.mp hmem).2 rfl
  closed a ha target hrelationship hrelated hne := by
    have htarget := Attribute.target?_eq_some_iff.mpr ⟨hrelationship, hrelated, hne⟩
    have htype : (a.toField config.fallbackType).type = target.pascalCase :=
      Attribute.fieldType_of_target htarget
    rw [htype]
    refine ⟨fun hempty => hne (Text.pascalCase_eq_nil_iff.mp hempty), ?_⟩
    by_cases hown : target.pascalCase = c.interfaceName
    · exact .inl hown
    · exact .inr (mem_imports.mpr ⟨mem_relatedTypes.mpr ⟨a, ha, target, htarget, rfl⟩, hown⟩)
  used type htype := by
    obtain ⟨a, ha, target, htarget, rfl⟩ := mem_relatedTypes.mp (mem_imports.mp htype).1
    obtain ⟨hrelationship, hrelated, hne⟩ := Attribute.target?_eq_some_iff.mp htarget
    exact ⟨a, ha, target, hrelationship, hrelated, hne, Attribute.fieldType_of_target htarget⟩
  ordered _ hs _ ht := idxOf_imports_lt_iff hs ht

end Collection

/-! ## All names -/

/-- A statement that imports a name from a source. -/
structure ImportStatement where
  name : Text
  source : Text

def ImportStatement.line (s : ImportStatement) : Text :=
  "import \x7b " ++ s.name ++ " \x7d from '" ++ s.source ++ "';"

namespace Interface

/-- The name that brings the base of all documents. -/
def baseName : Text := "Models"

/-- The import statements for what an interface extends. -/
def baseStatements : Variant → List ImportStatement
  | .document => [⟨baseName, "appwrite"⟩]
  | .plain => []

/-- The import statements of an interface: that of the base, and one for every import. -/
def importStatements (i : Interface) : List ImportStatement :=
  baseStatements i.variant ++ i.imports.map fun name => ⟨name, "./" ++ name⟩

/-- The names that are bound in the text of an interface: those of its import statements, and the
name that it declares. -/
def boundNames (i : Interface) : List Text := i.importStatements.map (·.name) ++ [i.name]

/-- The text of an interface has the lines of its import statements between the comment and an empty
line, and then its declaration. -/
theorem render_eq_join_statements (i : Interface) :
    i.render = Text.join [.lineFeed] (headerLines i.hint ++
      i.importStatements.map ImportStatement.line ++ [] :: i.opening ::
        (i.fields.map Field.render ++ [("\x7d" : Text), []])) := by
  have hbase : (baseStatements i.variant).map ImportStatement.line = baseImport i.variant := by
    cases i.variant <;> rfl
  have himport (name : Text) : ImportStatement.line ⟨name, "./" ++ name⟩ = importLine name := by
    simp [importLine, ImportStatement.line, Text.ofString]
  simp [render, lines, importStatements, hbase, himport, Function.comp_def]

end Interface

namespace Collection

open Interface

theorem boundNames_toInterface (config : Config) (c : Collection) :
    (c.toInterface config).boundNames =
      (baseStatements config.variant).map (·.name) ++ (c.imports ++ [c.interfaceName]) := by
  simp [boundNames, importStatements, toInterface, Function.comp_def]

/-- The imports and the own name are different names. -/
theorem nodup_imports_append (c : Collection) : (c.imports ++ [c.interfaceName]).Nodup := by
  refine List.nodup_append.mpr ⟨c.imports_nodup, by simp, ?_⟩
  rintro s hs _ ht rfl
  rw [List.mem_singleton.mp ht] at hs
  exact (mem_imports.mp hs).2 rfl

theorem baseName_mem_imports_iff (hname : c.interfaceName ≠ baseName) : baseName ∈ c.imports ↔
    ∃ a ∈ c.attributes, a.target?.map Text.pascalCase = some baseName := by
  simp [mem_imports, relatedTypes, hname.symm]

theorem nodup_boundNames_iff (config : Config) (c : Collection) :
    (c.toInterface config).boundNames.Nodup ↔ (config.variant = .document →
      c.interfaceName ≠ baseName ∧
        ∀ a ∈ c.attributes, a.target?.map Text.pascalCase ≠ some baseName) := by
  have hown := c.nodup_imports_append
  rw [boundNames_toInterface]
  cases config.variant with
  | plain => simpa [baseStatements] using hown
  | document =>
    simp only [baseStatements, List.map_cons, List.map_nil, List.singleton_append, List.nodup_cons,
      and_iff_left hown, List.mem_append, List.mem_singleton, not_or, forall_const]
    constructor
    · rintro ⟨himports, hname⟩
      refine ⟨Ne.symm hname, fun a ha htarget => himports ?_⟩
      exact (baseName_mem_imports_iff (Ne.symm hname)).mpr ⟨a, ha, htarget⟩
    · rintro ⟨hname, hrelated⟩
      refine ⟨fun himports => ?_, Ne.symm hname⟩
      obtain ⟨a, ha, htarget⟩ := (baseName_mem_imports_iff hname).mp himports
      exact hrelated a ha htarget

/-- What holds of the names that the text for a collection binds. -/
structure BindingLaw (config : Config) (c : Collection) (i : Interface) : Prop where
  /-- Between the comment and the declaration the text has a line for each import statement. -/
  text : ∃ fields, renderInterface config c = Text.join [.lineFeed] (headerLines i.hint ++
    i.importStatements.map ImportStatement.line ++ [] :: i.opening :: fields)
  /-- No name is bound twice, except for the name of the base where documents are extended: it is
  bound again if the collection or one that it is related to has this name. -/
  nodup_iff : i.boundNames.Nodup ↔ (config.variant = .document → c.interfaceName ≠ baseName ∧
    ∀ a ∈ c.attributes, a.target?.map Text.pascalCase ≠ some baseName)

/-- **Names are bound once**, except for the name of the base of all documents. -/
theorem toInterface_bindingLaw (config : Config) (c : Collection) :
    BindingLaw config c (c.toInterface config) where
  text := ⟨_, render_eq_join_statements (c.toInterface config)⟩
  nodup_iff := nodup_boundNames_iff config c

/-- A relation to a collection called `models` imports the name of the base. -/
example : imports ⟨"db", "a", [⟨"k", "relationship", false, false, none, some "models"⟩]⟩ =
    [baseName] := by
  decide

end Collection

end CollectionInterfaces
