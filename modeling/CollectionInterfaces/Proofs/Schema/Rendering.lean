import CollectionInterfaces.Proofs.Interface.Reading
import CollectionInterfaces.Proofs.Schema.Entries

/-!
# What an interface says of a document

The interface of a collection can be said by the entries of the collection's document alone
(`Collection.givenInterface`). If the names in the document are plain, this is what is read from the
text that is rendered for the collection (`Schema.read?_renderInterface`).
-/

namespace CollectionInterfaces

open Json

namespace Json

variable {v : Json} {first second : Text}

theorem either?_of_isSome_imp (h : (v.member? second).isSome → (v.member? first).isSome) :
    v.either? first second = v.member? first := by
  unfold either?
  cases hfirst : v.member? first with
  | some w => rfl
  | none =>
    cases hsecond : v.member? second with
    | some w => simp [hfirst, hsecond] at h
    | none => rfl

end Json

/-! ## Plain documents -/

/-- The key and the related collection of an attribute are plain names, and the other names of
entries are used only beside the ones that are read first. -/
structure Attribute.HasPlainNames (v : Json) : Prop where
  key : ∃ t, v.member? "key" = some (.text t) ∧ t.IsPlain
  relatedCollection : ∀ t ∈ v.textUnder? "relatedCollection", t.IsPlain
  relationTypeName : (v.member? "relation_type").isSome → (v.member? "relationType").isSome
  relatedCollectionName :
    (v.member? "related_collection").isSome → (v.member? "relatedCollection").isSome

/-- The name of a collection and the names in its attributes are plain. -/
structure Collection.HasPlainNames (v : Json) : Prop where
  name : ∀ t ∈ v.textUnder? "name", t.IsPlain
  attributes : ∀ e ∈ v.elementsUnder "attributes", Attribute.HasPlainNames e

/-- The names in all collections are plain. -/
def Schema.HasPlainNames (v : Json) : Prop :=
  ∀ e ∈ v.elementsUnder "collections", Collection.HasPlainNames e

/-- The fallback type is a plain name, and the arguments are on one line. -/
structure Config.IsPlain (config : Config) : Prop where
  inputArg : .lineFeed ∉ config.inputArg
  outputArg : .lineFeed ∉ config.outputArg
  fallbackType : config.fallbackType.IsPlain

/-! ## Attributes -/

namespace Attribute

/-- The collection that the document of an attribute relates to, if it names one. -/
def givenTarget? (v : Json) : Option Text :=
  if v.textUnder? "type" = some "relationship" then
    (v.textUnder? "relatedCollection").filter (!·.isEmpty)
  else none

/-- The type of the field for the document of an attribute. -/
def givenType (fallback : Text) (v : Json) : Text :=
  match givenTarget? v with
  | some target => target.pascalCase
  | none => ((v.textUnder? "type").bind (typeTable.lookup ·)).getD fallback

/-- The field for the document of an attribute. -/
def givenField (fallback : Text) (v : Json) : Field where
  key := (v.textUnder? "key").getD []
  optional := !v.isTrueUnder "required"
  type := givenType fallback v
  isArray := v.isTrueUnder "array" || (v.textUnder? "relationType").any (Text.endsWith "ToMany")

variable {v : Json} {a : Attribute} {fallback : Text}

theorem givenTarget?_eq (h : a.IsReadFrom v) (hv : HasPlainNames v) :
    givenTarget? v = a.target? := by
  have hrelated : v.textUnder? "relatedCollection" = a.relatedCollection := by
    rw [h.relatedCollection, either?_of_isSome_imp hv.relatedCollectionName]
    rfl
  have htype : v.textUnder? "type" = some "relationship" ↔ a.isRelationship = true := by
    rw [isRelationship, h.type, relationshipType, decide_eq_true_iff]
    cases v.textUnder? "type" with
    | none => simp [Text.ofString]
    | some t => simp
  unfold givenTarget? target?
  simp only [htype, hrelated]

theorem givenType_eq (h : a.IsReadFrom v) (hv : HasPlainNames v) :
    givenType fallback v = a.fieldType fallback := by
  unfold givenType
  rw [givenTarget?_eq h hv]
  cases htarget : a.target? with
  | some target => rw [fieldType_of_target htarget]
  | none =>
    have htable : (v.textUnder? "type").bind (typeTable.lookup ·) = typeTable.lookup a.type := by
      rw [h.type]
      cases v.textUnder? "type" with
      | none => rfl
      | some t => rfl
    have hfallback : a.isRelationship = true → typeTable.lookup a.type = none := by
      intro hrelationship
      rw [isRelationship, decide_eq_true_iff] at hrelationship
      rw [hrelationship]
      rfl
    simp only [htable, fieldType, htarget, Option.map_none, Option.getD_none]
    by_cases hrelationship : a.isRelationship = true
    · rw [if_pos hrelationship, hfallback hrelationship, Option.getD_none]
    · rw [if_neg hrelationship]

theorem givenField_eq (h : a.IsReadFrom v) (hv : HasPlainNames v) :
    givenField fallback v = a.toField fallback := by
  obtain ⟨t, hgiven, -⟩ := hv.key
  have hkey : (v.textUnder? "key").getD [] = a.key := by
    obtain ⟨w, hw, hdisplay⟩ := h.key
    obtain rfl := Option.some.inj (hgiven.symm.trans hw)
    rw [hdisplay, textUnder?_of_member? hgiven]
    rfl
  have hrelation : v.textUnder? "relationType" = a.relationType := by
    rw [h.relationType, either?_of_isSome_imp hv.relationTypeName]
    rfl
  unfold givenField toField holdsList isToMany
  rw [hkey, hrelation, givenType_eq h hv, h.required, h.array, Bool.or_comm]
  rfl

theorem isPlain_of_givenTarget? {target : Text} (hv : HasPlainNames v)
    (h : givenTarget? v = some target) : target.IsPlain := by
  unfold givenTarget? at h
  split at h
  · exact hv.relatedCollection target (Option.filter_eq_some_iff.mp h).1
  · cases h

theorem isPlain_of_lookup_typeTable {type t : Text} (h : typeTable.lookup t = some type) :
    type.IsPlain := by
  have htable : ∀ entry ∈ typeTable, entry.2.IsPlain := by decide
  obtain ⟨before, after, heq, -⟩ := List.lookup_eq_some_iff.mp h
  exact htable (t, type) (by simp [heq])

theorem isPlain_givenField (hv : HasPlainNames v) (hfallback : fallback.IsPlain) :
    (givenField fallback v).IsPlain where
  key := by
    obtain ⟨t, hgiven, ht⟩ := hv.key
    show Text.IsPlain ((v.textUnder? "key").getD [])
    rwa [textUnder?_of_member? hgiven]
  type := by
    show Text.IsPlain (givenType fallback v)
    unfold givenType
    cases htarget : givenTarget? v with
    | some target => exact (isPlain_of_givenTarget? hv htarget).pascalCase
    | none =>
      cases htype : (v.textUnder? "type").bind (typeTable.lookup ·) with
      | none => exact hfallback
      | some type =>
        obtain ⟨t, -, hlookup⟩ := Option.bind_eq_some_iff.mp htype
        exact isPlain_of_lookup_typeTable hlookup

end Attribute

/-! ## Collections -/

namespace Collection

/-- The interface for the document of a collection. -/
def givenInterface (config : Config) (v : Json) : Interface where
  hint := "--input=" ++ config.inputArg ++ " --output=" ++ config.outputArg
  variant := config.variant
  imports :=
    (firstOccurrences ((v.elementsUnder "attributes").filterMap
      fun e => (Attribute.givenTarget? e).map Text.pascalCase)).filter
        (· ≠ ((v.textUnder? "name").getD []).pascalCase)
  name := ((v.textUnder? "name").getD []).pascalCase
  fields :=
    (config.defaultFields.map fun (key, type) => ⟨key, false, type, false⟩) ++
      (v.elementsUnder "attributes").map (Attribute.givenField config.fallbackType)

variable {v : Json} {c : Collection} {config : Config}

theorem givenInterface_eq (h : c.IsReadFrom v) (hv : HasPlainNames v) :
    givenInterface config v = c.toInterface config := by
  have hname : (v.textUnder? "name").getD [] = c.name := by
    rw [textUnder?_of_member? h.name, Option.getD_some]
  have hattributes : List.Forall₂ (fun e a => Attribute.HasPlainNames e ∧ a.IsReadFrom e)
      (v.elementsUnder "attributes") c.attributes :=
    (List.forall₂_and_left _ _).mpr ⟨hv.attributes, h.attributes⟩
  have htargets : (v.elementsUnder "attributes").filterMap
      (fun e => (Attribute.givenTarget? e).map Text.pascalCase) = c.relatedTypes := by
    refine filterMap_eq_filterMap_of_forall₂ (hattributes.imp fun e a ⟨he, ha⟩ => ?_)
    rw [Attribute.givenTarget?_eq ha he]
  have hfields : (v.elementsUnder "attributes").map (Attribute.givenField config.fallbackType) =
      c.attributes.map (Attribute.toField config.fallbackType) :=
    map_eq_map_of_forall₂ (hattributes.imp fun e a ⟨he, ha⟩ => Attribute.givenField_eq ha he)
  unfold givenInterface
  rw [hname, htargets, hfields]
  rfl

theorem isPlain_givenInterface (hv : HasPlainNames v) (hconfig : config.IsPlain) :
    (givenInterface config v).IsPlain where
  hint := by
    simp only [givenInterface, List.mem_append, not_or]
    exact ⟨⟨⟨by decide, hconfig.inputArg⟩, by decide⟩, hconfig.outputArg⟩
  imports name hname := by
    obtain ⟨hrelated, -⟩ := List.mem_filter.mp hname
    obtain ⟨e, he, htype⟩ := List.mem_filterMap.mp (mem_firstOccurrences.mp hrelated)
    obtain ⟨target, htarget, rfl⟩ := Option.map_eq_some_iff.mp htype
    exact (Attribute.isPlain_of_givenTarget? (hv.attributes e he) htarget).pascalCase
  name := by
    show Text.IsPlain ((v.textUnder? "name").getD []).pascalCase
    refine Text.IsPlain.pascalCase ?_
    cases hname : v.textUnder? "name" with
    | none => exact nofun
    | some t => exact hv.name t hname
  fields f hf := by
    rcases List.mem_append.mp hf with hf | hf
    · obtain ⟨⟨key, type⟩, hdefault, rfl⟩ := List.mem_map.mp hf
      unfold Config.defaultFields at hdefault
      split at hdefault
      · obtain ⟨rfl, rfl⟩ := Prod.mk.inj (List.mem_singleton.mp hdefault)
        exact ⟨by decide, by decide⟩
      · cases hdefault
    · obtain ⟨e, he, rfl⟩ := List.mem_map.mp hf
      exact Attribute.isPlain_givenField (hv.attributes e he) hconfig.fallbackType

end Collection

/-! ## Schemas -/

/-- **An interface says what the document says.** From the text that is rendered for a collection
with plain names, the variant, the arguments, the imports, the name, and a field for each attribute
in order are read as the document gives them. -/
theorem Schema.read?_renderInterface {v : Json} {s : Schema} {config : Config}
    (hconfig : config.IsPlain) (hv : HasPlainNames v) (h : ofDocument v.toDocument = .ok s) :
    List.Forall₂ (fun e c => Interface.read? (renderInterface config c) =
      some (Collection.givenInterface config e)) (v.elementsUnder "collections") s.collections := by
  have hcollections : List.Forall₂ (fun e c => Collection.HasPlainNames e ∧ c.IsReadFrom e)
      (v.elementsUnder "collections") s.collections :=
    (List.forall₂_and_left _ _).mpr ⟨hv, (isReadFrom_of_ofDocument h).collections⟩
  refine hcollections.imp fun e c ⟨he, hc⟩ => ?_
  rw [renderInterface, ← Collection.givenInterface_eq hc he]
  exact Interface.read?_render (Collection.isPlain_givenInterface he hconfig)

/-- An attribute with the same key as another one, which relates to many documents. -/
def membersAttribute : Json :=
  .object [("key", .text "id"), ("type", .text "relationship"), ("required", .bool true),
    ("relatedCollection", .text "team_members"), ("relationType", .text "oneToMany")]

/-- An attribute without a type, and with a list of them. -/
def untypedAttribute : Json := .object [("key", .text "id"), ("type", .null), ("array", .int 2)]

/-- A document with a collection of two attributes. -/
def teamsDocument : Json :=
  .object [("collections", .array [.object [("databaseId", .text "db"), ("name", .text "big-teams"),
    ("attributes", .array [membersAttribute, untypedAttribute])]])]

/-- A configuration where types that are not known are called `unknown`. -/
def unknownConfig : Config :=
  ⟨"a.json", "out", .ofText "/a.json", .ofText "/out", .document, ".ts", "unknown", []⟩

theorem hasPlainNames_teamsDocument : Schema.HasPlainNames teamsDocument := by
  have hmembers : Attribute.HasPlainNames membersAttribute :=
    ⟨⟨"id", rfl, by decide⟩, by decide, by decide, by decide⟩
  have huntyped : Attribute.HasPlainNames untypedAttribute :=
    ⟨⟨"id", rfl, by decide⟩, by decide, by decide, by decide⟩
  refine List.forall_mem_singleton.mpr ⟨by decide, ?_⟩
  exact List.forall_mem_cons.mpr ⟨hmembers, List.forall_mem_singleton.mpr huntyped⟩

/-- Both attributes are read from the text. -/
theorem Schema.read?_renderInterface_teams :
    unknownConfig.IsPlain ∧ HasPlainNames teamsDocument ∧
      ∃ c, ofDocument teamsDocument.toDocument = .ok ⟨[c]⟩ ∧
        Interface.read? (renderInterface unknownConfig c) =
          some ⟨"--input=a.json --output=out", .document, ["TeamMembers"], "BigTeams",
            [⟨"$sequence", false, "number", false⟩, ⟨"id", false, "TeamMembers", true⟩,
              ⟨"id", true, "unknown", true⟩]⟩ := by
  have hconfig : unknownConfig.IsPlain := ⟨by decide, by decide, by decide⟩
  have hschema : ofDocument teamsDocument.toDocument =
      .ok ⟨[⟨"db", "big-teams",
        [⟨"id", "relationship", true, false, some "oneToMany", some "team_members"⟩,
          ⟨"id", [], false, true, none, none⟩]⟩]⟩ := by
    decide +kernel
  have hread := read?_renderInterface hconfig hasPlainNames_teamsDocument hschema
  refine ⟨hconfig, hasPlainNames_teamsDocument, _, hschema, ?_⟩
  obtain ⟨hinterface, -⟩ := List.forall₂_cons.mp hread
  rw [hinterface]
  decide +kernel

end CollectionInterfaces
