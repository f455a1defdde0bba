import CollectionInterfaces.Proofs.Schema.Entries
import CollectionInterfaces.Schema.Publication

/-!
# What the published shape promises

A document that is valid against the published shape describes a schema, and everything that it
gives under the published names stands in the schema as it is (`Schema.ofDocument_of_isValid`).
-/

namespace CollectionInterfaces

open Json

variable {v : Json} {key : Text} {members : List (Text × Json)}

/-! ## Lists -/

/-- A list is checked if its items are. -/
theorem Checked.all_eq_ok {α β γ : Type} {R : α → γ → Prop} {value : α → β}
    {check : β → Checked γ} {items : List α}
    (h : ∀ a ∈ items, ∃ c, check (value a) = .ok c ∧ R a c) (index : Nat) :
    ∃ cs, all check index (items.map value) = .ok cs ∧ List.Forall₂ R items cs := by
  induction items generalizing index with
  | nil => exact ⟨[], rfl, .nil⟩
  | cons a items ih =>
    obtain ⟨c, hc, hac⟩ := h a List.mem_cons_self
    obtain ⟨cs, hcs, hrest⟩ := ih (fun a ha => h a (List.mem_cons_of_mem _ ha)) (index + 1)
    exact ⟨c :: cs, by rw [List.map_cons, all, hc, hcs]; rfl, .cons hac hrest⟩

/-! ## What is taken over -/

/-- A text, or the literal `null` in place of none. -/
def Json.ofOptional : Option Text → Json
  | some t => .text t
  | none => .null

/-- An attribute has what a document gives under its names. -/
structure Attribute.IsTakenFrom (v : Json) (a : Attribute) : Prop where
  key : v.member? "key" = some (.text a.key)
  type : ∀ w, v.member? "type" = some w → w = .text a.type
  required : ∀ w, v.member? "required" = some w → w = .bool a.required
  array : ∀ w, v.member? "array" = some w → w = .bool a.array
  relationType : ∀ w, v.member? "relationType" = some w → w = .ofOptional a.relationType
  relatedCollection : ∀ w, v.member? "relatedCollection" = some w →
    w = .ofOptional a.relatedCollection

/-- A collection has what a document gives under its names. -/
structure Collection.IsTakenFrom (v : Json) (c : Collection) : Prop where
  databaseId : v.member? "databaseId" = some (.text c.databaseId)
  name : v.member? "name" = some (.text c.name)
  /-- One attribute for every element, in order; no attributes if none are given. -/
  attributes : ∃ elements, (v.member? "attributes").getD (.array []) = .array elements ∧
    List.Forall₂ Attribute.IsTakenFrom elements c.attributes

/-- A schema has what a document gives under its names. -/
structure Schema.IsTakenFrom (v : Json) (s : Schema) : Prop where
  /-- One collection for every element, in order; no collections if none are given. -/
  collections : ∃ elements, (v.member? "collections").getD (.array []) = .array elements ∧
    List.Forall₂ Collection.IsTakenFrom elements s.collections

/-! ## Valid documents -/

section

variable {whole : Json} {notes : Annotations} {shapes : List (Text × Json.Shape)}
  {required : List Text} {name : Text} {kind : Kind} {w : Json}

theorem Json.typeName_eq_object (h : v.typeName = "object") : ∃ members, v = .object members :=
  typeName_eq_object_iff.mp h

theorem Json.IsValid.text (h : IsValid whole (Shape.toSchema (.ofKind notes .text)) w) :
    ∃ t, w = .text t := by
  have htype := Shape.isValid_ofKind_iff.mp h
  cases w <;> simp_all [typeName, Kind.name, Text.ofString_inj]

theorem Json.IsValid.bool (h : IsValid whole (Shape.toSchema (.ofKind notes .bool)) w) :
    ∃ b, w = .bool b := by
  have htype := Shape.isValid_ofKind_iff.mp h
  cases w <;> simp_all [typeName, Kind.name, Text.ofString_inj]

theorem Json.IsValid.optionalText {title : Text}
    (h : IsValid whole (Shape.toSchema (Schema.optionalTextShape title)) w) :
    ∃ t, w = .ofOptional t := by
  obtain ⟨shape, hshape, hvalid⟩ := Shape.isValid_anyOf_iff.mp h
  simp only [List.mem_cons, List.not_mem_nil, or_false] at hshape
  rcases hshape with rfl | rfl
  · obtain ⟨t, rfl⟩ := hvalid.text
    exact ⟨some t, rfl⟩
  · refine ⟨none, ?_⟩
    have htype := Shape.isValid_ofKind_iff.mp hvalid
    cases w <;> simp_all [typeName, Kind.name, Text.ofString_inj, Json.ofOptional]

end

theorem Json.text?_ofOptional (t : Option Text) : (ofOptional t).toValue.text? = t := by
  cases t <;> rfl

/-- What is given under the first of two names is taken, and nothing else. -/
theorem Json.either?_of_member? {first second : Text} {w : Json}
    (h : (object members).member? first = some w) :
    Entries.either? first second (memberValues members) = some (first, w.toValue) := by
  simp only [Entries.either?, value?_memberValues, h, Option.map_some]

/-- A valid attribute is taken over. -/
theorem Attribute.ofValue_of_isValid {whole : Json}
    (h : IsValid whole Schema.attributeShape.toSchema v) :
    ∃ a, ofValue [] v.toValue = .ok a ∧ IsTakenFrom v a := by
  obtain ⟨htype, hrequired, hmembers⟩ := Shape.isValid_object_iff.mp h
  obtain ⟨members, rfl⟩ := typeName_eq_object htype
  obtain ⟨w, hkey⟩ := Option.isSome_iff_exists.mp (hrequired "key" List.mem_cons_self)
  obtain ⟨key, rfl⟩ := (hmembers "key" _ w (by rfl) hkey).text
  refine ⟨ofEntries (memberValues members) key, ?_, hkey, ?_, ?_, ?_, ?_, ?_⟩
  · unfold ofValue
    simp only [toValue, Knots.untie, Value.entries?, value?_memberValues, hkey, Option.map_some]
    rfl
  · intro w hw
    obtain ⟨t, rfl⟩ := (hmembers "type" _ w (by rfl) hw).text
    simp only [ofEntries, value?_memberValues, hw]
    rfl
  · intro w hw
    obtain ⟨b, rfl⟩ := (hmembers "required" _ w (by rfl) hw).bool
    simp only [ofEntries, value?_memberValues, hw]
    rfl
  · intro w hw
    obtain ⟨b, rfl⟩ := (hmembers "array" _ w (by rfl) hw).bool
    simp only [ofEntries, value?_memberValues, hw]
    rfl
  · intro w hw
    obtain ⟨t, rfl⟩ := (hmembers "relationType" _ w (by rfl) hw).optionalText
    simp only [ofEntries, either?_of_member? hw, Option.bind_some, text?_ofOptional]
  · intro w hw
    obtain ⟨t, rfl⟩ := (hmembers "relatedCollection" _ w (by rfl) hw).optionalText
    simp only [ofEntries, either?_of_member? hw, Option.bind_some, text?_ofOptional]

theorem Schema.referenced?_attribute :
    referenced? shape.toJson (Shape.reference "Attribute") = some attributeShape.toSchema := by
  rfl

theorem Schema.referenced?_collection :
    referenced? shape.toJson (Shape.reference "Collection") = some collectionShape.toSchema := by
  rfl

/-- An array of a named shape is read if every document of the shape is. -/
theorem Value.checkList_of_isValid {α : Type} {R : Json → α → Prop} {check : Value → Checked α}
    {whole s w : Json} {notes : Annotations} {name : Text}
    (href : referenced? whole (Shape.reference name) = some s)
    (hcheck : ∀ v, IsValid whole s v → ∃ a, check v.toValue = .ok a ∧ R v a)
    (h : IsValid whole (Shape.toSchema (.array notes (.named name))) w) :
    ∃ elements as, w = .array elements ∧ w.toValue.checkList [] check = .ok as ∧
      List.Forall₂ R elements as := by
  obtain ⟨elements, rfl, helements⟩ := Shape.isValid_array_iff.mp h
  have hall : ∀ v ∈ elements, ∃ a, check v.toValue = .ok a ∧ R v a := by
    intro v hv
    obtain ⟨s', hs', hvalid⟩ := Shape.isValid_named_iff.mp (helements v hv)
    obtain rfl := Option.some.inj (href.symm.trans hs')
    exact hcheck v hvalid
  obtain ⟨as, has, hrest⟩ := Checked.all_eq_ok hall 0
  refine ⟨elements, as, rfl, ?_, hrest⟩
  rw [toValue, elementValues_eq_map]
  exact has

/-- A valid collection is taken over. -/
theorem Collection.ofValue_of_isValid
    (h : IsValid Schema.shape.toJson Schema.collectionShape.toSchema v) :
    ∃ c, ofValue [] v.toValue = .ok c ∧ IsTakenFrom v c := by
  obtain ⟨htype, hrequired, hmembers⟩ := Shape.isValid_object_iff.mp h
  obtain ⟨members, rfl⟩ := typeName_eq_object htype
  obtain ⟨w, hid⟩ := Option.isSome_iff_exists.mp (hrequired "databaseId" (by simp))
  obtain ⟨databaseId, rfl⟩ := (hmembers "databaseId" _ w (by rfl) hid).text
  obtain ⟨w, hname⟩ := Option.isSome_iff_exists.mp (hrequired "name" (by simp))
  obtain ⟨name, rfl⟩ := (hmembers "name" _ w (by rfl) hname).text
  have hattributes : ∃ elements attributes,
      ((Json.object members).member? "attributes").getD (.array []) = .array elements ∧
      checkAttributes [] (memberValues members) = .ok attributes ∧
      List.Forall₂ Attribute.IsTakenFrom elements attributes := by
    cases hgiven : (Json.object members).member? "attributes" with
    | none =>
      refine ⟨[], [], rfl, ?_, .nil⟩
      rw [checkAttributes, value?_memberValues, hgiven]
      rfl
    | some w =>
      obtain ⟨elements, attributes, rfl, hlist, hrest⟩ := Value.checkList_of_isValid
        Schema.referenced?_attribute (fun _ => Attribute.ofValue_of_isValid)
        (hmembers "attributes" _ w (by rfl) hgiven)
      refine ⟨elements, attributes, rfl, ?_, hrest⟩
      rw [checkAttributes, value?_memberValues, hgiven]
      simp only [Option.map_some, hlist]
      rfl
  obtain ⟨elements, attributes, hgiven, hchecked, hrest⟩ := hattributes
  refine ⟨⟨databaseId, name, attributes⟩, ?_, hid, hname, elements, hgiven, hrest⟩
  unfold ofValue
  simp only [toValue, Knots.untie, Value.entries?, checkDatabaseId, either?_of_member? hid,
    checkName, value?_memberValues, hname, Option.map_some, hchecked]
  rfl

/-- The definitions beside a schema are no rule. -/
theorem Json.isValid_definitions_iff {whole definitions : Json} :
    IsValid whole (.object (("$defs", definitions) :: members)) v ↔
      IsValid whole (.object members) v := by
  rw [isValid_iff, isValid_iff]
  simp only [member?_cons, Text.ofString_inj, String.reduceEq, if_false]

/-- **What is valid is taken over.** A document that is valid against the published shape describes
a schema, with one collection for every element and one attribute for every element of these, in
order, and everything that is given under the published names is in them unchanged. -/
theorem Schema.ofDocument_of_isValid (h : IsValid shape.toJson shape.toJson v) :
    ∃ s, ofDocument v.toDocument = .ok s ∧ IsTakenFrom v s := by
  obtain ⟨htype, -, hmembers⟩ := Shape.isValid_object_iff.mp (isValid_definitions_iff.mp h)
  obtain ⟨members, rfl⟩ := typeName_eq_object htype
  have hcollections : ∃ elements collections,
      ((Json.object members).member? "collections").getD (.array []) = .array elements ∧
      checkCollections [] (memberValues members) = .ok collections ∧
      List.Forall₂ Collection.IsTakenFrom elements collections := by
    cases hgiven : (Json.object members).member? "collections" with
    | none =>
      refine ⟨[], [], rfl, ?_, .nil⟩
      rw [checkCollections, value?_memberValues, hgiven]
      rfl
    | some w =>
      obtain ⟨elements, collections, rfl, hlist, hrest⟩ := Value.checkList_of_isValid
        referenced?_collection (fun _ => Collection.ofValue_of_isValid)
        (hmembers "collections" _ w (by rfl) hgiven)
      refine ⟨elements, collections, rfl, ?_, hrest⟩
      rw [checkCollections, value?_memberValues, hgiven]
      simp only [Option.map_some, toValue] at hlist ⊢
      rw [hlist]
      rfl
  obtain ⟨elements, collections, hgiven, hchecked, hrest⟩ := hcollections
  refine ⟨⟨collections⟩, ?_, elements, hgiven, hrest⟩
  simp only [ofDocument, Json.toDocument, ofValue, toValue, Knots.untie, Value.entries?, hchecked]
  rfl

/-- An attribute with an entry that is not read. -/
def mailAttribute : Json :=
  .object [("key", .text "mail"), ("required", .bool true), ("relationType", .null),
    ("size", .int 255)]

/-- A collection with an attribute, and entries that are not read. -/
def peopleCollection : Json :=
  .object [("$id", .text "p1"), ("databaseId", .text "db"), ("database_id", .int 7),
    ("name", .text "people"), ("attributes", .array [mailAttribute])]

def peopleDocument : Json := .object [("collections", .array [peopleCollection])]

open Json.Shape in
theorem isValid_mailAttribute {whole : Json} :
    IsValid whole Schema.attributeShape.toSchema mailAttribute := by
  refine isValid_object (by rfl) (by simp; rfl) ?_
  simp only [List.forall_mem_cons, List.not_mem_nil, false_implies, implies_true, and_true]
  refine ⟨?_, ?_, ?_, ?_, ?_, ?_⟩ <;> intro w hw
  · obtain rfl := Option.some.inj (show some (.text "mail") = some w from hw)
    exact isValid_ofKind_iff.mpr (by rfl)
  · cases (show none = some w from hw)
  · obtain rfl := Option.some.inj (show some (.bool true) = some w from hw)
    exact isValid_ofKind_iff.mpr (by rfl)
  · cases (show none = some w from hw)
  · obtain rfl := Option.some.inj (show some .null = some w from hw)
    exact isValid_anyOf_iff.mpr ⟨.ofKind .none .null, by simp, isValid_ofKind_iff.mpr (by rfl)⟩
  · cases (show none = some w from hw)

open Json.Shape in
theorem isValid_peopleCollection :
    IsValid Schema.shape.toJson Schema.collectionShape.toSchema peopleCollection := by
  refine isValid_object (by rfl) (by simp; exact ⟨rfl, rfl⟩) ?_
  simp only [List.forall_mem_cons, List.not_mem_nil, false_implies, implies_true, and_true]
  refine ⟨?_, ?_, ?_⟩ <;> intro w hw
  · obtain rfl := Option.some.inj (show some (.text "db") = some w from hw)
    exact isValid_ofKind_iff.mpr (by rfl)
  · obtain rfl := Option.some.inj (show some (.text "people") = some w from hw)
    exact isValid_ofKind_iff.mpr (by rfl)
  · obtain rfl := Option.some.inj (show some (.array [mailAttribute]) = some w from hw)
    refine isValid_array_iff.mpr ⟨_, rfl, List.forall_mem_singleton.mpr ?_⟩
    exact isValid_named_iff.mpr ⟨_, Schema.referenced?_attribute, isValid_mailAttribute⟩

open Json.Shape in
theorem isValid_peopleDocument :
    IsValid Schema.shape.toJson Schema.shape.toJson peopleDocument := by
  refine isValid_definitions_iff.mpr (isValid_object (by rfl) (by simp) ?_)
  rw [List.forall_mem_singleton]
  intro w hw
  obtain rfl := Option.some.inj (show some (.array [peopleCollection]) = some w from hw)
  refine isValid_array_iff.mpr ⟨_, rfl, List.forall_mem_singleton.mpr ?_⟩
  exact isValid_named_iff.mpr ⟨_, Schema.referenced?_collection, isValid_peopleCollection⟩

/-- The collection and its attribute are taken over. -/
theorem Schema.ofDocument_of_isValid_people :
    IsValid shape.toJson shape.toJson peopleDocument ∧
      ∃ s, ofDocument peopleDocument.toDocument = .ok s ∧ IsTakenFrom peopleDocument s :=
  ⟨isValid_peopleDocument, ofDocument_of_isValid isValid_peopleDocument⟩

end CollectionInterfaces
