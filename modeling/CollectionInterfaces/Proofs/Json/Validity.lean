import CollectionInterfaces.Json.Shape

/-!
# Validity

A document can be valid against a schema that is a document itself. The rules are those of JSON
Schema for the keywords that shapes are written with (`Json.IsValid`). Against a written shape they
come down to one rule for each kind of shape.
-/

namespace CollectionInterfaces

theorem Text.ofString_inj {s t : String} : ofString s = ofString t ↔ s = t := by
  constructor
  · intro h
    exact String.toList_inj.mp ((List.map_inj_right fun _ _ => CodePoint.ofChar_injective).mp h)
  · exact congrArg ofString

namespace Json

/-! ## The rules -/

/-- The member with a name, if the document is an object that has one. -/
def member? (name : Text) : Json → Option Json
  | .object members => members.lookup name
  | _ => none

/-- The type of a document, as schemas call it. -/
def typeName : Json → Text
  | .null => "null"
  | .bool _ => "boolean"
  | .int _ => "number"
  | .float _ => "number"
  | .text _ => "string"
  | .array _ => "array"
  | .object _ => "object"

/-- The schema that a reference inside a whole schema leads to. -/
def referenced? (whole : Json) (reference : Text) : Option Json := do
  let name ← Text.after? (Shape.reference []) reference
  (← whole.member? "$defs").member? name

mutual

/-- A document is valid against a schema, which is a part of a whole one. -/
inductive IsValid (whole : Json) : (schema v : Json) → Prop
  | intro {schema v : Json}
    (type : ∀ t, schema.member? "type" = some (.text t) → v.typeName = t)
    (properties : ∀ properties name property w, schema.member? "properties" = some properties →
      properties.member? name = some property → v.member? name = some w →
      IsValid whole property w)
    (required : ∀ names name, schema.member? "required" = some (.array names) →
      .text name ∈ names → v.typeName = "object" → (v.member? name).isSome)
    (items : ∀ item elements w, schema.member? "items" = some item → v = .array elements →
      w ∈ elements → IsValid whole item w)
    (anyOf : ∀ choices, schema.member? "anyOf" = some (.array choices) →
      IsValidForSome whole choices v)
    (reference : ∀ t, schema.member? "$ref" = some (.text t) →
      IsValidForSome whole (referenced? whole t).toList v) : IsValid whole schema v

/-- A document is valid against one of some schemas. -/
inductive IsValidForSome (whole : Json) : (schemas : List Json) → (v : Json) → Prop
  | first {schema v : Json} {schemas : List Json} (h : IsValid whole schema v) :
    IsValidForSome whole (schema :: schemas) v
  | later {schema v : Json} {schemas : List Json} (h : IsValidForSome whole schemas v) :
    IsValidForSome whole (schema :: schemas) v

end

variable {whole v : Json} {name : Text} {notes : Annotations} {shape : Shape} {shapes : List Shape}
  {schemas : List Json}

theorem isValidForSome_iff : IsValidForSome whole schemas v ↔ ∃ s ∈ schemas, IsValid whole s v := by
  induction schemas with
  | nil =>
    constructor
    · exact nofun
    · rintro ⟨s, hs, -⟩
      cases hs
  | cons schema schemas ih =>
    constructor
    · rintro (h | h)
      · exact ⟨schema, List.mem_cons_self, h⟩
      · obtain ⟨s, hs, h⟩ := ih.mp h
        exact ⟨s, List.mem_cons_of_mem schema hs, h⟩
    · rintro ⟨s, hs, h⟩
      rcases List.mem_cons.mp hs with rfl | hs
      · exact .first h
      · exact .later (ih.mpr ⟨s, hs, h⟩)

theorem isValid_iff {schema : Json} : IsValid whole schema v ↔
    (∀ t, schema.member? "type" = some (.text t) → v.typeName = t) ∧
    (∀ properties, schema.member? "properties" = some properties → ∀ name property w,
      properties.member? name = some property → v.member? name = some w →
      IsValid whole property w) ∧
    (∀ names, schema.member? "required" = some (.array names) → ∀ name, .text name ∈ names →
      v.typeName = "object" → (v.member? name).isSome) ∧
    (∀ item, schema.member? "items" = some item → ∀ elements, v = .array elements →
      ∀ w ∈ elements, IsValid whole item w) ∧
    (∀ choices, schema.member? "anyOf" = some (.array choices) →
      ∃ s ∈ choices, IsValid whole s v) ∧
    ∀ t, schema.member? "$ref" = some (.text t) →
      ∃ s, referenced? whole t = some s ∧ IsValid whole s v := by
  constructor
  · rintro ⟨type, properties, required, items, anyOf, reference⟩
    refine ⟨type, fun p hp name property w => properties p name property w hp,
      fun names h name => required names name h,
      fun item h elements hv w => items item elements w h hv,
      fun choices h => isValidForSome_iff.mp (anyOf choices h), ?_⟩
    intro t h
    obtain ⟨s, hs, hvalid⟩ := isValidForSome_iff.mp (reference t h)
    exact ⟨s, Option.mem_toList.mp hs, hvalid⟩
  · rintro ⟨type, properties, required, items, anyOf, reference⟩
    refine ⟨type, fun p name property w hp => properties p hp name property w,
      fun names name h => required names h name,
      fun item elements w h hv => items item h elements hv w,
      fun choices h => isValidForSome_iff.mpr (anyOf choices h), ?_⟩
    intro t h
    obtain ⟨s, hs, hvalid⟩ := reference t h
    exact isValidForSome_iff.mpr ⟨s, Option.mem_toList.mpr hs, hvalid⟩

/-! ## Written shapes -/

theorem member?_cons {n : Text} {w : Json} {members : List (Text × Json)} :
    (object ((n, w) :: members)).member? name =
      if name = n then some w else (object members).member? name := by
  by_cases h : name = n
  · simp [member?, h]
  · simp [member?, List.lookup_cons, beq_false_of_ne h, h]

theorem member?_nil : (object []).member? name = none := rfl

theorem exists_object_of_member? {w : Json} (h : v.member? name = some w) :
    ∃ members, v = .object members := by
  cases v with
  | object members => exact ⟨members, rfl⟩
  | _ => cases h

theorem typeName_eq_array_iff : v.typeName = "array" ↔ ∃ elements, v = .array elements := by
  cases v <;> simp [typeName, Text.ofString_inj]

theorem typeName_eq_object_iff : v.typeName = "object" ↔ ∃ members, v = .object members := by
  cases v <;> simp [typeName, Text.ofString_inj]

namespace Shape

def toSchema (s : Shape) : Json := .object s.toMembers

theorem member?_notes (htitle : name ≠ "title") (hdescription : name ≠ "description")
    (hdefault : name ≠ "default") : (Json.object notes.members).member? name = none := by
  have hnone (key : Text) (value : Option Json) (h : name ≠ key) :
      ((value.map (key, ·)).toList).lookup name = none := by
    cases value
    · rfl
    · exact member?_cons.trans (if_neg h)
  simp only [member?, Annotations.members, List.lookup_append, hnone _ _ htitle,
    hnone _ _ hdescription, hnone _ _ hdefault, Option.or_none]

theorem member?_memberObjects {shapes : List (Text × Shape)} :
    (Json.object (memberObjects shapes)).member? name = (shapes.lookup name).map toSchema := by
  induction shapes with
  | nil => rfl
  | cons entry shapes ih =>
    obtain ⟨n, shape⟩ := entry
    have hcons : memberObjects ((n, shape) :: shapes) =
        (n, shape.toSchema) :: memberObjects shapes := by rfl
    rw [hcons, member?_cons, ih]
    by_cases h : name = n
    · simp [h]
    · simp [List.lookup_cons, beq_false_of_ne h, h]

theorem shapeObjects_eq_map : shapeObjects shapes = shapes.map toSchema := by
  induction shapes with
  | nil => rfl
  | cons shape shapes ih =>
    have hcons : shapeObjects (shape :: shapes) = shape.toSchema :: shapeObjects shapes := by rfl
    rw [hcons, ih, List.map_cons]

section

variable {kind : Kind} {members : List (Text × Shape)} {required : List Text}

theorem toSchema_ofKind : toSchema (.ofKind notes kind) =
    .object (textMember "type" kind.name :: notes.members) := by rfl

theorem toSchema_array : toSchema (.array notes shape) =
    .object (textMember "type" "array" :: ("items", shape.toSchema) :: notes.members) := by rfl

theorem toSchema_object : toSchema (.object notes members required) =
    .object (textMember "type" "object" :: ("properties", .object (memberObjects members)) ::
      requiredMember required ++ notes.members) := by rfl

theorem toSchema_anyOf : toSchema (.anyOf notes shapes) =
    .object (("anyOf", .array (shapes.map toSchema)) :: notes.members) := by
  rw [← shapeObjects_eq_map]
  rfl

theorem toSchema_named : toSchema (.named name) =
    .object [textMember "$ref" (reference name)] := by rfl

/-- A document is valid against the shape of a kind exactly if it is of the kind. -/
theorem isValid_ofKind_iff :
    IsValid whole (toSchema (.ofKind notes kind)) v ↔ v.typeName = kind.name := by
  rw [isValid_iff, toSchema_ofKind]
  simp [textMember, member?_cons, member?_notes, Text.ofString_inj]

/-- A document is valid against the shape of arrays exactly if it is an array with valid
elements. -/
theorem isValid_array_iff : IsValid whole (toSchema (.array notes shape)) v ↔
    ∃ elements, v = .array elements ∧ ∀ w ∈ elements, IsValid whole shape.toSchema w := by
  have hkeywords : IsValid whole (toSchema (.array notes shape)) v ↔
      (∃ elements, v = .array elements) ∧
        ∀ elements, v = .array elements → ∀ w ∈ elements, IsValid whole shape.toSchema w := by
    rw [isValid_iff, toSchema_array, ← typeName_eq_array_iff]
    simp [textMember, member?_cons, member?_notes, Text.ofString_inj]
  rw [hkeywords]
  constructor
  · rintro ⟨⟨elements, rfl⟩, h⟩
    exact ⟨elements, rfl, h elements rfl⟩
  · rintro ⟨elements, rfl, h⟩
    refine ⟨⟨elements, rfl⟩, ?_⟩
    rintro _ ⟨⟩
    exact h

/-- The members of an object are valid against their shapes. -/
theorem properties_iff : (∀ name property w,
      (Json.object (memberObjects members)).member? name = some property →
      v.member? name = some w → IsValid whole property w) ↔
    ∀ name shape w, members.lookup name = some shape → v.member? name = some w →
      IsValid whole shape.toSchema w := by
  simp only [member?_memberObjects, Option.map_eq_some_iff]
  constructor
  · exact fun h name shape w hshape => h name shape.toSchema w ⟨shape, hshape, rfl⟩
  · rintro h name property w ⟨shape, hshape, rfl⟩
    exact h name shape w hshape

/-- A document is valid against the shape of objects exactly if it is an object that has the
required members, and its members are valid against their shapes. -/
theorem isValid_object_iff :
    IsValid whole (toSchema (.object notes members required)) v ↔
      v.typeName = "object" ∧ (∀ name ∈ required, (v.member? name).isSome) ∧
        ∀ name shape w, members.lookup name = some shape → v.member? name = some w →
          IsValid whole shape.toSchema w := by
  rw [isValid_iff, toSchema_object, ← properties_iff]
  cases required with
  | nil => simp [textMember, member?_cons, member?_notes, Text.ofString_inj, requiredMember]
  | cons first required =>
    by_cases htype : v.typeName = "object" <;>
      simp [textMember, member?_cons, member?_notes, Text.ofString_inj, requiredMember, htype,
        and_comm]

/-- It is enough to look at the members with shapes one by one. -/
theorem isValid_object (htype : v.typeName = "object")
    (hrequired : ∀ name ∈ required, (v.member? name).isSome)
    (hmembers : ∀ member ∈ members, ∀ w, v.member? member.1 = some w →
      IsValid whole member.2.toSchema w) :
    IsValid whole (toSchema (.object notes members required)) v := by
  refine isValid_object_iff.mpr ⟨htype, hrequired, fun name shape w hshape hw => ?_⟩
  obtain ⟨before, after, rfl, -⟩ := List.lookup_eq_some_iff.mp hshape
  exact hmembers (name, shape) (by simp) w hw

/-- A document is valid against a choice of shapes exactly if it is valid against one of them. -/
theorem isValid_anyOf_iff : IsValid whole (toSchema (.anyOf notes shapes)) v ↔
    ∃ shape ∈ shapes, IsValid whole shape.toSchema v := by
  have hkeywords : IsValid whole (toSchema (.anyOf notes shapes)) v ↔
      ∃ s ∈ shapes.map toSchema, IsValid whole s v := by
    rw [isValid_iff, toSchema_anyOf]
    simp [member?_cons, member?_notes, Text.ofString_inj]
  rw [hkeywords]
  constructor
  · rintro ⟨_, hs, h⟩
    obtain ⟨shape, hshape, rfl⟩ := List.mem_map.mp hs
    exact ⟨shape, hshape, h⟩
  · rintro ⟨shape, hshape, h⟩
    exact ⟨shape.toSchema, List.mem_map_of_mem hshape, h⟩

/-- A document is valid against a named shape exactly if it is valid against what the name refers
to. -/
theorem isValid_named_iff : IsValid whole (toSchema (.named name)) v ↔
    ∃ s, referenced? whole (reference name) = some s ∧ IsValid whole s v := by
  rw [isValid_iff, toSchema_named]
  simp [textMember, member?_cons, member?_nil, Text.ofString_inj]

end

end Shape

end Json

end CollectionInterfaces
