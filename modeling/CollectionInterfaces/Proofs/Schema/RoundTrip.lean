import CollectionInterfaces.Proofs.Json.Writing
import CollectionInterfaces.Proofs.Schema.Keys
import CollectionInterfaces.Proofs.Schema.Publication

/-!
# Loading what was written

A file that a schema was written to as a document is loaded as the schema, if the path does not end
as that of a document in YAML (`Schema.load_written`). Other members of the document, and the order
of all of them, make no difference (`Schema.load_of_isGivenBy`).
-/

namespace CollectionInterfaces

open Json Utf8

/-! ## Documents that give a schema -/

/-- A document gives every entry of an attribute. -/
structure Attribute.IsGivenBy (v : Json) (a : Attribute) : Prop where
  key : v.member? "key" = some (.text a.key)
  type : v.member? "type" = some (.text a.type)
  required : v.member? "required" = some (.bool a.required)
  array : v.member? "array" = some (.bool a.array)
  relationType : v.member? "relationType" = some (.ofOptional a.relationType)
  relatedCollection : v.member? "relatedCollection" = some (.ofOptional a.relatedCollection)

/-- A document gives every entry of a collection. -/
structure Collection.IsGivenBy (v : Json) (c : Collection) : Prop where
  databaseId : v.member? "databaseId" = some (.text c.databaseId)
  name : v.member? "name" = some (.text c.name)
  attributes : ∃ elements, v.member? "attributes" = some (.array elements) ∧
    List.Forall₂ Attribute.IsGivenBy elements c.attributes

/-- A document gives the collections of a schema. -/
def Schema.IsGivenBy (v : Json) (s : Schema) : Prop :=
  ∃ elements, v.member? "collections" = some (.array elements) ∧
    List.Forall₂ Collection.IsGivenBy elements s.collections

section

variable {v w : Json} {key : Text}

theorem Json.checkList_of_forall₂ {α : Type} {check : Value → Checked α} {elements : List Json}
    {as : List α} (h : List.Forall₂ (fun v a => check v.toValue = .ok a) elements as) :
    (Json.array elements).toValue.checkList [] check = .ok as := by
  rw [checkList_toValue]
  exact Checked.all_eq_ok_iff.mpr h

theorem Attribute.IsGivenBy.ofValue {a : Attribute} (h : IsGivenBy v a) :
    Attribute.ofValue [] v.toValue = .ok a := by
  obtain ⟨members, rfl⟩ := exists_object_of_member? h.key
  have hentries : ofEntries (memberValues members) a.key = a := by
    simp only [ofEntries, value?_memberValues, h.type, h.required, h.array,
      either?_of_member? h.relationType, either?_of_member? h.relatedCollection, Option.bind_some,
      text?_ofOptional]
    rfl
  simp only [Attribute.ofValue, toValue, Knots.untie, Value.entries?, value?_memberValues, h.key,
    Option.map_some]
  exact congrArg Except.ok hentries

theorem Collection.IsGivenBy.ofValue {c : Collection} (h : IsGivenBy v c) :
    Collection.ofValue [] v.toValue = .ok c := by
  obtain ⟨members, rfl⟩ := exists_object_of_member? h.name
  obtain ⟨elements, hgiven, hattributes⟩ := h.attributes
  have hlist := checkList_of_forall₂ (hattributes.imp fun _ _ => Attribute.IsGivenBy.ofValue)
  simp only [Collection.ofValue, toValue, Knots.untie, Value.entries?, checkDatabaseId,
    either?_of_member? h.databaseId, checkName, checkAttributes, value?_memberValues, h.name,
    hgiven, Option.map_some]
  rw [toValue] at hlist
  rw [hlist]
  rfl

theorem Schema.IsGivenBy.ofDocument {s : Schema} (h : IsGivenBy v s) :
    Schema.ofDocument v.toDocument = .ok s := by
  obtain ⟨elements, hgiven, hcollections⟩ := h
  obtain ⟨members, rfl⟩ := exists_object_of_member? hgiven
  have hlist := checkList_of_forall₂ (hcollections.imp fun _ _ => Collection.IsGivenBy.ofValue)
  simp only [Schema.ofDocument, Schema.ofValue, toDocument, toValue, Knots.untie, Value.entries?,
    checkCollections, value?_memberValues, hgiven, Option.map_some]
  rw [toValue] at hlist
  rw [hlist]
  rfl

end

/-! ## Loading them -/

/-- A file with a written document that gives a schema is loaded as the schema, if its path does not
end as that of a document in YAML. -/
theorem Schema.load_of_isGivenBy [i : Interpreter] {v : Json} {s : Schema} {d : Disk}
    {cwd : Location} {p : Path} {bytes : Bytes} {room : Nat} (hfaithful : IsFaithful room v)
    (hroom : room ≤ i.jsonRoom) (hgiven : s.IsGivenBy v) (hbytes : encode v.write = .ok bytes)
    (hfile : d.readBytes cwd p = .ok bytes) (hsuffix : p.suffix.lowercase ∉ yamlSuffixes) :
    load d cwd p = .ok s := by
  have htext : d.readText cwd p = .ok v.write := by
    rw [Disk.readText, hfile]
    simp only [decode_encode hbytes, unixLines_write hfaithful]
  have hyaml : p.isYaml = false := by simpa [Path.isYaml] using hsuffix
  have hobject : parseObject p v.write = .ok v.toDocument := by
    obtain ⟨elements, hmember, -⟩ := hgiven
    obtain ⟨members, rfl⟩ := exists_object_of_member? hmember
    have hjson := Json.parse_eq_ok_iff.mpr
      (readDocument_mono hroom (readDocument_write hfaithful))
    exact (parseObject_json_eq_ok_iff hyaml).mpr ⟨members, hjson, rfl⟩
  have hschema : parse p v.write = .ok s :=
    parse_eq_ok_iff.mpr ⟨_, hobject, keysFit_of_parseObject hyaml hobject, hgiven.ofDocument⟩
  rw [load, htext]
  exact hschema

/-! ## Schemas as documents -/

/-- An attribute with all of its entries. -/
def Attribute.toJson (a : Attribute) : Json :=
  .object [("key", .text a.key), ("type", .text a.type), ("required", .bool a.required),
    ("array", .bool a.array), ("relationType", .ofOptional a.relationType),
    ("relatedCollection", .ofOptional a.relatedCollection)]

def Collection.toJson (c : Collection) : Json :=
  .object [("databaseId", .text c.databaseId), ("name", .text c.name),
    ("attributes", .array (c.attributes.map Attribute.toJson))]

def Schema.toJson (s : Schema) : Json :=
  .object [("collections", .array (s.collections.map Collection.toJson))]

theorem Attribute.isGivenBy_toJson (a : Attribute) : a.IsGivenBy a.toJson :=
  ⟨rfl, rfl, rfl, rfl, rfl, rfl⟩

theorem forall₂_map_self {α β : Type} {R : β → α → Prop} {f : α → β} (h : ∀ a, R (f a) a)
    (as : List α) : List.Forall₂ R (as.map f) as :=
  List.forall₂_map_left_iff.mpr (List.forall₂_same.mpr fun a _ => h a)

theorem Collection.isGivenBy_toJson (c : Collection) : c.IsGivenBy c.toJson :=
  ⟨rfl, rfl, _, rfl, forall₂_map_self Attribute.isGivenBy_toJson c.attributes⟩

theorem Schema.isGivenBy_toJson (s : Schema) : s.IsGivenBy s.toJson :=
  ⟨_, rfl, forall₂_map_self Collection.isGivenBy_toJson s.collections⟩

/-- No surrogate stands in the texts of an attribute. -/
structure Attribute.IsScalar (a : Attribute) : Prop where
  key : Utf8.IsScalar a.key
  type : Utf8.IsScalar a.type
  relationType : ∀ t ∈ a.relationType, Utf8.IsScalar t
  relatedCollection : ∀ t ∈ a.relatedCollection, Utf8.IsScalar t

/-- No surrogate stands in the texts of a collection. -/
structure Collection.IsScalar (c : Collection) : Prop where
  databaseId : Utf8.IsScalar c.databaseId
  name : Utf8.IsScalar c.name
  attributes : ∀ a ∈ c.attributes, a.IsScalar

/-- No surrogate stands in the texts of a schema. -/
def Schema.IsScalar (s : Schema) : Prop := ∀ c ∈ s.collections, c.IsScalar

section

variable {room : Nat}

theorem Json.isFaithful_ofOptional {t : Option Text} (h : ∀ s ∈ t, Utf8.IsScalar s) :
    IsFaithful room (ofOptional t) := by
  cases t with
  | none => exact .null
  | some s => exact .text (h s rfl)

theorem Json.isFaithful_object {members : List (Text × Json)} (names : List Text)
    (hmembers : members.map (·.1) = names) (hnames : names.Nodup)
    (hscalar : ∀ name ∈ names, Utf8.IsScalar name)
    (h : ∀ member ∈ members, IsFaithful room member.2) :
    IsFaithful (room + 1) (.object members) := by
  subst hmembers
  exact .object hnames (List.forall_mem_map.mp hscalar) h

theorem Attribute.isFaithful_toJson {a : Attribute} (h : a.IsScalar) :
    IsFaithful (room + 1) a.toJson := by
  refine isFaithful_object
    ["key", "type", "required", "array", "relationType", "relatedCollection"] rfl (by decide)
    (by decide) ?_
  simp only [List.forall_mem_cons]
  exact ⟨.text h.key, .text h.type, .bool _, .bool _, isFaithful_ofOptional h.relationType,
    isFaithful_ofOptional h.relatedCollection, by simp⟩

theorem Collection.isFaithful_toJson {c : Collection} (h : c.IsScalar) :
    IsFaithful (room + 3) c.toJson := by
  refine isFaithful_object ["databaseId", "name", "attributes"] rfl (by decide) (by decide) ?_
  simp only [List.forall_mem_cons]
  refine ⟨.text h.databaseId, .text h.name, .array ?_, by simp⟩
  exact List.forall_mem_map.mpr fun a ha => Attribute.isFaithful_toJson (h.attributes a ha)

theorem Schema.isFaithful_toJson {s : Schema} (h : s.IsScalar) :
    IsFaithful (room + 5) s.toJson := by
  refine isFaithful_object ["collections"] rfl (by decide) (by decide) ?_
  rw [List.forall_mem_singleton]
  exact .array (List.forall_mem_map.mpr fun c hc => Collection.isFaithful_toJson (h c hc))

end

/-- **Loading undoes writing.** The document of a schema whose texts have no surrogates can be
written as a file, and the file is loaded as the schema wherever it is, if the ending of its path is
in lower case not one of a document in YAML. -/
theorem Schema.load_written [i : Interpreter] {s : Schema} (hs : s.IsScalar) :
    ∃ bytes, encode s.toJson.write = .ok bytes ∧
      ∀ (d : Disk) (cwd : Location) (p : Path), d.readBytes cwd p = .ok bytes →
        p.suffix.lowercase ∉ yamlSuffixes → load d cwd p = .ok s := by
  have hfaithful : IsFaithful 5 s.toJson := isFaithful_toJson hs
  have hbytes := encode_eq_ok_iff.mpr ⟨isScalar_write hfaithful, rfl⟩
  exact ⟨_, hbytes, fun d cwd p hfile hsuffix =>
    load_of_isGivenBy hfaithful i.schema_fits (isGivenBy_toJson s) hbytes hfile hsuffix⟩

def schemaNamed (name : Text) : Schema :=
  ⟨[⟨"db", name, [⟨"k", "string", true, false, none, some "\x7f\""⟩]⟩]⟩

theorem isScalar_schemaNamed {name : Text} (h : Utf8.IsScalar name) :
    (schemaNamed name).IsScalar := by
  have hattribute : (⟨"k", "string", true, false, none, some "\x7f\""⟩ : Attribute).IsScalar :=
    ⟨by decide, by decide, by decide, by decide⟩
  have hdatabase : Utf8.IsScalar "db" := by decide
  exact List.forall_mem_singleton.mpr ⟨hdatabase, h, List.forall_mem_singleton.mpr hattribute⟩

/-- A disk where a schema with a code point past the first plane is in two files. -/
def emojiDisk : Disk :=
  ⟨["a.json", "a.YAML"].map fun name =>
    ([Disk.nameBytes name], .file ((schemaNamed "😀").toJson.write.flatMap CodePoint.utf8))⟩

theorem Schema.load_written_emoji :
    (schemaNamed "😀").IsScalar ∧
      load (i := .usual) emojiDisk [] (.ofText "a.json") = .ok (schemaNamed "😀") := by
  have hscalar : (schemaNamed "😀").IsScalar := isScalar_schemaNamed (by decide)
  obtain ⟨bytes, hbytes, hload⟩ := load_written (i := .usual) hscalar
  obtain ⟨-, rfl⟩ := encode_eq_ok_iff.mp hbytes
  exact ⟨hscalar, hload _ _ _ (by rfl) (by decide +kernel)⟩

/-- An ending in capitals is one of YAML as well, and there the surrogate pair that stands for a
code point past the first plane is read as two code points. -/
theorem Schema.load_emoji_capitals :
    (schemaNamed "😀").IsScalar ∧
      (∃ bytes, encode (schemaNamed "😀").toJson.write = .ok bytes ∧
        emojiDisk.readBytes [] (.ofText "a.YAML") = .ok bytes) ∧
      (Path.ofText "a.YAML").suffix ∉ yamlSuffixes ∧
      (load (i := .usual) emojiDisk [] (.ofText "a.YAML")).toOption =
        some (schemaNamed [.ofNat 0xD83D, .ofNat 0xDE00]) ∧
      load (i := .usual) emojiDisk [] (.ofText "a.YAML") ≠ .ok (schemaNamed "😀") := by
  have hscalar : (schemaNamed "😀").IsScalar := isScalar_schemaNamed (by decide)
  have hfaithful : IsFaithful 5 (schemaNamed "😀").toJson := isFaithful_toJson hscalar
  have hbytes := encode_eq_ok_iff.mpr ⟨isScalar_write hfaithful, rfl⟩
  have hload : (load (i := .usual) emojiDisk [] (.ofText "a.YAML")).toOption =
      some (schemaNamed [.ofNat 0xD83D, .ofNat 0xDE00]) := by
    decide +kernel
  refine ⟨hscalar, ⟨_, hbytes, by rfl⟩, by decide +kernel, hload, fun hsame => ?_⟩
  rw [hsame] at hload
  exact absurd (Option.some.inj hload) (by decide +kernel)

end CollectionInterfaces
