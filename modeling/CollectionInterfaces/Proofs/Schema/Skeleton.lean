import CollectionInterfaces.Proofs.Schema.Entries
import CollectionInterfaces.Proofs.Schema.Keys

/-!
# The skeleton of a schema document

A document is a schema exactly if it has the skeleton of one: collections with a database and a
name, attributes with a key. If it has not, every requirement that it violates is reported once, in
the order of the document (`Schema.validationLaw_of_parseObject`).
-/

namespace CollectionInterfaces

open Json

/-! ## Required entries -/

/-- The document of an attribute is an object with a key. -/
structure Attribute.HasSkeleton (v : Json) : Prop where
  isObject : v.typeName = "object"
  key : (v.member? "key").isSome

/-- The document of a collection is an object with a database, a name and, if any, a list of
attributes. -/
structure Collection.HasSkeleton (v : Json) : Prop where
  isObject : v.typeName = "object"
  databaseId : ∃ t, v.either? "databaseId" "database_id" = some (.text t)
  name : ∃ t, v.member? "name" = some (.text t)
  attributes : v.member? "attributes" = none ∨ ∃ elements,
    v.member? "attributes" = some (.array elements) ∧ ∀ e ∈ elements, Attribute.HasSkeleton e

/-- The document of a schema is an object with, if any, a list of collections. -/
structure Schema.HasSkeleton (v : Json) : Prop where
  isObject : v.typeName = "object"
  collections : v.member? "collections" = none ∨ v.member? "collections" = some .null ∨
    ∃ elements, v.member? "collections" = some (.array elements) ∧
      ∀ e ∈ elements, Collection.HasSkeleton e

/-! ## Violated requirements -/

/-- What is wrong with an entry that must be a text. -/
inductive Json.ViolatesText (v : Json) (name : Text) : Violation → Prop
  | missing (h : v.member? name = none) : ViolatesText v name ⟨[.entry name], .present⟩
  | notText {w : Json} (h : v.member? name = some w) (hw : w.text? = none) :
    ViolatesText v name ⟨[.entry name], .isText⟩

/-- What is wrong with a list whose elements can have something wrong with them. -/
inductive Json.ViolatesList (IsViolated : Json → Violation → Prop) : Json → Violation → Prop
  | notArray {v : Json} (h : ∀ elements, v ≠ .array elements) :
    ViolatesList IsViolated v ⟨[], .isList⟩
  | item {elements : List Json} {i : Nat} {e : Json} {u : Violation} (he : elements[i]? = some e)
    (hu : IsViolated e u) : ViolatesList IsViolated (.array elements) (u.under (.item i))

/-- What is wrong with the document of an attribute. -/
inductive Attribute.Violates (v : Json) : Violation → Prop
  | notObject (h : v.typeName ≠ "object") : Violates v ⟨[], .isObject .attribute⟩
  | noKey (hv : v.typeName = "object") (h : v.member? "key" = none) :
    Violates v ⟨[.entry "key"], .present⟩

/-- What is wrong with the document of a collection. -/
inductive Collection.Violates (v : Json) : Violation → Prop
  | notObject (h : v.typeName ≠ "object") : Violates v ⟨[], .isObject .collection⟩
  | databaseId (hv : v.typeName = "object") {u : Violation}
    (hu : v.ViolatesText (v.entryName "databaseId" "database_id") u) : Violates v u
  | name (hv : v.typeName = "object") {u : Violation} (hu : v.ViolatesText "name" u) : Violates v u
  | attributes {w : Json} (h : v.member? "attributes" = some w) {u : Violation}
    (hu : ViolatesList Attribute.Violates w u) : Violates v (u.under (.entry "attributes"))

/-- What is wrong with the document of a schema. -/
inductive Schema.Violates (v : Json) : Violation → Prop
  | notObject (h : v.typeName ≠ "object") : Violates v ⟨[], .isObject .schema⟩
  | collections {w : Json} (h : v.member? "collections" = some w) (hw : w ≠ .null) {u : Violation}
    (hu : ViolatesList Collection.Violates w u) : Violates v (u.under (.entry "collections"))

variable {v w : Json} {members : List (Text × Json)} {name : Text} {u : Violation}

/-! ## The skeleton and its violations -/

namespace Json

theorem typeName_eq_object_of_member? (h : v.member? name = some w) : v.typeName = "object" :=
  typeName_eq_object_iff.mpr (exists_object_of_member? h)

theorem exists_text_iff : (∃ t, v.member? name = some (.text t)) ↔ ∀ u, ¬v.ViolatesText name u := by
  constructor
  · rintro ⟨t, ht⟩ u (h | ⟨h, hw⟩)
    · exact absurd (ht.symm.trans h) nofun
    · obtain rfl := Option.some.inj (ht.symm.trans h)
      cases hw
  · intro h
    cases hgiven : v.member? name with
    | none => exact absurd (.missing hgiven) (h _)
    | some w =>
      cases hw : w.text? with
      | none => exact absurd (.notText hgiven hw) (h _)
      | some t => exact ⟨t, by rw [text?_eq_some_iff.mp hw]⟩

theorem exists_array_iff {HasSkeleton : Json → Prop} {IsViolated : Json → Violation → Prop}
    (h : ∀ e, HasSkeleton e ↔ ∀ u, ¬IsViolated e u) :
    (∃ elements, v = .array elements ∧ ∀ e ∈ elements, HasSkeleton e) ↔
      ∀ u, ¬ViolatesList IsViolated v u := by
  constructor
  · rintro ⟨elements, rfl, helements⟩ u (hne | ⟨he, hu⟩)
    · exact hne elements rfl
    · exact (h _).mp (helements _ (List.mem_of_getElem? he)) _ hu
  · intro hnone
    cases v with
    | array elements =>
      refine ⟨elements, rfl, fun e he => (h e).mpr fun u hu => ?_⟩
      obtain ⟨i, hi⟩ := List.mem_iff_getElem?.mp he
      exact hnone _ (.item hi hu)
    | _ => exact absurd (.notArray nofun) (hnone _)

end Json

theorem Attribute.hasSkeleton_iff : HasSkeleton v ↔ ∀ u, ¬Violates v u := by
  constructor
  · rintro ⟨hobject, hkey⟩ u (h | ⟨-, h⟩)
    · exact h hobject
    · rw [h] at hkey
      cases hkey
  · intro h
    have hobject : v.typeName = "object" := by_contra fun hne => h _ (.notObject hne)
    refine ⟨hobject, ?_⟩
    rw [Option.isSome_iff_ne_none]
    exact fun hnone => h _ (.noKey hobject hnone)

namespace Collection

theorem hasSkeleton_iff : HasSkeleton v ↔ ∀ u, ¬Violates v u := by
  constructor
  · rintro ⟨hobject, hid, hname, hattributes⟩ u (h | ⟨-, hu⟩ | ⟨-, hu⟩ | ⟨h, hu⟩)
    · exact h hobject
    · rw [either?_eq_member?] at hid
      exact exists_text_iff.mp hid _ hu
    · exact exists_text_iff.mp hname _ hu
    · obtain hnone | ⟨elements, hgiven, helements⟩ := hattributes
      · cases hnone.symm.trans h
      · obtain rfl := Option.some.inj (hgiven.symm.trans h)
        exact (exists_array_iff fun e => Attribute.hasSkeleton_iff).mp
          ⟨elements, rfl, helements⟩ _ hu
  · intro h
    have hobject : v.typeName = "object" := by_contra fun hne => h _ (.notObject hne)
    have hid : ∃ t, v.either? "databaseId" "database_id" = some (.text t) := by
      rw [either?_eq_member?]
      exact exists_text_iff.mpr fun u hu => h u (.databaseId hobject hu)
    have hname := exists_text_iff.mpr fun u hu => h u (.name hobject hu)
    refine ⟨hobject, hid, hname, ?_⟩
    cases hgiven : v.member? "attributes" with
    | none => exact .inl rfl
    | some w =>
      obtain ⟨elements, rfl, helements⟩ :=
        (exists_array_iff fun e => Attribute.hasSkeleton_iff).mpr
          fun u hu => h _ (.attributes hgiven hu)
      exact .inr ⟨elements, rfl, helements⟩

end Collection

theorem Schema.hasSkeleton_iff : HasSkeleton v ↔ ∀ u, ¬Violates v u := by
  constructor
  · rintro ⟨hobject, hcollections⟩ u (h | ⟨h, hne, hu⟩)
    · exact h hobject
    · obtain hnone | hnull | ⟨elements, hgiven, helements⟩ := hcollections
      · cases hnone.symm.trans h
      · exact hne (Option.some.inj (hnull.symm.trans h)).symm
      · obtain rfl := Option.some.inj (hgiven.symm.trans h)
        exact (exists_array_iff fun e => Collection.hasSkeleton_iff).mp
          ⟨elements, rfl, helements⟩ _ hu
  · intro h
    have hobject : v.typeName = "object" := by_contra fun hne => h _ (.notObject hne)
    refine ⟨hobject, ?_⟩
    cases hgiven : v.member? "collections" with
    | none => exact .inl rfl
    | some w =>
      by_cases hnull : w = .null
      · exact .inr (.inl (congrArg some hnull))
      · obtain ⟨elements, rfl, helements⟩ :=
          (exists_array_iff fun e => Collection.hasSkeleton_iff).mpr
            fun u hu => h _ (.collections hgiven hnull hu)
        exact .inr (.inr ⟨elements, rfl, helements⟩)

/-! ## The checks find the violations -/

namespace Json

theorem member?_isShowable (h : v.IsShowable) (hw : v.member? name = some w) : w.IsShowable := by
  cases v with
  | object members =>
    obtain ⟨before, after, rfl, -⟩ := List.lookup_eq_some_iff.mp hw
    exact isShowable_object_iff.mp h (name, w) (by simp)
  | _ => cases hw

theorem ViolatesText.exists_under (h : v.ViolatesText name u) :
    ∃ r, u = Violation.under (.entry name) ⟨[], r⟩ := by
  cases h with
  | missing => exact ⟨.present, rfl⟩
  | notText => exact ⟨.isText, rfl⟩

theorem finds_checkTextAt (name : Text) (v : Json) :
    (v.checkTextAt name).Finds (v.ViolatesText name) := by
  unfold checkTextAt
  cases hgiven : v.member? name with
  | none =>
    refine ((Checked.finds_refuse Text .present).under _).congr fun u => ?_
    constructor
    · rintro ⟨_, rfl, rfl⟩
      exact .missing hgiven
    · rintro (_ | ⟨h, -⟩)
      · exact ⟨_, rfl, rfl⟩
      · cases hgiven.symm.trans h
  | some w =>
    cases hw : w.text? with
    | none =>
      simp only [checkText_toValue, hw]
      refine ((Checked.finds_refuse Text .isText).under _).congr fun u => ?_
      constructor
      · rintro ⟨_, rfl, rfl⟩
        exact .notText hgiven hw
      · rintro (h | _)
        · cases hgiven.symm.trans h
        · exact ⟨_, rfl, rfl⟩
    | some t =>
      simp only [checkText_toValue, hw]
      refine (Checked.finds_ok t).congr fun u => ⟨nofun, ?_⟩
      rintro (h | ⟨h, hnone⟩)
      · cases hgiven.symm.trans h
      · obtain rfl := Option.some.inj (hgiven.symm.trans h)
        cases hw.symm.trans hnone

theorem finds_checkList {α : Type} {check : Value → Checked α}
    {IsViolated : Json → Violation → Prop}
    (hcheck : ∀ e : Json, e.IsShowable → (check e.toValue).Finds (IsViolated e))
    (hv : v.IsShowable) : (v.toValue.checkList [] check).Finds (ViolatesList IsViolated v) := by
  rw [checkList_toValue]
  cases v with
  | array elements =>
    have helements := isShowable_array_iff.mp hv
    refine (Checked.finds_all (fun e he => hcheck e (helements e he)) 0).congr fun u => ?_
    constructor
    · rintro ⟨i, e, u, he, hu, rfl⟩
      rw [Nat.zero_add]
      exact .item he hu
    · rintro (hne | ⟨he, hu⟩)
      · exact absurd rfl (hne elements)
      · exact ⟨_, _, _, he, hu, by rw [Nat.zero_add]⟩
  | _ =>
    refine (Checked.finds_refuse (List α) .isList).congr fun u => ?_
    constructor
    · rintro rfl
      exact .notArray nofun
    · rintro ⟨-⟩
      rfl

end Json

namespace Attribute

theorem violates_iff_of_ne (h : v.typeName ≠ "object") :
    Violates v u ↔ u = ⟨[], .isObject .attribute⟩ := by
  constructor
  · rintro (_ | ⟨hv, -⟩)
    · rfl
    · exact absurd hv h
  · rintro rfl
    exact .notObject h

theorem finds_ofValue (hv : v.IsShowable) : (ofValue [] v.toValue).Finds (Violates v) := by
  by_cases hobject : v.typeName = "object"
  · obtain ⟨members, rfl⟩ := typeName_eq_object_iff.mp hobject
    rw [ofValue_object]
    refine Checked.Finds.map ?_ _
    cases hgiven : (Json.object members).member? "key" with
    | none =>
      refine ((Checked.finds_refuse Text .present).under _).congr fun u => ?_
      constructor
      · rintro ⟨_, rfl, rfl⟩
        exact .noKey rfl hgiven
      · rintro (h | _)
        · exact absurd hobject h
        · exact ⟨_, rfl, rfl⟩
    | some w =>
      simp only [checkKey_of_isShowable (member?_isShowable hv hgiven)]
      refine (Checked.finds_ok _).congr fun u => ⟨nofun, ?_⟩
      rintro (h | ⟨-, h⟩)
      · exact h hobject
      · cases hgiven.symm.trans h
  · rw [ofValue_of_ne hobject]
    exact (Checked.finds_refuse _ _).congr fun u => (violates_iff_of_ne hobject).symm

end Attribute

namespace Collection

theorem violates_iff_of_ne (h : v.typeName ≠ "object") :
    Violates v u ↔ u = ⟨[], .isObject .collection⟩ := by
  constructor
  · rintro (_ | ⟨hv, -⟩ | ⟨hv, -⟩ | ⟨hw, -⟩)
    · rfl
    · exact absurd hv h
    · exact absurd hv h
    · exact absurd (typeName_eq_object_of_member? hw) h
  · rintro rfl
    exact .notObject h

theorem violates_iff (h : v.typeName = "object") : Violates v u ↔
    (v.ViolatesText (v.entryName "databaseId" "database_id") u ∨ v.ViolatesText "name" u) ∨
      ∃ s, (∃ w, v.member? "attributes" = some w ∧ ViolatesList Attribute.Violates w s) ∧
        s.under (.entry "attributes") = u := by
  constructor
  · rintro (hne | ⟨-, hu⟩ | ⟨-, hu⟩ | ⟨hw, hs⟩)
    · exact absurd h hne
    · exact .inl (.inl hu)
    · exact .inl (.inr hu)
    · exact .inr ⟨_, ⟨_, hw, hs⟩, rfl⟩
  · rintro ((hu | hu) | ⟨s, ⟨w, hw, hs⟩, rfl⟩)
    · exact .databaseId h hu
    · exact .name h hu
    · exact .attributes hw hs

theorem rank_entry_databaseId (v : Json) :
    (Step.entry (v.entryName "databaseId" "database_id")).rank = 0 := by
  unfold entryName
  split <;> decide

theorem finds_checkAttributes (hv : (Json.object members).IsShowable) :
    (checkAttributes [] (memberValues members)).Finds fun u =>
      ∃ s, (∃ w, (Json.object members).member? "attributes" = some w ∧
        ViolatesList Attribute.Violates w s) ∧ s.under (.entry "attributes") = u := by
  rw [checkAttributes_memberValues]
  refine Checked.Finds.under (P := fun s => ∃ w, _ = some w ∧ ViolatesList _ w s) ?_ _
  cases hgiven : (Json.object members).member? "attributes" with
  | none => exact (Checked.finds_ok _).congr fun u => by simp
  | some w =>
    refine (finds_checkList (fun e => Attribute.finds_ofValue)
      (member?_isShowable hv hgiven)).congr fun u => ?_
    simp

theorem finds_ofValue (hv : v.IsShowable) : (ofValue [] v.toValue).Finds (Violates v) := by
  by_cases hobject : v.typeName = "object"
  · obtain ⟨members, rfl⟩ := typeName_eq_object_iff.mp hobject
    rw [ofValue_object, checkDatabaseId_memberValues, checkName_memberValues]
    refine Checked.Finds.congr ?_ fun u => (violates_iff hobject).symm
    -- the violations of the database stand before those of the name, and both before the others
    refine ((finds_checkTextAt _ _).both (finds_checkTextAt _ _) _ ?_).both
      (finds_checkAttributes hv) _ ?_
    · intro s t hs ht
      obtain ⟨r, rfl⟩ := hs.exists_under
      obtain ⟨r', rfl⟩ := ht.exists_under
      refine Violation.before_of_rank_lt ?_
      rw [rank_entry_databaseId]
      decide
    · rintro s _ hs ⟨t, -, rfl⟩
      rcases hs with hs | hs
      · obtain ⟨r, rfl⟩ := hs.exists_under
        refine Violation.before_of_rank_lt ?_
        rw [rank_entry_databaseId]
        decide
      · obtain ⟨r, rfl⟩ := hs.exists_under
        exact Violation.before_of_rank_lt (by decide)
  · rw [ofValue_of_ne hobject]
    exact (Checked.finds_refuse _ _).congr fun u => (violates_iff_of_ne hobject).symm

end Collection

namespace Schema

theorem violates_iff_of_ne (h : v.typeName ≠ "object") :
    Violates v u ↔ u = ⟨[], .isObject .schema⟩ := by
  constructor
  · rintro (_ | ⟨hw, -, -⟩)
    · rfl
    · exact absurd (typeName_eq_object_of_member? hw) h
  · rintro rfl
    exact .notObject h

theorem violates_iff (h : v.typeName = "object") : Violates v u ↔
    ∃ s, (∃ w, v.member? "collections" = some w ∧ w ≠ .null ∧
      ViolatesList Collection.Violates w s) ∧ s.under (.entry "collections") = u := by
  constructor
  · rintro (hne | ⟨hw, hnull, hs⟩)
    · exact absurd h hne
    · exact ⟨_, ⟨_, hw, hnull, hs⟩, rfl⟩
  · rintro ⟨s, ⟨w, hw, hnull, hs⟩, rfl⟩
    exact .collections hw hnull hs

theorem finds_ofValue (hv : v.IsShowable) : (ofValue [] v.toValue).Finds (Violates v) := by
  by_cases hobject : v.typeName = "object"
  · obtain ⟨members, rfl⟩ := typeName_eq_object_iff.mp hobject
    rw [ofValue_object, checkCollections_memberValues]
    refine Checked.Finds.congr ?_ fun u => (violates_iff hobject).symm
    refine Checked.Finds.map (Checked.Finds.under
      (P := fun s => ∃ w, _ = some w ∧ w ≠ .null ∧ ViolatesList _ w s) ?_ _) _
    split
    case h_1 hnone =>
      exact (Checked.finds_ok _).congr fun u => by simp [hnone]
    case h_2 hnull =>
      exact (Checked.finds_ok _).congr fun u => by simp [hnull]
    case h_3 w hne hgiven =>
      refine (finds_checkList (fun e => Collection.finds_ofValue)
        (member?_isShowable hv hgiven)).congr fun u => ?_
      have hnull : w ≠ .null := by
        rintro rfl
        exact hne rfl
      simp [hgiven, hnull]
  · rw [ofValue_of_ne hobject]
    exact (Checked.finds_refuse _ _).congr fun u => (violates_iff_of_ne hobject).symm

/-! ## The law -/

/-- How a document is checked. -/
structure ValidationLaw (v : Json) (result : Checked Schema) : Prop where
  /-- The skeleton is all that is required. -/
  accepts : (∃ s, result = .ok s) ↔ HasSkeleton v
  corresponds : ∀ s, result = .ok s → s.IsReadFrom v
  /-- Every violated requirement is reported once, in the order of the document. -/
  refuses : ∀ es, result = .error es →
    (∀ u, u ∈ es ↔ Violates v u) ∧ es.Nodup ∧ es.Pairwise Violation.Before

theorem validationLaw_of_isShowable (hv : v.IsShowable) :
    ValidationLaw v (ofDocument v.toDocument) where
  accepts := (finds_ofValue hv).exists_ok_iff.trans hasSkeleton_iff.symm
  corresponds _ := isReadFrom_of_ofDocument
  refuses es h := by
    obtain ⟨-, hmem, hbefore⟩ := (finds_ofValue hv).refuses es h
    exact ⟨hmem, hbefore.imp Violation.Before.ne, hbefore⟩

/-- **The skeleton is all that is required.** A document in JSON is a schema exactly if it has the
skeleton of one, whatever else is in it; the schema corresponds to the document part by part. If
the document is no schema, every requirement that it violates is reported once, in the order of the
document. -/
theorem validationLaw_of_parseObject [i : Interpreter] {p : Path} {t : Text} {d : Document}
    (hp : p.isYaml = false) (h : parseObject p t = .ok d) :
    parse p t = (ofDocument d).mapError .invalid ∧
      ∃ v, Json.parse t = .ok v ∧ d = v.toDocument ∧ ValidationLaw v (ofDocument d) := by
  refine ⟨parse_of_keysFit h (keysFit_of_parseObject hp h), ?_⟩
  obtain ⟨members, hjson, rfl⟩ := (parseObject_json_eq_ok_iff hp).mp h
  have hread := Json.parse_eq_ok_iff.mp hjson
  exact ⟨_, hjson, rfl, validationLaw_of_isShowable (isShowable_of_readDocument hread)⟩

/-- A document with violations in two collections and in attributes. -/
def brokenText : Text :=
  "\x7b\"collections\":[\x7b\"databaseId\":7,\"database_id\":\"d\",
  \"attributes\":[\x7b\"key\":null,\"type\":[]\x7d,[],\x7b\"type\":1\x7d]\x7d,5]\x7d"

/-- The violations of the document. A key without a value is none of them. -/
def brokenViolations : List Violation :=
  [⟨[.entry "collections", .item 0, .entry "databaseId"], .isText⟩,
    ⟨[.entry "collections", .item 0, .entry "name"], .present⟩,
    ⟨[.entry "collections", .item 0, .entry "attributes", .item 1], .isObject .attribute⟩,
    ⟨[.entry "collections", .item 0, .entry "attributes", .item 2, .entry "key"], .present⟩,
    ⟨[.entry "collections", .item 1], .isObject .collection⟩]

theorem validationLaw_of_parseObject_brokenText :
    (Path.ofText "a.json").isYaml = false ∧
      ∃ d, parseObject (i := .usual) (.ofText "a.json") brokenText = .ok d ∧
        ofDocument d = .error brokenViolations ∧
        parse (i := .usual) (.ofText "a.json") brokenText = .error (.invalid brokenViolations) ∧
        ∃ v, Json.parse (i := .usual) brokenText = .ok v ∧ d = v.toDocument ∧
          ValidationLaw v (ofDocument d) := by
  have hjson : (Path.ofText "a.json").isYaml = false := by decide +kernel
  have hparse : parse (i := .usual) (.ofText "a.json") brokenText =
      .error (.invalid brokenViolations) := by
    decide +kernel
  have hok : (parseObject (i := .usual) (.ofText "a.json") brokenText).toBool = true := by
    decide +kernel
  obtain ⟨d, hobject⟩ := exists_eq_ok_of_toBool hok
  obtain ⟨hresult, hlaw⟩ := validationLaw_of_parseObject (i := .usual) hjson hobject
  obtain ⟨violations, hviolations, ⟨⟩⟩ := mapError_eq_error_iff.mp (hresult.symm.trans hparse)
  exact ⟨hjson, d, hobject, hviolations, hparse, hlaw⟩

end Schema

end CollectionInterfaces
