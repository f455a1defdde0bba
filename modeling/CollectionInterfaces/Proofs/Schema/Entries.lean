import CollectionInterfaces.Proofs.Json.Validity
import CollectionInterfaces.Proofs.Json.Values
import CollectionInterfaces.Proofs.Results
import CollectionInterfaces.Proofs.Schema.Checking

/-!
# What is read from the entries of a document

A schema that a document describes has one collection for every element of its list, one attribute
for every element of the lists of these, and each of them has what its document has under certain
names (`Schema.isReadFrom_of_ofDocument`). The other entries are not looked at.
-/

namespace CollectionInterfaces

open Json

namespace Json

variable {v : Json} {key first second : Text} {members : List (Text × Json)}

theorem value?_memberValues :
    Entries.value? key (memberValues members) = ((object members).member? key).map toValue := by
  induction members with
  | nil => rfl
  | cons entry members ih =>
    obtain ⟨name, w⟩ := entry
    rw [member?_cons]
    by_cases h : key = name
    · simp [memberValues, Entries.value?, h]
    · have hne : ¬name = key := Ne.symm h
      simp only [Entries.value?] at ih
      simp [memberValues, Entries.value?, h, hne, ih]

/-- The text under a name, if there is one. -/
def textUnder? (name : Text) (v : Json) : Option Text := (v.member? name).bind text?

/-- What is under a name counts as true in a condition. -/
def isTrueUnder (name : Text) (v : Json) : Bool := (v.member? name).any isTruthy

theorem textUnder?_of_member? {t : Text} (h : v.member? key = some (.text t)) :
    v.textUnder? key = some t := by
  rw [textUnder?, h]
  rfl

/-- The member under the first of two names, or under the second if the first is absent. -/
def either? (first second : Text) (v : Json) : Option Json :=
  (v.member? first).or (v.member? second)

theorem either?_memberValues (first second : Text) (members : List (Text × Json)) :
    (Entries.either? first second (memberValues members)).map (·.2) =
      ((object members).either? first second).map toValue := by
  simp only [Entries.either?, value?_memberValues, either?]
  cases (object members).member? first <;> cases (object members).member? second <;> rfl

/-- The name of an entry that has two. The second one counts only if the entry is not there under
the first. -/
def entryName (first second : Text) (v : Json) : Text :=
  if (v.member? first).isSome || (v.member? second).isNone then first else second

theorem either?_eq_member? : v.either? first second = v.member? (v.entryName first second) := by
  unfold either? entryName
  cases hfirst : v.member? first <;> cases hsecond : v.member? second <;> simp [hfirst, hsecond]

/-- The elements under a name, if there is an array. -/
def elementsUnder (name : Text) (v : Json) : List Json :=
  match v.member? name with
  | some (.array elements) => elements
  | _ => []

theorem untie_toValue (v : Json) : Knots.untie [] v.toValue = v.toValue := by
  cases v <;> rfl

theorem text?_toValue (v : Json) : v.toValue.text? = v.text? := by
  cases v <;> rfl

theorem checkText_toValue (v : Json) : v.toValue.checkText =
    match v.text? with
    | some t => .ok t
    | none => .refuse .isText := by
  cases v <;> rfl

theorem checkList_toValue {α : Type} (check : Value → Checked α) (v : Json) :
    v.toValue.checkList [] check =
      match v with
      | .array elements => .all (fun e => check e.toValue) 0 elements
      | _ => .refuse .isList := by
  unfold Value.checkList
  rw [untie_toValue]
  cases v with
  | array elements =>
    simp only [toValue, elementValues_eq_map, Value.items?]
    exact Checked.all_map
  | _ => rfl

theorem checkText_toValue_eq_ok_iff {t : Text} : v.toValue.checkText = .ok t ↔ v = .text t := by
  rw [checkText_toValue, ← text?_eq_some_iff]
  cases v.text? with
  | none => exact ⟨nofun, nofun⟩
  | some u => exact ⟨fun | rfl => rfl, fun | rfl => rfl⟩

/-- The check of an entry that must be a text. -/
def checkTextAt (name : Text) (v : Json) : Checked Text :=
  Checked.under (.entry name) (match v.member? name with
    | none => .refuse .present
    | some w => w.toValue.checkText)

theorem checkTextAt_eq_ok_iff {t : Text} :
    v.checkTextAt key = .ok t ↔ v.member? key = some (.text t) := by
  unfold checkTextAt
  rw [Checked.under_eq_ok_iff]
  cases v.member? key with
  | none => exact ⟨nofun, nofun⟩
  | some w => rw [checkText_toValue_eq_ok_iff, Option.some_inj]

theorem forall₂_of_checkList {α : Type} {check : Value → Checked α} {as : List α}
    (h : v.toValue.checkList [] check = .ok as) :
    ∃ elements, v = .array elements ∧
      List.Forall₂ (fun e a => check e.toValue = .ok a) elements as := by
  rw [checkList_toValue] at h
  split at h
  case h_1 elements => exact ⟨elements, rfl, Checked.all_eq_ok_iff.mp h⟩
  case h_2 => cases h

end Json

/-! ## Attributes -/

/-- An attribute has what a document gives for it. -/
structure Attribute.IsReadFrom (v : Json) (a : Attribute) : Prop where
  /-- The key is displayed if it is no text. -/
  key : ∃ w, v.member? "key" = some w ∧ a.key = w.toValue.display []
  type : a.type = (v.textUnder? "type").getD []
  required : a.required = v.isTrueUnder "required"
  array : a.array = v.isTrueUnder "array"
  relationType : a.relationType = (v.either? "relationType" "relation_type").bind Json.text?
  relatedCollection :
    a.relatedCollection = (v.either? "relatedCollection" "related_collection").bind Json.text?

variable {v w : Json} {members : List (Text × Json)} {key : Text}

namespace Attribute

theorem ofValue_object (members : List (Text × Json)) :
    ofValue [] (Json.object members).toValue =
      (Checked.under (.entry "key") (match (Json.object members).member? "key" with
        | none => .refuse .present
        | some w => checkKey [] w.toValue)).map (ofEntries (memberValues members)) := by
  unfold ofValue
  rw [untie_toValue, toValue]
  simp only [Value.entries?, value?_memberValues]
  cases (Json.object members).member? "key" <;> rfl

theorem ofValue_of_ne (h : v.typeName ≠ "object") :
    ofValue [] v.toValue = .refuse (.isObject .attribute) := by
  cases v with
  | object members => exact absurd rfl h
  | _ => rfl

theorem eq_display_of_checkKey (h : checkKey [] w.toValue = .ok key) :
    key = w.toValue.display [] := by
  unfold checkKey at h
  rw [text?_toValue] at h
  split at h
  · rename_i t ht
    cases h
    obtain rfl := text?_eq_some_iff.mp ht
    rfl
  · split at h
    · cases h
      rfl
    · cases h

theorem checkKey_of_isShowable (h : w.IsShowable) :
    checkKey [] w.toValue = .ok (w.toValue.display []) := by
  unfold checkKey
  rw [text?_toValue]
  split
  · rename_i t ht
    obtain rfl := text?_eq_some_iff.mp ht
    rfl
  · rw [if_pos (show Value.allShowable [] w.toValue = true from h)]

theorem either?_bind_text? (first second : Text) :
    (Entries.either? first second (memberValues members)).bind (·.2.text?) =
      ((Json.object members).either? first second).bind Json.text? := by
  have h := congrArg (Option.bind · Value.text?)
    (either?_memberValues first second members)
  simpa only [Option.bind_map, Function.comp_def, text?_toValue] using h

theorem isReadFrom_ofEntries (hkey : (Json.object members).member? "key" = some w) :
    IsReadFrom (.object members) (ofEntries (memberValues members) (w.toValue.display [])) where
  key := ⟨w, hkey, rfl⟩
  type := by
    simp only [ofEntries, value?_memberValues, Option.bind_map, Function.comp_def, text?_toValue]
    rfl
  required := by
    simp [ofEntries, value?_memberValues, Option.any_map, isTruthy_toValue, isTrueUnder]
  array := by simp [ofEntries, value?_memberValues, Option.any_map, isTruthy_toValue, isTrueUnder]
  relationType := either?_bind_text? _ _
  relatedCollection := either?_bind_text? _ _

theorem isReadFrom_of_ofValue {a : Attribute} (h : ofValue [] v.toValue = .ok a) :
    a.IsReadFrom v := by
  cases v with
  | object members =>
    rw [ofValue_object] at h
    obtain ⟨key, hkey, rfl⟩ := map_eq_ok_iff.mp h
    rw [Checked.under_eq_ok_iff] at hkey
    cases hgiven : (Json.object members).member? "key" with
    | none =>
      rw [hgiven] at hkey
      cases hkey
    | some w =>
      rw [hgiven] at hkey
      obtain rfl := eq_display_of_checkKey hkey
      exact isReadFrom_ofEntries hgiven
  | _ => cases h

end Attribute

/-! ## Collections -/

/-- A collection has what a document gives for it. -/
structure Collection.IsReadFrom (v : Json) (c : Collection) : Prop where
  databaseId : v.either? "databaseId" "database_id" = some (.text c.databaseId)
  name : v.member? "name" = some (.text c.name)
  /-- One attribute for every element, in order. -/
  attributes : List.Forall₂ Attribute.IsReadFrom (v.elementsUnder "attributes") c.attributes

namespace Collection

theorem checkDatabaseId_memberValues : checkDatabaseId (memberValues members) =
    (Json.object members).checkTextAt
      ((Json.object members).entryName "databaseId" "database_id") := by
  unfold checkDatabaseId Entries.either? checkTextAt entryName
  rw [value?_memberValues, value?_memberValues]
  cases hfirst : (Json.object members).member? "databaseId" <;>
    cases hsecond : (Json.object members).member? "database_id" <;> simp [hfirst, hsecond]

theorem checkName_memberValues :
    checkName (memberValues members) = (Json.object members).checkTextAt "name" := by
  unfold checkName checkTextAt
  rw [value?_memberValues]
  cases (Json.object members).member? "name" <;> rfl

theorem checkAttributes_memberValues : checkAttributes [] (memberValues members) =
    Checked.under (.entry "attributes") (match (Json.object members).member? "attributes" with
      | none => .ok []
      | some w => w.toValue.checkList [] (Attribute.ofValue [])) := by
  unfold checkAttributes
  rw [value?_memberValues]
  cases (Json.object members).member? "attributes" <;> rfl

theorem ofValue_object (members : List (Text × Json)) :
    ofValue [] (Json.object members).toValue =
      .both (fun f attributes => f attributes)
        (.both Collection.mk (checkDatabaseId (memberValues members))
          (checkName (memberValues members)))
        (checkAttributes [] (memberValues members)) := by
  unfold ofValue
  rw [untie_toValue, toValue]
  rfl

theorem ofValue_of_ne (h : v.typeName ≠ "object") :
    ofValue [] v.toValue = .refuse (.isObject .collection) := by
  cases v with
  | object members => exact absurd rfl h
  | _ => rfl

theorem forall₂_of_checkAttributes {attributes : List Attribute}
    (h : checkAttributes [] (memberValues members) = .ok attributes) :
    List.Forall₂ Attribute.IsReadFrom ((Json.object members).elementsUnder "attributes")
      attributes := by
  rw [checkAttributes_memberValues, Checked.under_eq_ok_iff] at h
  unfold elementsUnder
  split at h
  case h_1 hnone =>
    cases h
    rw [hnone]
    exact .nil
  case h_2 w hw =>
    obtain ⟨elements, rfl, helements⟩ := forall₂_of_checkList h
    rw [hw]
    exact helements.imp fun _ _ => Attribute.isReadFrom_of_ofValue

theorem isReadFrom_of_ofValue {c : Collection} (h : ofValue [] v.toValue = .ok c) :
    c.IsReadFrom v := by
  cases v with
  | object members =>
    rw [ofValue_object] at h
    obtain ⟨f, attributes, hskeleton, hattributes, rfl⟩ := Checked.both_eq_ok_iff.mp h
    obtain ⟨databaseId, name, hid, hname, rfl⟩ := Checked.both_eq_ok_iff.mp hskeleton
    rw [checkDatabaseId_memberValues, checkTextAt_eq_ok_iff, ← either?_eq_member?] at hid
    rw [checkName_memberValues, checkTextAt_eq_ok_iff] at hname
    exact ⟨hid, hname, forall₂_of_checkAttributes hattributes⟩
  | _ => cases h

end Collection

/-! ## Schemas -/

/-- A schema has what a document gives for it. -/
structure Schema.IsReadFrom (v : Json) (s : Schema) : Prop where
  /-- One collection for every element, in order. -/
  collections : List.Forall₂ Collection.IsReadFrom (v.elementsUnder "collections") s.collections

namespace Schema

theorem checkCollections_memberValues : checkCollections [] (memberValues members) =
    Checked.under (.entry "collections") (match (Json.object members).member? "collections" with
      | none => .ok []
      | some .null => .ok []
      | some w => w.toValue.checkList [] (Collection.ofValue [])) := by
  unfold checkCollections
  rw [value?_memberValues]
  cases (Json.object members).member? "collections" with
  | none => rfl
  | some w => cases w <;> rfl

theorem ofValue_object (members : List (Text × Json)) :
    ofValue [] (Json.object members).toValue =
      (checkCollections [] (memberValues members)).map Schema.mk := by
  unfold ofValue
  rw [untie_toValue, toValue]
  rfl

theorem ofValue_of_ne (h : v.typeName ≠ "object") :
    ofValue [] v.toValue = .refuse (.isObject .schema) := by
  cases v with
  | object members => exact absurd rfl h
  | _ => rfl

/-- **A schema has what its document gives.** There is one collection for every element, and one
attribute for every element of these, in order. -/
theorem isReadFrom_of_ofDocument {s : Schema} (h : ofDocument v.toDocument = .ok s) :
    s.IsReadFrom v := by
  have hvalue : ofValue [] v.toValue = .ok s := h
  cases v with
  | object members =>
    rw [ofValue_object] at hvalue
    obtain ⟨collections, hcollections, rfl⟩ := map_eq_ok_iff.mp hvalue
    rw [checkCollections_memberValues, Checked.under_eq_ok_iff] at hcollections
    refine ⟨?_⟩
    unfold elementsUnder
    split at hcollections
    case h_1 hnone =>
      cases hcollections
      rw [hnone]
      exact .nil
    case h_2 hnull =>
      cases hcollections
      rw [hnull]
      exact .nil
    case h_3 w _ hw =>
      obtain ⟨elements, rfl, helements⟩ := forall₂_of_checkList hcollections
      rw [hw]
      exact helements.imp fun _ _ => Collection.isReadFrom_of_ofValue
  | _ => cases hvalue

end Schema

end CollectionInterfaces
