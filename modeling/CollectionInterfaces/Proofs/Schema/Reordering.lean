import CollectionInterfaces.Proofs.Schema.Parsing
import CollectionInterfaces.Proofs.Yaml.Reordering
import Mathlib.Data.List.Forall2

/-!
# Schemas read with sets in another order

A key of an attribute may be a set, or have sets inside it, and is then shown in the order in which
the interpreter goes through them. Nothing else of a schema depends on that order: an interpreter
with another one reads a schema as well, with the same code points in its keys
(`Schema.exists_parse_reordered`). From JSON it reads the same schema, as there are no sets
(`Schema.parse_reordered_of_json`).
-/

namespace CollectionInterfaces

/-- Attributes that differ in the order of the code points of their keys at most. -/
structure Attribute.Reordered (a a' : Attribute) : Prop where
  key : a'.key.Perm a.key
  others : a' = { a with key := a'.key }

/-- Collections that differ in the keys of their attributes at most. -/
structure Collection.Reordered (c c' : Collection) : Prop where
  databaseId : c'.databaseId = c.databaseId
  name : c'.name = c.name
  attributes : List.Forall₂ Attribute.Reordered c.attributes c'.attributes

/-- Schemas that differ in the keys of attributes at most. -/
def Schema.Reordered (s s' : Schema) : Prop :=
  List.Forall₂ Collection.Reordered s.collections s'.collections

/-- Two checks find the same violations, or have related results. -/
inductive Checked.Follows {α : Type} (R : α → α → Prop) : Checked α → Checked α → Prop
  | ok {a a' : α} (h : R a a') : Follows R (.ok a) (.ok a')
  | error (violations : List Violation) : Follows R (.error violations) (.error violations)

namespace Checked

variable {α β γ : Type} {R : α → α → Prop} {S : β → β → Prop} {T : γ → γ → Prop}
  {c c' : Checked α} {e e' : Checked β}

theorem follows_self (c : Checked α) : Follows Eq c c := by
  cases c with
  | ok a => exact .ok rfl
  | error => exact .error _

theorem Follows.under (h : Follows R c c') (step : Step) :
    Follows R (c.under step) (c'.under step) := by
  cases h with
  | ok h => exact .ok h
  | error => exact .error _

theorem Follows.map {f f' : α → β} (h : Follows R c c') (hf : ∀ a a', R a a' → S (f a) (f' a')) :
    Follows S (c.map f) (c'.map f') := by
  cases h with
  | ok h => exact .ok (hf _ _ h)
  | error => exact .error _

theorem Follows.both {f : α → β → γ} (h : Follows R c c') (he : Follows S e e')
    (hf : ∀ a a' b b', R a a' → S b b' → T (f a b) (f a' b')) :
    Follows T (both f c e) (both f c' e') := by
  cases h with
  | ok h =>
    cases he with
    | ok he => exact .ok (hf _ _ _ _ h he)
    | error => exact .error _
  | error =>
    cases he with
    | ok => exact .error _
    | error => exact .error _

theorem all_follows {check check' : β → Checked α} {items items' : List β}
    (h : List.Forall₂ (fun b b' => Follows R (check b) (check' b')) items items') (index : Nat) :
    Follows (List.Forall₂ R) (all check index items) (all check' index items') := by
  induction h generalizing index with
  | nil => exact .ok .nil
  | cons hitem _ ih => exact (hitem.under _).both (ih _) fun _ _ _ _ h hrest => .cons h hrest

end Checked

variable {order order' : List Scalar → List Scalar}

theorem Entries.value?_reorderEntries (key : Text) (entries : Entries) :
    Entries.value? key (Value.reorderEntries order entries) =
      (entries.value? key).map (Value.reorder order) := by
  rw [Value.reorderEntries_eq_map, Entries.value?, Entries.value?, List.find?_map, Option.map_map,
    Option.map_map]
  rfl

theorem Entries.either?_reorderEntries (first second : Text) (entries : Entries) :
    Entries.either? first second (Value.reorderEntries order entries) =
      (entries.either? first second).map fun found => (found.1, found.2.reorder order) := by
  rw [Entries.either?, Entries.either?, value?_reorderEntries, value?_reorderEntries]
  cases entries.value? first with
  | some v => rfl
  | none =>
    rw [Option.map_none]
    cases entries.value? second <;> rfl

theorem Value.text?_reorder (v : Value) : (v.reorder order).text? = v.text? := by
  cases v <;> rfl

theorem Value.checkText_reorder (v : Value) : (v.reorder order).checkText = v.checkText := by
  cases v <;> rfl

namespace Collection

theorem checkDatabaseId_reorder (entries : Entries) :
    checkDatabaseId (Value.reorderEntries order entries) = checkDatabaseId entries := by
  rw [checkDatabaseId, checkDatabaseId, Entries.either?_reorderEntries]
  cases entries.either? "databaseId" "database_id" with
  | none => rfl
  | some found => simp only [Option.map_some, Value.checkText_reorder]

theorem checkName_reorder (entries : Entries) :
    checkName (Value.reorderEntries order entries) = checkName entries := by
  rw [checkName, checkName, Entries.value?_reorderEntries]
  cases entries.value? "name" with
  | none => rfl
  | some v => simp only [Option.map_some, Value.checkText_reorder]

end Collection

section

variable (h : ∀ members, (order members).Perm members)
  (h' : ∀ members, (order' members).Perm members)
include h h'

/-! ## Checking -/

theorem Value.checkList_reorder {α : Type} {R : α → α → Prop} {check check' : Value → Checked α}
    {requirement : Requirement} (knots : Knots)
    (hcheck : ∀ v : Value, Checked.Follows R (check (v.reorder order)) (check' (v.reorder order')))
    (hscalar : ∀ s, check (.scalar s) = .refuse requirement)
    (hscalar' : ∀ s, check' (.scalar s) = .refuse requirement) (v : Value) :
    Checked.Follows (List.Forall₂ R)
      ((v.reorder order).checkList (knots.reorder order) check)
      ((v.reorder order').checkList (knots.reorder order') check') := by
  unfold checkList
  rw [Knots.untie_reorder, Knots.untie_reorder]
  cases knots.untie v with
  | list items =>
    simp only [reorder, items?, reorderItems_eq_map]
    refine Checked.all_follows ?_ 0
    rw [List.forall₂_map_left_iff, List.forall₂_map_right_iff]
    exact List.forall₂_same.mpr fun v _ => hcheck v
  | set members =>
    -- none of the members is accepted, whatever their order
    have hlength : (order members).length = (order' members).length :=
      (order_perm h h' members).length_eq
    simp only [reorder, items?]
    refine Checked.all_follows ?_ 0
    rw [List.forall₂_map_left_iff, List.forall₂_map_right_iff]
    refine List.forall₂_iff_get.mpr ⟨hlength, fun index _ _ => ?_⟩
    rw [hscalar, hscalar']
    exact .error _
  | _ => exact .error _

namespace Attribute

theorem checkKey_reorder (knots : Knots) (v : Value) :
    Checked.Follows (fun key key' : Text => key'.Perm key)
      (checkKey (knots.reorder order) (v.reorder order))
      (checkKey (knots.reorder order') (v.reorder order')) := by
  unfold checkKey
  rw [Value.text?_reorder, Value.text?_reorder, Value.allShowable_reorder h h']
  cases v.text? with
  | some t => exact .ok (.refl t)
  | none =>
    dsimp only
    split
    · exact .ok (Value.display_reorder_perm h' h knots v)
    · exact .error _

theorem ofEntries_reorder (entries : Entries) (key key' : Text) :
    ofEntries (Value.reorderEntries order' entries) key' =
      { ofEntries (Value.reorderEntries order entries) key with key := key' } := by
  simp only [ofEntries, Entries.either?_reorderEntries, Entries.value?_reorderEntries,
    Option.bind_map, Option.any_map, Function.comp_def, Value.text?_reorder,
    Value.isTruthy_reorder h h']

theorem ofValue_reorder (knots : Knots) (v : Value) :
    Checked.Follows Reordered (ofValue (knots.reorder order) (v.reorder order))
      (ofValue (knots.reorder order') (v.reorder order')) := by
  unfold ofValue
  rw [Knots.untie_reorder, Knots.untie_reorder, Value.entries?_reorder, Value.entries?_reorder]
  cases (knots.untie v).entries? with
  | none => exact .error _
  | some entries =>
    simp only [Option.map_some, Entries.value?_reorderEntries]
    refine Checked.Follows.map (R := fun key key' : Text => key'.Perm key) (.under ?_ _) ?_
    · cases entries.value? "key" with
      | none => exact .error _
      | some key => exact checkKey_reorder h h' knots key
    · exact fun key key' hperm => ⟨hperm, ofEntries_reorder h h' entries key key'⟩

end Attribute

namespace Collection

theorem checkAttributes_reorder (knots : Knots) (entries : Entries) :
    Checked.Follows (List.Forall₂ Attribute.Reordered)
      (checkAttributes (knots.reorder order) (Value.reorderEntries order entries))
      (checkAttributes (knots.reorder order') (Value.reorderEntries order' entries)) := by
  rw [checkAttributes, checkAttributes, Entries.value?_reorderEntries,
    Entries.value?_reorderEntries]
  refine .under ?_ _
  cases entries.value? "attributes" with
  | none => exact .ok .nil
  | some v =>
    exact Value.checkList_reorder h h' knots (Attribute.ofValue_reorder h h' knots) (fun _ => rfl)
      (fun _ => rfl) v

theorem ofValue_reorder (knots : Knots) (v : Value) :
    Checked.Follows Reordered (ofValue (knots.reorder order) (v.reorder order))
      (ofValue (knots.reorder order') (v.reorder order')) := by
  unfold ofValue
  rw [Knots.untie_reorder, Knots.untie_reorder, Value.entries?_reorder, Value.entries?_reorder]
  cases (knots.untie v).entries? with
  | none => exact .error _
  | some entries =>
    simp only [Option.map_some]
    rw [checkDatabaseId_reorder, checkDatabaseId_reorder, checkName_reorder, checkName_reorder]
    have hnames := (Checked.follows_self (checkDatabaseId entries)).both
      (T := fun f f' => ∀ attributes attributes',
        List.Forall₂ Attribute.Reordered attributes attributes' →
        Reordered (f attributes) (f' attributes')) (f := Collection.mk)
      (Checked.follows_self (checkName entries))
      fun _ _ _ _ hid hname _ _ hattributes => ⟨hid.symm, hname.symm, hattributes⟩
    exact hnames.both (checkAttributes_reorder h h' knots entries) fun _ _ _ _ hf hattributes =>
      hf _ _ hattributes

end Collection

namespace Schema

theorem checkCollections_reorder (knots : Knots) (entries : Entries) :
    Checked.Follows (List.Forall₂ Collection.Reordered)
      (checkCollections (knots.reorder order) (Value.reorderEntries order entries))
      (checkCollections (knots.reorder order') (Value.reorderEntries order' entries)) := by
  rw [checkCollections, checkCollections, Entries.value?_reorderEntries,
    Entries.value?_reorderEntries]
  refine .under ?_ _
  have hlist (v : Value) := Value.checkList_reorder h h' knots
    (Collection.ofValue_reorder h h' knots) (fun _ => rfl) (fun _ => rfl) v
  cases entries.value? "collections" with
  | none => exact .ok .nil
  | some v =>
    cases v with
    | scalar s =>
      cases s with
      | null => exact .ok .nil
      | _ => exact hlist (.scalar _)
    | list items => exact hlist (.list items)
    | map entries => exact hlist (.map entries)
    | set members => exact hlist (.set members)
    | pair first second => exact hlist (.pair first second)
    | knot number => exact hlist (.knot number)

theorem ofDocument_reorder (d : Document) :
    Checked.Follows Reordered (ofDocument (d.reorder order)) (ofDocument (d.reorder order')) := by
  unfold ofDocument ofValue
  simp only [Document.reorder, Knots.untie_reorder, Value.entries?_reorder]
  cases (d.knots.untie d.root).entries? with
  | none => exact .error _
  | some entries =>
    exact (checkCollections_reorder h h' d.knots entries).map fun _ _ hcollections => hcollections

omit h h' in
/-- The items under a key are the same in another order of their sets, or all scalars. -/
theorem itemsUnder_reorder (order : List Scalar → List Scalar) (knots : Knots) (key : Text)
    (v : Value) :
    itemsUnder (knots.reorder order) key (v.reorder order) =
        (itemsUnder knots key v).map (Value.reorder order) ∨
      ∃ members, itemsUnder (knots.reorder order) key (v.reorder order) =
          (order members).map .scalar ∧
        itemsUnder knots key v = members.map .scalar := by
  unfold itemsUnder
  rw [Knots.untie_reorder, Value.entries?_reorder]
  cases (knots.untie v).entries? with
  | none => exact .inl rfl
  | some entries =>
    simp only [Option.map_some, Option.bind_some, Entries.value?_reorderEntries]
    cases entries.value? key with
    | none => exact .inl rfl
    | some w =>
      simp only [Option.map_some, Option.bind_some, Knots.untie_reorder]
      cases knots.untie w with
      | list items => exact .inl (Value.reorderItems_eq_map items)
      | set members => exact .inr ⟨members, rfl, rfl⟩
      | _ => exact .inl rfl

omit h h' in
theorem givenKeys_reorder (d : Document) :
    givenKeys (d.reorder order) = (givenKeys d).map (Value.reorder order) := by
  have hattributes (c : Value) : ((itemsUnder (d.knots.reorder order) "attributes"
      (c.reorder order)).filterMap fun a =>
        ((d.knots.reorder order).untie a).entries?.bind (Entries.value? "key")) =
      ((itemsUnder d.knots "attributes" c).filterMap fun a =>
        (d.knots.untie a).entries?.bind (Entries.value? "key")).map (Value.reorder order) := by
    rcases itemsUnder_reorder order d.knots "attributes" c with hitems | ⟨members, hitems, hitems'⟩
    · rw [hitems, List.filterMap_map, List.map_filterMap]
      refine List.filterMap_congr fun a _ => ?_
      rw [Function.comp_apply, Knots.untie_reorder, Value.entries?_reorder]
      cases (d.knots.untie a).entries? with
      | none => rfl
      | some entries => exact Entries.value?_reorderEntries "key" entries
    · -- a scalar has no entries, and so no key
      have hnone (members : List Scalar) :
          members.filterMap (fun _ => (none : Option Value)) = [] :=
        List.filterMap_eq_nil_iff.mpr fun _ _ => rfl
      rw [hitems, hitems', List.filterMap_map, List.filterMap_map]
      exact (hnone _).trans (congrArg (List.map _) (hnone _)).symm
  unfold givenKeys
  rw [List.map_flatMap]
  rcases itemsUnder_reorder order d.knots "collections" d.root with
    hitems | ⟨members, hitems, hitems'⟩
  · rw [Document.reorder, hitems, List.flatMap_map]
    exact List.flatMap_congr fun c _ => hattributes c
  · have hnone (members : List Scalar) : members.flatMap (fun _ => ([] : List Value)) = [] :=
      List.flatMap_eq_nil_iff.mpr fun _ _ => rfl
    rw [Document.reorder, hitems, hitems', List.flatMap_map, List.flatMap_map]
    exact (hnone _).trans (hnone _).symm

theorem keysFit_reorder [i : Interpreter] (d : Document) :
    keysFit (d.reorder order) = keysFit (d.reorder order') := by
  unfold keysFit
  rw [givenKeys_reorder, givenKeys_reorder, List.all_map, List.all_map]
  congr 1
  funext key
  have hobstacle : (key.reorder order).obstacle? (d.reorder order).knots =
      (key.reorder order').obstacle? (d.reorder order').knots :=
    Value.obstacle?_reorder h h' d.knots key
  simp only [Function.comp_apply, Value.text?_reorder]
  exact congrArg (or _) (decide_eq_decide.mpr (not_congr (by rw [hobstacle])))

end Schema

end

/-! ## Reading a text -/

theorem Attribute.Reordered.refl (a : Attribute) : Reordered a a := ⟨.refl _, rfl⟩

theorem Collection.Reordered.refl (c : Collection) : Reordered c c :=
  ⟨rfl, rfl, List.forall₂_same.mpr fun a _ => .refl a⟩

theorem Schema.Reordered.refl (s : Schema) : Reordered s s :=
  List.forall₂_same.mpr fun c _ => Collection.Reordered.refl c

theorem Document.exists_entries_reorder {d : Document}
    (hd : ∃ entries, (d.reorder order).knots.untie (d.reorder order).root = .map entries) :
    ∃ entries, (d.reorder order').knots.untie (d.reorder order').root = .map entries := by
  obtain ⟨entries, hentries⟩ := hd
  rw [reorder, Knots.untie_reorder] at hentries
  rw [reorder, Knots.untie_reorder]
  cases hroot : d.knots.untie d.root with
  | map given => exact ⟨_, rfl⟩
  | _ =>
    rw [hroot] at hentries
    cases hentries

namespace Schema

variable {i : Interpreter} {h : ∀ members, (order members).Perm members} {p : Path} {t : Text}
  {s : Schema}

theorem parse_reordered_of_json (hp : p.isYaml = false) :
    @parse (i.reordered order h) p t = @parse i p t := by
  have hread : @readDocument (i.reordered order h) p t = @readDocument i p t := by
    unfold readDocument
    rw [if_neg (by simp [hp]), if_neg (by simp [hp])]
    rfl
  unfold parse parseObject
  rw [hread]
  rfl

/-- **A schema is read by every interpreter**, whatever the order in which it goes through sets. -/
theorem exists_parse_reordered (hparse : @parse i p t = .ok s) :
    ∃ s', @parse (i.reordered order h) p t = .ok s' ∧ s.Reordered s' := by
  cases hp : p.isYaml with
  | false => exact ⟨s, (parse_reordered_of_json hp).trans hparse, .refl s⟩
  | true =>
    obtain ⟨d, hobject, hkeys, hschema⟩ := parse_eq_ok_iff.mp hparse
    obtain ⟨hread, hroot⟩ := parseObject_eq_ok_iff.mp hobject
    have hyaml : @Yaml.parse (i.reordered i.setOrder i.setOrder_perm) t = .ok d :=
      (readDocument_yaml_eq_ok_iff hp).mp hread
    rw [Yaml.parse_reordered] at hyaml
    obtain ⟨given, hgiven, rfl⟩ := map_eq_ok_iff.mp hyaml
    have hfollows := ofDocument_reorder i.setOrder_perm h given
    rw [hschema] at hfollows
    obtain ⟨s', hschema', hreordered⟩ : ∃ s', ofDocument (given.reorder order) = .ok s' ∧
        s.Reordered s' := by
      generalize ofDocument (given.reorder order) = result at hfollows
      cases hfollows with
      | ok hs => exact ⟨_, rfl, hs⟩
    refine ⟨s', (parse_eq_ok_iff (i := i.reordered order h)).mpr
      ⟨given.reorder order, ?_, ?_, hschema'⟩, hreordered⟩
    · refine (parseObject_eq_ok_iff (i := i.reordered order h)).mpr
        ⟨?_, Document.exists_entries_reorder hroot⟩
      refine (readDocument_yaml_eq_ok_iff (i := i.reordered order h) hp).mpr ?_
      rw [Yaml.parse_reordered, hgiven]
      rfl
    · exact (keysFit_reorder i.setOrder_perm h given).symm.trans hkeys

/-- A document with a set for a key. -/
def setText : Text :=
  "collections: [\x7bdatabaseId: d, name: a, attributes: [\x7bkey: !!set \x7ba, b\x7d\x7d]\x7d]"

example : (parse (i := .usual) (.ofText "a.yaml") setText).toOption =
    some ⟨[⟨"d", "a", [⟨"\x7b'a', 'b'\x7d", "", false, false, none, none⟩]⟩]⟩ := by
  decide +kernel

example : (parse (i := Interpreter.usual.reordered List.reverse List.reverse_perm)
    (.ofText "a.yaml") setText).toOption =
    some ⟨[⟨"d", "a", [⟨"\x7b'b', 'a'\x7d", "", false, false, none, none⟩]⟩]⟩ := by
  decide +kernel

end Schema

end CollectionInterfaces
