import CollectionInterfaces.Generation
import CollectionInterfaces.Proofs.Json.Values
import CollectionInterfaces.Proofs.Schema.Checking
import CollectionInterfaces.Proofs.Schema.Parsing
import CollectionInterfaces.Proofs.Schema.RoundTrip
import CollectionInterfaces.Proofs.Yaml.Flow.Tokens
import CollectionInterfaces.Proofs.Yaml.Tree
import CollectionInterfaces.Schema.Loading

/-!
# What a schema depends on

A schema is read from entries with few names. Documents agree (`Schema.Agree`) if they differ in
other entries only, and in the order of entries, in the objects that the schema describes. Documents
that agree are the same schema, or violate the same requirements at the same places, if no key
stands twice in a mapping (`Schema.relevanceLaw_of_parseObject`).
-/

namespace CollectionInterfaces

/-! ## Agreement -/

/-- Entries that differ in their order, and in those under other keys than the names that are read.
What is under such a name is related by `R`. -/
inductive Entries.Agree (read : List Text) (R : Text → Value → Value → Prop) :
    Entries → Entries → Prop
  | nil : Agree read R [] []
  | keep (hname : name ∈ read) (hv : R name v v') (h : Agree read R es es') :
    Agree read R ((.text name, v) :: es) ((.text name, v') :: es')
  | remove (hkey : ∀ name ∈ read, key ≠ .text name) (h : Agree read R es es') :
    Agree read R ((key, v) :: es) es'
  | add (hkey : ∀ name ∈ read, key ≠ .text name) (h : Agree read R es es') :
    Agree read R es ((key, v) :: es')
  | reorder (hperm : es.Perm es') (h : Agree read R es' es'') : Agree read R es es''

/-- Values that are the same, or objects whose entries agree. -/
inductive Value.AgreeInside (read : List Text) (R : Text → Value → Value → Prop) :
    Value → Value → Prop
  | same : AgreeInside read R v v
  | object (h : Entries.Agree read R es es') : AgreeInside read R (.map es) (.map es')

/-- Values that are the same, or lists of related items. -/
inductive Value.AgreeItems (R : Value → Value → Prop) : Value → Value → Prop
  | same : AgreeItems R v v
  | list (h : List.Forall₂ R items items') : AgreeItems R (.list items) (.list items')

/-- The names that are read in an attribute. -/
def Attribute.names : List Text :=
  ["key", "type", "required", "array", "relationType", "relation_type", "relatedCollection",
    "related_collection"]

/-- The names that are read in a collection. -/
def Collection.names : List Text := ["databaseId", "database_id", "name", "attributes"]

/-- The names that are read in a schema. -/
def Schema.names : List Text := ["collections"]

/-- Values that agree as attributes. -/
def Attribute.Agree : Value → Value → Prop := Value.AgreeInside names fun _ => Eq

/-- Values that agree as collections. -/
def Collection.Agree : Value → Value → Prop :=
  Value.AgreeInside names fun name =>
    if name = "attributes" then Value.AgreeItems Attribute.Agree else Eq

/-- Values that agree as schemas. -/
def Schema.Agree : Value → Value → Prop :=
  Value.AgreeInside names fun _ => Value.AgreeItems Collection.Agree

variable {read : List Text} {R : Text → Value → Value → Prop} {es es' : Entries} {name : Text}
  {v v' : Value} {knots : Knots}

/-! ## What is under a name -/

namespace Entries

theorem value?_cons_self : value? name ((.text name, v) :: es) = some v := by
  simp [value?]

theorem value?_cons_of_ne {key : Scalar} (h : key ≠ .text name) :
    value? name ((key, v) :: es) = value? name es := by
  simp [value?, h]

/-- No text is a key twice. -/
def HaveTextsOnce (es : Entries) : Prop :=
  es.Pairwise fun e e' => ∀ t, e.1 = .text t → e'.1 ≠ .text t

theorem haveTextsOnce_of_areDistinct (h : AreDistinct (es.map (·.1))) : es.HaveTextsOnce := by
  refine (List.pairwise_map.mp h).imp fun {e e'} hne t ht ht' => ?_
  rw [ht, ht'] at hne
  simp [Scalar.sameKey, Scalar.asInt?] at hne

theorem HaveTextsOnce.perm (h : es.HaveTextsOnce) (hperm : es.Perm es') : es'.HaveTextsOnce :=
  List.Pairwise.perm h hperm fun hne t ht ht' => hne t ht' ht

theorem value?_eq_some_iff (h : es.HaveTextsOnce) :
    es.value? name = some v ↔ (.text name, v) ∈ es := by
  induction es with
  | nil => simp [value?]
  | cons e es ih =>
    obtain ⟨key, w⟩ := e
    obtain ⟨hfirst, hrest⟩ := List.pairwise_cons.mp h
    rw [List.mem_cons]
    by_cases hkey : key = .text name
    · have hnot : (.text name, v) ∉ es := fun hmem => hfirst _ hmem name hkey rfl
      rw [hkey, value?_cons_self, Option.some.injEq, or_iff_left hnot, Prod.mk.injEq]
      exact ⟨fun heq => ⟨rfl, heq.symm⟩, fun heq => heq.2.symm⟩
    · have hne : (.text name, v) ≠ (key, w) := fun heq => hkey (congrArg Prod.fst heq).symm
      rw [value?_cons_of_ne hkey, ih hrest, or_iff_right hne]

theorem value?_perm (h : es.HaveTextsOnce) (hperm : es.Perm es') :
    es.value? name = es'.value? name := by
  ext v
  rw [value?_eq_some_iff h, value?_eq_some_iff (h.perm hperm)]
  exact hperm.mem_iff

/-- What is under a name that is read is absent in both or related. -/
theorem Agree.value? (h : Agree read R es es') (hes : es.HaveTextsOnce) (hname : name ∈ read) :
    Option.Rel (R name) (es.value? name) (es'.value? name) := by
  induction h with
  | nil => exact .none
  | @keep other v v' es es' hother hv h ih =>
    by_cases heq : other = name
    · subst heq
      rw [value?_cons_self, value?_cons_self]
      exact .some hv
    · have hne : Scalar.text other ≠ .text name := fun h => heq (Scalar.text.inj h)
      rw [value?_cons_of_ne hne, value?_cons_of_ne hne]
      exact ih (List.pairwise_cons.mp hes).2
  | remove hkey h ih =>
    rw [value?_cons_of_ne (hkey name hname)]
    exact ih (List.pairwise_cons.mp hes).2
  | add hkey h ih =>
    rw [value?_cons_of_ne (hkey name hname)]
    exact ih hes
  | reorder hperm h ih =>
    rw [value?_perm hes hperm]
    exact ih (hes.perm hperm)

theorem Agree.absent_or_present (h : Agree read R es es') (hes : es.HaveTextsOnce)
    (hname : name ∈ read) :
    es.value? name = none ∧ es'.value? name = none ∨
      ∃ v v', es.value? name = some v ∧ es'.value? name = some v' ∧ R name v v' := by
  have hrel := h.value? hes hname
  generalize es.value? name = found at hrel
  generalize es'.value? name = found' at hrel
  cases hrel with
  | none => exact .inl ⟨rfl, rfl⟩
  | some hv => exact .inr ⟨_, _, rfl, rfl, hv⟩

theorem Agree.value?_eq (h : Agree read R es es') (hes : es.HaveTextsOnce) (hname : name ∈ read)
    (hR : R name = Eq) : es'.value? name = es.value? name := by
  rcases h.absent_or_present hes hname with ⟨hnone, hnone'⟩ | ⟨v, v', hsome, hsome', hv⟩
  · rw [hnone, hnone']
  · rw [hR] at hv
    rw [hsome, hsome', hv]

theorem isTree_of_value? (h : ∀ entry ∈ es, entry.2.IsTree) (hv : es.value? name = some v) :
    v.IsTree := by
  obtain ⟨entry, hfind, rfl⟩ := Option.map_eq_some_iff.mp hv
  exact h entry (List.mem_of_find?_eq_some hfind)

end Entries

/-! ## Reading values that agree -/

theorem Checked.all_congr {α : Type} {R : Value → Value → Prop} {check : Value → Checked α}
    {items items' : List Value} (h : List.Forall₂ R items items')
    (hcheck : ∀ v v', R v v' → v.IsTree → check v' = check v) (hitems : ∀ v ∈ items, v.IsTree)
    (index : Nat) : Checked.all check index items' = Checked.all check index items := by
  induction h generalizing index with
  | nil => rfl
  | cons hv _ ih =>
    rw [List.forall_mem_cons] at hitems
    rw [Checked.all, Checked.all, hcheck _ _ hv hitems.1, ih hitems.2]

theorem Value.checkList_congr {α : Type} {R : Value → Value → Prop} {check : Value → Checked α}
    (h : Value.AgreeItems R v v') (hcheck : ∀ v v', R v v' → v.IsTree → check v' = check v)
    (hv : v.IsTree) : v'.checkList knots check = v.checkList knots check := by
  cases h with
  | same => rfl
  | list h =>
    cases hv with
    | list hitems => exact Checked.all_congr h hcheck hitems 0

theorem Attribute.ofValue_congr (h : Attribute.Agree v v') (hv : v.IsTree) :
    ofValue knots v' = ofValue knots v := by
  cases h with
  | same => rfl
  | @object es es' h =>
    cases hv with
    | map hkeys _ =>
      have hes := Entries.haveTextsOnce_of_areDistinct hkeys
      have hsame (name : Text) (hname : name ∈ names) : es'.value? name = es.value? name :=
        h.value?_eq hes hname rfl
      have hentries (key : Text) : ofEntries es' key = ofEntries es key := by
        simp only [ofEntries, Entries.either?, hsame "type" (by simp [names]),
          hsame "required" (by simp [names]), hsame "array" (by simp [names]),
          hsame "relationType" (by simp [names]), hsame "relation_type" (by simp [names]),
          hsame "relatedCollection" (by simp [names]), hsame "related_collection" (by simp [names])]
      simp only [ofValue, Knots.untie, Value.entries?, hsame "key" (by simp [names])]
      rw [funext hentries]

theorem Collection.ofValue_congr (h : Collection.Agree v v') (hv : v.IsTree) :
    ofValue knots v' = ofValue knots v := by
  cases h with
  | same => rfl
  | @object es es' h =>
    cases hv with
    | map hkeys htrees =>
      have hes := Entries.haveTextsOnce_of_areDistinct hkeys
      have hsame (name : Text) (hname : name ∈ names) (hne : name ≠ "attributes") :
          es'.value? name = es.value? name := h.value?_eq hes hname (if_neg hne)
      have hdatabase : checkDatabaseId es' = checkDatabaseId es := by
        simp only [checkDatabaseId, Entries.either?,
          hsame "databaseId" (by simp [names]) (by decide),
          hsame "database_id" (by simp [names]) (by decide)]
      have hname : checkName es' = checkName es := by
        rw [checkName, checkName, hsame "name" (by simp [names]) (by decide)]
      have hattributes : checkAttributes knots es' = checkAttributes knots es := by
        rcases h.absent_or_present hes (show ("attributes" : Text) ∈ names by simp [names]) with
          ⟨hnone, hnone'⟩ | ⟨v, v', hsome, hsome', hv⟩
        · rw [checkAttributes, checkAttributes, hnone, hnone']
        · rw [if_pos rfl] at hv
          rw [checkAttributes, checkAttributes, hsome, hsome']
          exact congrArg _ (Value.checkList_congr hv (fun _ _ => Attribute.ofValue_congr)
            (Entries.isTree_of_value? htrees hsome))
      simp only [ofValue, Knots.untie, Value.entries?, hdatabase, hname, hattributes]

namespace Schema

theorem checkCollections_congr (h : Entries.Agree names (fun _ => Value.AgreeItems Collection.Agree)
    es es') (hkeys : AreDistinct (es.map (·.1))) (htrees : ∀ entry ∈ es, entry.2.IsTree) :
    checkCollections knots es' = checkCollections knots es := by
  rcases h.absent_or_present (Entries.haveTextsOnce_of_areDistinct hkeys)
      (show ("collections" : Text) ∈ names by simp [names]) with
    ⟨hnone, hnone'⟩ | ⟨v, v', hsome, hsome', hv⟩
  · rw [checkCollections, checkCollections, hnone, hnone']
  · rw [checkCollections, checkCollections, hsome, hsome']
    cases hv with
    | same => rfl
    | list hitems =>
      exact congrArg _ (Value.checkList_congr (.list hitems) (fun _ _ => Collection.ofValue_congr)
        (Entries.isTree_of_value? htrees hsome))

theorem ofValue_congr (h : Agree v v') (hv : v.IsTree) : ofValue knots v' = ofValue knots v := by
  cases h with
  | same => rfl
  | object h =>
    cases hv with
    | map hkeys htrees =>
      simp only [ofValue, Knots.untie, Value.entries?, checkCollections_congr h hkeys htrees]

/-! ## The keys of values that agree -/

theorem untie_of_isTree (h : v.IsTree) : knots.untie v = v := by
  cases h with
  | _ => rfl

theorem isTree_of_mem_items {items : List Value} (h : v.IsTree) (hitems : v.items? = some items) :
    ∀ w ∈ items, w.IsTree := by
  cases h with
  | list hlist =>
    cases hitems
    exact hlist
  | set =>
    cases hitems
    exact List.forall_mem_map.mpr fun _ _ => .scalar
  | _ => cases hitems

theorem itemsUnder_map_of_none (h : es.value? name = none) :
    itemsUnder knots name (.map es) = [] := by
  simp [itemsUnder, Knots.untie, Value.entries?, h]

theorem itemsUnder_map_of_some (h : es.value? name = some v) :
    itemsUnder knots name (.map es) = ((knots.untie v).items?).getD [] := by
  simp [itemsUnder, Knots.untie, Value.entries?, h]

theorem isTree_of_mem_itemsUnder (hv : v.IsTree) : ∀ w ∈ itemsUnder knots name v, w.IsTree := by
  cases hv with
  | @map es _ htrees =>
    cases hgiven : Entries.value? name es with
    | none =>
      rw [itemsUnder_map_of_none hgiven]
      exact nofun
    | some w =>
      have hw := Entries.isTree_of_value? htrees hgiven
      rw [itemsUnder_map_of_some hgiven, untie_of_isTree hw]
      cases hitems : w.items? with
      | none => exact nofun
      | some items => exact isTree_of_mem_items hw hitems
  | _ => exact nofun

/-- The items under a name of values that agree are related one by one. -/
theorem forall₂_itemsUnder {S : Value → Value → Prop} (hself : ∀ w, S w w)
    (hS : ∀ w w', R name w w' → Value.AgreeItems S w w') (h : Value.AgreeInside read R v v')
    (hname : name ∈ read) (hv : v.IsTree) :
    List.Forall₂ (fun w w' => w.IsTree ∧ S w w') (itemsUnder knots name v)
      (itemsUnder knots name v') := by
  refine (List.forall₂_and_left _ _).mpr ⟨isTree_of_mem_itemsUnder hv, ?_⟩
  have hsame (items : List Value) : List.Forall₂ S items items :=
    List.forall₂_same.mpr fun w _ => hself w
  cases h with
  | same => exact hsame _
  | object h =>
    cases hv with
    | map hkeys htrees =>
      rcases h.absent_or_present (Entries.haveTextsOnce_of_areDistinct hkeys) hname with
        ⟨hnone, hnone'⟩ | ⟨w, w', hsome, hsome', hw⟩
      · rw [itemsUnder_map_of_none hnone, itemsUnder_map_of_none hnone']
        exact .nil
      · rw [itemsUnder_map_of_some hsome, itemsUnder_map_of_some hsome']
        cases hS _ _ hw with
        | same => exact hsame _
        | list hitems => exact hitems

theorem givenKey_congr (h : Attribute.Agree v v') (hv : v.IsTree) :
    (knots.untie v').entries?.bind (Entries.value? "key") =
      (knots.untie v).entries?.bind (Entries.value? "key") := by
  cases h with
  | same => rfl
  | object h =>
    cases hv with
    | map hkeys _ =>
      exact h.value?_eq (Entries.haveTextsOnce_of_areDistinct hkeys) (by simp [Attribute.names]) rfl

theorem givenKeys_congr {d d' : Document} (h : Agree d.root d'.root) (hd : d.root.IsTree)
    (hknots : d'.knots = d.knots) : givenKeys d' = givenKeys d := by
  unfold givenKeys
  rw [hknots]
  have hcollections : List.Forall₂ (fun c c' => c.IsTree ∧ Collection.Agree c c')
      (itemsUnder d.knots "collections" d.root) (itemsUnder d.knots "collections" d'.root) :=
    forall₂_itemsUnder (fun _ => .same) (fun _ _ => id) h (by simp [names]) hd
  refine (flatMap_eq_flatMap_of_forall₂ (hcollections.imp ?_)).symm
  rintro c c' ⟨hc, hagree⟩
  have hattributes : List.Forall₂ (fun a a' => a.IsTree ∧ Attribute.Agree a a')
      (itemsUnder d.knots "attributes" c) (itemsUnder d.knots "attributes" c') :=
    forall₂_itemsUnder (fun _ => .same) (fun _ _ h => by rwa [if_pos rfl] at h) hagree
      (by simp [Collection.names]) hc
  refine filterMap_eq_filterMap_of_forall₂ (hattributes.imp ?_)
  exact fun a a' ⟨ha, hagree⟩ => (givenKey_congr hagree ha).symm

/-! ## Documents that were parsed -/

section

variable [i : Interpreter] {p p' : Path} {t t' : Text} {d d' : Document}

/-- A document is parsed from a text, which has no aliases if it is in YAML. -/
structure IsParsed (p : Path) (t : Text) (d : Document) : Prop where
  parsed : parseObject p t = .ok d
  aliasFree : p.isYaml = true → Yaml.IsAliasFree t

theorem IsParsed.isTree (h : IsParsed p t d) : d.IsTree := by
  obtain ⟨hread, -⟩ := parseObject_eq_ok_iff.mp h.parsed
  cases hp : p.isYaml with
  | true =>
    exact Yaml.isTree_of_parse (h.aliasFree hp) ((readDocument_yaml_eq_ok_iff hp).mp hread)
  | false =>
    obtain ⟨v, hjson, rfl⟩ := (readDocument_json_eq_ok_iff hp).mp hread
    exact ⟨Json.isTree_of_readDocument (Json.parse_eq_ok_iff.mp hjson), rfl⟩

/-- What is the same for documents that agree. -/
structure RelevanceLaw (p p' : Path) (t t' : Text) (d d' : Document) : Prop where
  /-- They are the same schema, or violate the same requirements at the same places. -/
  schema : ofDocument d' = ofDocument d
  /-- Runs over their collections leave the same disk and end in the same way. -/
  run : ∀ (config : Config) (cwd : Location) (disk : Disk),
    (parse p' t').map (fun s => generate config cwd disk s.collections) =
      (parse p t).map fun s => generate config cwd disk s.collections

/-- **What is not read has no influence.** -/
theorem relevanceLaw_of_parseObject (h : IsParsed p t d) (h' : IsParsed p' t' d')
    (hagree : Agree d.root d'.root) : RelevanceLaw p p' t t' d d' := by
  have hknots : d'.knots = d.knots := h'.isTree.knots.trans h.isTree.knots.symm
  have hschema : ofDocument d' = ofDocument d := by
    rw [ofDocument, ofDocument, hknots, ofValue_congr hagree h.isTree.root]
  have hkeys : keysFit d' = keysFit d := by
    rw [keysFit, keysFit, hknots, givenKeys_congr hagree h.isTree.root hknots]
  have hparse : parse p' t' = parse p t := by
    cases hfit : keysFit d with
    | true =>
      rw [parse_of_keysFit h.parsed hfit, parse_of_keysFit h'.parsed (hkeys.trans hfit), hschema]
    | false =>
      rw [parse_of_not_keysFit h.parsed hfit, parse_of_not_keysFit h'.parsed (hkeys.trans hfit)]
  refine ⟨hschema, fun config cwd disk => ?_⟩
  rw [hparse]

end

/-- A document with only what is read, in the order of the models. -/
def teams : Json :=
  .object [("collections", .array [.object [("databaseId", .text "db"), ("name", .text "teams"),
    ("attributes", .array [.object [("key", .text "size"), ("type", .text "integer")]])]])]

/-- The same schema among other entries, and in another order. -/
def strayTeams : Json :=
  .object [("projectId", .text "p"), ("collections", .array [.object [("name", .text "teams"),
    ("attributes", .array [.object [("type", .text "integer"), ("min", .null),
      ("key", .text "size")]]), ("indexes", .array []), ("databaseId", .text "db")]])]

theorem isFaithful_teams : Json.IsFaithful 5 teams := by
  have hattribute : Json.IsFaithful 1
      (.object [("key", .text "size"), ("type", .text "integer")]) := by
    refine Json.isFaithful_object _ rfl (by decide) (by decide) ?_
    simp only [List.forall_mem_cons]
    exact ⟨.text (by decide), .text (by decide), nofun⟩
  refine Json.isFaithful_object _ rfl (by decide) (by decide) (List.forall_mem_singleton.mpr ?_)
  refine .array (List.forall_mem_singleton.mpr ?_)
  refine Json.isFaithful_object _ rfl (by decide) (by decide) ?_
  simp only [List.forall_mem_cons]
  exact ⟨.text (by decide), .text (by decide), .array (List.forall_mem_singleton.mpr hattribute),
    nofun⟩

theorem isFaithful_strayTeams : Json.IsFaithful 5 strayTeams := by
  have hattribute : Json.IsFaithful 1
      (.object [("type", .text "integer"), ("min", .null), ("key", .text "size")]) := by
    refine Json.isFaithful_object _ rfl (by decide) (by decide) ?_
    simp only [List.forall_mem_cons]
    exact ⟨.text (by decide), .null, .text (by decide), nofun⟩
  refine Json.isFaithful_object _ rfl (by decide) (by decide) ?_
  simp only [List.forall_mem_cons]
  refine ⟨.text (by decide), .array (List.forall_mem_singleton.mpr ?_), nofun⟩
  refine Json.isFaithful_object _ rfl (by decide) (by decide) ?_
  simp only [List.forall_mem_cons]
  exact ⟨.text (by decide), .array (List.forall_mem_singleton.mpr hattribute), .array nofun,
    .text (by decide), nofun⟩

theorem agree_teams : Agree teams.toValue strayTeams.toValue := by
  have hattribute : Attribute.Agree
      (.map [(.text "key", .scalar (.text "size")), (.text "type", .scalar (.text "integer"))])
      (.map [(.text "type", .scalar (.text "integer")), (.text "min", .scalar .null),
        (.text "key", .scalar (.text "size"))]) :=
    .object (.reorder (.swap _ _ _) (.keep (by decide) rfl
      (.add (by decide) (.keep (by decide) rfl .nil))))
  refine .object (.add (by decide) (.keep (by decide) (.list (.cons ?_ .nil)) .nil))
  refine .object (.reorder (.swap _ _ _) (.keep (by decide) ?_ (.reorder (.swap _ _ _)
    (.keep (by decide) ?_ (.add (by decide) (.keep (by decide) ?_ .nil))))))
  · rw [if_neg (by decide)]
  · rw [if_pos rfl]
    exact .list (.cons hattribute .nil)
  · rw [if_neg (by decide)]

theorem isParsed_teams [i : Interpreter] :
    IsParsed (.ofText "a.json") teams.write teams.toDocument where
  parsed := (parseObject_json_eq_ok_iff (by decide +kernel)).mpr
    ⟨_, Json.parse_eq_ok_iff.mpr
      (Json.readDocument_mono i.schema_fits (Json.readDocument_write isFaithful_teams)), rfl⟩
  aliasFree h := absurd h (by decide +kernel)

theorem isParsed_strayTeams :
    IsParsed (i := .usual) (.ofText "a.yaml") strayTeams.write strayTeams.toDocument := by
  have hyaml : (Path.ofText "a.yaml").isYaml = true := by decide +kernel
  have hcharacters : Yaml.HasSharedCharacters strayTeams.write :=
    ⟨by decide +kernel, by decide +kernel, by decide +kernel,
      Json.isPairFree_of_not_mem (by decide +kernel)⟩
  have hfit : Yaml.fitAll 30 ⟨.value, 490, Json.skipBlanks strayTeams.write⟩ = true := by
    decide +kernel
  have hread := Json.readDocument_write isFaithful_strayTeams
  have hshares : Yaml.SharesNotation (i := .usual) strayTeams.write :=
    .mk (i := .usual) hcharacters ⟨_, Json.readDocument_mono (by decide) hread⟩
      (Yaml.sharesPlaces_of_fitAll hfit)
  have hparse := Yaml.parse_of_readDocument (i := .usual) hread ⟨_, rfl⟩ hshares
  refine .mk (i := .usual) ((parseObject_eq_ok_iff (i := .usual)).mpr ⟨?_, _, rfl⟩) fun _ => by
    decide +kernel
  exact (readDocument_yaml_eq_ok_iff (i := .usual) hyaml).mpr hparse

theorem relevanceLaw_of_parseObject_teams :
    IsParsed (i := .usual) (.ofText "a.json") teams.write teams.toDocument ∧
      IsParsed (i := .usual) (.ofText "a.yaml") strayTeams.write strayTeams.toDocument ∧
      Agree teams.toDocument.root strayTeams.toDocument.root ∧
      ofDocument teams.toDocument =
        .ok ⟨[⟨"db", "teams", [⟨"size", "integer", false, false, none, none⟩]⟩]⟩ ∧
      ofDocument strayTeams.toDocument =
        .ok ⟨[⟨"db", "teams", [⟨"size", "integer", false, false, none, none⟩]⟩]⟩ := by
  have hteams := isParsed_teams (i := .usual)
  have hlaw := relevanceLaw_of_parseObject (i := .usual) hteams isParsed_strayTeams agree_teams
  have hschema : ofDocument teams.toDocument =
      .ok ⟨[⟨"db", "teams", [⟨"size", "integer", false, false, none, none⟩]⟩]⟩ := by
    decide +kernel
  exact ⟨hteams, isParsed_strayTeams, agree_teams, hschema,
    (RelevanceLaw.schema (i := .usual) hlaw).trans hschema⟩

end Schema

end CollectionInterfaces
