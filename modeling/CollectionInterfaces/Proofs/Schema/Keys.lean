import CollectionInterfaces.Proofs.Json.Values
import CollectionInterfaces.Proofs.Schema.Parsing

/-!
# Keys that are shown

The keys of a document's attributes are shown unless they are texts. A document in JSON never has
too much inside each other for that (`Schema.keysFit_of_parseObject`), as there was room enough to
read it.
-/

namespace CollectionInterfaces

variable {room room' : Nat} {v w : Value} {s : Scalar} {items : List Value} {entries : Entries}
  {members : List Scalar} {key : Text}

namespace Value

/-- Nothing keeps a value without knots from being shown, if there is that much room or more. -/
def FitsIn (room : Nat) (v : Value) : Prop :=
  ∀ room', room ≤ room' → v.obstacleWith (knotObstacle [] 1 []) room' = none

theorem FitsIn.mono (h : v.FitsIn room) (hle : room ≤ room') : v.FitsIn room' :=
  fun _ hroom => h _ (Nat.le_trans hle hroom)

section

variable {ofKnot : Nat → Nat → Option Obstacle}

theorem obstacleWith_scalar (room : Nat) (s : Scalar) :
    obstacleWith ofKnot room (.scalar s) = scalarObstacle? room s := by
  cases room with
  | zero => rfl
  | succ room => rw [obstacleWith]

theorem itemsObstacle_eq_none_iff : itemsObstacle ofKnot room items = none ↔
    ∀ v ∈ items, v.obstacleWith ofKnot room = none := by
  induction items with
  | nil => simp [itemsObstacle]
  | cons v items ih => simp [itemsObstacle, ih]

theorem entriesObstacle_eq_none_iff : entriesObstacle ofKnot room entries = none ↔
    ∀ entry ∈ entries, scalarObstacle? room entry.1 = none ∧
      entry.2.obstacleWith ofKnot room = none := by
  induction entries with
  | nil => simp [entriesObstacle]
  | cons entry entries ih => simp [entriesObstacle, ih]

end

theorem fitsIn_scalar (h : isShowable s = true) (hroom : 0 < room) :
    (Value.scalar s).FitsIn room := by
  intro room' hle
  rw [obstacleWith_scalar, scalarObstacle?, if_neg (by omega), if_pos h]

theorem fitsIn_list_iff :
    (Value.list items).FitsIn (room + 1) ↔ ∀ v ∈ items, v.FitsIn room := by
  constructor
  · intro h v hv room' hle
    have hitems := h (room' + 1) (Nat.succ_le_succ hle)
    rw [obstacleWith, itemsObstacle_eq_none_iff] at hitems
    exact hitems v hv
  · intro h room' hle
    obtain _ | room' := room'
    · cases hle
    · rw [obstacleWith, itemsObstacle_eq_none_iff]
      exact fun v hv => h v hv room' (Nat.le_of_succ_le_succ hle)

theorem fitsIn_map_iff : (Value.map entries).FitsIn (room + 1) ↔
    ∀ entry ∈ entries, (Value.scalar entry.1).FitsIn room ∧ entry.2.FitsIn room := by
  simp only [FitsIn, obstacleWith_scalar]
  constructor
  · intro h entry hentry
    have hentries (room' : Nat) (hle : room ≤ room') := h (room' + 1) (Nat.succ_le_succ hle)
    simp only [obstacleWith, entriesObstacle_eq_none_iff] at hentries
    exact ⟨fun room' hle => (hentries room' hle entry hentry).1,
      fun room' hle => (hentries room' hle entry hentry).2⟩
  · intro h room' hle
    obtain _ | room' := room'
    · cases hle
    · have hroom := Nat.le_of_succ_le_succ hle
      rw [obstacleWith, entriesObstacle_eq_none_iff]
      exact fun entry hentry => ⟨(h entry hentry).1 room' hroom, (h entry hentry).2 room' hroom⟩

theorem fitsIn_of_mem_set (h : (Value.set members).FitsIn (room + 1)) (hs : s ∈ members) :
    (Value.scalar s).FitsIn room := by
  intro room' hle
  have hmembers := h (room' + 1) (Nat.succ_le_succ hle)
  rw [obstacleWith, List.findSome?_eq_none_iff] at hmembers
  rw [obstacleWith_scalar]
  exact hmembers s hs

theorem FitsIn.item (h : v.FitsIn (room + 1)) (hitems : v.items? = some items) (hw : w ∈ items) :
    w.FitsIn room := by
  cases v with
  | list given =>
    cases hitems
    exact fitsIn_list_iff.mp h w hw
  | set members =>
    cases hitems
    obtain ⟨s, hs, rfl⟩ := List.mem_map.mp hw
    exact fitsIn_of_mem_set h hs
  | _ => cases hitems

theorem FitsIn.value? (h : v.FitsIn (room + 1)) (hentries : v.entries? = some entries)
    (hw : entries.value? key = some w) : w.FitsIn room := by
  cases v with
  | map given =>
    cases hentries
    obtain ⟨entry, hfind, rfl⟩ := Option.map_eq_some_iff.mp hw
    exact (fitsIn_map_iff.mp h entry (List.mem_of_find?_eq_some hfind)).2
  | _ => cases hentries

/-- What a value is without knots fits as well. -/
theorem FitsIn.untie (h : v.FitsIn (room + 1)) : (Knots.untie [] v).FitsIn (room + 1) := by
  cases v with
  | knot number => exact fitsIn_scalar rfl (Nat.succ_pos room)
  | _ => exact h

end Value

namespace Json

theorem exists_scalar_of_isAtom {word : Text} {v : Json} (h : IsAtom word v) :
    ∃ s, v.toValue = .scalar s := by
  cases h with
  | literal h =>
    have hliterals : ∀ entry ∈ literals, ∃ s, entry.2.toValue = .scalar s := by
      simp only [literals, List.forall_mem_cons]
      exact ⟨⟨_, rfl⟩, ⟨_, rfl⟩, ⟨_, rfl⟩, ⟨_, rfl⟩, ⟨_, rfl⟩, ⟨_, rfl⟩, List.forall_mem_nil _⟩
    exact hliterals _ h
  | float => exact ⟨_, rfl⟩
  | int => exact ⟨_, rfl⟩

/-- Showing a document takes one call more than the containers in which it was read. -/
theorem fitsIn_of_readDocument {t : Text} {v : Json} (h : readDocument room t = .ok v) :
    v.toValue.FitsIn (room + 1) := by
  refine readDocument_induction (P := fun room v => v.toValue.FitsIn (room + 1))
    (fun room t => Value.fitsIn_scalar rfl (Nat.succ_pos room)) (fun room word v hatom => ?_)
    (fun room elements helements => ?_) (fun room members _ hmembers => ?_) h
  · obtain ⟨s, hs⟩ := exists_scalar_of_isAtom hatom
    have hshowable := isShowable_of_isAtom hatom
    rw [IsShowable, Value.allShowable, hs, Value.showableWith] at hshowable
    rw [hs]
    exact Value.fitsIn_scalar hshowable (Nat.succ_pos room)
  · rw [toValue, elementValues_eq_map, Value.fitsIn_list_iff, List.forall_mem_map]
    exact helements
  · rw [toValue, memberValues_eq_map, Value.fitsIn_map_iff, List.forall_mem_map]
    exact fun member hmember =>
      ⟨Value.fitsIn_scalar rfl (Nat.succ_pos room), hmembers member hmember⟩

end Json

namespace Schema

theorem fitsIn_of_mem_itemsUnder (h : v.FitsIn (room + 2)) (hw : w ∈ itemsUnder [] key v) :
    w.FitsIn room := by
  obtain ⟨items, hitems, hw⟩ : ∃ items, ((((Knots.untie [] v).entries?.bind
      (Entries.value? key)).bind fun w => (Knots.untie [] w).items?) = some items) ∧ w ∈ items := by
    rw [itemsUnder] at hw
    cases hitems : (((Knots.untie [] v).entries?.bind (Entries.value? key)).bind
        fun w => (Knots.untie [] w).items?) with
    | none =>
      rw [hitems] at hw
      cases hw
    | some items =>
      rw [hitems] at hw
      exact ⟨items, rfl, hw⟩
  obtain ⟨list, hlist, hitems⟩ := Option.bind_eq_some_iff.mp hitems
  obtain ⟨entries, hentries, hvalue⟩ := Option.bind_eq_some_iff.mp hlist
  exact (h.untie.value? hentries hvalue).untie.item hitems hw

/-- The key of an attribute is inside five containers. -/
theorem fitsIn_of_mem_givenKeys {d : Document} (hknots : d.knots = [])
    (h : d.root.FitsIn (room + 5)) (hv : v ∈ givenKeys d) : v.FitsIn room := by
  rw [givenKeys, hknots] at hv
  obtain ⟨collection, hcollection, hv⟩ := List.mem_flatMap.mp hv
  obtain ⟨given, hgiven, hv⟩ := List.mem_filterMap.mp hv
  obtain ⟨entries, hentries, hvalue⟩ := Option.bind_eq_some_iff.mp hv
  have hfits := fitsIn_of_mem_itemsUnder (fitsIn_of_mem_itemsUnder h hcollection) hgiven
  exact hfits.untie.value? hentries hvalue

variable [i : Interpreter] {p : Path} {t : Text} {d : Document}

/-- There is always room to show the keys of a document in JSON. -/
theorem keysFit_of_parseObject (hp : p.isYaml = false) (h : parseObject p t = .ok d) :
    keysFit d = true := by
  obtain ⟨members, hjson, rfl⟩ := (parseObject_json_eq_ok_iff hp).mp h
  have hroot := Json.fitsIn_of_readDocument (Json.parse_eq_ok_iff.mp hjson)
  have hschema := i.schema_fits
  have hliteral := i.literal_fits
  refine List.all_eq_true.mpr fun key hkey => ?_
  have hfits : key.FitsIn (i.jsonRoom - 4) :=
    fitsIn_of_mem_givenKeys rfl (hroot.mono (by omega)) hkey
  have hnone : key.obstacle? [] = none := hfits i.literalRoom (by omega)
  rw [show (Json.object members).toDocument.knots = [] from rfl, hnone]
  simp

end Schema

end CollectionInterfaces
