import CollectionInterfaces.Proofs.Json.Atoms
import CollectionInterfaces.Proofs.Text.Digits
import CollectionInterfaces.Proofs.Value.Insertion
import CollectionInterfaces.Proofs.Value.Tree
import CollectionInterfaces.Value.Display

/-!
# Values of documents

What a document is as a value. The integers of a document that was read have few enough digits to
be shown (`Json.isShowable_of_readDocument`), and no name is in an object twice
(`Json.isTree_of_readDocument`). Both come from the induction over what is read
(`Json.readDocument_induction`).
-/

namespace CollectionInterfaces

namespace Json

variable {v : Json} {elements : List Json} {members : List (Text × Json)}

theorem elementValues_eq_map (elements : List Json) :
    elementValues elements = elements.map toValue := by
  induction elements with
  | nil => rfl
  | cons v elements ih => rw [elementValues, ih, List.map_cons]

theorem memberValues_eq_map (members : List (Text × Json)) :
    memberValues members = members.map fun member => (.text member.1, member.2.toValue) := by
  induction members with
  | nil => rfl
  | cons member members ih => rw [memberValues, ih, List.map_cons]

/-! ## Texts and conditions -/

def text? : Json → Option Text
  | .text t => some t
  | _ => none

theorem text?_eq_some_iff {t : Text} : v.text? = some t ↔ v = .text t := by
  cases v <;> simp [text?]

/-- A document counts as true in a condition, unless it is `null`, `false`, zero or empty. -/
def isTruthy : Json → Bool
  | .null => false
  | .bool b => b
  | .int n => n != 0
  | .float x => !x.isZero
  | .text t => !t.isEmpty
  | .array elements => !elements.isEmpty
  | .object members => !members.isEmpty

theorem isTruthy_toValue (v : Json) : v.toValue.isTruthy = v.isTruthy := by
  cases v with
  | array elements => simp [toValue, Value.isTruthy, isTruthy, elementValues_eq_map]
  | object members => simp [toValue, Value.isTruthy, isTruthy, memberValues_eq_map]
  | _ => simp [toValue, Value.isTruthy, Scalar.isTruthy, isTruthy]

/-! ## Showing integers -/

/-- Every integer in a document can be shown. -/
def IsShowable (v : Json) : Prop := v.toValue.allShowable [] = true

section

variable {ofKnot : Nat → Bool}

theorem itemsShowable_iff {items : List Value} : Value.itemsShowable ofKnot items = true ↔
    ∀ v ∈ items, v.showableWith ofKnot = true := by
  induction items with
  | nil => simp [Value.itemsShowable]
  | cons v items ih => simp [Value.itemsShowable, ih]

theorem entriesShowable_iff {entries : Entries} : Value.entriesShowable ofKnot entries = true ↔
    ∀ entry ∈ entries, Value.isShowable entry.1 = true ∧ entry.2.showableWith ofKnot = true := by
  induction entries with
  | nil => simp [Value.entriesShowable]
  | cons entry entries ih => simp [Value.entriesShowable, ih, and_assoc]

end

theorem isShowable_array_iff : IsShowable (.array elements) ↔ ∀ v ∈ elements, IsShowable v := by
  unfold IsShowable Value.allShowable
  rw [toValue, Value.showableWith, itemsShowable_iff, elementValues_eq_map, List.forall_mem_map]

theorem isShowable_object_iff :
    IsShowable (.object members) ↔ ∀ member ∈ members, IsShowable member.2 := by
  unfold IsShowable Value.allShowable
  rw [toValue, Value.showableWith, entriesShowable_iff, memberValues_eq_map, List.forall_mem_map]
  simp [Value.isShowable]

theorem isShowable_of_isAtom {word : Text} (h : IsAtom word v) : IsShowable v := by
  cases h with
  | literal h =>
    have hliterals : ∀ entry ∈ literals, IsShowable entry.2 := by
      simp only [literals, List.forall_mem_cons]
      exact ⟨rfl, rfl, rfl, rfl, rfl, rfl, nofun⟩
    exact hliterals _ h
  | float => rfl
  | @int negative whole hwhole hlength =>
    -- the limit is a variable here, so that its power is not computed
    have hlt : whole.toNat < Value.displayLimit := by
      unfold Value.displayLimit
      generalize Text.maxIntegerDigits = limit at hlength ⊢
      exact Nat.lt_of_lt_of_le (Text.toNat_lt hwhole.digits)
        (Nat.pow_le_pow_right (by decide) hlength)
    have habs : (if negative then -(whole.toNat : Int) else whole.toNat).natAbs = whole.toNat := by
      cases negative <;> simp
    simp only [IsShowable, Value.allShowable, toValue, Value.showableWith, Value.isShowable, habs,
      hlt, decide_true]

/-! ## Induction over what is read -/

section

variable {P : (room : Nat) → Json → Prop} (htext : ∀ room t, P room (.text t))
  (hatom : ∀ room word v, IsAtom word v → P room v)
  (harray : ∀ room elements, (∀ v ∈ elements, P room v) → P (room + 1) (.array elements))
  (hobject : ∀ room members, (members.map (·.1)).Nodup → (∀ member ∈ members, P room member.2) →
    P (room + 1) (.object members))
include htext hatom harray hobject

theorem read_induction (fuel : Nat) :
    (∀ room t v rest, readValue fuel room t = .ok (v, rest) → P room v) ∧
    (∀ room t elements rest, readElements fuel room t = .ok (elements, rest) →
      ∀ v ∈ elements, P room v) ∧
    (∀ room members t all rest, readMembers fuel room members t = .ok (all, rest) →
      (members.map (·.1)).Nodup ∧ (∀ member ∈ members, P room member.2) →
      (all.map (·.1)).Nodup ∧ ∀ member ∈ all, P room member.2) := by
  induction fuel with
  | zero => exact ⟨nofun, nofun, nofun⟩
  | succ fuel ih =>
    obtain ⟨ihValue, ihElements, ihMembers⟩ := ih
    have hinsert {room : Nat} {name : Text} {v : Json} {members : List (Text × Json)}
        (hv : P room v)
        (hmembers : (members.map (·.1)).Nodup ∧ ∀ member ∈ members, P room member.2) :
        ((insertMember name v members).map (·.1)).Nodup ∧
          ∀ member ∈ insertMember name v members, P room member.2 := by
      refine ⟨nodup_insertEntry hmembers.1, fun member hmember => ?_⟩
      obtain heq | ⟨other, hother, heq⟩ := snd_of_mem_insertEntry hmember
      · exact heq ▸ hv
      · exact heq ▸ hmembers.2 other hother
    refine ⟨?_, ?_, ?_⟩
    · intro room t v rest h
      cases valueStep_of_readValue h with
      | text _ => exact htext _ _
      | emptyArray _ => exact harray _ [] nofun
      | array _ _ helements => exact harray _ _ (ihElements _ _ _ _ helements)
      | emptyObject _ => exact hobject _ [] .nil nofun
      | object _ _ hmembers =>
        obtain ⟨hnames, hmembers⟩ := ihMembers _ _ _ _ _ hmembers ⟨.nil, nofun⟩
        exact hobject _ _ hnames hmembers
      | atom _ _ _ hread =>
        obtain ⟨word, -, hword⟩ := isAtom_of_readAtom hread
        exact hatom _ word v hword
    · intro room t elements rest h
      cases elementsStep_of_readElements h with
      | last hvalue _ => exact List.forall_mem_singleton.mpr (ihValue _ _ _ _ hvalue)
      | more hvalue _ helements =>
        exact List.forall_mem_cons.mpr ⟨ihValue _ _ _ _ hvalue, ihElements _ _ _ _ helements⟩
    · intro room members t all rest h hbefore
      cases membersStep_of_readMembers h with
      | last _ hvalue _ => exact hinsert (ihValue _ _ _ _ hvalue) hbefore
      | more _ hvalue _ hmembers =>
        exact ihMembers _ _ _ _ _ hmembers (hinsert (ihValue _ _ _ _ hvalue) hbefore)

/-- A document that was read has a property, if texts, literals and numbers have it, and arrays and
objects have it from their parts, for which there is less room. -/
theorem readDocument_induction {room : Nat} {t : Text} (h : readDocument room t = .ok v) :
    P room v := by
  obtain ⟨rest, ⟨fuel, hread⟩, -⟩ := reads_of_readDocument h
  exact (read_induction htext hatom harray hobject fuel).1 _ _ _ _ hread

end

theorem isShowable_of_readDocument {room : Nat} {t : Text} (h : readDocument room t = .ok v) :
    IsShowable v :=
  readDocument_induction (P := fun _ => IsShowable) (fun _ _ => rfl)
    (fun _ _ _ => isShowable_of_isAtom) (fun _ _ => isShowable_array_iff.mpr)
    (fun _ _ _ => isShowable_object_iff.mpr) h

theorem isTree_of_isAtom {word : Text} (h : IsAtom word v) : v.toValue.IsTree := by
  cases h with
  | literal h =>
    have hliterals : ∀ entry ∈ literals, entry.2.toValue.IsTree := by
      simp only [literals, List.forall_mem_cons]
      exact ⟨.scalar, .scalar, .scalar, .scalar, .scalar, .scalar, nofun⟩
    exact hliterals _ h
  | float => exact .scalar
  | int => exact .scalar

theorem areDistinct_texts {names : List Text} (h : names.Nodup) :
    AreDistinct (names.map .text) := by
  refine List.pairwise_map.mpr (h.imp fun hne => ?_)
  exact beq_eq_false_iff_ne.mpr fun heq => hne (Scalar.text.inj heq)

theorem isTree_of_readDocument {room : Nat} {t : Text} (h : readDocument room t = .ok v) :
    v.toValue.IsTree := by
  refine readDocument_induction (P := fun _ v => v.toValue.IsTree) (fun _ _ => .scalar)
    (fun _ _ _ => isTree_of_isAtom) (fun _ elements helements => ?_)
    (fun _ members hnames hmembers => ?_) h
  · rw [toValue, elementValues_eq_map]
    exact .list (List.forall_mem_map.mpr helements)
  · rw [toValue, memberValues_eq_map]
    have hkeys : (members.map fun member => (Scalar.text member.1, member.2.toValue)).map (·.1) =
        (members.map (·.1)).map .text := by
      rw [List.map_map, List.map_map]
      rfl
    exact .map (hkeys ▸ areDistinct_texts hnames) (List.forall_mem_map.mpr hmembers)

end Json

end CollectionInterfaces
