import CollectionInterfaces.Proofs.Yaml.Nesting
import CollectionInterfaces.Yaml.Scalar
import CollectionInterfaces.Yaml.Token

/-!
# Documents in flow notation

The part of flow notation that JSON has as well: scalars that are plain or in double quotes, and
sequences and mappings in brackets, the keys of which are in quotes. A spelling is a document of
this kind up to the blanks between its tokens. It has the kinds of its tokens (`Spelling.kinds`),
and a value (`Spelling.value`).
-/

namespace CollectionInterfaces.Yaml

/-- A document as it is spelled. -/
inductive Spelling
  | plain (t : Text)
  | quoted (t : Text)
  | list (items : List Spelling)
  | map (entries : List (Text × Spelling))

namespace Spelling

theorem induct {P : Spelling → Prop} (plain : ∀ t, P (.plain t)) (quoted : ∀ t, P (.quoted t))
    (list : ∀ items, (∀ s ∈ items, P s) → P (.list items))
    (map : ∀ entries, (∀ entry ∈ entries, P entry.2) → P (.map entries)) (s : Spelling) : P s :=
  @Spelling.rec P (fun items => ∀ s ∈ items, P s) (fun entries => ∀ entry ∈ entries, P entry.2)
    (fun entry => P entry.2) plain quoted list map nofun
    (fun _ _ h hs => List.forall_mem_cons.mpr ⟨h, hs⟩) nofun
    (fun _ _ h hs => List.forall_mem_cons.mpr ⟨h, hs⟩) (fun _ _ h => h) s

mutual

def kinds : Spelling → List TokenKind
  | .plain t => [.scalar t true]
  | .quoted t => [.scalar t false]
  | .list items => .flowSequenceStart :: itemKinds true items
  | .map entries => .flowMappingStart :: entryKinds true entries

/-- The kinds of the tokens of items, up to the closing bracket. -/
def itemKinds (first : Bool) : List Spelling → List TokenKind
  | [] => [.flowSequenceEnd]
  | s :: items => (if first then [] else [.flowEntry]) ++ (kinds s ++ itemKinds false items)

/-- The kinds of the tokens of entries, up to the closing bracket. -/
def entryKinds (first : Bool) : List (Text × Spelling) → List TokenKind
  | [] => [.flowMappingEnd]
  | (name, s) :: entries =>
    (if first then [] else [.flowEntry]) ++
      (.key :: .scalar name false :: .value :: (kinds s ++ entryKinds false entries))

end

/-- The value of a plain scalar by its look; there is no value if it looks like what it is not. -/
def plainScalar (t : Text) : Scalar :=
  (((scalarOf? (tagByLook t) .start t).bind Except.toOption)).getD .null

/-- Entries with the later one of those with the same name in the place of the first. -/
def mergeEntries {ν : Type} (entries : List (Text × ν)) : List (Scalar × ν) :=
  entries.foldl (fun merged entry => insertEntry Scalar.sameKey (.text entry.1) entry.2 merged) []

mutual

def value : Spelling → Value
  | .plain t => .scalar (plainScalar t)
  | .quoted t => .scalar (.text t)
  | .list items => .list (itemValues items)
  | .map entries => .map (mergeEntries (entryValues entries))

def itemValues : List Spelling → List Value
  | [] => []
  | s :: items => value s :: itemValues items

/-- The values of entries, by their names. -/
def entryValues : List (Text × Spelling) → List (Text × Value)
  | [] => []
  | (name, s) :: entries => (name, value s) :: entryValues entries

end

theorem itemValues_eq_map (items : List Spelling) : itemValues items = items.map value := by
  induction items with
  | nil => rfl
  | cons s items ih => rw [itemValues, ih, List.map_cons]

theorem entryValues_eq_map (entries : List (Text × Spelling)) :
    entryValues entries = entries.map fun entry => (entry.1, entry.2.value) := by
  induction entries with
  | nil => rfl
  | cons entry entries ih => rw [entryValues, ih, List.map_cons]

theorem plainScalar_eq {t : Text} {scalar : Scalar}
    (h : ∀ mark, scalarOf? (tagByLook t) mark t = some (.ok scalar)) : plainScalar t = scalar := by
  rw [plainScalar, h]
  rfl

/-- Every plain scalar has the value that it looks like. -/
inductive IsConvertible : Spelling → Prop
  | plain (h : ∀ mark, scalarOf? (tagByLook t) mark t = some (.ok (plainScalar t))) :
    IsConvertible (.plain t)
  | quoted (t : Text) : IsConvertible (.quoted t)
  | list (h : ∀ s ∈ items, IsConvertible s) : IsConvertible (.list items)
  | map (h : ∀ entry ∈ entries, IsConvertible entry.2) : IsConvertible (.map entries)

/-! ## Nesting -/

/-- A spelling has no more than `room` brackets inside each other. -/
inductive Fits : (room : Nat) → Spelling → Prop
  | plain {room : Nat} {t : Text} : Fits room (.plain t)
  | quoted {room : Nat} {t : Text} : Fits room (.quoted t)
  | list {room : Nat} {items : List Spelling} : (∀ s ∈ items, Fits room s) →
    Fits (room + 1) (.list items)
  | map {room : Nat} {entries : List (Text × Spelling)} : (∀ entry ∈ entries, Fits room entry.2) →
    Fits (room + 1) (.map entries)

variable {room total : Nat} {outer : List OpenCollection} {s : Spelling}

/-- Inside of brackets the tokens of items close them in the end. -/
theorem nests_itemKinds {items : List Spelling} {first : Bool} (hroom : outer.length < total)
    (h : ∀ s ∈ items, Nests total (.flowSequence :: outer) s.kinds (.flowSequence :: outer)) :
    Nests total (.flowSequence :: outer) (itemKinds first items) outer := by
  induction items generalizing first with
  | nil => exact ⟨⟨Nat.le_of_lt hroom, trivial⟩, rfl⟩
  | cons s items ih =>
    rw [List.forall_mem_cons] at h
    have hcomma : Nests total (.flowSequence :: outer) (if first then [] else [.flowEntry])
        (.flowSequence :: outer) := by
      cases first
      · exact ⟨⟨hroom, trivial⟩, rfl⟩
      · exact ⟨trivial, rfl⟩
    exact hcomma.append (h.1.append (ih h.2))

theorem nests_entryKinds {entries : List (Text × Spelling)} {first : Bool}
    (hroom : outer.length < total)
    (h : ∀ entry ∈ entries, Nests total (.flowMapping :: outer) entry.2.kinds
      (.flowMapping :: outer)) :
    Nests total (.flowMapping :: outer) (entryKinds first entries) outer := by
  induction entries generalizing first with
  | nil => exact ⟨⟨Nat.le_of_lt hroom, trivial⟩, rfl⟩
  | cons entry entries ih =>
    rw [List.forall_mem_cons] at h
    have hcomma : Nests total (.flowMapping :: outer) (if first then [] else [.flowEntry])
        (.flowMapping :: outer) := by
      cases first
      · exact ⟨⟨hroom, trivial⟩, rfl⟩
      · exact ⟨trivial, rfl⟩
    have hname : Nests total (.flowMapping :: outer) [.key, .scalar entry.1 false, .value]
        (.flowMapping :: outer) := ⟨⟨hroom, hroom, hroom, trivial⟩, rfl⟩
    exact hcomma.append (hname.append (h.1.append (ih h.2)))

/-- The tokens of a spelling fit where its brackets do. -/
theorem Fits.nests (h : Fits room s) (hroom : outer.length + room ≤ total) :
    Nests total outer s.kinds outer := by
  induction s using Spelling.induct generalizing room outer with
  | plain t => exact ⟨⟨Nat.le_trans (Nat.le_add_right _ _) hroom, trivial⟩, rfl⟩
  | quoted t => exact ⟨⟨Nat.le_trans (Nat.le_add_right _ _) hroom, trivial⟩, rfl⟩
  | list items ih =>
    cases h with
    | @list room _ h =>
      have hless : outer.length < total := by omega
      have hopen : Nests total outer [.flowSequenceStart] (.flowSequence :: outer) :=
        ⟨⟨hless, trivial⟩, rfl⟩
      exact hopen.append (nests_itemKinds hless fun s hs =>
        ih s hs (h s hs) (by rw [List.length_cons]; omega))
  | map entries ih =>
    cases h with
    | @map room _ h =>
      have hless : outer.length < total := by omega
      have hopen : Nests total outer [.flowMappingStart] (.flowMapping :: outer) :=
        ⟨⟨hless, trivial⟩, rfl⟩
      exact hopen.append (nests_entryKinds hless fun entry hentry =>
        ih entry hentry (h entry hentry) (by rw [List.length_cons]; omega))

/-- The tokens of a document fit where its brackets do. -/
theorem Fits.document (h : Fits room s) :
    FitsFrom room [] (.streamStart :: (s.kinds ++ [.streamEnd])) := by
  have hstart : Nests room [] [.streamStart] [] := ⟨⟨Nat.zero_le _, trivial⟩, rfl⟩
  have hend : Nests room [] [.streamEnd] [] := ⟨⟨Nat.zero_le _, trivial⟩, rfl⟩
  exact (hstart.append ((h.nests (Nat.le_of_eq (Nat.zero_add _))).append hend)).fits

/-- A value that is spelled is no knot. -/
theorem hasKnot_value (s : Spelling) : s.value.hasKnot = false := by
  cases s <;> rfl

end Spelling

end CollectionInterfaces.Yaml
