import CollectionInterfaces.Interface.Basic
import CollectionInterfaces.Proofs.Interface.Casing
import CollectionInterfaces.Proofs.Text.Join

/-!
# Imports of an interface

The interfaces that an interface imports are those of related collections, itself left out
(`Collection.mem_imports`), and each of them has a line of its own in the text
(`Interface.importLine_infix_render`). What comes first in a list comes first among its first
occurrences (`idxOf_firstOccurrences_lt_iff`).
-/

namespace CollectionInterfaces

/-! ## First occurrences -/

section

variable {α β : Type} {l : List α} {p q : α → Bool} {f : α → Option β} {c : α}

theorem findIdx_cons_lt_iff : (c :: l).findIdx p < (c :: l).findIdx q ↔
    q c = false ∧ (p c = true ∨ l.findIdx p < l.findIdx q) := by
  rw [List.findIdx_cons, List.findIdx_cons]
  cases p c <;> cases q c <;> simp

theorem idxOf_cons_lt_iff [BEq α] [LawfulBEq α] {a b : α} : (c :: l).idxOf a < (c :: l).idxOf b ↔
    c ≠ b ∧ (c = a ∨ l.idxOf a < l.idxOf b) := by
  simp only [List.idxOf, findIdx_cons_lt_iff, beq_eq_false_iff_ne, beq_iff_eq]

/-- Of two results the one of the earlier item comes first. -/
theorem idxOf_filterMap_lt_iff [BEq β] [LawfulBEq β] {s t : β} :
    (l.filterMap f).idxOf s < (l.filterMap f).idxOf t ↔
      l.findIdx (f · == some s) < l.findIdx (f · == some t) := by
  induction l with
  | nil => rfl
  | cons a rest ih =>
    rw [findIdx_cons_lt_iff, ← ih]
    cases hfa : f a with
    | none => simp [List.filterMap_cons_none hfa]
    | some u => simp [List.filterMap_cons_some hfa, idxOf_cons_lt_iff]

variable {a b : α}

theorem mem_firstOccurrences [DecidableEq α] : a ∈ firstOccurrences l ↔ a ∈ l := by
  induction l with
  | nil => rfl
  | cons b rest ih =>
    by_cases h : a = b
    · simp [firstOccurrences, h]
    · simp [firstOccurrences, h, ih]

theorem nodup_firstOccurrences [DecidableEq α] (l : List α) : (firstOccurrences l).Nodup := by
  induction l with
  | nil => exact List.nodup_nil
  | cons c rest ih => exact List.nodup_cons.mpr ⟨by simp, ih.filter _⟩

theorem firstOccurrences_eq_self [DecidableEq α] (h : l.Nodup) : firstOccurrences l = l := by
  induction l with
  | nil => rfl
  | cons c rest ih =>
    rw [List.nodup_cons] at h
    rw [firstOccurrences, ih h.2, List.filter_eq_self.mpr]
    intro a ha
    exact decide_eq_true (ne_of_mem_of_not_mem ha h.1)

/-- Dropping other items does not change which of two items comes first. -/
theorem idxOf_filter_lt_iff [BEq α] [LawfulBEq α] (ha : p a = true) (hb : p b = true) :
    (l.filter p).idxOf a < (l.filter p).idxOf b ↔ l.idxOf a < l.idxOf b := by
  induction l with
  | nil => rfl
  | cons c rest ih =>
    rw [idxOf_cons_lt_iff, ← ih]
    cases hc : p c with
    | false =>
      have hca : c ≠ a := by
        rintro rfl
        simp [ha] at hc
      have hcb : c ≠ b := by
        rintro rfl
        simp [hb] at hc
      simp [hc, hca, hcb]
    | true => rw [List.filter_cons_of_pos hc, idxOf_cons_lt_iff]

/-- What comes first in a list comes first among its first occurrences. -/
theorem idxOf_firstOccurrences_lt_iff [DecidableEq α] [BEq α] [LawfulBEq α] :
    (firstOccurrences l).idxOf a < (firstOccurrences l).idxOf b ↔ l.idxOf a < l.idxOf b := by
  induction l with
  | nil => rfl
  | cons c rest ih =>
    rw [firstOccurrences, idxOf_cons_lt_iff, idxOf_cons_lt_iff]
    by_cases hca : c = a
    · simp [hca]
    by_cases hcb : c = b
    · simp [hcb]
    rw [idxOf_filter_lt_iff (by simpa using Ne.symm hca) (by simpa using Ne.symm hcb), ih]

end

/-! ## Related collections -/

variable {a : Attribute} {c : Collection} {target type fallback : Text}

/-- The target of an attribute is the collection that a relationship names, if it names one. -/
theorem Attribute.target?_eq_some_iff : a.target? = some target ↔
    a.isRelationship = true ∧ a.relatedCollection = some target ∧ target ≠ [] := by
  rw [Attribute.target?]
  split <;> simp_all [Option.filter_eq_some_iff]

/-- The type of the field of a relationship that names a collection is that collection's
interface. -/
theorem Attribute.fieldType_of_target (h : a.target? = some target) :
    a.fieldType fallback = target.pascalCase := by
  simp [Attribute.fieldType, (Attribute.target?_eq_some_iff.mp h).1, h]

namespace Collection

theorem mem_relatedTypes :
    type ∈ c.relatedTypes ↔
      ∃ a ∈ c.attributes, ∃ target, a.target? = some target ∧ target.pascalCase = type := by
  simp [relatedTypes]

/-- The imports are the interfaces of related collections without the own one. -/
theorem mem_imports : type ∈ c.imports ↔ type ∈ c.relatedTypes ∧ type ≠ c.interfaceName := by
  simp [imports, mem_firstOccurrences]

end Collection

namespace Interface

variable {i : Interface}

/-- Every import has a line of its own in the text. -/
theorem importLine_infix_render (h : type ∈ i.imports) :
    [.lineFeed] ++ importLine type ++ [.lineFeed] <:+: i.render := by
  obtain ⟨before, after, himports⟩ := List.append_of_mem h
  have hlines : i.lines =
      (headerLines i.hint ++ baseImport i.variant ++ before.map importLine) ++
        importLine type :: (after.map importLine ++ [[], i.opening] ++ i.fields.map Field.render ++
          [("\x7d" : Text), []]) := by
    simp [lines, himports]
  rw [render, hlines]
  exact Text.infix_join_of_middle (by simp [headerLines]) (by simp)

/-- The name of an interface stands in its text. -/
theorem name_infix_render : i.name <:+: i.render := by
  have hlines : i.lines =
      (headerLines i.hint ++ baseImport i.variant ++ i.imports.map importLine ++ [[]]) ++
        i.opening :: (i.fields.map Field.render ++ [("\x7d" : Text), []]) := by
    simp [lines]
  have hopening : i.name <:+: i.opening := by
    unfold opening
    rw [List.append_assoc]
    exact List.infix_append _ _ _
  have hmiddle : i.opening <:+: [.lineFeed] ++ i.opening ++ [.lineFeed] := ⟨_, _, rfl⟩
  rw [render, hlines]
  exact (hopening.trans hmiddle).trans
    (Text.infix_join_of_middle (by simp [headerLines]) (by simp))

end Interface

end CollectionInterfaces
