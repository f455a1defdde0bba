import CollectionInterfaces.Generation
import CollectionInterfaces.Proofs.Interface.Casing
import CollectionInterfaces.Proofs.Interface.Imports
import CollectionInterfaces.Proofs.Text.Utf8

/-!
# Interfaces that have bytes

The text of an interface has bytes exactly if no surrogate stands in what it is made from: the
arguments of the program, the name of the collection, and the names and types of its attributes
(`isScalar_renderInterface_iff`).
-/

namespace CollectionInterfaces

namespace Utf8

variable {t s : Text} {pieces : List Text}

theorem isScalar_append : IsScalar (t ++ s) ↔ IsScalar t ∧ IsScalar s := List.forall_mem_append

theorem isScalar_join {sep : Text} (hsep : IsScalar sep) :
    IsScalar (Text.join sep pieces) ↔ ∀ piece ∈ pieces, IsScalar piece := by
  constructor
  · intro h piece hpiece c hc
    exact h c (Text.mem_join_of_mem hc hpiece)
  · intro h c hc
    by_cases hmem : c ∈ sep
    · exact hsep c hmem
    · obtain ⟨piece, hpiece, hc⟩ := Text.mem_of_mem_join hmem hc
      exact h piece hpiece c hc

end Utf8

open Utf8

variable {config : Config} {c : Collection} {t type fallback : Text}

theorem not_letter_of_isSurrogate {d : CodePoint} (h : d.isSurrogate = true) :
    d.isUpper = false ∧ d.isLower = false ∧ d.isSeparator = false := by
  have hrange := h
  simp only [CodePoint.isSurrogate, Bool.and_eq_true, decide_eq_true_eq] at hrange
  refine ⟨?_, ?_, ?_⟩
  · simp only [CodePoint.isUpper, Bool.and_eq_false_iff, decide_eq_false_iff_not]
    omega
  · simp only [CodePoint.isLower, Bool.and_eq_false_iff, decide_eq_false_iff_not]
    omega
  · simp only [CodePoint.isSeparator, Bool.or_eq_false_iff, decide_eq_false_iff_not]
    constructor <;>
    · rintro rfl
      exact absurd h (by decide)

/-- Casing neither adds nor drops surrogates. -/
theorem isScalar_pascalCase : IsScalar t.pascalCase ↔ IsScalar t := by
  constructor
  · intro h d hd
    cases hsurrogate : d.isSurrogate with
    | false => rfl
    | true =>
      obtain ⟨-, hlower, hsep⟩ := not_letter_of_isSurrogate hsurrogate
      rw [← hsurrogate]
      exact h d (Text.mem_pascalCase_of_mem hlower hsep hd)
  · intro h d hd
    cases hsurrogate : d.isSurrogate with
    | false => rfl
    | true =>
      rw [← hsurrogate]
      exact h d (Text.mem_of_mem_pascalCase (not_letter_of_isSurrogate hsurrogate).1 hd)

namespace Interface

theorem isScalar_importLine : IsScalar (importLine type) ↔ IsScalar type := by
  simp +decide only [importLine, isScalar_append, true_and, and_true, and_self]

end Interface

theorem Field.isScalar_render {f : Field} :
    IsScalar f.render ↔ IsScalar f.key ∧ IsScalar f.type := by
  have hoption : IsScalar (if f.optional then ("?" : Text) else []) := by split <;> decide
  have harray : IsScalar (arrayMark f.isArray) := by unfold arrayMark; split <;> decide
  simp +decide only [Field.render, isScalar_append, hoption, harray, true_and, and_true]

namespace Interface

variable {i : Interface}

theorem isScalar_headerLines {hint : Text} :
    (∀ line ∈ headerLines hint, IsScalar line) ↔ IsScalar hint := by
  simp +decide only [headerLines, List.forall_mem_cons, isScalar_append, true_and, and_true]

theorem isScalar_baseImport {variant : Variant} : ∀ line ∈ baseImport variant, IsScalar line := by
  cases variant <;> decide

theorem isScalar_opening : IsScalar i.opening ↔ IsScalar i.name := by
  unfold opening
  cases i.variant <;> simp +decide only [isScalar_append, true_and, and_true]

/-- The text of an interface has no surrogate exactly if nothing has that it is made from. -/
theorem isScalar_render : IsScalar i.render ↔ IsScalar i.hint ∧ IsScalar i.name ∧
    (∀ type ∈ i.imports, IsScalar type) ∧ ∀ f ∈ i.fields, IsScalar f.key ∧ IsScalar f.type := by
  have hempty : IsScalar [] := by decide
  have hend : IsScalar ("\x7d" : Text) := by decide
  rw [render, isScalar_join (by decide), lines]
  simp only [List.forall_mem_append, List.forall_mem_map, List.forall_mem_cons, isScalar_importLine,
    Field.isScalar_render, isScalar_headerLines, isScalar_opening, hempty, hend, true_and]
  constructor
  · rintro ⟨⟨⟨⟨⟨hhint, -⟩, himports⟩, hname, -⟩, hfields⟩, -⟩
    exact ⟨hhint, hname, himports, hfields⟩
  · rintro ⟨hhint, hname, himports, hfields⟩
    exact ⟨⟨⟨⟨⟨hhint, isScalar_baseImport⟩, himports⟩, hname, by simp⟩, hfields⟩, by simp⟩

end Interface

theorem Config.isScalar_defaultFields :
    ∀ field ∈ config.defaultFields, IsScalar field.1 ∧ IsScalar field.2 := by
  unfold defaultFields extendsDocument
  cases config.variant <;> decide

/-- The text for a collection has bytes exactly if the arguments, the names and the types do. -/
theorem isScalar_renderInterface_iff :
    IsScalar (renderInterface config c) ↔
      (IsScalar config.inputArg ∧ IsScalar config.outputArg) ∧ IsScalar c.name ∧
        ∀ a ∈ c.attributes, IsScalar a.key ∧ IsScalar (a.fieldType config.fallbackType) := by
  have hhint : IsScalar (c.toInterface config).hint ↔
      IsScalar config.inputArg ∧ IsScalar config.outputArg := by
    simp +decide only [Collection.toInterface, isScalar_append, true_and, and_true]
  have hname : IsScalar (c.toInterface config).name ↔ IsScalar c.name := isScalar_pascalCase
  have hfields : (∀ f ∈ (c.toInterface config).fields, IsScalar f.key ∧ IsScalar f.type) ↔
      ∀ a ∈ c.attributes, IsScalar a.key ∧ IsScalar (a.fieldType config.fallbackType) := by
    simp only [Collection.toInterface, List.forall_mem_append, List.forall_mem_map]
    exact and_iff_right Config.isScalar_defaultFields
  rw [renderInterface, Interface.isScalar_render, hhint, hname, hfields]
  constructor
  · rintro ⟨hhint, hname, -, hfields⟩
    exact ⟨hhint, hname, hfields⟩
  · rintro ⟨hhint, hname, hfields⟩
    refine ⟨hhint, hname, ?_, hfields⟩
    -- what is imported is the type of a field
    intro type htype
    obtain ⟨hrelated, -⟩ := Collection.mem_imports.mp htype
    obtain ⟨a, ha, target, htarget, rfl⟩ := Collection.mem_relatedTypes.mp hrelated
    have htype : a.fieldType config.fallbackType = target.pascalCase :=
      Attribute.fieldType_of_target htarget
    exact htype ▸ (hfields a ha).2

end CollectionInterfaces
