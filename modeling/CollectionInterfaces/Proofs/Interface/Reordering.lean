import CollectionInterfaces.Proofs.Interface.Encoding
import CollectionInterfaces.Proofs.Schema.Checking
import CollectionInterfaces.Proofs.Schema.Reordering
import CollectionInterfaces.Proofs.Text.Join

/-!
# Interfaces with their keys shown in another order

If the keys of attributes are shown with their code points in another order, so is the text of the
interface (`renderInterface_perm`), and it is the same text only if the keys are the same
(`renderInterface_eq_iff_of_reordered`).
-/

namespace CollectionInterfaces

variable {config : Config} {a a' : Attribute} {c c' : Collection} {fallback : Text}

namespace Attribute

theorem Reordered.toField_eq (h : a.Reordered a') :
    a'.toField fallback = { a.toField fallback with key := a'.key } := by
  rw [h.others]
  rfl

theorem Reordered.render_perm (h : a.Reordered a') :
    (a.toField fallback).render.Perm (a'.toField fallback).render := by
  rw [h.toField_eq]
  have hkey : a.key.Perm a'.key := h.key.symm
  exact ((((hkey.append_left _).append_right _).append_right _).append_right _).append_right _
    |>.append_right _

/-- A field is shown in the same way only if its key is the same. -/
theorem Reordered.render_eq_iff (h : a.Reordered a') :
    (a.toField fallback).render = (a'.toField fallback).render ↔ a = a' := by
  refine ⟨fun heq => ?_, fun heq => heq ▸ rfl⟩
  rw [h.toField_eq] at heq
  simp only [Field.render, List.append_assoc] at heq
  have hrest := List.append_cancel_left heq
  have hkey : a.key = a'.key := (List.append_inj hrest h.key.length_eq.symm).1
  have hothers := h.others
  rw [← hkey] at hothers
  exact hothers.symm

theorem eq_of_render_eq {as as' : List Attribute} (h : List.Forall₂ Reordered as as')
    (heq : (as.map fun a => (a.toField fallback).render) =
      as'.map fun a => (a.toField fallback).render) : as = as' := by
  induction h with
  | nil => rfl
  | cons ha _ ih =>
    rw [List.map_cons, List.map_cons, List.cons.injEq] at heq
    rw [ha.render_eq_iff.mp heq.1, ih heq.2]

end Attribute

namespace Collection

theorem Reordered.eq_of_attributes (h : c.Reordered c') (heq : c.attributes = c'.attributes) :
    c' = c := by
  have hid := h.databaseId
  have hname := h.name
  cases c
  cases c'
  cases hid
  cases hname
  cases heq
  rfl

theorem Reordered.imports_eq (h : c.Reordered c') : c'.imports = c.imports := by
  have hrelated : c'.relatedTypes = c.relatedTypes := by
    refine (filterMap_eq_filterMap_of_forall₂ (h.attributes.imp fun a a' ha => ?_)).symm
    rw [ha.others]
    rfl
  rw [imports, imports, interfaceName, interfaceName, hrelated, h.name]

/-- The lines of the interfaces are the same around those of the attributes. -/
theorem Reordered.exists_lines_eq (config : Config) (h : c.Reordered c') :
    ∃ before after : List Text, (c.toInterface config).lines = before ++
      (c.attributes.map fun a => (a.toField config.fallbackType).render) ++ after ∧
    (c'.toInterface config).lines = before ++
      (c'.attributes.map fun a => (a.toField config.fallbackType).render) ++ after := by
  obtain ⟨front, hfront⟩ : ∃ front, ∀ c : Collection, (c.toInterface config).fields =
      front ++ c.attributes.map (Attribute.toField config.fallbackType) := ⟨_, fun _ => rfl⟩
  refine ⟨Interface.headerLines (c.toInterface config).hint ++
    Interface.baseImport config.variant ++ c.imports.map Interface.importLine ++
    [[], (c.toInterface config).opening] ++ front.map Field.render, [("\x7d" : Text), []], ?_, ?_⟩
  · rw [Interface.lines, hfront]
    simp [toInterface, Function.comp_def]
  · rw [Interface.lines, hfront]
    simp [toInterface, Function.comp_def, Interface.opening, interfaceName, h.imports_eq, h.name]

theorem Reordered.forall₂_lines (config : Config) (h : c.Reordered c') :
    List.Forall₂ List.Perm (c.toInterface config).lines (c'.toInterface config).lines := by
  obtain ⟨before, after, hlines, hlines'⟩ := h.exists_lines_eq config
  have hsame (lines : List Text) : List.Forall₂ List.Perm lines lines :=
    List.forall₂_same.mpr fun line _ => .refl line
  rw [hlines, hlines']
  refine List.rel_append (List.rel_append (hsame before) ?_) (hsame after)
  rw [List.forall₂_map_left_iff, List.forall₂_map_right_iff]
  exact h.attributes.imp fun _ _ ha => ha.render_perm

end Collection

variable (h : c.Reordered c')
include h

theorem renderInterface_perm : (renderInterface config c).Perm (renderInterface config c') :=
  Text.join_perm_of_forall₂ (h.forall₂_lines config)

theorem isScalar_renderInterface_of_reordered :
    Utf8.IsScalar (renderInterface config c') ↔ Utf8.IsScalar (renderInterface config c) := by
  unfold Utf8.IsScalar
  simp only [(renderInterface_perm h).mem_iff]

/-- The text of the interface is the same only if the keys are. -/
theorem renderInterface_eq_iff_of_reordered :
    renderInterface config c' = renderInterface config c ↔ c' = c := by
  refine ⟨fun heq => ?_, fun heq => heq ▸ rfl⟩
  have hlengths := (h.forall₂_lines config).imp fun _ _ => List.Perm.length_eq
  have hjoin := (Text.join_eq_join_iff hlengths).mp heq.symm
  obtain ⟨before, after, hlines, hlines'⟩ := h.exists_lines_eq config
  rw [hlines, hlines'] at hjoin
  have hfields := List.append_cancel_left (List.append_cancel_right hjoin)
  exact h.eq_of_attributes (Attribute.eq_of_render_eq h.attributes hfields)

end CollectionInterfaces
