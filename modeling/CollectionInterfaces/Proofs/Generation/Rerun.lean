import CollectionInterfaces.Proofs.Generation.Outcome
import CollectionInterfaces.Proofs.Interface.Reordering

/-!
# Running again

A run that succeeded can be repeated on the disk that it left, also over collections that take the
places of the first ones, such as the same ones in another variant, or with their keys shown in
another order (`generate_again`). Every file then holds the text of the collection that takes the
place of the one whose text it held (`isRemade_generate`). That is the text that it held if the
collection is the same and so is the variant, since plain interfaces are shorter
(`renderInterface_eq_iff`). The same run again changes nothing (`IsRemade.same`).
-/

namespace CollectionInterfaces

open Disk

/-- The configurations make the same files, except for their variants. -/
structure Config.Agrees (config' config : Config) : Prop where
  inputArg : config'.inputArg = config.inputArg
  outputArg : config'.outputArg = config.outputArg
  outputDir : config'.outputDir = config.outputDir
  extension : config'.extension = config.extension
  fallbackType : config'.fallbackType = config.fallbackType

variable {config config' : Config} {cwd place : Location} {d : Disk} {c c' : Collection}
  {cs cs' : List Collection}

theorem Config.Agrees.refl : config.Agrees config := ⟨rfl, rfl, rfl, rfl, rfl⟩

theorem Config.Agrees.symm (h : config'.Agrees config) : config.Agrees config' :=
  ⟨h.inputArg.symm, h.outputArg.symm, h.outputDir.symm, h.extension.symm, h.fallbackType.symm⟩

theorem Interface.length_render {i : Interface} :
    i.render.length + 1 = (i.lines.flatMap fun line => line ++ [.lineFeed]).length := by
  rw [← Text.join_append_sep (by simp [lines]), List.length_append]
  rfl

section

variable (hagrees : config'.Agrees config)
include hagrees

/-! ## Renderings -/

theorem renderInterface_congr (hvariant : config'.variant = config.variant) :
    renderInterface config' c = renderInterface config c := by
  have hfields : config'.defaultFields = config.defaultFields := by
    rw [Config.defaultFields, Config.defaultFields, Config.extendsDocument, Config.extendsDocument,
      hvariant]
  rw [renderInterface, renderInterface, Collection.toInterface, Collection.toInterface,
    hagrees.inputArg, hagrees.outputArg, hvariant, hagrees.fallbackType, hfields]

/-- Whether a rendering has bytes does not depend on the variant. -/
theorem isScalar_renderInterface_congr :
    Utf8.IsScalar (renderInterface config' c) ↔ Utf8.IsScalar (renderInterface config c) := by
  rw [isScalar_renderInterface_iff, isScalar_renderInterface_iff, hagrees.inputArg,
    hagrees.outputArg, hagrees.fallbackType]

theorem length_renderInterface_lt (hplain : config'.variant = .plain)
    (hdocument : config.variant = .document) :
    (renderInterface config' c).length < (renderInterface config c).length := by
  have hlength :
      (renderInterface config' c).length + 1 < (renderInterface config c).length + 1 := by
    rw [renderInterface, renderInterface, Interface.length_render, Interface.length_render]
    simp only [Interface.lines, Interface.baseImport, Interface.opening, Collection.toInterface,
      Config.defaultFields, Config.extendsDocument, Variant.extendsDocument_document,
      Variant.extendsDocument_plain, if_true, if_false, Bool.false_eq_true, hagrees.inputArg,
      hagrees.outputArg, hagrees.fallbackType, hplain, hdocument, List.map_append, List.map_cons,
      List.map_nil, List.flatMap_append, List.flatMap_cons, List.flatMap_nil, List.length_append,
      List.length_cons, List.length_nil]
    omega
  omega

theorem interfacePath_congr : interfacePath config' c = interfacePath config c := by
  rw [interfacePath, interfacePath, interfaceFilename, interfaceFilename, hagrees.outputDir,
    hagrees.extension]

end

/-- Configurations that agree make the same text of collections that differ in how keys are shown
exactly if they agree in their variants as well, and the keys are the same. -/
theorem renderInterface_eq_iff (h : config'.Agrees config) (hc : c.Reordered c') :
    renderInterface config' c' = renderInterface config c ↔
      config'.variant = config.variant ∧ c' = c := by
  constructor
  · intro htext
    have hlength : (renderInterface config' c).length = (renderInterface config c).length := by
      rw [← htext, (renderInterface_perm hc).length_eq]
    have hvariant : config'.variant = config.variant := by
      cases hvariant' : config'.variant <;> cases hvariant : config.variant
      · rfl
      · exact absurd hlength.symm
          (Nat.ne_of_lt (length_renderInterface_lt h.symm (c := c) hvariant hvariant'))
      · exact absurd hlength
          (Nat.ne_of_lt (length_renderInterface_lt h (c := c) hvariant' hvariant))
      · rfl
    refine ⟨hvariant, ?_⟩
    rwa [renderInterface_congr h hvariant, renderInterface_eq_iff_of_reordered hc] at htext
  · rintro ⟨hvariant, rfl⟩
    exact renderInterface_congr h hvariant

/-! ## Files -/

/-- A collection has the file that another one has in another configuration, and a text with bytes
if that has one. -/
structure TakesPlace (config config' : Config) (c c' : Collection) : Prop where
  path : interfacePath config' c' = interfacePath config c
  isScalar_iff : Utf8.IsScalar (renderInterface config' c') ↔
    Utf8.IsScalar (renderInterface config c)

theorem takesPlace_of_agrees (h : config'.Agrees config) (hc : c.Reordered c') :
    TakesPlace config config' c c' where
  path := by
    rw [interfacePath_congr h, interfacePath, interfacePath, hc.databaseId, hc.name]
  isScalar_iff :=
    (isScalar_renderInterface_of_reordered hc).trans (isScalar_renderInterface_congr h)

namespace TakesPlace

theorem fileLocation_eq (h : TakesPlace config config' c c') :
    fileLocation config' cwd c' = fileLocation config cwd c := by
  rw [fileLocation, fileLocation, h.path]

theorem directoryLocations_eq (h : TakesPlace config config' c c') :
    directoryLocations config' cwd c' = directoryLocations config cwd c := by
  rw [directoryLocations, directoryLocations, h.path]

end TakesPlace

theorem exists_of_mem_right {α β : Type} {R : α → β → Prop} {as : List α} {bs : List β} {b : β}
    (h : List.Forall₂ R as bs) (hb : b ∈ bs) : ∃ a ∈ as, R a b := by
  induction h with
  | nil => cases hb
  | @cons a first as bs hfirst _ ih =>
    rcases List.mem_cons.mp hb with rfl | hb
    · exact ⟨a, List.mem_cons_self, hfirst⟩
    · obtain ⟨other, hother, hR⟩ := ih hb
      exact ⟨other, List.mem_cons_of_mem a hother, hR⟩

/-- The last collection with a file corresponds to the last one, if collections that correspond have
the same file. -/
theorem rel_lastAt? {R : Collection → Collection → Prop} (h : List.Forall₂ R cs cs')
    (hR : ∀ c c', R c c' → fileLocation config' cwd c' = fileLocation config cwd c)
    (place : Location) :
    Option.Rel R (lastAt? config cwd cs place) (lastAt? config' cwd cs' place) := by
  induction h with
  | nil => exact .none
  | @cons c c' cs cs' hc _ ih =>
    rw [lastAt?_cons, lastAt?_cons]
    generalize lastAt? config cwd cs place = last at ih
    generalize lastAt? config' cwd cs' place = last' at ih
    cases ih with
    | some hlast => exact .some hlast
    | none =>
      rw [Option.none_or, Option.none_or, hR c c' hc]
      split
      · exact .some hc
      · exact .none

theorem lastAt?_congr (h : config'.Agrees config) :
    lastAt? config' cwd cs place = lastAt? config cwd cs place := by
  have hlocation (c : Collection) : fileLocation config' cwd c = fileLocation config cwd c := by
    rw [fileLocation, fileLocation, interfacePath_congr h]
  simp only [lastAt?, hlocation]

section

variable (hplaces : List.Forall₂ (TakesPlace config config') cs cs')
include hplaces

variable [i : Interpreter]

/-- The files that were written can be written again. -/
theorem writable_again (hd : d.Linkless) (h : (generate config cwd d cs).fault = none) :
    Writable config' cwd (generate config cwd d cs).disk cs' := by
  obtain ⟨hall, -⟩ := (generate_fault_eq_none_iff_writable hd).mp h
  refine ⟨?_, ?_, ?_⟩
  · intro c' hc'
    obtain ⟨c, hc, hplace⟩ := exists_of_mem_right hplaces hc'
    have hadmits := hall.admits c hc
    rw [hplace.path]
    refine ⟨hadmits.usable, hadmits.named, ?_, ?_, hadmits.apart⟩
    · intro place hway
      exact .inr (node?_of_mem_directoryLocations hd h hc hway)
    · obtain ⟨last, hlast⟩ := exists_lastAt? config cwd hc
      exact .inr ⟨_, node?_of_lastAt? hd h hlast⟩
  · intro c' hc'
    obtain ⟨c, hc, hplace⟩ := exists_of_mem_right hplaces hc'
    exact hplace.isScalar_iff.mpr (hall.encodes c hc)
  · intro c' hc' other' hother'
    obtain ⟨c, hc, hplace⟩ := exists_of_mem_right hplaces hc'
    obtain ⟨other, hother, hplace'⟩ := exists_of_mem_right hplaces hother'
    rw [hplace.fileLocation_eq, hplace'.directoryLocations_eq]
    exact hall.apart c hc other hother

/-- No directories are missing for the files that were written. -/
theorem hasRoom_again (hd : d.Linkless) (h : (generate config cwd d cs).fault = none) :
    HasRoom config' cwd (generate config cwd d cs).disk cs' := by
  rintro before c' after rfl place hway
  obtain ⟨c, hc, hplace⟩ := exists_of_mem_right hplaces (show c' ∈ before ++ c' :: after by simp)
  rw [hplace.path] at hway
  exact .inl (node?_of_mem_directoryLocations hd h hc
    ((Path.ancestor_onWay _ _).waypoints_subset hway))

/-- **Another run over the same files.** It succeeds where the first one did, and changes what is in
the files at most. -/
theorem generate_again (hd : d.Linkless) (h : (generate config cwd d cs).fault = none) :
    (generate config' cwd (generate config cwd d cs).disk cs').fault = none ∧
      ∀ place, (generate config' cwd (generate config cwd d cs).disk cs').disk.node? place =
        match lastAt? config' cwd cs' place with
        | some c => some (.file (interfaceBytes config' c))
        | none => (generate config cwd d cs).disk.node? place := by
  have he : (generate config cwd d cs).disk.Linkless :=
    generate_linkless hd (Run.isReported_of_fault_eq_none h)
  have hagain := (generate_fault_eq_none_iff_writable he).mpr
    ⟨writable_again hplaces hd h, hasRoom_again hplaces hd h⟩
  refine ⟨hagain, ?_⟩
  intro place
  rw [generate_node? he hagain]
  cases lastAt? config' cwd cs' place with
  | some last => rfl
  | none =>
    dsimp only
    split
    · rename_i hway
      obtain ⟨c', hc', hplace⟩ := List.mem_flatMap.mp hway
      obtain ⟨c, hc, htakes⟩ := exists_of_mem_right hplaces hc'
      rw [htakes.directoryLocations_eq] at hplace
      exact (node?_of_mem_directoryLocations hd h hc hplace).symm
    · rfl

end

/-! ## Files that are made again -/

/-- The files of collections on a disk are made again on another one, from collections that differ
in how keys are shown. -/
structure IsRemade (config config' : Config) (cwd : Location) (cs cs' : List Collection)
    (e e' : Disk) : Prop where
  others : ∀ place, (∀ c ∈ cs, fileLocation config cwd c ≠ place) →
    e'.node? place = e.node? place
  /-- A file holds the text of the last collection that has it, and stays as it is exactly if that
  is read as it was and the variant is the same. -/
  files : ∀ c ∈ cs, ∃ last last', lastAt? config cwd cs (fileLocation config cwd c) = some last ∧
    lastAt? config' cwd cs' (fileLocation config cwd c) = some last' ∧ last.Reordered last' ∧
    e.readBytes cwd (interfacePath config c) = .ok (interfaceBytes config last) ∧
    e'.readBytes cwd (interfacePath config c) = .ok (interfaceBytes config' last') ∧
    (interfaceBytes config' last' = interfaceBytes config last ↔
      config'.variant = config.variant ∧ last' = last)

/-- Files that are made again from the same collections stay as they are. -/
theorem IsRemade.same {e e' : Disk} (h : IsRemade config config cwd cs cs e e') (he : e.Linkless)
    (he' : e'.Linkless) : e'.Same e := by
  intro place
  by_cases hplace : ∃ c ∈ cs, fileLocation config cwd c = place
  · obtain ⟨c, hc, rfl⟩ := hplace
    obtain ⟨last, last', hlast, hlast', -, hread, hread', hsame⟩ := h.files c hc
    obtain rfl := Option.some.inj (hlast.symm.trans hlast')
    have hbefore := node?_of_readBytes he hread
    have hafter := node?_of_readBytes he' hread'
    exact hafter.trans hbefore.symm
  · exact h.others place fun c hc hfile => hplace ⟨c, hc, hfile⟩

theorem isRemade_generate [i : Interpreter] (hagrees : config'.Agrees config)
    (hcs : List.Forall₂ Collection.Reordered cs cs') (hd : d.Linkless)
    (h : (generate config cwd d cs).fault = none) :
    (generate config' cwd (generate config cwd d cs).disk cs').fault = none ∧
      IsRemade config config' cwd cs cs' (generate config cwd d cs).disk
        (generate config' cwd (generate config cwd d cs).disk cs').disk := by
  have hplaces := hcs.imp fun _ _ hc => takesPlace_of_agrees hagrees hc
  have hlocation (c c' : Collection) (hc : c.Reordered c') :
      fileLocation config' cwd c' = fileLocation config cwd c :=
    (takesPlace_of_agrees hagrees hc).fileLocation_eq
  have he := generate_linkless hd (Run.isReported_of_fault_eq_none h)
  have hall := ((generate_fault_eq_none_iff_writable hd).mp h).1
  obtain ⟨hagain, hnode⟩ := generate_again hplaces hd h
  have hall' := ((generate_fault_eq_none_iff_writable he).mp hagain).1
  refine ⟨hagain, ?_, ?_⟩
  · intro place hplace
    have hnone : lastAt? config' cwd cs' place = none := by
      refine lastAt?_eq_none_iff.mpr fun c' hc' => ?_
      obtain ⟨c, hc, htakes⟩ := exists_of_mem_right hplaces hc'
      rw [htakes.fileLocation_eq]
      exact hplace c hc
    rw [hnode place, hnone]
  · intro c hc
    obtain ⟨last, hlast⟩ := exists_lastAt? config cwd hc
    have hrel := rel_lastAt? hcs hlocation (fileLocation config cwd c)
    rw [hlast] at hrel
    generalize hlast' : lastAt? config' cwd cs' (fileLocation config cwd c) = found at hrel
    cases hrel with
    | @some _ last' hreordered =>
      obtain ⟨c', hc', htakes⟩ := exists_of_mem_right
        (List.Forall₂.flip (R := flip (TakesPlace config config')) hplaces) hc
      have hlast'' := hlast'
      rw [← TakesPlace.fileLocation_eq htakes] at hlast''
      have hread := readBytes_of_lastAt? he hagain hc' hlast''
      rw [TakesPlace.path htakes] at hread
      refine ⟨last, last', hlast, rfl, hreordered, readBytes_of_lastAt? hd h hc hlast, hread, ?_⟩
      rw [← renderInterface_eq_iff hagrees hreordered]
      have hscalar := hall.encodes last (of_lastAt? hlast).1
      have hscalar' := hall'.encodes last' (of_lastAt? hlast').1
      exact ⟨Utf8.flatMap_utf8_injective hscalar' hscalar, congrArg (List.flatMap CodePoint.utf8)⟩

/-- The order in which the interpreter goes through sets makes no difference to a run. -/
theorem generate_reordered {i : Interpreter} {order : List Scalar → List Scalar}
    {h : ∀ members, (order members).Perm members} (config : Config) (cwd : Location) (d : Disk)
    (cs : List Collection) :
    @generate (i.reordered order h) config cwd d cs = @generate i config cwd d cs := by
  induction cs generalizing d with
  | nil => rfl
  | cons c cs ih =>
    have hwrite : @writeInterface (i.reordered order h) = @writeInterface i := rfl
    simp only [generate, hwrite, ih]

end CollectionInterfaces
