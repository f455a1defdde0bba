import CollectionInterfaces.Generation
import CollectionInterfaces.Proofs.Interface.Casing
import CollectionInterfaces.Proofs.Text.Split

/-!
# Paths of interfaces

A text without a slash is a single name, unless it is empty or a point. The file of an interface
whose name has no slash therefore stands directly in the directory of its database.
-/

namespace CollectionInterfaces

namespace Path

variable {t : Text} {p : Path}

theorem rootOf_of_not_mem (h : slash ∉ t) : rootOf t = .here := by
  cases t with
  | nil => rfl
  | cons c rest =>
    have hc : c ≠ slash := fun heq => h (by simp [heq])
    simp [rootOf, hc]

/-- A text without a slash is a name. -/
theorem ofText_of_not_mem (h : slash ∉ t) (hname : isName t) : ofText t = ⟨.here, [t]⟩ := by
  simp [ofText, rootOf_of_not_mem h, Text.splitAll_of_not_mem h, hname]

theorem join_of_not_mem (h : slash ∉ t) (hname : isName t) : p.join (ofText t) = p.down t := by
  rw [ofText_of_not_mem h hname]
  rfl

/-- A text without a slash leads one name further down, or nowhere else. -/
theorem join_ofText_of_not_mem (h : slash ∉ t) :
    p.join (ofText t) = if isName t then p.down t else p := by
  split
  · exact join_of_not_mem h ‹_›
  · rename_i hname
    have htext : ofText t = ⟨.here, []⟩ := by
      simp [ofText, rootOf_of_not_mem h, Text.splitAll_of_not_mem h, hname]
    simp [htext, join, isAbsolute]

theorem parent_down (p : Path) (name : Text) : (p.down name).parent = p := by
  simp [down, parent]

end Path

/-! ## Files of interfaces -/

/-- The directory of the files of a database. -/
def databaseDirectory (config : Config) (databaseId : Text) : Path :=
  config.outputDir.join (.ofText databaseId)

variable {config : Config} {c : Collection} {name : Text}

theorem length_interfaceFilename (hext : config.extension = defaultExtension) :
    3 ≤ (interfaceFilename config name).length := by
  have hlength : config.extension.length = 3 := by rw [hext]; rfl
  simp [interfaceFilename, hlength]

theorem interfaceFilename_ne (hext : config.extension = defaultExtension) {t : Text}
    (ht : t.length < 3) : interfaceFilename config name ≠ t := by
  rintro rfl
  exact absurd (length_interfaceFilename hext) (Nat.not_le.mpr ht)

theorem isName_interfaceFilename (hext : config.extension = defaultExtension) :
    Path.isName (interfaceFilename config name) := by
  have hempty : interfaceFilename config name ≠ [] := interfaceFilename_ne hext (by decide)
  have hdot : interfaceFilename config name ≠ Path.dot := interfaceFilename_ne hext (by decide)
  simp [Path.isName, hempty, hdot]

theorem slash_not_mem_interfaceFilename (hext : config.extension = defaultExtension)
    (h : Path.slash ∉ name) : Path.slash ∉ interfaceFilename config name := by
  intro hmem
  rw [interfaceFilename, hext] at hmem
  rcases List.mem_append.mp hmem with hmem | hmem
  · exact h (Text.mem_of_mem_pascalCase (by decide) hmem)
  · exact absurd hmem (by decide)

/-- The file of a collection whose name has no slash is in the directory of its database. -/
theorem interfacePath_of_not_mem (hext : config.extension = defaultExtension)
    (h : Path.slash ∉ c.name) :
    interfacePath config c =
      (databaseDirectory config c.databaseId).down (interfaceFilename config c.name) :=
  Path.join_of_not_mem (slash_not_mem_interfaceFilename hext h) (isName_interfaceFilename hext)

end CollectionInterfaces
