import CollectionInterfaces.Proofs.Generation.Run
import CollectionInterfaces.Proofs.Interface.Imports
import CollectionInterfaces.Proofs.Path
import CollectionInterfaces.Proofs.Text.Utf8

/-!
# Imports lead to files

An interface imports another one from the file beside its own. Where every related collection is in
the same database, a run that succeeds has written that file, and it declares the interface that is
imported (`generate_imports_resolve`). Files of several collections can be one and the same; they
declare the same name then (`interfaceName_eq_of_fileLocation_eq`).
-/

namespace CollectionInterfaces

open Disk

variable {config : Config} {cwd : Location} {d : Disk} {c other : Collection}
  {cs : List Collection} {name : Text} {p : Path}

/-! ## Places of files -/

theorem Path.location_down (h : name ≠ Path.dotDot) :
    (p.down name).location cwd = p.location cwd ++ [nameBytes name] := by
  have hmoves : (p.down name).moves = p.moves ++ [.down (nameBytes name)] := by
    simp [moves, down, moveOfName, h]
  rw [location, hmoves, List.foldl_append]
  rfl

theorem nameBytes_of_isScalar (h : Utf8.IsScalar name) :
    nameBytes name = name.flatMap CodePoint.utf8 := by
  rw [nameBytes, Utf8.encodeName_of_isScalar h]
  rfl

theorem fileLocation_of_not_mem (hext : config.extension = defaultExtension)
    (h : Path.slash ∉ c.name) :
    fileLocation config cwd c = (databaseDirectory config c.databaseId).location cwd ++
      [nameBytes (interfaceFilename config c.name)] := by
  rw [fileLocation, interfacePath_of_not_mem hext h,
    Path.location_down (interfaceFilename_ne hext (by decide))]

/-- Files at the same place declare the same interface, if their texts have bytes. -/
theorem interfaceName_eq_of_fileLocation_eq (hext : config.extension = defaultExtension)
    (hc : Path.slash ∉ c.name) (hother : Path.slash ∉ other.name)
    (hcName : Utf8.IsScalar c.interfaceName) (hotherName : Utf8.IsScalar other.interfaceName)
    (h : fileLocation config cwd c = fileLocation config cwd other) :
    c.interfaceName = other.interfaceName := by
  have hfile {name : Text} (hname : Utf8.IsScalar name) :
      Utf8.IsScalar (name ++ config.extension) := by
    intro d hd
    rw [hext] at hd
    rcases List.mem_append.mp hd with hd | hd
    · exact hname d hd
    · exact (by decide : ∀ d ∈ defaultExtension, d.isSurrogate = false) d hd
  rw [fileLocation_of_not_mem hext hc, fileLocation_of_not_mem hext hother] at h
  have hbytes : nameBytes (c.interfaceName ++ config.extension) =
      nameBytes (other.interfaceName ++ config.extension) :=
    List.singleton_inj.mp (List.append_inj_right' h rfl)
  rw [nameBytes_of_isScalar (hfile hcName), nameBytes_of_isScalar (hfile hotherName)] at hbytes
  exact List.append_cancel_right
    (Utf8.flatMap_utf8_injective (hfile hcName) (hfile hotherName) hbytes)

/-! ## Imports -/

/-- Every collection that a collection is related to has a collection of the same interface in the
same database. -/
def RelatedInDatabase (cs : List Collection) : Prop :=
  ∀ c ∈ cs, ∀ a ∈ c.attributes, ∀ target ∈ a.target?,
    ∃ other ∈ cs, other.databaseId = c.databaseId ∧ other.interfaceName = target.pascalCase

/-- The path of a file beside the file of a collection. -/
def besidePath (config : Config) (c : Collection) (type : Text) : Path :=
  (interfacePath config c).parent.join (.ofText (type ++ defaultExtension))

theorem besidePath_eq (hext : config.extension = defaultExtension) (hc : Path.slash ∉ c.name)
    (hother : Path.slash ∉ other.name) (hdatabase : other.databaseId = c.databaseId) :
    besidePath config c other.interfaceName = interfacePath config other := by
  rw [besidePath, interfacePath_of_not_mem hext hc, interfacePath_of_not_mem hext hother,
    Path.parent_down, hdatabase, ← hext]
  exact Path.join_of_not_mem (slash_not_mem_interfaceFilename hext hother)
    (isName_interfaceFilename hext)

theorem isScalar_interfaceName {bytes : Bytes}
    (h : Utf8.encode (renderInterface config c) = .ok bytes) : Utf8.IsScalar c.interfaceName :=
  (Utf8.encode_eq_ok_iff.mp h).1.mono (Interface.name_infix_render (i := c.toInterface config))

/-- A collection imports a type from a file beside its own. The file was written in a run and holds
the text of a collection with that interface. -/
structure ImportResolves (config : Config) (cwd : Location) (cs : List Collection) (run : Run)
    (c : Collection) (type : Text) : Prop where
  line : [.lineFeed] ++ Interface.importLine type ++ [.lineFeed] <:+: renderInterface config c
  written : besidePath config c type ∈ run.written
  content : ∃ other ∈ cs, other.interfaceName = type ∧
    ∃ bytes, Utf8.encode (renderInterface config other) = .ok bytes ∧
      run.disk.readBytes cwd (besidePath config c type) = .ok bytes

/-- **Imports lead to files.** After a run that succeeds, the type of every relationship that names
a collection is the own interface or is imported from a file that declares it. -/
theorem generate_imports_resolve [i : Interpreter] (hext : config.extension = defaultExtension)
    (hnames : ∀ c ∈ cs, Path.slash ∉ c.name) (hrelated : RelatedInDatabase cs) (hd : d.Linkless)
    (hrun : (generate config cwd d cs).fault = none) :
    ∀ c ∈ cs, ∀ a ∈ c.attributes, ∀ target ∈ a.target?,
      a.fieldType config.fallbackType = c.interfaceName ∨
        ImportResolves config cwd cs (generate config cwd d cs) c
          (a.fieldType config.fallbackType) := by
  intro c hc a ha target htarget
  rw [Attribute.fieldType_of_target htarget]
  by_cases hown : target.pascalCase = c.interfaceName
  · exact .inl hown
  right
  have hreported : (generate config cwd d cs).IsReported := by simp [Run.IsReported, hrun]
  have htake : cs.take (generate config cwd d cs).written.length = cs := by
    rw [(generate_fault_eq_none_iff config cwd d cs).mp hrun, List.take_length]
  have himport : target.pascalCase ∈ c.imports :=
    Collection.mem_imports.mpr ⟨Collection.mem_relatedTypes.mpr ⟨a, ha, target, htarget, rfl⟩, hown⟩
  obtain ⟨other, hother, hdatabase, hname⟩ := hrelated c hc a ha target htarget
  have hbeside : besidePath config c target.pascalCase = interfacePath config other :=
    hname ▸ besidePath_eq hext (hnames c hc) (hnames other hother) hdatabase
  refine ⟨Interface.importLine_infix_render (i := c.toInterface config) himport, ?_, ?_⟩
  · rw [hbeside, generate_written, htake]
    exact List.mem_map_of_mem hother
  -- the file may have been overwritten by a later collection, which declares the same name
  obtain ⟨_, last, bytes, hlast, hbytes, hread⟩ :=
    generate_content hd hreported (htake.symm ▸ hother)
  rw [htake] at hlast
  have hlastMem : last ∈ cs := List.mem_of_getElem? hlast.1
  obtain ⟨_, hotherBytes⟩ := generate_encodes hd hreported (htake.symm ▸ hother)
  have hlastName : last.interfaceName = other.interfaceName :=
    interfaceName_eq_of_fileLocation_eq hext (hnames last hlastMem) (hnames other hother)
      (isScalar_interfaceName hbytes) (isScalar_interfaceName hotherBytes) hlast.2.1
  exact ⟨last, hlastMem, hlastName.trans hname, bytes, hbytes, hbeside ▸ hread⟩

/-- A relationship whose collection is named with another separator. -/
def profileAttribute : Attribute :=
  ⟨"profile", "relationship", false, false, some ("oneToOne" : Text), some ("user-profile" : Text)⟩

/-- A collection that is related to the collection `user_profile`. -/
def usersCollection : Collection := ⟨"db", "users", [profileAttribute]⟩

/-- Two collections of a database, the first related to the second. -/
def relatedCollections : List Collection := [usersCollection, ⟨"db", "user_profile", []⟩]

/-- The interface `Users` imports the interface `UserProfile`. -/
theorem generate_imports_resolve_users :
    (∀ c ∈ relatedCollections, Path.slash ∉ c.name) ∧ RelatedInDatabase relatedCollections ∧
      Disk.empty.Linkless ∧
      (generate (i := .usual) outConfig [] .empty relatedCollections).fault = none ∧
      ImportResolves outConfig [] relatedCollections
        (generate (i := .usual) outConfig [] .empty relatedCollections) usersCollection
        "UserProfile" := by
  have hnames : ∀ c ∈ relatedCollections, Path.slash ∉ c.name := by decide
  have hrelated : RelatedInDatabase relatedCollections := by
    unfold RelatedInDatabase
    decide +kernel
  have hd : Disk.empty.Linkless := linkless_of_entries (by simp [Disk.empty])
  have hrun : (generate (i := .usual) outConfig [] .empty relatedCollections).fault = none := by
    decide +kernel
  have hresolves := generate_imports_resolve (i := .usual) rfl hnames hrelated hd hrun
    usersCollection (by simp [relatedCollections]) profileAttribute (by simp [usersCollection])
    "user-profile" rfl
  exact ⟨hnames, hrelated, hd, hrun, hresolves.resolve_left (by decide)⟩

end CollectionInterfaces
