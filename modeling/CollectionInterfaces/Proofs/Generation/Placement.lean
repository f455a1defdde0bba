import CollectionInterfaces.Proofs.Generation.Resolution
import CollectionInterfaces.Proofs.Interface.Encoding

/-!
# Where the files of collections stand

The file of a collection stands two names below the output directory: under its database, and under
the name of its interface. So two collections share a path only if these two agree
(`interfacePath_placementLaw`), and what has bytes shares a place on a disk only then.
-/

namespace CollectionInterfaces

variable {config : Config} {cwd : Location} {c other : Collection} {p q : Path}
  {name name' : Text}

/-- The collection can be put in a directory of its database: the database is the name of a
directory below another one, and no slash leads out of it. -/
structure Collection.IsPlaceable (c : Collection) : Prop where
  databaseId : Path.slash ∉ c.databaseId
  isName : Path.isName c.databaseId = true
  ne_dotDot : c.databaseId ≠ Path.dotDot
  name : Path.slash ∉ c.name

instance (c : Collection) : Decidable c.IsPlaceable :=
  decidable_of_iff (Path.slash ∉ c.databaseId ∧ Path.isName c.databaseId = true ∧
      c.databaseId ≠ Path.dotDot ∧ Path.slash ∉ c.name)
    ⟨fun ⟨h, h', h'', h'''⟩ => ⟨h, h', h'', h'''⟩, fun ⟨h, h', h'', h'''⟩ => ⟨h, h', h'', h'''⟩⟩

theorem Path.down_inj : p.down name = q.down name' ↔ p = q ∧ name = name' := by
  constructor
  · intro h
    have hparent : (p.down name).parent = (q.down name').parent := congrArg Path.parent h
    have hnames : p.names ++ [name] = q.names ++ [name'] := congrArg Path.names h
    rw [parent_down, parent_down] at hparent
    exact ⟨hparent, List.singleton_inj.mp (List.append_inj_right' hnames rfl)⟩
  · rintro ⟨rfl, rfl⟩
    rfl

theorem databaseDirectory_of_isPlaceable (hc : c.IsPlaceable) :
    databaseDirectory config c.databaseId = config.outputDir.down c.databaseId :=
  Path.join_of_not_mem hc.databaseId hc.isName

theorem interfacePath_of_isPlaceable (hext : config.extension = defaultExtension)
    (hc : c.IsPlaceable) : interfacePath config c =
      (config.outputDir.down c.databaseId).down (interfaceFilename config c.name) := by
  rw [interfacePath_of_not_mem hext hc.name, databaseDirectory_of_isPlaceable hc]

theorem interfaceFilename_inj :
    interfaceFilename config name = interfaceFilename config name' ↔
      name.pascalCase = name'.pascalCase := List.append_left_inj _

theorem interfacePath_eq_iff (hext : config.extension = defaultExtension) (hc : c.IsPlaceable)
    (hother : other.IsPlaceable) : interfacePath config c = interfacePath config other ↔
      c.databaseId = other.databaseId ∧ c.interfaceName = other.interfaceName := by
  rw [interfacePath_of_isPlaceable hext hc, interfacePath_of_isPlaceable hext hother,
    Path.down_inj, Path.down_inj, interfaceFilename_inj, and_iff_right rfl]
  rfl

/-- A text has other bytes as a name than any other text with bytes. -/
theorem nameBytes_inj (h : Utf8.IsScalar name) (h' : Utf8.IsScalar name') :
    Disk.nameBytes name = Disk.nameBytes name' ↔ name = name' := by
  rw [nameBytes_of_isScalar h, nameBytes_of_isScalar h']
  exact ⟨Utf8.flatMap_utf8_injective h h', fun | rfl => rfl⟩

theorem fileLocation_of_isPlaceable (hext : config.extension = defaultExtension)
    (hc : c.IsPlaceable) : fileLocation config cwd c = config.outputDir.location cwd ++
      [Disk.nameBytes c.databaseId, Disk.nameBytes (interfaceFilename config c.name)] := by
  rw [fileLocation_of_not_mem hext hc.name, databaseDirectory_of_isPlaceable hc,
    Path.location_down hc.ne_dotDot, List.append_assoc]
  rfl

/-- Collections share a place on disks exactly if they share a path. -/
theorem fileLocation_eq_iff (hext : config.extension = defaultExtension) (hc : c.IsPlaceable)
    (hother : other.IsPlaceable) (hid : Utf8.IsScalar c.databaseId)
    (hid' : Utf8.IsScalar other.databaseId) (hname : Utf8.IsScalar c.name)
    (hname' : Utf8.IsScalar other.name) :
    fileLocation config cwd c = fileLocation config cwd other ↔
      interfacePath config c = interfacePath config other := by
  rw [interfacePath_eq_iff hext hc hother]
  constructor
  · intro h
    have hnames := interfaceName_eq_of_fileLocation_eq hext hc.name hother.name
      (isScalar_pascalCase.mpr hname) (isScalar_pascalCase.mpr hname') h
    rw [fileLocation_of_isPlaceable hext hc, fileLocation_of_isPlaceable hext hother] at h
    have hids := (List.cons.inj (List.append_cancel_left h)).1
    exact ⟨(nameBytes_inj hid hid').mp hids, hnames⟩
  · rintro ⟨hids, hnames⟩
    rw [fileLocation_of_isPlaceable hext hc, fileLocation_of_isPlaceable hext hother, hids,
      interfaceFilename_inj.mpr hnames]

/-- The path of the file of a collection is the output directory with two more names. -/
structure Collection.IsFiled (config : Config) (c : Collection) : Prop where
  root : (interfacePath config c).root = config.outputDir.root
  names : (interfacePath config c).names =
    config.outputDir.names ++ [c.databaseId, interfaceFilename config c.name]
  ending : defaultExtension <:+ interfaceFilename config c.name

theorem isFiled_of_isPlaceable (hext : config.extension = defaultExtension)
    (hc : c.IsPlaceable) : c.IsFiled config where
  root := by rw [interfacePath_of_isPlaceable hext hc]; rfl
  names := by
    rw [interfacePath_of_isPlaceable hext hc, Path.down, Path.down, List.append_assoc]
    rfl
  ending := ⟨c.name.pascalCase, by rw [interfaceFilename, hext]⟩

/-- What holds of the files of two collections. -/
structure PlacementLaw (config : Config) (c other : Collection) : Prop where
  filed : c.IsFiled config
  filedOther : other.IsFiled config
  path_eq_iff : interfacePath config c = interfacePath config other ↔
    c.databaseId = other.databaseId ∧ c.name.pascalCase = other.name.pascalCase
  /-- What is written for one collection replaces what is written for the other one only if they
  have the same path. -/
  place_eq_iff : ∀ cwd, Utf8.IsScalar c.databaseId → Utf8.IsScalar other.databaseId →
    Utf8.IsScalar c.name → Utf8.IsScalar other.name →
    (fileLocation config cwd c = fileLocation config cwd other ↔
      interfacePath config c = interfacePath config other)

/-- **Collections share a file only under the same database and interface.** -/
theorem interfacePath_placementLaw (hext : config.extension = defaultExtension)
    (hc : c.IsPlaceable) (hother : other.IsPlaceable) : PlacementLaw config c other where
  filed := isFiled_of_isPlaceable hext hc
  filedOther := isFiled_of_isPlaceable hext hother
  path_eq_iff := interfacePath_eq_iff hext hc hother
  place_eq_iff _ := fileLocation_eq_iff hext hc hother

/-- A name of points is no name of a directory once it has an ending, and a name that has the
ending gets it twice. -/
theorem interfacePath_placementLaw_points :
    outConfig.extension = defaultExtension ∧
      (⟨"db", "..", []⟩ : Collection).IsPlaceable ∧ (⟨"db", "...ts", []⟩ : Collection).IsPlaceable ∧
      interfacePath outConfig ⟨"db", "..", []⟩ ≠ interfacePath outConfig ⟨"db", "...ts", []⟩ := by
  have hc : (⟨"db", "..", []⟩ : Collection).IsPlaceable := by decide
  have hother : (⟨"db", "...ts", []⟩ : Collection).IsPlaceable := by decide
  have hlaw : PlacementLaw outConfig ⟨"db", "..", []⟩ ⟨"db", "...ts", []⟩ :=
    interfacePath_placementLaw rfl hc hother
  refine ⟨rfl, hc, hother, fun heq => ?_⟩
  exact absurd (hlaw.path_eq_iff.mp heq).2 (by decide)

end CollectionInterfaces
