import CollectionInterfaces.Proofs.Disk.Resolve
import CollectionInterfaces.Proofs.Generation.Outcome
import CollectionInterfaces.Proofs.Generation.Resolution
import CollectionInterfaces.Schema.Loading

/-!
# The output directory contains what is written

A run keeps what is outside of the output directory as long as the paths of its files stay inside
(`StaysInside`). Names without slashes do, whatever they are, and so do databases without slashes
other than `..`; other databases and names can lead out, and then files are written outside. The
exact condition is `generate_containmentLaw`.
-/

namespace CollectionInterfaces

open Disk

/-- The place is in a directory or further down. -/
def IsBelow (directory place : Location) : Prop := directory <+: place ∧ place ≠ directory

instance (directory place : Location) : Decidable (IsBelow directory place) :=
  inferInstanceAs (Decidable (_ ∧ _))

theorem isBelow_append {directory : Location} {name : Bytes} :
    IsBelow directory (directory ++ [name]) := ⟨List.prefix_append _ _, by simp⟩

namespace Disk

variable {d e f : Disk} {directory : Location} {made : Location → Prop}

/-- What is not below a directory stays as it is, but for the directory itself and those on the way
to it, which may be made. -/
def KeepsOutside (directory : Location) (d e : Disk) : Prop :=
  ∀ place, ¬IsBelow directory place → e.node? place = d.node? place ∨
    place <+: directory ∧ d.node? place = none ∧ e.node? place = some .directory

namespace KeepsOutside

theorem refl : KeepsOutside directory d d := fun _ _ => .inl rfl

theorem trans (h₁ : KeepsOutside directory d e) (h₂ : KeepsOutside directory e f) :
    KeepsOutside directory d f := by
  intro place hplace
  rcases h₁ place hplace with h₁ | ⟨hway, hnone, hdir⟩
  · rw [← h₁]
    exact h₂ place hplace
  · rcases h₂ place hplace with h₂ | ⟨-, hnone', -⟩
    · exact .inr ⟨hway, hnone, h₂.trans hdir⟩
    · rw [hdir] at hnone'
      cases hnone'

theorem of_growsBy (h : GrowsBy made d e)
    (hmade : ∀ place, made place → IsBelow directory place ∨ place <+: directory) :
    KeepsOutside directory d e := by
  intro place hplace
  rcases h place with h | ⟨hnone, hdir, hplace'⟩
  · exact .inl h
  · exact .inr ⟨(hmade place hplace').resolve_left hplace, hnone, hdir⟩

theorem put {place : Location} {node : Node} (hroot : place ≠ []) (h : IsBelow directory place) :
    KeepsOutside directory d (d.put place node) := by
  intro other hother
  have hne : other ≠ place := fun heq => hother (heq ▸ h)
  exact .inl (node?_put_of_ne hroot hne)

end KeepsOutside

/-- The directories that are made for a path stand at its waypoints, also if not all can be made. -/
theorem makeDirectories_growsBy_waypoints [i : Interpreter] (cwd : Location) (p : Path)
    (hd : d.Linkless) :
    GrowsBy (· ∈ p.waypoints cwd) d (d.makeDirectories cwd p).1 := by
  refine makeDirectoriesUpTo_growsBy Linkless (fun _ _ hd h => h.linkless hd) _ _ ?_ hd
  intro d q place hd hq hplace
  obtain rfl : place = q.location cwd := locate_location hd hplace
  obtain ⟨-, ⟨-, hfound⟩ | ⟨hnamed, -⟩⟩ := (locate_eq_ok_iff_of_linkless hd).mp hplace
  · cases hfound
  · apply hq.waypoints_subset
    simp [hnamed.waypoints_eq]

end Disk

variable {config : Config} {cwd : Location} {d e : Disk} {c : Collection} {cs : List Collection}
  {p : Path}

/-- The path of the file of a collection stays inside the output directory: the file is below it,
and so are the directories on the way, apart from those on the way to the output directory. -/
structure StaysInside (config : Config) (cwd : Location) (c : Collection) : Prop where
  file : IsBelow (config.outputDir.location cwd) (fileLocation config cwd c)
  directories : ∀ place ∈ directoryLocations config cwd c,
    IsBelow (config.outputDir.location cwd) place ∨ place <+: config.outputDir.location cwd

theorem staysInside_iff : StaysInside config cwd c ↔
    IsBelow (config.outputDir.location cwd) (fileLocation config cwd c) ∧
      ∀ place ∈ directoryLocations config cwd c,
        IsBelow (config.outputDir.location cwd) place ∨ place <+: config.outputDir.location cwd :=
  ⟨fun h => ⟨h.file, h.directories⟩, fun h => ⟨h.1, h.2⟩⟩

instance : Decidable (StaysInside config cwd c) := decidable_of_iff' _ staysInside_iff

/-! ## Runs that stay inside -/

section

variable [i : Interpreter]

/-- A file is opened below the output directory, if at all, whether it is written or not. -/
theorem writeInterface_keepsOutside (hd : d.Linkless) (hc : StaysInside config cwd c) :
    KeepsOutside (config.outputDir.location cwd) d
      (writeInterface config cwd d c (renderInterface config c)).1 := by
  have hgrows := makeDirectories_growsBy_waypoints cwd (interfacePath config c).parent hd
  have hmade := KeepsOutside.of_growsBy hgrows hc.directories
  have hopened {opened : Location} {content : Bytes} {made : Disk} (hlinkless : made.Linkless)
      (hplace : made.placeToWrite cwd (interfacePath config c) = .ok opened) :
      KeepsOutside (config.outputDir.location cwd) made (made.put opened (.file content)) := by
    have hroot := ne_root_of_placeToWrite hplace
    obtain rfl := placeToWrite_location hlinkless hplace
    exact .put hroot hc.file
  rcases hwrite : writeInterface config cwd d c (renderInterface config c) with ⟨e, _ | fault⟩
  · obtain ⟨made, place, bytes, hmake, hplace, -, rfl⟩ := writeInterface_eq_none_iff.mp hwrite
    rw [hmake] at hgrows hmade
    exact hmade.trans (hopened (hgrows.linkless hd) hplace)
  · cases writeInterface_eq_some_iff.mp hwrite with
    | directory hmake | file hmake =>
      rw [hmake] at hmade
      exact hmade
    | text hmake hplace =>
      rw [hmake] at hgrows hmade
      exact hmade.trans (hopened (hgrows.linkless hd) hplace)

theorem generate_keepsOutside (hd : d.Linkless)
    (h : ∀ c ∈ cs.take ((generate config cwd d cs).written.length + 1),
      StaysInside config cwd c) :
    KeepsOutside (config.outputDir.location cwd) d (generate config cwd d cs).disk := by
  induction cs generalizing d with
  | nil => exact .refl
  | cons c cs ih =>
    have hc : StaysInside config cwd c := h c (by simp)
    have hfirst := writeInterface_keepsOutside hd hc
    rcases hwrite : writeInterface config cwd d c (renderInterface config c) with ⟨e, _ | fault⟩
    · rw [hwrite] at hfirst
      rw [generate_cons_of_write hwrite] at h ⊢
      have hlinkless : e.Linkless := (hasWritten_writeInterface hd hwrite).linkless hd
      refine hfirst.trans (ih hlinkless ?_)
      intro other hother
      exact h other (List.mem_cons_of_mem c hother)
    · rw [hwrite] at hfirst
      simpa [generate, hwrite] using hfirst

/-! ## Runs that lead out -/

omit i in
theorem node?_empty {place : Location} (h : place ≠ []) : Disk.empty.node? place = none := by
  simp [Disk.node?, Disk.empty, h]

/-- On the empty disk all that a run makes can be seen. -/
theorem staysInside_of_keepsOutside (hrun : (generate config cwd .empty cs).fault = none)
    (hkeeps : Disk.empty.KeepsOutside (config.outputDir.location cwd)
      (generate config cwd .empty cs).disk) : ∀ c ∈ cs, StaysInside config cwd c := by
  obtain ⟨hall, -⟩ := (generate_fault_eq_none_iff_writable linkless_empty).mp hrun
  intro c hc
  refine ⟨?_, ?_⟩
  · have hroot : fileLocation config cwd c ≠ [] := (hall.admits c hc).ne_root
    obtain ⟨last, hlast⟩ := exists_lastAt? config cwd hc
    apply Classical.byContradiction
    intro hout
    have hkept := hkeeps _ hout
    rw [node?_of_lastAt? linkless_empty hrun hlast, node?_empty hroot] at hkept
    simp at hkept
  · intro place hplace
    by_cases hbelow : IsBelow (config.outputDir.location cwd) place
    · exact .inl hbelow
    · have hroot : place ≠ [] := Move.ne_root_of_mem_waypoints hplace
      have hkept := hkeeps place hbelow
      rw [node?_of_mem_directoryLocations linkless_empty hrun hc hplace, node?_empty hroot]
        at hkept
      right
      simpa using hkept

end

/-! ## Names that stay inside -/

theorem Path.waypoints_down {name : Text} (h : name ≠ Path.dotDot) :
    (p.down name).waypoints cwd = p.waypoints cwd ++ [(p.down name).location cwd] := by
  have hnamed : (p.down name).IsNamed := ⟨name, by simp [down], h⟩
  rw [hnamed.waypoints_eq, parent_down]

/-- A database and a name without slashes stay inside, unless the database is `..`. -/
theorem staysInside_of_not_mem (hresolved : config.outputDir.IsResolved)
    (hext : config.extension = defaultExtension) (hname : Path.slash ∉ c.name)
    (hslash : Path.slash ∉ c.databaseId) (hdots : c.databaseId ≠ Path.dotDot) :
    StaysInside config cwd c := by
  have hways : directoryLocations config cwd c =
      (databaseDirectory config c.databaseId).waypoints cwd := by
    rw [directoryLocations, interfacePath_of_not_mem hext hname, Path.parent_down]
  have hwaypoints := Path.waypoints_prefix cwd hresolved.dotDot
  rw [staysInside_iff, hways, fileLocation_of_not_mem hext hname, databaseDirectory,
    Path.join_ofText_of_not_mem hslash]
  split
  · rw [Path.waypoints_down hdots, Path.location_down hdots]
    refine ⟨⟨?_, by simp⟩, List.forall_mem_append.mpr ⟨?_, ?_⟩⟩
    · exact (List.prefix_append _ _).trans (List.prefix_append _ _)
    · exact fun place hplace => .inr (hwaypoints place hplace)
    · simpa using .inl isBelow_append
  · exact ⟨isBelow_append, fun place hplace => .inr (hwaypoints place hplace)⟩

/-! ## The law of containment -/

section

variable [i : Interpreter]

/-- When a run over collections keeps what is outside of the output directory. -/
structure ContainmentLaw (config : Config) (cwd : Location) (cs : List Collection) : Prop where
  /-- It does so, even if it fails, when all files that it comes to stay inside. -/
  kept : ∀ d : Disk, d.Linkless →
    (∀ c ∈ cs.take ((generate config cwd d cs).written.length + 1), StaysInside config cwd c) →
    d.KeepsOutside (config.outputDir.location cwd) (generate config cwd d cs).disk
  /-- If all files can be written on the empty disk, then no weaker condition is enough. -/
  exact : (generate config cwd .empty cs).fault = none →
    ((∀ d : Disk, d.Linkless →
      d.KeepsOutside (config.outputDir.location cwd) (generate config cwd d cs).disk) ↔
      ∀ c ∈ cs, StaysInside config cwd c)
  /-- Files stay inside if neither the database nor the name has a slash and the database is not
  the directory above. -/
  names : config.extension = defaultExtension → ∀ c : Collection,
    Path.slash ∉ c.databaseId → c.databaseId ≠ Path.dotDot → Path.slash ∉ c.name →
    StaysInside config cwd c

/-- **The law of containment.** On disks without links, a run with a configuration that was made
from arguments keeps what is outside of the output directory exactly if its files stay inside. -/
theorem generate_containmentLaw {a : ConfigArguments}
    (hconfig : Config.ofArguments d cwd a = .ok config) : ContainmentLaw config cwd cs := by
  refine ⟨fun d hd h => generate_keepsOutside hd h, ?_, ?_⟩
  · intro hrun
    constructor
    · intro hkeeps
      exact staysInside_of_keepsOutside hrun (hkeeps .empty linkless_empty)
    · intro hall d hd
      exact generate_keepsOutside hd fun c hc => hall c (List.mem_of_mem_take hc)
  · intro hext c hslash hdots hname
    exact staysInside_of_not_mem (Config.outputDir_isResolved hconfig) hext hname hslash hdots

end

def outArguments : ConfigArguments where
  input := "in.json"
  output := "out"
  base := ⟨.slash, []⟩
  variant := Variant.plain.name

/-- A disk with a schema document whose database is the directory above. -/
def dotDotDisk : Disk :=
  ⟨[([nameBytes "in.json"], .file
    (("\x7b\"collections\":[\x7b\"databaseId\":\"..\",\"name\":\"a\"\x7d]\x7d" : Text).flatMap
      CodePoint.utf8))]⟩

def dotDotCollection : Collection := ⟨"..", "a", []⟩

/-- The document is loaded, and the file of its collection is written outside of `/out`. -/
theorem generate_containmentLaw_dotDot :
    Config.ofArguments dotDotDisk [] outArguments = .ok outConfig ∧
      (Schema.load (i := .usual) dotDotDisk [] outConfig.inputPath).toOption =
        some ⟨[dotDotCollection]⟩ ∧
      ¬StaysInside outConfig [] dotDotCollection ∧
      ¬∀ d : Disk, d.Linkless → d.KeepsOutside (outConfig.outputDir.location [])
        (generate (i := .usual) outConfig [] d [dotDotCollection]).disk := by
  have hconfig : Config.ofArguments dotDotDisk [] outArguments = .ok outConfig := by rfl
  have hrun : (generate (i := .usual) outConfig [] .empty [dotDotCollection]).fault = none := by
    decide +kernel
  have hout : ¬StaysInside outConfig [] dotDotCollection := by decide +kernel
  refine ⟨hconfig, by decide +kernel, hout, ?_⟩
  intro hkept
  have hlaw : ContainmentLaw (i := .usual) outConfig [] [dotDotCollection] :=
    generate_containmentLaw (i := .usual) hconfig
  have hexact := ContainmentLaw.exact (i := .usual) hlaw hrun
  exact hout (hexact.mp hkept dotDotCollection (by simp))

end CollectionInterfaces
