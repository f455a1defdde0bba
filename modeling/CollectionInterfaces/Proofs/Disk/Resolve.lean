import CollectionInterfaces.Config
import CollectionInterfaces.Proofs.Disk.Operations
import CollectionInterfaces.Proofs.Results

/-!
# Resolved paths

A resolved path starts at the root and has no `..` in it (`Disk.resolve_isResolved`). Disks without
links all resolve a path to the same (`Disk.resolve_congr`), so that a configuration that was made
on one of them is made on any other (`Config.ofArguments_congr`).
-/

namespace CollectionInterfaces

theorem dotDot_not_mem_evaluateNames (names : List Text) :
    Path.dotDot ∉ evaluateNames names := by
  suffices h : ∀ inside : List Text, Path.dotDot ∉ inside →
      Path.dotDot ∉ names.foldl stepName inside by
    rw [evaluateNames, List.mem_reverse]
    exact h [] (by simp)
  induction names with
  | nil => exact fun _ h => h
  | cons name names ih =>
    intro inside h
    apply ih
    unfold stepName
    split
    · exact fun hmem => h (List.mem_of_mem_tail hmem)
    · rename_i hname
      exact List.not_mem_cons_of_ne_of_not_mem (Ne.symm hname) h

/-- The path starts at a root and never goes up. -/
structure Path.IsResolved (p : Path) : Prop where
  isAbsolute : p.isAbsolute = true
  dotDot : Path.dotDot ∉ p.names

theorem Path.evaluate_isResolved (cwd : Location) (p : Path) : (p.evaluate cwd).IsResolved := by
  unfold evaluate
  split
  · exact ⟨rfl, dotDot_not_mem_evaluateNames _⟩
  · rename_i hroot
    exact ⟨decide_eq_true hroot, dotDot_not_mem_evaluateNames _⟩

namespace Disk

variable {d e : Disk} {cwd here : Location} {purpose : Purpose} {p q above : Path}
  {moves : List Move} {pieces : List Text}

theorem resolved_of_resolve (h : d.resolve cwd p = .ok q) : q = d.resolved cwd p := by
  unfold resolve at h
  split at h
  · cases h
  · split at h
    · cases h
    · exact (Except.ok.inj h).symm

theorem resolve_isResolved (h : d.resolve cwd p = .ok q) : q.IsResolved := by
  rw [resolved_of_resolve h]
  exact Path.evaluate_isResolved cwd _

/-! ## Disks without links -/

theorem linkAt?_eq_none (hd : d.Linkless) : d.linkAt? cwd p = none := by
  unfold linkAt?
  split
  · rename_i target hlink
    exact absurd hlink (hd _ target)
  · rfl

theorem resolveWith_congr (hd : d.Linkless) (he : e.Linkless)
    (expand expand' : Path → List Text → StateM MetLinks (Path × Bool)) :
    d.resolveWith cwd expand above pieces = e.resolveWith cwd expand' above pieces := by
  induction pieces generalizing above with
  | nil => rfl
  | cons piece rest ih =>
    unfold resolveWith
    simp only [linkAt?_eq_none hd, linkAt?_eq_none he, ih]

theorem resolveUpTo_succ {links : Nat} :
    d.resolveUpTo cwd (links + 1) above pieces =
      d.resolveWith cwd (d.resolveUpTo cwd links) above pieces := rfl

theorem exists_maxNestedLinks_eq (d : Disk) (cwd : Location) :
    ∃ links, d.maxNestedLinks cwd = links + 1 :=
  Nat.exists_eq_succ_of_ne_zero (Nat.mul_ne_zero (Nat.succ_ne_zero _) (Nat.succ_ne_zero _))

theorem resolved_congr (hd : d.Linkless) (he : e.Linkless) :
    d.resolved cwd p = e.resolved cwd p := by
  obtain ⟨links, hlinks⟩ := d.exists_maxNestedLinks_eq cwd
  obtain ⟨links', hlinks'⟩ := e.exists_maxNestedLinks_eq cwd
  unfold resolved
  dsimp only
  rw [hlinks, hlinks', resolveUpTo_succ, resolveUpTo_succ,
    resolveWith_congr hd he (d.resolveUpTo cwd links) (e.resolveUpTo cwd links')]

theorem walkWith_ne_tooManyLinks (hd : d.Linkless)
    {expand : Location → List Move → Except DiskFault Place} :
    d.walkWith purpose expand here moves ≠ .error .tooManyLinks := by
  induction moves generalizing here with
  | nil =>
    intro h
    cases h
  | cons m rest ih =>
    cases m with
    | stay | slash | up => exact ih
    | down name =>
      intro h
      unfold walkWith at h
      dsimp only at h
      split at h
      · cases h
      split at h
      · cases h
      split at h
      · split at h <;> cases h
      · exact ih h
      · split at h <;> cases h
      · rename_i target hlink
        exact hd _ target hlink

theorem locate_ne_tooManyLinks (hd : d.Linkless) :
    d.locate cwd purpose p ≠ .error (.disk .tooManyLinks) := by
  intro h
  unfold locate at h
  split at h
  · cases h
  split at h
  · cases h
  · have hwalk : d.walk purpose maxLinks (if p.isAbsolute then [] else cwd)
        (p.names.map moveOfName) = .error .tooManyLinks := by
      obtain ⟨fault, hfault, ⟨⟩⟩ := mapError_eq_error_iff.mp h
      exact hfault
    exact walkWith_ne_tooManyLinks hd hwalk

theorem resolve_of_linkless (hd : d.Linkless) :
    d.resolve cwd p = match pathBytes p with
      | .error fault => .error (.path fault)
      | .ok _ => .ok (d.resolved cwd p) := by
  unfold resolve
  cases pathBytes p with
  | error fault => rfl
  | ok bytes =>
    dsimp only
    split
    · rename_i hloop
      exact absurd hloop (locate_ne_tooManyLinks hd)
    · rfl

/-- A path resolves to the same on all disks without links. -/
theorem resolve_congr (hd : d.Linkless) (he : e.Linkless) :
    d.resolve cwd p = e.resolve cwd p := by
  rw [resolve_of_linkless hd, resolve_of_linkless he, resolved_congr hd he]

end Disk

/-! ## Configurations -/

namespace Config

variable {d e : Disk} {cwd : Location} {a : ConfigArguments} {config : Config}

theorem ofArguments_congr (hd : d.Linkless) (he : e.Linkless) :
    ofArguments d cwd a = ofArguments e cwd a := by
  unfold ofArguments
  simp only [Disk.resolve_congr hd he]

theorem ofArguments_eq_ok_iff :
    ofArguments d cwd a = .ok config ↔ ∃ inputPath outputDir variant,
      d.resolve cwd (a.base.join (.ofText a.input)) = .ok inputPath ∧
      d.resolve cwd (a.base.join (.ofText a.output)) = .ok outputDir ∧
      Variant.ofName? a.variant = some variant ∧
      config = ⟨a.input, a.output, inputPath, outputDir, variant, a.extension, a.fallbackType,
        a.extraOptions⟩ := by
  unfold ofArguments
  simp only [bind_eq_ok_iff, mapError_eq_ok_iff]
  constructor
  · rintro ⟨inputPath, hinput, outputDir, houtput, h⟩
    split at h
    · cases h
    · rename_i variant hvariant
      exact ⟨inputPath, outputDir, variant, hinput, houtput, hvariant, (Except.ok.inj h).symm⟩
  · rintro ⟨inputPath, outputDir, variant, hinput, houtput, hvariant, rfl⟩
    exact ⟨inputPath, hinput, outputDir, houtput, by rw [hvariant]⟩

theorem outputDir_isResolved (h : ofArguments d cwd a = .ok config) :
    config.outputDir.IsResolved := by
  obtain ⟨inputPath, outputDir, variant, -, houtput, -, rfl⟩ := ofArguments_eq_ok_iff.mp h
  exact Disk.resolve_isResolved houtput

end Config

end CollectionInterfaces
