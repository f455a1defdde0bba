import CollectionInterfaces.Proofs.Disk.Resolve
import CollectionInterfaces.Proofs.Text.Split

/-!
# Paths of configurations

The two paths of a configuration are given as texts, in a directory. On a disk without links they
are followed from the root on, piece by piece (`Disk.resolve_join_ofText`), and what comes out needs
no resolving: as a text it leads to itself from every directory (`Config.ofArguments_pathsLaw`). A
text that cannot be named on a disk gives no configuration (`Config.ofArguments_fails_surrogate`).
-/

namespace CollectionInterfaces

namespace Path

variable {directory t piece name : Text} {names pieces : List Text} {p : Path}

/-! ## Following a text -/

/-- The names from the root on, after one more piece of a path. An empty piece and a point change
nothing, and two points go up; the root is above itself. -/
def followPiece (names : List Text) (piece : Text) : List Text :=
  if piece = [] ∨ piece = dot then names
  else if piece = dotDot then names.dropLast
  else names ++ [piece]

/-- The names from the root on that a text leads to, piece by piece. -/
def follow (t : Text) : List Text := (Text.splitAll slash t).foldl followPiece []

/-- A text that is given in a directory, from the root on. -/
def fromRoot (directory t : Text) : Text :=
  if t.head? = some slash then t else directory ++ slash :: t

/-- A name of something below a directory. -/
structure IsProper (name : Text) : Prop where
  ne_nil : name ≠ []
  ne_dot : name ≠ dot
  ne_dotDot : name ≠ dotDot
  slash_not_mem : slash ∉ name

theorem isName_eq_false_iff : isName t = false ↔ t = [] ∨ t = dot := by
  simp only [isName, Bool.and_eq_false_iff, Bool.not_eq_false', List.isEmpty_iff,
    bne_eq_false_iff_eq]

theorem followPiece_of_isName_eq_false (h : isName piece = false) :
    followPiece names piece = names := if_pos (isName_eq_false_iff.mp h)

theorem followPiece_of_isProper (h : IsProper piece) :
    followPiece names piece = names ++ [piece] := by
  simp [followPiece, h.ne_nil, h.ne_dot, h.ne_dotDot]

theorem isProper_followPiece (hnames : ∀ name ∈ names, IsProper name) (hpiece : slash ∉ piece) :
    ∀ name ∈ followPiece names piece, IsProper name := by
  unfold followPiece
  split
  · exact hnames
  split
  · exact fun name hname => hnames name (List.dropLast_subset names hname)
  · rename_i hname hdotDot
    rw [not_or] at hname
    rw [List.forall_mem_append, List.forall_mem_singleton]
    exact ⟨hnames, hname.1, hname.2, hdotDot, hpiece⟩

theorem isProper_foldl_followPiece (hnames : ∀ name ∈ names, IsProper name)
    (hpieces : ∀ piece ∈ pieces, slash ∉ piece) :
    ∀ name ∈ pieces.foldl followPiece names, IsProper name := by
  induction pieces generalizing names with
  | nil => exact hnames
  | cons piece pieces ih =>
    rw [List.forall_mem_cons] at hpieces
    exact ih (isProper_followPiece hnames hpieces.1) hpieces.2

/-- Whatever a text leads to is proper, since `..` never stays. -/
theorem isProper_follow (t : Text) : ∀ name ∈ follow t, IsProper name :=
  isProper_foldl_followPiece (by simp) fun _ => Text.not_mem_of_mem_splitAll

theorem foldl_followPiece_of_isProper (h : ∀ piece ∈ pieces, IsProper piece) :
    pieces.foldl followPiece names = names ++ pieces := by
  induction pieces generalizing names with
  | nil => simp
  | cons piece pieces ih =>
    rw [List.forall_mem_cons] at h
    rw [List.foldl_cons, followPiece_of_isProper h.1, ih h.2, List.append_assoc]
    rfl

theorem mem_of_mem_followPiece (h : name ∈ followPiece names piece) :
    name ∈ names ∨ name = piece := by
  unfold followPiece at h
  split at h
  · exact .inl h
  split at h
  · exact .inl (List.dropLast_subset names h)
  · simpa using h

theorem mem_of_mem_foldl_followPiece (h : name ∈ pieces.foldl followPiece names) :
    name ∈ names ∨ name ∈ pieces := by
  induction pieces generalizing names with
  | nil => exact .inl h
  | cons piece pieces ih =>
    rcases ih h with h | h
    · rcases mem_of_mem_followPiece h with h | rfl
      · exact .inl h
      · exact .inr (List.mem_cons_self ..)
    · exact .inr (List.mem_cons_of_mem piece h)

theorem mem_of_mem_follow {c : CodePoint} (h : name ∈ follow t) (hc : c ∈ name) : c ∈ t := by
  rcases mem_of_mem_foldl_followPiece h with h | h
  · cases h
  · rw [← Text.join_splitAll slash t]
    exact Text.mem_join_of_mem hc h

theorem foldl_followPiece_filter (pieces names : List Text) :
    (pieces.filter isName).foldl followPiece names = pieces.foldl followPiece names := by
  induction pieces generalizing names with
  | nil => rfl
  | cons piece pieces ih =>
    cases hpiece : isName piece with
    | true => rw [List.filter_cons_of_pos hpiece, List.foldl_cons, ih, List.foldl_cons]
    | false =>
      rw [List.filter_cons_of_neg (by simp [hpiece]), List.foldl_cons,
        followPiece_of_isName_eq_false hpiece, ih]

/-! ## Paths from the root on -/

theorem isAbsolute_ofText_iff : (ofText t).isAbsolute = true ↔ t.head? = some slash := by
  cases t with
  | nil => simp [isAbsolute, ofText, rootOf]
  | cons c rest =>
    by_cases hc : c = slash
    · subst hc
      have hlength : ((slash :: rest).takeWhile (· = slash)).length ≠ 0 := by simp
      have hroot : rootOf (slash :: rest) ≠ .here := by
        unfold rootOf
        split
        · exact absurd ‹_› hlength
        · exact PathRoot.noConfusion
        · exact PathRoot.noConfusion
      simp [isAbsolute, ofText, hroot]
    · simp [isAbsolute, ofText, rootOf, hc]

theorem isAbsolute_join (hp : p.isAbsolute = true) (q : Path) : (p.join q).isAbsolute = true := by
  unfold join
  split
  · assumption
  · exact hp

theorem names_join_ofText (directory t : Text) : ((ofText directory).join (ofText t)).names =
    (Text.splitAll slash (fromRoot directory t)).filter isName := by
  unfold join fromRoot
  by_cases ht : t.head? = some slash
  · rw [if_pos (isAbsolute_ofText_iff.mpr ht), if_pos ht]
    rfl
  · rw [if_neg (mt isAbsolute_ofText_iff.mp ht), if_neg ht, Text.splitAll_append_sep,
      List.filter_append]
    rfl

theorem toText_slash (names : List Text) :
    toText ⟨.slash, names⟩ = slash :: Text.join [slash] names := by
  simp [toText, rootText]

/-- The text of a path with proper names leads to it. -/
theorem follow_toText (h : ∀ name ∈ names, IsProper name) :
    follow (toText ⟨.slash, names⟩) = names := by
  rw [toText_slash, ← List.nil_append (slash :: _), follow, Text.splitAll_append_sep,
    List.foldl_append]
  by_cases hnames : names = []
  · subst hnames
    rfl
  · rw [Text.splitAll_join hnames fun name hname => (h name hname).slash_not_mem]
    exact foldl_followPiece_of_isProper h

/-! ## Names on a disk -/

theorem isNameable_join_iff : (∀ c ∈ Text.join [slash] pieces, c.IsNameable) ↔
    ∀ piece ∈ pieces, ∀ c ∈ piece, c.IsNameable := by
  constructor
  · exact fun h piece hpiece c hc => h c (Text.mem_join_of_mem hc hpiece)
  · intro h c hc
    by_cases hslash : c ∈ [slash]
    · rw [List.mem_singleton.mp hslash]
      decide
    · obtain ⟨piece, hpiece, hc⟩ := Text.mem_of_mem_join hslash hc
      exact h piece hpiece c hc

/-- Only the names decide whether a path can be named on a disk. -/
theorem isNameable_iff : p.IsNameable ↔ ∀ name ∈ p.names, ∀ c ∈ name, c.IsNameable := by
  have hroot : ∀ c ∈ rootText p.root, c.IsNameable := by cases p.root <;> decide
  unfold IsNameable toText
  split
  · rename_i h
    rw [h.2]
    simp only [List.not_mem_nil, false_implies, implies_true, iff_true]
    decide
  · rw [List.forall_mem_append, and_iff_right hroot, isNameable_join_iff]

theorem isNameable_join_ofText : ((ofText directory).join (ofText t)).IsNameable ↔
    ∀ c ∈ fromRoot directory t, c.IsNameable := by
  rw [isNameable_iff, names_join_ofText, ← Text.join_splitAll slash (fromRoot directory t),
    isNameable_join_iff, Text.join_splitAll]
  constructor
  · intro h piece hpiece
    cases hname : isName piece with
    | true => exact h piece (List.mem_filter.mpr ⟨hpiece, hname⟩)
    | false =>
      rcases isName_eq_false_iff.mp hname with rfl | rfl
      · exact fun c hc => nomatch hc
      · exact (by decide : ∀ c ∈ dot, c.IsNameable)
  · exact fun h name hname => h name (List.mem_filter.mp hname).1

end Path

/-- A path with proper names needs no evaluation. -/
theorem Path.evaluate_of_isProper {cwd : Location} {names : List Text}
    (h : ∀ name ∈ names, IsProper name) : evaluate cwd ⟨.slash, names⟩ = ⟨.slash, names⟩ := by
  have hfold (inside : List Text) : names.foldl stepName inside = names.reverse ++ inside := by
    induction names generalizing inside with
    | nil => rfl
    | cons name names ih =>
      rw [List.forall_mem_cons] at h
      rw [List.foldl_cons, ih h.2, stepName, if_neg h.1.ne_dotDot, List.reverse_cons,
        List.append_assoc]
      rfl
  have hnames : evaluateNames names = names := by simp [evaluateNames, hfold]
  show Path.mk .slash (evaluateNames names) = _
  rw [hnames]

namespace Disk

open CollectionInterfaces.Path

variable {d : Disk} {cwd : Location} {directory t : Text} {names pieces : List Text} {p q : Path}

/-! ## Resolving without links -/

/-- Without links, pieces are followed from a resolved path on. -/
theorem resolveWith_of_linkless (hd : d.Linkless)
    (expand : Path → List Text → StateM MetLinks (Path × Bool)) (h : dotDot ∉ names) :
    d.resolveWith cwd expand ⟨.slash, names⟩ pieces =
      pure (⟨.slash, pieces.foldl followPiece names⟩, true) := by
  induction pieces generalizing names with
  | nil => rfl
  | cons piece rest ih =>
    rw [List.foldl_cons]
    unfold resolveWith
    cases hname : isName piece with
    | false =>
      rw [followPiece_of_isName_eq_false hname]
      exact ih h
    | true =>
      have hpiece : ¬(piece = [] ∨ piece = dot) := by
        rw [← isName_eq_false_iff, hname]
        simp
      simp only [Bool.not_true, Bool.false_eq_true, if_false, followPiece, hpiece,
        linkAt?_eq_none hd]
      split
      · -- no name is `..`, so the last one goes
        have hlast : names.getLast? ≠ some dotDot := fun hlast => h (List.mem_of_getLast? hlast)
        have hup : up ⟨.slash, names⟩ = ⟨.slash, names.dropLast⟩ := by simp [up, hlast, parent]
        rw [hup]
        exact ih fun hmem => h (List.dropLast_subset names hmem)
      · rename_i hdotDot
        refine ih ?_
        simp [h, Ne.symm hdotDot]

theorem resolved_join_ofText (hd : d.Linkless) (hdirectory : directory.head? = some slash) :
    d.resolved cwd ((ofText directory).join (ofText t)) =
      ⟨.slash, follow (fromRoot directory t)⟩ := by
  obtain ⟨links, hlinks⟩ := d.exists_maxNestedLinks_eq cwd
  have habsolute := isAbsolute_join (isAbsolute_ofText_iff.mpr hdirectory) (ofText t)
  unfold resolved
  dsimp only
  rw [habsolute, if_pos rfl, hlinks, resolveUpTo_succ, resolveWith_of_linkless hd _ (by simp),
    names_join_ofText, foldl_followPiece_filter]
  exact evaluate_of_isProper (isProper_follow _)

/-- A text resolves if it can be named on a disk, to what its pieces lead to. -/
theorem resolve_join_ofText (hd : d.Linkless) (hdirectory : directory.head? = some slash) :
    d.resolve cwd ((ofText directory).join (ofText t)) = .ok q ↔
      (∀ c ∈ fromRoot directory t, c.IsNameable) ∧
        q = ⟨.slash, follow (fromRoot directory t)⟩ := by
  rw [resolve_of_linkless hd, ← isNameable_join_ofText, ← exists_pathBytes_iff,
    resolved_join_ofText hd hdirectory]
  cases pathBytes ((ofText directory).join (ofText t)) with
  | error fault => simp
  | ok bytes => simp [eq_comm]

/-- A resolved path is read back from its text, in any directory. -/
theorem resolve_toText (hd : d.Linkless) (base : Path) (hnames : ∀ name ∈ names, IsProper name)
    (hp : IsNameable ⟨.slash, names⟩) :
    d.resolve cwd (base.join (ofText (toText ⟨.slash, names⟩))) = .ok ⟨.slash, names⟩ := by
  have hhead : (toText ⟨.slash, names⟩).head? = some slash := by rw [toText_slash]; rfl
  have hjoin (q : Path) : q.join (ofText (toText ⟨.slash, names⟩)) =
      ofText (toText ⟨.slash, names⟩) := if_pos (isAbsolute_ofText_iff.mpr hhead)
  have hroot : fromRoot [slash] (toText ⟨.slash, names⟩) = toText ⟨.slash, names⟩ := if_pos hhead
  rw [hjoin base, ← hjoin (ofText [slash]), resolve_join_ofText hd rfl, hroot, follow_toText hnames]
  exact ⟨hp, rfl⟩

end Disk

/-! ## Configurations -/

namespace Config

open CollectionInterfaces.Path

variable {d : Disk} {cwd : Location} {a : ConfigArguments} {config : Config} {directory t : Text}
  {p q : Path}

/-- A path from the root on, as it stands in a configuration for a text that is given in a
directory. -/
structure PathLaw (directory t : Text) (p : Path) : Prop where
  eq_follow : p = ⟨.slash, follow (fromRoot directory t)⟩
  isProper : ∀ name ∈ p.names, IsProper name
  toText_eq : p.toText = slash :: Text.join [slash] p.names
  /-- No second slash follows the first one. -/
  head?_ne : ∀ rest, p.toText = slash :: rest → rest.head? ≠ some slash

theorem head?_join_ne {names : List Text} (h : ∀ name ∈ names, IsProper name) :
    (Text.join [slash] names).head? ≠ some slash := by
  cases names with
  | nil => simp [Text.join]
  | cons name names =>
    have hname := (List.forall_mem_cons.mp h).1
    obtain ⟨c, rest, rfl⟩ := List.exists_cons_of_ne_nil hname.ne_nil
    have hc : c ≠ slash := fun heq => hname.slash_not_mem (by simp [heq])
    cases names <;> simpa [Text.join] using hc

theorem pathLaw_follow (directory t : Text) :
    PathLaw directory t ⟨.slash, follow (fromRoot directory t)⟩ where
  eq_follow := rfl
  isProper := isProper_follow _
  toText_eq := toText_slash _
  head?_ne rest h := by
    rw [toText_slash] at h
    obtain rfl := (List.cons.inj h).2
    exact head?_join_ne (isProper_follow _)

theorem isNameable_follow (h : ∀ c ∈ t, c.IsNameable) : IsNameable ⟨.slash, follow t⟩ :=
  isNameable_iff.mpr fun _ hname c hc => h c (mem_of_mem_follow hname hc)

/-- What holds of the paths of configurations that are made of arguments in a directory. -/
structure PathsLaw (d : Disk) (cwd : Location) (directory : Text) (a : ConfigArguments) : Prop where
  /-- There is a configuration of a variant unless a text cannot be named on a disk: the null code
  point is in it, or a surrogate that stands for no byte. -/
  exists_iff : (∃ config, ofArguments d cwd a = .ok config) ↔
    (∃ variant, Variant.ofName? a.variant = some variant) ∧
      (∀ c ∈ fromRoot directory a.input, c.IsNameable) ∧
      ∀ c ∈ fromRoot directory a.output, c.IsNameable
  inputPath : ∀ config, ofArguments d cwd a = .ok config →
    PathLaw directory a.input config.inputPath
  outputDir : ∀ config, ofArguments d cwd a = .ok config →
    PathLaw directory a.output config.outputDir
  /-- The texts of the paths give the same paths again, on other disks and in other directories. -/
  again : ∀ config, ofArguments d cwd a = .ok config →
    ∀ p ∈ [config.inputPath, config.outputDir], ∀ q ∈ [config.inputPath, config.outputDir],
    ∀ (e : Disk) (there : Location) (base : Path), e.Linkless →
      ∃ again, ofArguments e there { a with input := p.toText, output := q.toText, base := base } =
        .ok again ∧ again.inputPath = p ∧ again.outputDir = q

theorem ofArguments_eq_ok_iff_follow (hd : d.Linkless) (hdirectory : directory.head? = some slash)
    (hbase : a.base = .ofText directory) :
    ofArguments d cwd a = .ok config ↔ ∃ variant, Variant.ofName? a.variant = some variant ∧
      (∀ c ∈ fromRoot directory a.input, c.IsNameable) ∧
      (∀ c ∈ fromRoot directory a.output, c.IsNameable) ∧
      config = ⟨a.input, a.output, ⟨.slash, follow (fromRoot directory a.input)⟩,
        ⟨.slash, follow (fromRoot directory a.output)⟩, variant, a.extension, a.fallbackType,
        a.extraOptions⟩ := by
  simp only [ofArguments_eq_ok_iff, hbase, Disk.resolve_join_ofText hd hdirectory]
  constructor
  · rintro ⟨_, _, variant, ⟨hinput, rfl⟩, ⟨houtput, rfl⟩, hvariant, rfl⟩
    exact ⟨variant, hvariant, hinput, houtput, rfl⟩
  · rintro ⟨variant, hvariant, hinput, houtput, rfl⟩
    exact ⟨_, _, variant, ⟨hinput, rfl⟩, ⟨houtput, rfl⟩, hvariant, rfl⟩

/-- **The paths of a configuration are absolute and need no resolving.** -/
theorem ofArguments_pathsLaw (hd : d.Linkless) (hdirectory : directory.head? = some slash)
    (hbase : a.base = .ofText directory) : PathsLaw d cwd directory a where
  exists_iff := by
    simp only [ofArguments_eq_ok_iff_follow hd hdirectory hbase]
    constructor
    · rintro ⟨_, variant, hvariant, hinput, houtput, -⟩
      exact ⟨⟨variant, hvariant⟩, hinput, houtput⟩
    · rintro ⟨⟨variant, hvariant⟩, hinput, houtput⟩
      exact ⟨_, variant, hvariant, hinput, houtput, rfl⟩
  inputPath config h := by
    obtain ⟨_, -, -, -, rfl⟩ := (ofArguments_eq_ok_iff_follow hd hdirectory hbase).mp h
    exact pathLaw_follow _ _
  outputDir config h := by
    obtain ⟨_, -, -, -, rfl⟩ := (ofArguments_eq_ok_iff_follow hd hdirectory hbase).mp h
    exact pathLaw_follow _ _
  again config h p hp q hq e there base he := by
    obtain ⟨variant, hvariant, hinput, houtput, rfl⟩ :=
      (ofArguments_eq_ok_iff_follow hd hdirectory hbase).mp h
    have hresolve : ∀ p ∈ [(⟨.slash, follow (fromRoot directory a.input)⟩ : Path),
        ⟨.slash, follow (fromRoot directory a.output)⟩],
        e.resolve there (base.join (.ofText p.toText)) = .ok p := by
      simp only [List.forall_mem_cons, List.not_mem_nil, false_implies, implies_true, and_true]
      exact ⟨Disk.resolve_toText he base (isProper_follow _) (isNameable_follow hinput),
        Disk.resolve_toText he base (isProper_follow _) (isNameable_follow houtput)⟩
    refine ⟨_, ofArguments_eq_ok_iff.mpr ⟨p, q, variant, hresolve p hp, hresolve q hq, hvariant,
      rfl⟩, rfl, rfl⟩

/-- Arguments with a surrogate that stands for no byte. -/
def surrogateArguments : ConfigArguments where
  input := [⟨0xD800, by decide⟩]
  output := "out"
  base := .ofText "/project"

/-- **Some arguments without null code points give no configuration.** Their path cannot be named on
a disk. -/
theorem ofArguments_fails_surrogate :
    Disk.empty.Linkless ∧ ("/project" : Text).head? = some slash ∧
      (∀ t ∈ [("/project" : Text), surrogateArguments.input, surrogateArguments.output],
        CodePoint.null ∉ t) ∧
      ¬∃ config, ofArguments .empty [] surrogateArguments = .ok config := by
  refine ⟨Disk.linkless_empty, rfl, by decide, ?_⟩
  rintro ⟨config, h⟩
  have hresolved : (Disk.empty.resolve [] (surrogateArguments.base.join
      (.ofText surrogateArguments.input))).toBool = false := by
    decide +kernel
  obtain ⟨_, _, _, hinput, -⟩ := ofArguments_eq_ok_iff.mp h
  rw [hinput] at hresolved
  cases hresolved

/-- Arguments that go above the root, and to it. -/
def crookedArguments : ConfigArguments where
  input := "../../..//a/./b.json/"
  output := "//out/.."
  base := .ofText "//project/x/"

/-- A root is above itself, and one slash is left of any number. -/
theorem ofArguments_pathsLaw_crooked :
    Disk.empty.Linkless ∧ ("//project/x/" : Text).head? = some slash ∧
      crookedArguments.base = .ofText "//project/x/" ∧
      ∃ config, ofArguments .empty [] crookedArguments = .ok config ∧
        config.inputPath.toText = "/a/b.json" ∧ config.outputDir.toText = "/" := by
  have hlaw : PathsLaw .empty [] "//project/x/" crookedArguments :=
    ofArguments_pathsLaw Disk.linkless_empty rfl rfl
  obtain ⟨config, hconfig⟩ := hlaw.exists_iff.mpr ⟨⟨.document, rfl⟩, by decide, by decide⟩
  refine ⟨Disk.linkless_empty, rfl, rfl, config, hconfig, ?_, ?_⟩
  · rw [(hlaw.inputPath config hconfig).eq_follow]
    decide
  · rw [(hlaw.outputDir config hconfig).eq_follow]
    decide

end Config

end CollectionInterfaces
