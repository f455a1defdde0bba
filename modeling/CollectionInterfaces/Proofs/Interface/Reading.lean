import CollectionInterfaces.Proofs.Interface.Bindings
import CollectionInterfaces.Proofs.Text.Split

/-!
# Reading interfaces

What the text of an interface says can be read from it line by line. If the names in an interface
are plain, nothing is lost in its text: it is read as the interface again
(`Interface.read?_render`).
-/

namespace CollectionInterfaces

/-! ## Plain names -/

/-- A letter, a digit, `_`, `$` or `-`. -/
def CodePoint.isPlain (c : CodePoint) : Bool := c.isWord || c = .ofChar '$' || c = .ofChar '-'

namespace Text

/-- A text of letters, digits, `_`, `$` and `-`. -/
def IsPlain (t : Text) : Prop := ∀ c ∈ t, c.isPlain = true

instance (t : Text) : Decidable t.IsPlain := inferInstanceAs (Decidable (∀ c ∈ t, _))

variable {t ending front : Text} {c : CodePoint}

theorem IsPlain.not_mem (h : t.IsPlain) (hc : c.isPlain = false) : c ∉ t := by
  intro hmem
  rw [h c hmem] at hc
  cases hc

/-- Casing leaves plain names plain. -/
theorem IsPlain.pascalCase (h : t.IsPlain) : t.pascalCase.IsPlain := by
  intro c hc
  cases hupper : c.isUpper with
  | true => simp [CodePoint.isPlain, CodePoint.isWord, hupper]
  | false => exact h c (mem_of_mem_pascalCase hupper hc)

/-! ## Endings -/

/-- The text before the given ending, if it ends so. -/
def before? (ending t : Text) : Option Text := (after? ending.reverse t.reverse).map List.reverse

/-- The text without an ending, and whether it had the ending. -/
def dropEnding (ending t : Text) : Text × Bool :=
  match before? ending t with
  | some front => (front, true)
  | none => (t, false)

theorem before?_eq_some_iff : before? ending t = some front ↔ t = front ++ ending := by
  simp only [before?, Option.map_eq_some_iff, after?_eq_some_iff]
  constructor
  · rintro ⟨rest, hrest, rfl⟩
    rw [← List.reverse_inj, List.reverse_append, List.reverse_reverse, hrest]
  · rintro rfl
    exact ⟨front.reverse, List.reverse_append, List.reverse_reverse front⟩

/-- An ending is told apart from a text that does not hold one of its code points. -/
theorem dropEnding_append (hc : c ∈ ending) (ht : c ∉ t) (b : Bool) :
    dropEnding ending (t ++ if b then ending else []) = (t, b) := by
  unfold dropEnding
  cases b with
  | true => simp only [if_true, before?_eq_some_iff.mpr rfl]
  | false =>
    cases hbefore : before? ending t with
    | some front =>
      rw [before?_eq_some_iff.mp hbefore] at ht
      exact absurd (List.mem_append_right front hc) ht
    | none => simp [hbefore]

end Text

/-! ## Lines -/

/-- The field that a line declares. -/
def Field.read? (line : Text) : Option Field := do
  let (marked, typed?) := Text.cut ':' (← Text.after? "  " line)
  let typed ← Text.before? ";" (← Text.after? " " (← typed?))
  let (key, optional) := Text.dropEnding "?" marked
  let (type, isArray) := Text.dropEnding "[]" typed
  some ⟨key, optional, type, isArray⟩

/-- The import statement that a line is. -/
def ImportStatement.read? (line : Text) : Option ImportStatement := do
  let (name, rest?) := Text.cut ' ' (← Text.after? "import \x7b " line)
  let source ← Text.before? "';" (← Text.after? "\x7d from '" (← rest?))
  some ⟨name, source⟩

/-- The import that a statement is, if it is one from a file beside. -/
def ImportStatement.import? (s : ImportStatement) : Option Text :=
  if s.source = "./" ++ s.name then some s.name else none

/-- The ways in which the line that opens an interface can go on after the name. -/
def openingEnds : List (Text × Variant) :=
  [("extends Models.Document \x7b", .document), ("\x7b", .plain)]

/-- The name and the variant in the line that opens an interface. -/
def readOpening? (line : Text) : Option (Text × Variant) := do
  let (name, rest?) := Text.cut ' ' (← Text.after? "export interface " line)
  let variant ← openingEnds.lookup (← rest?)
  some (name, variant)

/-- The interface that a text says. -/
def Interface.read? (t : Text) : Option Interface := do
  let _ :: _ :: command :: rest := Text.splitAll .lineFeed t | none
  let hint ← Text.after? "// To regenerate, run: generate-appwrite-interfaces " command
  let statements ← (rest.takeWhile (· ≠ [])).mapM ImportStatement.read?
  let _ :: opening :: body := rest.dropWhile (· ≠ []) | none
  let (name, variant) ← readOpening? opening
  let fields ← (body.takeWhile (· ≠ ("\x7d" : Text))).mapM Field.read?
  some ⟨hint, variant, statements.filterMap ImportStatement.import?, name, fields⟩

variable {f : Field} {i : Interface}

/-- The key and the type of a field are plain. -/
structure Field.IsPlain (f : Field) : Prop where
  key : f.key.IsPlain
  type : f.type.IsPlain

theorem Field.read?_render (h : f.IsPlain) : Field.read? f.render = some f := by
  -- the line, as the reader takes it apart
  have hline : f.render = ("  " : Text) ++
      ((f.key ++ if f.optional then ("?" : Text) else []) ++ .ofChar ':' ::
        ((" " : Text) ++ ((f.type ++ arrayMark f.isArray) ++ (";" : Text)))) := by
    simp [Field.render, Text.ofString]
  have hkey : CodePoint.ofChar ':' ∉ f.key ++ if f.optional then ("?" : Text) else [] := by
    rw [List.mem_append, not_or]
    refine ⟨h.key.not_mem (by decide), ?_⟩
    cases f.optional <;> decide
  have hmarked : Text.dropEnding "?" (f.key ++ if f.optional then ("?" : Text) else []) =
      (f.key, f.optional) :=
    Text.dropEnding_append (c := .ofChar '?') (by decide) (h.key.not_mem (by decide)) _
  have htyped : Text.dropEnding "[]" (f.type ++ arrayMark f.isArray) = (f.type, f.isArray) :=
    Text.dropEnding_append (c := .ofChar '[') (by decide) (h.type.not_mem (by decide)) _
  unfold Field.read?
  rw [hline, Text.after?_eq_some_iff.mpr rfl]
  simp only [Option.bind_eq_bind, Option.bind_some, Text.cut_append hkey, hmarked,
    Text.after?_eq_some_iff.mpr rfl, Text.before?_eq_some_iff.mpr rfl, htyped]

theorem ImportStatement.read?_line {s : ImportStatement} (h : s.name.IsPlain) :
    ImportStatement.read? s.line = some s := by
  have hline : s.line = ("import \x7b " : Text) ++ (s.name ++ .ofChar ' ' ::
      (("\x7d from '" : Text) ++ (s.source ++ ("';" : Text)))) := by
    simp [ImportStatement.line, Text.ofString]
  have hname : CodePoint.ofChar ' ' ∉ s.name := h.not_mem (by decide)
  unfold ImportStatement.read?
  rw [hline, Text.after?_eq_some_iff.mpr rfl]
  simp only [Option.bind_eq_bind, Option.bind_some, Text.cut_append hname,
    Text.after?_eq_some_iff.mpr rfl, Text.before?_eq_some_iff.mpr rfl]

theorem readOpening?_opening (h : i.name.IsPlain) :
    readOpening? i.opening = some (i.name, i.variant) := by
  have hline : ∃ rest, openingEnds.lookup rest = some i.variant ∧
      i.opening = ("export interface " : Text) ++ (i.name ++ .ofChar ' ' :: rest) := by
    unfold Interface.opening
    cases i.variant with
    | document => exact ⟨"extends Models.Document \x7b", by decide, by simp [Text.ofString]⟩
    | plain => exact ⟨"\x7b", by decide, by simp [Text.ofString]⟩
  obtain ⟨rest, hrest, hopening⟩ := hline
  have hname : CodePoint.ofChar ' ' ∉ i.name := h.not_mem (by decide)
  unfold readOpening?
  rw [hopening, Text.after?_eq_some_iff.mpr rfl]
  simp only [Option.bind_eq_bind, Option.bind_some, Text.cut_append hname, hrest]

/-! ## Interfaces -/

/-- The names in an interface are plain, and its hint is on one line. -/
structure Interface.IsPlain (i : Interface) : Prop where
  hint : .lineFeed ∉ i.hint
  imports : ∀ name ∈ i.imports, name.IsPlain
  name : i.name.IsPlain
  fields : ∀ f ∈ i.fields, f.IsPlain

theorem mapM_map_of_forall {α β : Type} {write : α → β} {read : β → Option α} {as : List α}
    (h : ∀ a ∈ as, read (write a) = some a) : (as.map write).mapM read = some as := by
  induction as with
  | nil => rfl
  | cons a as ih =>
    rw [List.forall_mem_cons] at h
    rw [List.map_cons, List.mapM_cons, h.1, ih h.2]
    rfl

theorem Field.lineFeed_not_mem_render (h : f.IsPlain) : .lineFeed ∉ f.render := by
  have hkey : CodePoint.lineFeed ∉ f.key := h.key.not_mem (by decide)
  have htype : CodePoint.lineFeed ∉ f.type := h.type.not_mem (by decide)
  simp only [Field.render, arrayMark, List.mem_append, not_or]
  refine ⟨⟨⟨⟨⟨⟨by decide, hkey⟩, ?_⟩, by decide⟩, htype⟩, ?_⟩, by decide⟩
  · split <;> decide
  · split <;> decide

namespace Interface

theorem lineFeed_not_mem_headerLines {hint : Text} (h : .lineFeed ∉ hint) :
    ∀ line ∈ headerLines hint, .lineFeed ∉ line := by
  have hcommand : CodePoint.lineFeed ∉
      ("// To regenerate, run: generate-appwrite-interfaces " : Text) := by decide +kernel
  simp only [headerLines, List.forall_mem_cons, List.mem_append, not_or]
  exact ⟨⟨by decide +kernel, by decide +kernel⟩, by decide +kernel, ⟨hcommand, h⟩, by simp⟩

theorem isPlain_of_mem_importStatements (h : i.IsPlain) {s : ImportStatement}
    (hs : s ∈ i.importStatements) :
    s.name.IsPlain ∧ CodePoint.lineFeed ∉ s.source := by
  rcases List.mem_append.mp hs with hs | hs
  · unfold baseStatements at hs
    split at hs
    · obtain rfl := List.mem_singleton.mp hs
      exact ⟨by decide, by decide⟩
    · cases hs
  · obtain ⟨name, hname, rfl⟩ := List.mem_map.mp hs
    refine ⟨h.imports name hname, ?_⟩
    rw [List.mem_append, not_or]
    exact ⟨by decide, (h.imports name hname).not_mem (by decide)⟩

theorem lineFeed_not_mem_line {s : ImportStatement} (hname : s.name.IsPlain)
    (hsource : CodePoint.lineFeed ∉ s.source) : .lineFeed ∉ s.line := by
  have hplain : CodePoint.lineFeed ∉ s.name := hname.not_mem (by decide)
  simp only [ImportStatement.line, List.mem_append, not_or]
  exact ⟨⟨⟨⟨by decide, hplain⟩, by decide⟩, hsource⟩, by decide⟩

theorem lineFeed_not_mem_opening (h : i.name.IsPlain) : .lineFeed ∉ i.opening := by
  have hname : CodePoint.lineFeed ∉ i.name := h.not_mem (by decide)
  simp only [opening, List.mem_append, not_or]
  refine ⟨⟨⟨by decide, hname⟩, ?_⟩, by decide⟩
  split <;> decide

theorem splitAll_render (h : i.IsPlain) : Text.splitAll .lineFeed i.render =
    headerLines i.hint ++ i.importStatements.map ImportStatement.line ++ [] :: i.opening ::
      (i.fields.map Field.render ++ [("\x7d" : Text), []]) := by
  rw [render_eq_join_statements]
  refine Text.splitAll_join (by simp) fun line hline => ?_
  simp only [List.mem_append, List.mem_cons, List.mem_map, List.not_mem_nil, or_false] at hline
  rcases hline with (hheader | ⟨s, hs, rfl⟩) | rfl | rfl | ⟨f, hf, rfl⟩ | rfl | rfl
  · exact lineFeed_not_mem_headerLines h.hint line hheader
  · obtain ⟨hname, hsource⟩ := isPlain_of_mem_importStatements h hs
    exact lineFeed_not_mem_line hname hsource
  · exact List.not_mem_nil
  · exact lineFeed_not_mem_opening h.name
  · exact Field.lineFeed_not_mem_render (h.fields f hf)
  · decide
  · exact List.not_mem_nil

theorem filterMap_import?_importStatements (i : Interface) :
    i.importStatements.filterMap ImportStatement.import? = i.imports := by
  have hbase : (baseStatements i.variant).filterMap ImportStatement.import? = [] := by
    cases i.variant <;> decide
  have hbeside : (ImportStatement.import? ∘ fun name => ⟨name, "./" ++ name⟩) = some :=
    funext fun name => if_pos rfl
  rw [importStatements, List.filterMap_append, hbase, List.nil_append, List.filterMap_map, hbeside,
    List.filterMap_some]

/-- **Nothing is lost in the text of an interface** whose names are plain. -/
theorem read?_render (h : i.IsPlain) : Interface.read? i.render = some i := by
  have hstatements : (i.importStatements.map ImportStatement.line).mapM ImportStatement.read? =
      some i.importStatements :=
    mapM_map_of_forall fun s hs =>
      ImportStatement.read?_line (isPlain_of_mem_importStatements h hs).1
  have hfields : (i.fields.map Field.render).mapM Field.read? = some i.fields :=
    mapM_map_of_forall fun f hf => Field.read?_render (h.fields f hf)
  -- the statements end at the first empty line, and the fields at the closing brace
  have hne : ∀ line ∈ i.importStatements.map ImportStatement.line, decide (line ≠ []) = true := by
    simp [ImportStatement.line, Text.ofString]
  have hclose : ∀ line ∈ i.fields.map Field.render, decide (line ≠ ("\x7d" : Text)) = true := by
    simp [Field.render, Text.ofString, CodePoint.ofChar]
  unfold Interface.read?
  rw [splitAll_render h]
  simp only [headerLines, List.cons_append, List.nil_append, Text.after?_eq_some_iff.mpr rfl,
    Option.bind_eq_bind, Option.bind_some]
  rw [List.takeWhile_append_of_pos hne, List.dropWhile_append_of_pos hne]
  simp only [ne_eq, not_true_eq_false, decide_false, List.takeWhile_cons, List.dropWhile_cons,
    Bool.false_eq_true, if_false, List.append_nil, hstatements, Option.bind_some,
    readOpening?_opening h.name]
  rw [List.takeWhile_append_of_pos hclose]
  simp [hfields, filterMap_import?_importStatements]

end Interface

end CollectionInterfaces
