import CollectionInterfaces.CommandLine.Options
import CollectionInterfaces.Proofs.Results
import CollectionInterfaces.Proofs.Text.Split

/-!
# Options that are assigned values

An argument with an option, an equals sign and a value assigns the value to the option, whatever
the value is (`CommandLine.ofArguments_assignments`), except for the mark that ends the options,
which is never a value (`CommandLine.given_ne_endOfOptions`).
-/

namespace CollectionInterfaces

namespace CommandLine

/-- The equals sign between an option and its value. -/
def equals : CodePoint := '='

/-- A value for an option in one argument. -/
structure Assignment where
  option : CommandOption
  spelling : Text
  value : Text

namespace Assignment

def argument (a : Assignment) : Text := a.spelling ++ equals :: a.value

/-- The use of an option that an assignment stands for. -/
def use (a : Assignment) : Use := ⟨a.option, .value a.value⟩

/-- What the argument of an assignment is, taken by itself. -/
def kind (a : Assignment) : Kind := .option a.option a.spelling (some a.value)

/-- The assignment is to an option that takes a value. -/
structure IsReadBy (options : List CommandOption) (a : Assignment) : Prop where
  known : optionOf? options a.spelling = some a.option
  marked : a.spelling.head? = some hyphen
  arity : a.option.arity = .value
  value : a.value ≠ endOfOptions

theorem equals_mem_argument (a : Assignment) : equals ∈ a.argument := by simp [argument]

end Assignment

variable {options : List CommandOption} {abbreviate : Bool} {o : CommandOption}
  {argument spelling value letters : Text} {arguments : List Text} {use : Use} {uses : List Use}
  {a : Assignment} {assignments : List Assignment}

/-! ## Reading assignments -/

theorem optionOf?_eq_some (h : optionOf? options spelling = some o) :
    o ∈ options ∧ spelling ∈ o.spellings :=
  ⟨List.mem_of_find?_eq_some h, by simpa using List.find?_some h⟩

section

variable (hequals : ∀ o ∈ options, ∀ spelling ∈ o.spellings, equals ∉ spelling)
include hequals

theorem optionOf?_of_equals (h : equals ∈ argument) : optionOf? options argument = none := by
  cases hfind : optionOf? options argument with
  | none => rfl
  | some o =>
    obtain ⟨ho, hspelling⟩ := optionOf?_eq_some hfind
    exact absurd h (hequals o ho argument hspelling)

theorem classify_assignment (hknown : optionOf? options a.spelling = some a.option)
    (hmarked : a.spelling.head? = some hyphen) :
    classify options abbreviate a.argument = .ok a.kind := by
  obtain ⟨ho, hspelling⟩ := optionOf?_eq_some hknown
  have hcut : Text.cut (.ofChar '=') a.argument = (a.spelling, some a.value) :=
    Text.cut_append (hequals _ ho _ hspelling) a.value
  have hhead : a.argument.head? = some hyphen := by
    rw [Assignment.argument, List.head?_append, hmarked]
    rfl
  have hlength : ¬a.argument.length < 2 := by
    obtain ⟨rest, hrest⟩ := List.head?_eq_some_iff.mp hmarked
    simp only [Assignment.argument, hrest, List.length_append, List.length_cons]
    omega
  unfold classify
  rw [if_neg (by simp [hhead, hlength]), optionOf?_of_equals hequals a.equals_mem_argument]
  simp only [hcut, hknown]
  rfl

theorem classifyAll_assignments (h : ∀ a ∈ assignments, a.IsReadBy options) :
    classifyAll options abbreviate (assignments.map Assignment.argument) =
      .ok (assignments.map fun a => (a.argument, some a.kind)) := by
  induction assignments with
  | nil => rfl
  | cons a assignments ih =>
    have hne : a.argument ≠ endOfOptions := by
      intro heq
      have hmem := a.equals_mem_argument
      rw [heq] at hmem
      exact absurd hmem (by decide)
    have ha := h a (by simp)
    rw [List.map_cons, classifyAll, if_neg hne, classify_assignment hequals ha.known ha.marked,
      ih fun b hb => h b (List.mem_cons_of_mem a hb)]
    rfl

omit hequals in
theorem ofClassified_assignments (h : ∀ a ∈ assignments, a.IsReadBy options) :
    ofClassified options (assignments.map fun a => (a.argument, some a.kind)) =
      ⟨assignments.map Assignment.use, [], none⟩ := by
  induction assignments with
  | nil => rfl
  | cons a assignments ih =>
    have ha := h a (by simp)
    have huses : usesWithValue options a.option a.spelling a.value = .ok [a.use] := by
      simp only [usesWithValue, useOf, ha.arity, if_neg ha.value]
      rfl
    rw [List.map_cons, Assignment.kind, ofClassified, huses]
    dsimp only
    rw [ih fun b hb => h b (List.mem_cons_of_mem a hb)]
    rfl

/-- **Assignments are read as they are written.** -/
theorem ofArguments_assignments (h : ∀ a ∈ assignments, a.IsReadBy options) :
    ofArguments options abbreviate (assignments.map Assignment.argument) =
      ⟨assignments.map Assignment.use, [], none⟩ := by
  rw [ofArguments, classifyAll_assignments hequals h]
  exact ofClassified_assignments h

end

/-! ## Values -/

theorem useOf_given (h : useOf o value = .ok use) : use.given ≠ .value endOfOptions := by
  have hother (hne : value ≠ endOfOptions) :
      (⟨o, .value value⟩ : Use).given ≠ .value endOfOptions :=
    fun heq => hne (GivenValue.value.inj heq)
  unfold useOf at h
  split at h
  · cases h
    exact nofun
  · rename_i hne
    split at h
    · split at h <;> cases h
      exact hother hne
    · cases h
      exact hother hne

theorem clusterUses_given (h : clusterUses options o letters = .ok uses) (huse : use ∈ uses) :
    use.given = .present := by
  induction letters generalizing o uses with
  | nil =>
    cases h
    obtain rfl := List.mem_singleton.mp huse
    rfl
  | cons letter rest ih =>
    unfold clusterUses at h
    split at h
    · cases h
    · rename_i next _
      split at h
      · obtain ⟨more, hrest, ⟨⟩⟩ := map_eq_ok_iff.mp h
        rcases List.mem_cons.mp huse with rfl | huse
        · rfl
        · exact ih hrest huse
      · cases h

theorem usesWithValue_given (h : usesWithValue options o spelling value = .ok uses)
    (huse : use ∈ uses) : use.given ≠ .value endOfOptions := by
  unfold usesWithValue at h
  split at h
  · split at h
    · rw [clusterUses_given h huse]
      exact nofun
    · cases h
  · obtain ⟨one, hone, ⟨⟩⟩ := map_eq_ok_iff.mp h
    obtain rfl := List.mem_singleton.mp huse
    exact useOf_given hone

theorem ofClassified_given {classified : List (Text × Option Kind)}
    (huse : use ∈ (ofClassified options classified).uses) : use.given ≠ .value endOfOptions := by
  fun_induction ofClassified options classified with
  | case1 | case3 | case6 | case7 => cases huse
  | case2 _ o spelling value rest uses huses ih =>
    rcases List.mem_append.mp huse with huse | huse
    · exact usesWithValue_given huses huse
    · exact ih huse
  | case4 _ o _ rest _ ih =>
    rcases List.mem_append.mp huse with huse | huse
    · obtain rfl := List.mem_singleton.mp huse
      exact nofun
    · exact ih huse
  | case5 _ o _ value rest one hone _ ih =>
    rcases List.mem_append.mp huse with huse | huse
    · obtain rfl := List.mem_singleton.mp huse
      exact useOf_given hone
    · exact ih huse
  | case8 _ _ _ _ _ ih => exact ih huse

/-- **The mark that ends the options is no value.** -/
theorem given_ne_endOfOptions (huse : use ∈ (ofArguments options abbreviate arguments).uses) :
    use.given ≠ .value endOfOptions := by
  unfold ofArguments at huse
  split at huse
  · exact ofClassified_given huse
  · cases huse

theorem ne_endOfOptions_of_last?
    (h : (ofArguments options abbreviate arguments).last? o = some (.value value)) :
    value ≠ endOfOptions := by
  obtain ⟨use, hfind, hgiven⟩ := Option.map_eq_some_iff.mp h
  have huse := List.mem_reverse.mp (List.mem_of_find?_eq_some hfind)
  rintro rfl
  exact given_ne_endOfOptions huse hgiven

end CommandLine

end CollectionInterfaces
