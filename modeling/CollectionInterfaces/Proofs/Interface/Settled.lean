import Mathlib.Data.List.Chain
import Mathlib.Dynamics.FixedPoints.Basic
import CollectionInterfaces.Proofs.Interface.Recased

/-!
# Casing a name again

A name stays as it is exactly if no separator in it stands in front of a word and no lower case
letter starts it (`Text.pascalCase_eq_self_iff`). Casing can leave separators in front of words
where several stand in a row, but a round that drops one makes the name shorter, so there is a last
round (`Text.pascalCase_settlingLaw`).
-/

namespace CollectionInterfaces

namespace CodePoint

variable {c : CodePoint}

theorem toUpper_eq_self_iff : c.toUpper = c ↔ c.isLower = false :=
  ⟨fun h => h ▸ isLower_toUpper c, toUpper_eq_of_not_isLower⟩

end CodePoint

namespace Text

variable {t : Text} {c d : CodePoint}

/-- No separator stands in front of a word. -/
def IsSettled (t : Text) : Prop :=
  t.IsChain fun c d => c.isSeparator = true → d.isWord = false

/-- No two separators stand next to each other. -/
def HasSingleSeparators (t : Text) : Prop :=
  t.IsChain fun c d => c.isSeparator = true → d.isSeparator = false

/-- The text starts with no lower case letter. -/
def IsRaised (t : Text) : Prop := ∀ c ∈ t.head?, c.isLower = false

/-! ## Dropping separators -/

theorem length_dropSeparators_le (t : Text) : (dropSeparators t).length ≤ t.length := by
  fun_induction dropSeparators t with
  | case1 | case2 => exact Nat.le_refl _
  | case3 c d rest h ih => exact Nat.le_succ_of_le (Nat.succ_le_succ ih)
  | case4 c d rest h ih => exact Nat.succ_le_succ ih

theorem IsSettled.dropSeparators_eq (h : t.IsSettled) : dropSeparators t = t := by
  fun_induction dropSeparators t with
  | case1 | case2 => rfl
  | case3 c d rest hdrop ih =>
    simp only [Bool.and_eq_true] at hdrop
    have hd := (List.isChain_cons_cons.mp h).1 hdrop.1
    rw [hdrop.2] at hd
    cases hd
  | case4 c d rest hdrop ih => rw [ih (List.isChain_cons_cons.mp h).2]

/-- The first separator in front of a word goes, whatever is before it. -/
theorem length_dropSeparators_lt (h : ¬t.IsSettled) : (dropSeparators t).length < t.length := by
  fun_induction dropSeparators t with
  | case1 => exact absurd List.isChain_nil h
  | case2 c => exact absurd (List.isChain_singleton c) h
  | case3 c d rest hdrop ih =>
    have hle := length_dropSeparators_le rest
    simp only [List.length_cons]
    omega
  | case4 c d rest hdrop ih =>
    have hkeep : c.isSeparator = true → d.isWord = false := by simpa using hdrop
    have hrest : ¬IsSettled (d :: rest) := fun hrest =>
      h (List.isChain_cons_cons.mpr ⟨hkeep, hrest⟩)
    exact Nat.succ_lt_succ (ih hrest)

theorem length_dropSeparators_eq_iff : (dropSeparators t).length = t.length ↔ t.IsSettled :=
  ⟨fun h => by_contra fun hnot => (length_dropSeparators_lt hnot).ne h,
    fun h => by rw [h.dropSeparators_eq]⟩

theorem HasSingleSeparators.isSettled_dropSeparators (h : t.HasSingleSeparators) :
    (dropSeparators t).IsSettled := by
  fun_induction dropSeparators t with
  | case1 => exact List.isChain_nil
  | case2 c => exact List.isChain_singleton c
  | case3 c d rest hdrop ih =>
    simp only [Bool.and_eq_true] at hdrop
    obtain ⟨hcd, hrest⟩ := List.isChain_cons_cons.mp h
    refine List.isChain_cons.mpr ⟨fun e _ hsep => ?_, ih hrest.tail⟩
    rw [CodePoint.isSeparator_toUpper, hcd hdrop.1] at hsep
    cases hsep
  | case4 c d rest hdrop ih =>
    obtain ⟨hcd, hrest⟩ := List.isChain_cons_cons.mp h
    refine List.isChain_cons.mpr ⟨fun e he hsep => ?_, ih hrest⟩
    -- `d` is no separator either, so it is what comes after `c`
    rw [dropSeparators_cons_of_not_isSeparator (hcd hsep)] at he
    obtain rfl : d = e := Option.some.inj he
    simpa [hsep] using hdrop

/-! ## Raising the first letter -/

theorem length_capitalize (t : Text) : (capitalize t).length = t.length := by
  cases t <;> rfl

theorem capitalize_eq_self_iff : capitalize t = t ↔ t.IsRaised := by
  cases t with
  | nil => simp [capitalize, IsRaised]
  | cons c rest => simp [capitalize, IsRaised, CodePoint.toUpper_eq_self_iff]

theorem isRaised_capitalize (t : Text) : (capitalize t).IsRaised := by
  cases t with
  | nil => simp [capitalize, IsRaised]
  | cons c rest => simp [capitalize, IsRaised, CodePoint.isLower_toUpper]

theorem IsSettled.capitalize (h : t.IsSettled) : (capitalize t).IsSettled := by
  cases t with
  | nil => exact h
  | cons c rest =>
    obtain ⟨hc, hrest⟩ := List.isChain_cons.mp h
    refine List.isChain_cons.mpr ⟨fun d hd hsep => hc d hd ?_, hrest⟩
    rwa [CodePoint.isSeparator_toUpper] at hsep

/-! ## Rounds -/

theorem length_pascalCase (t : Text) : t.pascalCase.length = (dropSeparators t).length :=
  length_capitalize _

theorem length_pascalCase_eq_iff : t.pascalCase.length = t.length ↔ t.IsSettled := by
  rw [length_pascalCase, length_dropSeparators_eq_iff]

theorem pascalCase_eq_self_iff : t.pascalCase = t ↔ t.IsSettled ∧ t.IsRaised := by
  constructor
  · intro h
    have hsettled : t.IsSettled := length_pascalCase_eq_iff.mp (by rw [h])
    rw [pascalCase, hsettled.dropSeparators_eq] at h
    exact ⟨hsettled, capitalize_eq_self_iff.mp h⟩
  · rintro ⟨hsettled, hraised⟩
    rw [pascalCase, hsettled.dropSeparators_eq, capitalize_eq_self_iff.mpr hraised]

theorem pascalCase_pascalCase_of_isSettled (h : (dropSeparators t).IsSettled) :
    t.pascalCase.pascalCase = t.pascalCase :=
  pascalCase_eq_self_iff.mpr ⟨h.capitalize, isRaised_capitalize _⟩

theorem length_pascalCase_lt (h : t.pascalCase.length ≠ t.length) :
    t.pascalCase.length < t.length := by
  rw [length_pascalCase]
  exact length_dropSeparators_lt fun hsettled => h (length_pascalCase_eq_iff.mpr hsettled)

theorem pascalCase_pascalCase_of_length_eq (h : t.pascalCase.length = t.length) :
    t.pascalCase.pascalCase = t.pascalCase := by
  have hsettled := length_pascalCase_eq_iff.mp h
  apply pascalCase_pascalCase_of_isSettled
  rwa [hsettled.dropSeparators_eq]

/-- There are no more rounds than code points: a round that drops nothing is the last one. -/
theorem exists_isFixedPt_pascalCase (t : Text) :
    ∃ n ≤ t.length, Function.IsFixedPt pascalCase (pascalCase^[n] t) := by
  induction hlength : t.length using Nat.strong_induction_on generalizing t with
  | h length ih =>
    subst hlength
    by_cases hsame : t.pascalCase.length = t.length
    · by_cases hempty : t = []
      · exact ⟨0, Nat.zero_le _, by rw [hempty]; rfl⟩
      · exact ⟨1, List.length_pos_iff.mpr hempty, pascalCase_pascalCase_of_length_eq hsame⟩
    · have hlt := length_pascalCase_lt hsame
      obtain ⟨n, hn, hfixed⟩ := ih _ hlt t.pascalCase rfl
      exact ⟨n + 1, Nat.lt_of_le_of_lt hn hlt, hfixed⟩

/-- What becomes of a name that is cased again and again. -/
structure SettlingLaw (name : Text) : Prop where
  eq_self_iff : name.pascalCase = name ↔ name.IsSettled ∧ name.IsRaised
  /-- Casing drops something exactly if the name is not settled. -/
  length_eq_iff : name.pascalCase.length = name.length ↔ name.IsSettled
  again_of_length_eq : name.pascalCase.length = name.length →
    name.pascalCase.pascalCase = name.pascalCase
  length_lt : name.pascalCase.length ≠ name.length → name.pascalCase.length < name.length
  ends : ∃ n ≤ name.length, Function.IsFixedPt pascalCase (pascalCase^[n] name)
  again_of_single : name.HasSingleSeparators → name.pascalCase.pascalCase = name.pascalCase

/-- **Casing settles.** -/
theorem pascalCase_settlingLaw (name : Text) : SettlingLaw name where
  eq_self_iff := pascalCase_eq_self_iff
  length_eq_iff := length_pascalCase_eq_iff
  again_of_length_eq := pascalCase_pascalCase_of_length_eq
  length_lt := length_pascalCase_lt
  ends := exists_isFixedPt_pascalCase name
  again_of_single h := pascalCase_pascalCase_of_isSettled h.isSettled_dropSeparators

/-- A `_` that is kept as a word is a separator in the next round. -/
example : pascalCase "a__b" = ("A_b" : Text) ∧ pascalCase "A_b" = ("AB" : Text) := by decide

end Text

end CollectionInterfaces
