import CollectionInterfaces.Proofs.Interface.Casing

/-!
# What casing leaves of a name

Casing a name drops separators in front of words and raises first letters, and leaves the rest as it
is (`Text.recased_pascalCase`). Nothing else gets lost, so names that are cased alike are the same
but for separators and upper and lower case (`Text.pascalCase_casingLaw`).
-/

namespace CollectionInterfaces

namespace CodePoint

variable {c d : CodePoint}

/-- A letter of ASCII. -/
def isLetter (c : CodePoint) : Bool := c.isLower || c.isUpper

theorem isLower_eq_false_of_isUpper (h : c.isUpper = true) : c.isLower = false := by
  simp only [isUpper, Bool.and_eq_true, decide_eq_true_eq] at h
  simp only [isLower, Bool.and_eq_false_iff, decide_eq_false_iff_not]
  omega

theorem isLower_toUpper (c : CodePoint) : c.toUpper.isLower = false := by
  cases hc : c.isLower with
  | false => rwa [toUpper_eq_of_not_isLower hc]
  | true => exact isLower_eq_false_of_isUpper (toUpper_isUpper hc)

theorem toUpper_toUpper (c : CodePoint) : c.toUpper.toUpper = c.toUpper :=
  toUpper_eq_of_not_isLower c.isLower_toUpper

theorem toUpper_of_not_isLetter (h : c.isLetter = false) : c.toUpper = c := by
  simp only [isLetter, Bool.or_eq_false_iff] at h
  exact toUpper_eq_of_not_isLower h.1

/-- No letter and no digit separates words. -/
theorem isSeparator_eq_false (h : (c.isLetter || c.isDigit) = true) : c.isSeparator = false := by
  cases hsep : c.isSeparator with
  | false => rfl
  | true =>
    simp only [isSeparator, Bool.or_eq_true, decide_eq_true_eq] at hsep
    rcases hsep with rfl | rfl <;> exact absurd h (by decide)

theorem isSeparator_of_isLetter (h : c.isLetter = true) : c.isSeparator = false :=
  isSeparator_eq_false (by rw [h, Bool.true_or])

theorem isSeparator_toUpper (c : CodePoint) : c.toUpper.isSeparator = c.isSeparator := by
  cases hc : c.isLower with
  | false => rw [toUpper_eq_of_not_isLower hc]
  | true =>
    have hletter : c.isLetter = true := by rw [isLetter, hc, Bool.true_or]
    have hupper : c.toUpper.isLetter = true := by rw [isLetter, toUpper_isUpper hc, Bool.or_true]
    rw [isSeparator_of_isLetter hletter, isSeparator_of_isLetter hupper]

end CodePoint

namespace Text

/-! ## Dropping and raising -/

/-- A text is made from another one by dropping separators in front of words, and by raising
letters. A letter can be raised where the text is `fresh`: while nothing was kept yet, and directly
after a separator that was dropped. -/
inductive Recased : (fresh : Bool) → Text → Text → Prop
  | nil {fresh : Bool} : Recased fresh [] []
  /-- A code point stays as it is. -/
  | keep {fresh : Bool} {c : CodePoint} {s t : Text} : Recased false s t →
      Recased fresh (c :: s) (c :: t)
  /-- A separator goes if a letter, a digit or `_` follows. -/
  | drop {fresh : Bool} {c d : CodePoint} {s t : Text} : c.isSeparator = true → d.isWord = true →
      Recased true (d :: s) t → Recased fresh (c :: d :: s) t
  /-- A letter becomes upper case. -/
  | raise {c : CodePoint} {s t : Text} : c.isLetter = true → Recased false s t →
      Recased true (c :: s) (c.toUpper :: t)

variable {s t : Text} {c d : CodePoint} {fresh : Bool}

theorem Recased.raise_or_keep (h : Recased false s t) : Recased true (c :: s) (c.toUpper :: t) := by
  cases hc : c.isLetter with
  | false =>
    rw [CodePoint.toUpper_of_not_isLetter hc]
    exact .keep h
  | true => exact .raise hc h

theorem recased_dropSeparators (fresh : Bool) (t : Text) : Recased fresh t (dropSeparators t) := by
  fun_induction dropSeparators t generalizing fresh with
  | case1 => exact .nil
  | case2 c => exact .keep .nil
  | case3 c d rest h ih =>
    simp only [Bool.and_eq_true] at h
    exact .drop h.1 h.2 (ih false).raise_or_keep
  | case4 c d rest h ih => exact .keep (ih false)

/-- The first code point that is kept can be raised, whatever was dropped before it. -/
theorem Recased.capitalize (h : Recased true s t) : Recased true s (capitalize t) := by
  generalize hfresh : true = fresh at h
  induction h with
  | nil => exact .nil
  | keep h =>
    subst hfresh
    exact h.raise_or_keep
  | drop hc hd _ ih => exact .drop hc hd (ih rfl)
  | raise hc h =>
    rw [Text.capitalize, CodePoint.toUpper_toUpper]
    exact .raise hc h

/-- Casing drops separators and raises letters. -/
theorem recased_pascalCase (t : Text) : Recased true t t.pascalCase :=
  (recased_dropSeparators true t).capitalize

/-! ## What stays -/

/-- The text without separators, and with its letters in upper case. -/
def bare (t : Text) : Text := (t.filter fun c => !c.isSeparator).map CodePoint.toUpper

theorem bare_cons (c : CodePoint) (t : Text) :
    bare (c :: t) = if c.isSeparator then bare t else c.toUpper :: bare t := by
  cases hc : c.isSeparator <;> simp [bare, hc]

theorem Recased.bare_eq (h : Recased fresh s t) : bare t = bare s := by
  induction h with
  | nil => rfl
  | keep _ ih => rw [bare_cons, bare_cons, ih]
  | @drop _ c d s _ hc _ _ ih => rw [ih, bare_cons c, if_pos hc]
  | raise _ _ ih =>
    rw [bare_cons, bare_cons, CodePoint.isSeparator_toUpper, CodePoint.toUpper_toUpper, ih]

/-- A separator goes only if something else stays. -/
theorem Recased.ne_nil (h : Recased fresh s t) (hs : s ≠ []) : t ≠ [] := by
  induction h with
  | nil => exact hs
  | keep | raise => exact List.cons_ne_nil _ _
  | drop _ _ _ ih => exact ih (List.cons_ne_nil _ _)

/-- What holds of a name and of what casing makes of it. -/
structure CasingLaw (name cased : Text) : Prop where
  recased : Recased true name cased
  bare_eq : cased.bare = name.bare
  ne_nil : name ≠ [] → cased ≠ []
  /-- Names that are cased alike are the same without separators and in upper case. -/
  apart : ∀ other : Text, other.pascalCase = cased → other.bare = name.bare

/-- **Casing loses nothing but separators and case.** -/
theorem pascalCase_casingLaw (name : Text) : CasingLaw name name.pascalCase where
  recased := recased_pascalCase name
  bare_eq := (recased_pascalCase name).bare_eq
  ne_nil := (recased_pascalCase name).ne_nil
  apart other h := by
    rw [← (recased_pascalCase other).bare_eq, h, (recased_pascalCase name).bare_eq]

/-- Separators in a row do not all go: `_` counts as the start of a word. -/
example : pascalCase "a_-b__c-" = ("A_B_c-" : Text) := by decide

end Text

end CollectionInterfaces
