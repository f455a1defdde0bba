import CollectionInterfaces.Interface.Casing

/-!
# What casing does to a name

Casing drops separators and turns lower case letters into upper case ones. All other code points of
a name stay (`Text.mem_pascalCase_of_mem`), and nothing but upper case letters is new
(`Text.mem_of_mem_pascalCase`).
-/

namespace CollectionInterfaces

namespace CodePoint

variable {c d : CodePoint}

theorem toUpper_eq_of_not_isLower (h : c.isLower = false) : c.toUpper = c := by
  simp [CodePoint.toUpper, h]

/-- Upper case letters are made from lower case ones only. -/
theorem toUpper_isUpper (h : c.isLower = true) : c.toUpper.isUpper = true := by
  have hlt := c.isLt
  simp only [CodePoint.isLower, Bool.and_eq_true, decide_eq_true_eq] at h
  have hval : c.val - 32 < 0x110000 := by omega
  simp only [CodePoint.toUpper, CodePoint.isLower, h, decide_true, Bool.and_self, if_true,
    CodePoint.ofNat, hval, dite_true, CodePoint.isUpper, Bool.and_eq_true, decide_eq_true_eq]
  omega

/-- A code point that is no upper case letter comes from itself only. -/
theorem eq_of_toUpper_eq (hd : d.isUpper = false) (h : c.toUpper = d) : c = d := by
  cases hc : c.isLower with
  | false => rwa [toUpper_eq_of_not_isLower hc] at h
  | true => rw [← h, toUpper_isUpper hc] at hd; cases hd

end CodePoint

namespace Text

variable {t : Text} {d : CodePoint}

theorem dropSeparators_cons_of_not_isSeparator (h : d.isSeparator = false) (t : Text) :
    dropSeparators (d :: t) = d :: dropSeparators t := by
  cases t with
  | nil => rfl
  | cons e t => simp [dropSeparators, h]

/-- A separator in front of a word goes, and the word is capitalised. -/
theorem dropSeparators_cons_cons {c : CodePoint} (hsep : c.isSeparator = true)
    (hword : d.isWord = true) (t : Text) :
    dropSeparators (c :: d :: t) = d.toUpper :: dropSeparators t := by
  simp [dropSeparators, hsep, hword]

theorem mem_of_mem_dropSeparators (hd : d.isUpper = false)
    (h : d ∈ dropSeparators t) : d ∈ t := by
  fun_induction dropSeparators t with
  | case1 => exact h
  | case2 c => exact h
  | case3 c e rest hsep ih =>
    rcases List.mem_cons.mp h with h | h
    · have := CodePoint.eq_of_toUpper_eq hd h.symm
      simp [this]
    · have := ih h
      simp [this]
  | case4 c e rest hsep ih =>
    rcases List.mem_cons.mp h with h | h
    · simp [h]
    · exact List.mem_cons_of_mem c (ih h)

/-- Casing adds nothing but upper case letters to a name. -/
theorem mem_of_mem_pascalCase (hd : d.isUpper = false) (h : d ∈ t.pascalCase) :
    d ∈ t := by
  refine mem_of_mem_dropSeparators hd ?_
  unfold pascalCase at h
  cases hdropped : dropSeparators t with
  | nil => simp [hdropped, capitalize] at h
  | cons c rest =>
    rw [hdropped, capitalize] at h
    rcases List.mem_cons.mp h with h | h
    · simp [CodePoint.eq_of_toUpper_eq hd h.symm]
    · exact List.mem_cons_of_mem c h

theorem mem_dropSeparators_of_mem (hlower : d.isLower = false) (hsep : d.isSeparator = false)
    (h : d ∈ t) : d ∈ dropSeparators t := by
  fun_induction dropSeparators t with
  | case1 => exact h
  | case2 c => exact h
  | case3 c e rest hc ih =>
    rcases List.mem_cons.mp h with rfl | h
    · simp [hsep] at hc
    · rcases List.mem_cons.mp h with rfl | h
      · simp [CodePoint.toUpper_eq_of_not_isLower hlower]
      · exact List.mem_cons_of_mem _ (ih h)
  | case4 c e rest hc ih =>
    rcases List.mem_cons.mp h with rfl | h
    · simp
    · exact List.mem_cons_of_mem c (ih h)

/-- Casing drops nothing but separators and lower case letters. -/
theorem mem_pascalCase_of_mem (hlower : d.isLower = false) (hsep : d.isSeparator = false)
    (h : d ∈ t) : d ∈ t.pascalCase := by
  have hdropped := mem_dropSeparators_of_mem hlower hsep h
  unfold pascalCase
  cases hcases : dropSeparators t with
  | nil => simp [hcases] at hdropped
  | cons c rest =>
    rw [hcases] at hdropped
    rcases List.mem_cons.mp hdropped with rfl | hdropped
    · simp [capitalize, CodePoint.toUpper_eq_of_not_isLower hlower]
    · exact List.mem_cons_of_mem _ hdropped

theorem dropSeparators_eq_nil_iff : dropSeparators t = [] ↔ t = [] := by
  unfold dropSeparators
  split
  · simp
  · simp
  · split <;> simp

/-- Casing leaves something of every name. -/
theorem pascalCase_eq_nil_iff : t.pascalCase = [] ↔ t = [] := by
  have hcapitalize (s : Text) : capitalize s = [] ↔ s = [] := by cases s <;> simp [capitalize]
  rw [pascalCase, hcapitalize, dropSeparators_eq_nil_iff]

end Text

end CollectionInterfaces
