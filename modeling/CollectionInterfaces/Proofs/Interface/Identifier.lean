import Mathlib.Data.List.Infix
import CollectionInterfaces.Proofs.Interface.Recased

/-!
# Names that become identifiers

A hyphen stays in a cased name exactly if no word follows it (`Text.hyphen_mem_pascalCase_iff`). A
name of letters, digits, `_` and hyphens therefore becomes an identifier exactly if no two hyphens
are next to each other and none ends it (`Text.pascalCase_identifierLaw`).
-/

namespace CollectionInterfaces

namespace CodePoint

variable {c : CodePoint}

def hyphen : CodePoint := '-'

theorem isWord_of_isUpper (h : c.isUpper = true) : c.isWord = true := by simp [isWord, h]

theorem ne_hyphen_of_isWord (h : c.isWord = true) : c ≠ hyphen := by
  rintro rfl
  cases h

theorem isUpper_toUpper_of_isLetter (h : c.isLetter = true) : c.toUpper.isUpper = true := by
  cases hc : c.isLower with
  | true => exact toUpper_isUpper hc
  | false =>
    rw [toUpper_eq_of_not_isLower hc]
    simpa [isLetter, hc] using h

theorem toUpper_eq_hyphen_iff : c.toUpper = hyphen ↔ c = hyphen :=
  ⟨eq_of_toUpper_eq rfl, by rintro rfl; rfl⟩

end CodePoint

namespace Text

open CodePoint

variable {t : Text} {c d e : CodePoint}

/-! ## Hyphens that stay -/

/-- A hyphen of the text has no word behind it. -/
def HasLooseHyphen (t : Text) : Prop :=
  [hyphen] <:+ t ∨ ∃ d : CodePoint, d.isWord = false ∧ [hyphen, d] <:+: t

theorem singleton_suffix_cons_cons : [e] <:+ c :: d :: t ↔ [e] <:+ d :: t := by
  rw [List.suffix_cons_iff]
  simp

theorem pair_infix_cons_cons {a b : CodePoint} :
    [a, b] <:+: c :: d :: t ↔ (a = c ∧ b = d) ∨ [a, b] <:+: d :: t := by
  rw [List.infix_cons_iff]
  simp

theorem not_hasLooseHyphen_nil : ¬HasLooseHyphen [] := by
  simp [HasLooseHyphen]

theorem hasLooseHyphen_singleton : HasLooseHyphen [c] ↔ c = hyphen := by
  have hpair (d : CodePoint) : ¬[hyphen, d] <:+: [c] := fun h => absurd h.length_le (by simp)
  simp only [HasLooseHyphen, hpair, and_false, exists_false, or_false, List.suffix_cons_iff,
    List.suffix_nil, List.cons_ne_nil, List.cons.injEq, and_true]
  exact eq_comm

theorem hasLooseHyphen_cons_cons :
    HasLooseHyphen (c :: d :: t) ↔ (c = hyphen ∧ d.isWord = false) ∨ HasLooseHyphen (d :: t) := by
  simp only [HasLooseHyphen, singleton_suffix_cons_cons, pair_infix_cons_cons]
  constructor
  · rintro (h | ⟨e, he, ⟨rfl, rfl⟩ | h⟩)
    · exact .inr (.inl h)
    · exact .inl ⟨rfl, he⟩
    · exact .inr (.inr ⟨e, he, h⟩)
  · rintro (⟨rfl, hd⟩ | h | ⟨e, he, h⟩)
    · exact .inr ⟨d, hd, .inl ⟨rfl, rfl⟩⟩
    · exact .inl h
    · exact .inr ⟨e, he, .inr h⟩

theorem hasLooseHyphen_cons (h : d ≠ hyphen) : HasLooseHyphen (d :: t) ↔ HasLooseHyphen t := by
  cases t with
  | nil => simp [hasLooseHyphen_singleton, not_hasLooseHyphen_nil, h]
  | cons e t => simp [hasLooseHyphen_cons_cons, h]

theorem hyphen_mem_dropSeparators_iff : hyphen ∈ dropSeparators t ↔ HasLooseHyphen t := by
  fun_induction dropSeparators t with
  | case1 => simp [not_hasLooseHyphen_nil]
  | case2 c => simp [hasLooseHyphen_singleton, eq_comm]
  | case3 c d rest h ih =>
    simp only [Bool.and_eq_true] at h
    have hd : hyphen ≠ d.toUpper := fun heq =>
      ne_hyphen_of_isWord h.2 (toUpper_eq_hyphen_iff.mp heq.symm)
    rw [hasLooseHyphen_cons_cons, hasLooseHyphen_cons (ne_hyphen_of_isWord h.2), ← ih]
    simp [hd, h.2]
  | case4 c d rest h ih =>
    rw [hasLooseHyphen_cons_cons, ← ih, List.mem_cons]
    refine or_congr ⟨?_, fun heq => heq.1.symm⟩ Iff.rfl
    rintro rfl
    exact ⟨rfl, by simpa [show hyphen.isSeparator = true from rfl] using h⟩

/-- A hyphen stays exactly if no word follows it. -/
theorem hyphen_mem_pascalCase_iff : hyphen ∈ t.pascalCase ↔ HasLooseHyphen t := by
  rw [← hyphen_mem_dropSeparators_iff, pascalCase]
  cases dropSeparators t with
  | nil => rfl
  | cons c rest => simp [capitalize, @eq_comm _ hyphen, toUpper_eq_hyphen_iff]

/-! ## Identifiers -/

/-- Letters, digits, `_` and hyphens, with a letter in front. -/
structure IsHyphenated (t : Text) : Prop where
  starts : ∃ c rest, t = c :: rest ∧ c.isLetter = true
  forall_mem : ∀ c ∈ t, c.isWord = true ∨ c = hyphen

/-- Letters, digits and `_`, with an upper case letter in front. -/
structure IsIdentifier (t : Text) : Prop where
  starts : ∃ c rest, t = c :: rest ∧ c.isUpper = true
  forall_mem : ∀ c ∈ t, c.isWord = true

theorem IsHyphenated.hasLooseHyphen_iff (h : t.IsHyphenated) :
    HasLooseHyphen t ↔ [hyphen, hyphen] <:+: t ∨ [hyphen] <:+ t := by
  rw [HasLooseHyphen, or_comm]
  refine or_congr ⟨?_, fun hpair => ⟨hyphen, rfl, hpair⟩⟩ Iff.rfl
  rintro ⟨d, hd, hpair⟩
  rcases h.forall_mem d (hpair.subset (by simp)) with hword | rfl
  · rw [hd] at hword
    cases hword
  · exact hpair

theorem IsHyphenated.starts_pascalCase (h : t.IsHyphenated) :
    ∃ c rest, t.pascalCase = c :: rest ∧ c.isUpper = true := by
  obtain ⟨c, rest, rfl, hc⟩ := h.starts
  refine ⟨c.toUpper, dropSeparators rest, ?_, isUpper_toUpper_of_isLetter hc⟩
  rw [pascalCase, dropSeparators_cons_of_not_isSeparator (isSeparator_of_isLetter hc), capitalize]

theorem IsHyphenated.forall_isWord_iff (h : t.IsHyphenated) :
    (∀ c ∈ t.pascalCase, c.isWord = true) ↔ hyphen ∉ t.pascalCase := by
  refine ⟨fun hword hmem => ne_hyphen_of_isWord (hword _ hmem) rfl, fun hhyphen c hc => ?_⟩
  cases hupper : c.isUpper with
  | true => exact isWord_of_isUpper hupper
  | false =>
    rcases h.forall_mem c (mem_of_mem_pascalCase hupper hc) with hword | rfl
    · exact hword
    · exact absurd hc hhyphen

/-- What holds of a name of letters, digits, `_` and hyphens once it is cased. -/
structure IdentifierLaw (name : Text) : Prop where
  starts : ∃ c rest, name.pascalCase = c :: rest ∧ c.isUpper = true
  isIdentifier_iff : name.pascalCase.IsIdentifier ↔
    ¬[hyphen, hyphen] <:+: name ∧ ¬[hyphen] <:+ name

/-- **A name becomes an identifier exactly if a word follows each of its hyphens.** -/
theorem pascalCase_identifierLaw (h : t.IsHyphenated) : IdentifierLaw t where
  starts := h.starts_pascalCase
  isIdentifier_iff := by
    rw [← not_or, ← h.hasLooseHyphen_iff, ← hyphen_mem_pascalCase_iff, ← h.forall_isWord_iff]
    exact ⟨IsIdentifier.forall_mem, fun hword => ⟨h.starts_pascalCase, hword⟩⟩

/-- Hyphens next to a `_` go, on either side of it. -/
theorem pascalCase_identifierLaw_mixed :
    IsHyphenated "a-_b_-c2" ∧ IsIdentifier (pascalCase "a-_b_-c2") := by
  have h : IsHyphenated "a-_b_-c2" := ⟨⟨'a', "-_b_-c2", rfl, rfl⟩, by decide⟩
  exact ⟨h, (pascalCase_identifierLaw h).isIdentifier_iff.mpr (by decide)⟩

end Text

end CollectionInterfaces
