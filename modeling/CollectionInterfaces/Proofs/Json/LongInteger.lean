import CollectionInterfaces.Proofs.Json.Reading

/-!
# Integers that are too long

An integer has at most so many digits (`LongInteger`). Where a literal or a number is read, the
reader fails for the length of an integer exactly if one that is longer stands there
(`readAtom_eq_tooManyDigits_iff`).
-/

namespace CollectionInterfaces.Json

/-- An integer ends before a text: neither a digit nor a fraction nor an exponent follows. -/
def EndsInteger (after : Text) : Prop :=
  (∀ c ∈ after.head?, c.isDigit = false) ∧ (cutFraction after).1 = none ∧
    (cutExponent after).1 = none

/-- A text starts with an integer without a sign, of a number of digits that is not accepted. -/
def LongDigits (count : Nat) (t : Text) : Prop :=
  ∃ digits after, t = digits ++ after ∧ (∀ c ∈ digits, c.isDigit = true) ∧
    digits.head? ≠ some (CodePoint.ofChar '0') ∧ digits.length = count ∧
    Text.maxIntegerDigits < count ∧ EndsInteger after

/-- A text starts with an integer of a number of digits that is not accepted. -/
def LongInteger (count : Nat) (t : Text) : Prop :=
  LongDigits count t ∨ ∃ rest, t = CodePoint.ofChar '-' :: rest ∧ LongDigits count rest

variable {count : Nat} {negative : Bool} {t start rest : Text}

theorem cutFraction_snd_of_none (h : (cutFraction t).1 = none) : (cutFraction t).2 = t := by
  unfold cutFraction at h ⊢
  split at h
  · rfl
  · split at h
    · cases h
    · rename_i hfraction
      rw [if_neg hfraction]

theorem cutWhole_of_digits {digits : Text} (hdigits : ∀ c ∈ digits, c.isDigit = true)
    (hzero : digits.head? ≠ some (CodePoint.ofChar '0')) (hne : digits ≠ [])
    (hrest : ∀ c ∈ rest.head?, c.isDigit = false) : cutWhole (digits ++ rest) = (digits, rest) := by
  obtain ⟨c, digits, rfl⟩ := List.exists_cons_of_ne_nil hne
  have hc : c ≠ CodePoint.ofChar '0' := by simpa using hzero
  have htake : rest.takeWhile CodePoint.isDigit = [] ∧ rest.dropWhile CodePoint.isDigit = rest := by
    cases rest with
    | nil => simp
    | cons d rest => simp [hrest d rfl]
  rw [List.cons_append, cutWhole, if_neg hc, ← List.cons_append,
    List.takeWhile_append_of_pos hdigits, List.dropWhile_append_of_pos hdigits, htake.1, htake.2,
    List.append_nil]

/-- Whole digits, more than one of them, are all the digits at the start of the text. -/
theorem digits_of_cutWhole {whole : Text} (h : cutWhole t = (whole, rest))
    (hlong : 1 < whole.length) :
    t = whole ++ rest ∧ (∀ c ∈ whole, c.isDigit = true) ∧
      whole.head? ≠ some (CodePoint.ofChar '0') ∧ ∀ c ∈ rest.head?, c.isDigit = false := by
  have happend := cutWhole_append t
  rw [h] at happend
  unfold cutWhole at h
  split at h
  · cases h
    simp at hlong
  · rename_i c tail
    split at h
    · cases h
      simp at hlong
    · rename_i hc
      cases h
      refine ⟨happend.symm, List.all_eq_true.mp List.all_takeWhile, ?_, ?_⟩
      · rw [List.head?_takeWhile, List.head?_cons]
        intro hhead
        exact hc (Option.some.inj (Option.mem_filter_iff.mp hhead).1)
      · intro d hd
        have hnot := List.head?_dropWhile_not CodePoint.isDigit (c :: tail)
        rw [Option.mem_def.mp hd] at hnot
        exact hnot

theorem readNumber_eq_tooManyDigits_iff :
    readNumber negative start t = .error (.tooManyDigits count) ↔ LongDigits count t := by
  constructor
  · intro h
    unfold readNumber at h
    split at h
    · cases h
    · rename_i whole rest hempty hwhole
      dsimp only at h
      split at h
      · rename_i hinteger
        split at h
        · rename_i hlong
          cases h
          simp only [Bool.and_eq_true, Option.isNone_iff_eq_none] at hinteger
          have hone : 1 < whole.length := Nat.lt_trans (by decide) hlong
          obtain ⟨happend, hdigits, hzero, hafter⟩ := digits_of_cutWhole hwhole hone
          refine ⟨whole, rest, happend, hdigits, hzero, rfl, hlong, hafter, hinteger.1, ?_⟩
          rw [← cutFraction_snd_of_none hinteger.1]
          exact hinteger.2
        · cases h
      · cases h
  · rintro ⟨digits, after, rfl, hdigits, hzero, rfl, hlong, hafter, hfraction, hexponent⟩
    have hne : digits ≠ [] := by
      rintro rfl
      simp at hlong
    unfold readNumber
    rw [cutWhole_of_digits hdigits hzero hne hafter]
    cases digits with
    | nil => exact absurd rfl hne
    | cons d digits =>
      dsimp only
      rw [cutFraction_snd_of_none hfraction, if_pos (by simp [hfraction, hexponent]), if_pos hlong]

theorem LongDigits.head_isDigit (h : LongDigits count t) :
    ∃ d rest, t = d :: rest ∧ d.isDigit = true := by
  obtain ⟨digits, after, rfl, hdigits, -, rfl, hlong, -⟩ := h
  cases digits with
  | nil => simp at hlong
  | cons d digits => exact ⟨d, digits ++ after, rfl, hdigits d (by simp)⟩

/-- No literal starts like an integer. -/
theorem readLiteral?_of_longInteger (h : LongInteger count t) : readLiteral? t = none := by
  have hliterals : ∀ entry ∈ literals, ∃ c d word, entry.1 = c :: d :: word ∧
      c.isDigit = false ∧ (c = CodePoint.ofChar '-' → d.isDigit = false) := by
    simp only [literals, List.forall_mem_cons, List.not_mem_nil, false_implies, implies_true,
      and_true]
    exact ⟨⟨_, _, _, rfl, by decide⟩, ⟨_, _, _, rfl, by decide⟩, ⟨_, _, _, rfl, by decide⟩,
      ⟨_, _, _, rfl, by decide⟩, ⟨_, _, _, rfl, by decide⟩, ⟨_, _, _, rfl, by decide⟩⟩
  cases hread : readLiteral? t with
  | none => rfl
  | some read =>
    obtain ⟨word, hword, ht⟩ := readLiteral?_eq_some hread
    obtain ⟨c, d, tail, heq, hc, hd⟩ := hliterals _ hword
    dsimp only at heq
    subst heq
    rcases h with h | ⟨rest, hrest, h⟩ <;> obtain ⟨e, more, heq, he⟩ := h.head_isDigit
    · rw [heq] at ht
      cases ht
      rw [hc] at he
      cases he
    · subst heq
      rw [hrest] at ht
      cases ht
      rw [hd rfl] at he
      cases he

theorem readAtom_eq_tooManyDigits_iff :
    readAtom t = .error (.tooManyDigits count) ↔ LongInteger count t := by
  constructor
  · intro h
    unfold readAtom at h
    split at h
    · cases h
    · split at h
      · cases h
      · split at h
        · rename_i hc
          exact .inr ⟨_, by rw [hc], readNumber_eq_tooManyDigits_iff.mp h⟩
        · exact .inl (readNumber_eq_tooManyDigits_iff.mp h)
  · intro h
    unfold readAtom
    rw [readLiteral?_of_longInteger h]
    rcases h with h | ⟨rest, rfl, h⟩
    · obtain ⟨d, rest, rfl, hd⟩ := h.head_isDigit
      have hminus : d ≠ CodePoint.ofChar '-' := by
        rintro rfl
        cases hd
      simp only [hminus, if_false]
      exact readNumber_eq_tooManyDigits_iff.mpr h
    · simp only [if_true]
      exact readNumber_eq_tooManyDigits_iff.mpr h

theorem LongInteger.head (h : LongInteger count t) :
    ∃ c rest, t = c :: rest ∧ (c.isDigit = true ∨ c = CodePoint.ofChar '-') := by
  rcases h with h | ⟨rest, rfl, -⟩
  · obtain ⟨c, rest, rfl, hc⟩ := h.head_isDigit
    exact ⟨c, rest, rfl, .inl hc⟩
  · exact ⟨_, rest, rfl, .inr rfl⟩

end CollectionInterfaces.Json
