import CollectionInterfaces.Proofs.Json.Atoms
import CollectionInterfaces.Proofs.Yaml.Flow.Plain
import CollectionInterfaces.Yaml.Scalar

/-!
# Literals and numbers in both notations

YAML tells the kind of a plain scalar by its look. A number of JSON that does not look like a text
is the same number in YAML; a literal or a number with an exponent may look like a text
(`Yaml.scalarOf?_atom`).
-/

namespace CollectionInterfaces

theorem CodePoint.lowercase_of_lt {c : CodePoint} (h : c.val < 0x80) : c.lowercase = [c.toLower] :=
  if_pos h

theorem Text.lowercaseAfter_ascii {t : Text} (h : ∀ c ∈ t, c.val < 0x80) (afterLetter : Bool) :
    t.lowercaseAfter afterLetter = t.lower := by
  induction t generalizing afterLetter with
  | nil => rfl
  | cons c t ih =>
    rw [List.forall_mem_cons] at h
    have hc : c ≠ .capitalSigma := by
      rintro rfl
      exact absurd h.1 (by decide)
    rw [lowercaseAfter, if_neg (by simp [hc]), CodePoint.lowercase_of_lt h.1, ih h.2]
    rfl

theorem Text.lowercase_ascii {t : Text} (h : ∀ c ∈ t, c.val < 0x80) : t.lowercase = t.lower :=
  lowercaseAfter_ascii h false

/-! ## Floating point numbers -/

namespace Binary64

theorem ofRatio_not (negative : Bool) (num den : Nat) :
    ofRatio (!negative) num den = (ofRatio negative num den).neg := by
  unfold ofRatio
  split
  · rfl
  · dsimp only
    split <;> split <;> rfl

theorem ofDecimal_not (negative : Bool) (digits : Nat) (exponent : Int) :
    ofDecimal (!negative) digits exponent = (ofDecimal negative digits exponent).neg := by
  unfold ofDecimal
  split
  · rfl
  split
  · rfl
  split
  · rfl
  · exact ofRatio_not ..

end Binary64

theorem DecimalParts.toBinary64_eq (negative : Bool) (p : DecimalParts) :
    p.toBinary64 negative = if negative then (p.toBinary64 false).neg else p.toBinary64 false := by
  cases negative with
  | false => rfl
  | true => exact Binary64.ofDecimal_not false ..

namespace Yaml

open Json (IsWhole IsFraction IsExponent IsAtom signText)

variable {negative : Bool} {c d : CodePoint} {p : CodePoint → Bool} {t w whole f fraction e : Text}
  {exponent : Int}

/-! ## Pieces of numbers -/

theorem takeWhile_append_stop (hw : ∀ c ∈ w, p c = true) (hstop : ∀ c ∈ t.head?, p c = false) :
    (w ++ t).takeWhile p = w := by
  have ht : t.takeWhile p = [] := by
    cases t with
    | nil => rfl
    | cons c t => exact List.takeWhile_cons_of_neg (by simp [hstop c rfl])
  rw [List.takeWhile_append_of_pos hw, ht, List.append_nil]

theorem dropWhile_append_stop (hw : ∀ c ∈ w, p c = true) (hstop : ∀ c ∈ t.head?, p c = false) :
    (w ++ t).dropWhile p = t := by
  rw [List.dropWhile_append_of_pos hw]
  cases t with
  | nil => rfl
  | cons c t => exact List.dropWhile_cons_of_neg (by simp [hstop c rfl])

theorem isAtomPart_of_isDigit (h : c.isDigit = true) : isAtomPart c = true := by
  simp [isAtomPart, h]

/-- What a code point of a literal or a number is not. -/
theorem not_of_isAtomPart (h : isAtomPart c = true) : c.val < 0x80 ∧ c ≠ .ofChar '_' ∧
    c ≠ .ofChar ':' ∧ c.isAsciiBlank = false ∧ c ≠ .lineFeed := by
  have hlt := val_lt_of_isAtomPart h
  refine ⟨hlt, of_ascii (P := fun c => isAtomPart c = true → c ≠ .ofChar '_' ∧ c ≠ .ofChar ':' ∧
    c.isAsciiBlank = false ∧ c ≠ .lineFeed) ?_ hlt h⟩
  decide

theorem without_eq (h : ∀ c ∈ t, isAtomPart c = true) : t.without (.ofChar '_') = t := by
  rw [Text.without, List.filter_eq_self]
  exact fun c hc => by simp [(not_of_isAtomPart (h c hc)).2.1]

theorem trim_eq (h : ∀ c ∈ t, isAtomPart c = true) : t.trim = t := by
  have hdrop (t : Text) (h : ∀ c ∈ t, isAtomPart c = true) :
      t.dropWhile CodePoint.isAsciiBlank = t :=
    dropWhile_append_stop (w := []) nofun fun c hc =>
      (not_of_isAtomPart (h c (List.mem_of_mem_head? hc))).2.2.2.1
  rw [Text.trim, hdrop t h, hdrop _ (by simpa using h), List.reverse_reverse]

theorem asciiNumeral_eq (h : ∀ c ∈ t, isAtomPart c = true) : t.asciiNumeral = t :=
  if_pos (List.all_eq_true.mpr fun c hc => by simpa using (not_of_isAtomPart (h c hc)).1)

/-! ## Integers -/

theorem digitValue?_of_isDigit (h : c.isDigit = true) :
    c.digitValue? = some (c.val - 48) ∧ c.val - 48 < 10 := by
  refine ⟨if_pos h, ?_⟩
  simp only [CodePoint.isDigit, Bool.and_eq_true, decide_eq_true_eq] at h
  omega

theorem readDigits_eq (h : ∀ c ∈ t, c.isDigit = true) (acc : Nat) :
    Text.readDigits 10 acc t =
      some (t.foldl (fun n c => n * 10 + (c.digitValue?.getD 0)) acc) := by
  induction t generalizing acc with
  | nil => rfl
  | cons c t ih =>
    rw [List.forall_mem_cons] at h
    obtain ⟨hvalue, hlt⟩ := digitValue?_of_isDigit h.1
    rw [Text.readDigits, hvalue]
    dsimp only
    rw [if_pos hlt, ih h.2, List.foldl_cons, hvalue]
    rfl

theorem cutSign_of_digit (h : ∀ c ∈ t.head?, c.isDigit = true) : Text.cutSign t = (false, t) := by
  cases t with
  | nil => rfl
  | cons c t =>
    have hc : c ≠ .ofChar '-' ∧ c ≠ .ofChar '+' := by
      have hdigit := h c rfl
      constructor
      all_goals
        rintro rfl
        cases hdigit
    rw [Text.cutSign, if_neg hc.1, if_neg hc.2]

theorem integerIn_digits (hdigits : ∀ c ∈ t, c.isDigit = true) (hne : t ≠ [])
    (hlength : t.length ≤ Text.maxIntegerDigits) : integerIn 10 t = .ok t.toNat := by
  have hparts : ∀ c ∈ t, isAtomPart c = true := fun c hc => isAtomPart_of_isDigit (hdigits c hc)
  have hleading : Text.leadingDigits 10 t = t := by
    have hall : ∀ c ∈ t, c.digitValue?.any (· < 10) = true := fun c hc => by
      simp [digitValue?_of_isDigit (hdigits c hc)]
    have htake := takeWhile_append_stop (t := []) hall nofun
    rwa [List.append_nil] at htake
  have hmark : Text.dropBaseMark 10 t = t := by
    unfold Text.dropBaseMark
    split
    · exact if_neg (by simp)
    · rfl
  have hread : Text.readInteger 10 t = .ok t.toNat := by
    rw [Text.readInteger, asciiNumeral_eq hparts, trim_eq hparts,
      cutSign_of_digit fun c hc => hdigits c (List.mem_of_mem_head? hc)]
    dsimp only
    rw [hmark, hleading, if_neg (fun h => Nat.not_lt_of_le hlength h.2),
      if_neg (by simpa using hne), readDigits_eq hdigits]
    rfl
  rw [integerIn, hread]
  rfl

theorem after?_zero_of_isWhole (hwhole : IsWhole whole) (d : Char) :
    Text.after? [.ofChar '0', .ofChar d] whole = none := by
  cases hafter : Text.after? [.ofChar '0', .ofChar d] whole with
  | none => rfl
  | some rest =>
    obtain rfl := Text.after?_eq_some_iff.mp hafter
    cases hwhole.zero rfl

theorem unsignedInteger_whole (hwhole : IsWhole whole)
    (hlength : whole.length ≤ Text.maxIntegerDigits) :
    unsignedInteger whole = .ok whole.toNat := by
  obtain ⟨c, rest, rfl⟩ := List.exists_cons_of_ne_nil hwhole.ne_nil
  have hcolon : (c :: rest).contains (.ofChar ':') = false := by
    rw [List.contains_eq_mem, decide_eq_false_iff_not]
    intro hmem
    exact absurd (hwhole.digits _ hmem) (by decide)
  unfold unsignedInteger
  rw [show Text.after? "0b" (c :: rest) = none from after?_zero_of_isWhole hwhole 'b',
    show Text.after? "0x" (c :: rest) = none from after?_zero_of_isWhole hwhole 'x']
  dsimp only
  split
  · rename_i hzero
    obtain rfl := (List.cons.inj (hwhole.zero (by rw [hzero]; rfl))).2
    rw [hzero]
    rfl
  · rw [hcolon]
    exact integerIn_digits hwhole.digits hwhole.ne_nil hlength

theorem cutSign_signText (h : ∀ c ∈ t.head?, c.isDigit = true) :
    Text.cutSign (signText negative ++ t) = (negative, t) := by
  cases negative with
  | false => exact cutSign_of_digit h
  | true => rfl

theorem isAtomPart_signText : ∀ c ∈ signText negative, isAtomPart c = true := by
  cases negative <;> decide

theorem integerOf_whole (hwhole : IsWhole whole) (hlength : whole.length ≤ Text.maxIntegerDigits) :
    integerOf (signText negative ++ whole) =
      .ok (if negative then -(whole.toNat : Int) else whole.toNat) := by
  have hparts : ∀ c ∈ signText negative ++ whole, isAtomPart c = true :=
    List.forall_mem_append.mpr ⟨isAtomPart_signText, fun c hc =>
      isAtomPart_of_isDigit (hwhole.digits c hc)⟩
  unfold integerOf
  rw [without_eq hparts]
  split
  · rename_i hnil
    exact absurd (List.append_eq_nil_iff.mp hnil).2 hwhole.ne_nil
  · rw [cutSign_signText fun c hc => hwhole.digits c (List.mem_of_mem_head? hc)]
    dsimp only
    rw [unsignedInteger_whole hwhole hlength]
    rfl

/-! ## Decimals -/

theorem eq_of_toLower (h : c.toLower = .ofChar 'e') : c = .ofChar 'e' ∨ c = .ofChar 'E' := by
  unfold CodePoint.toLower at h
  split at h
  · rename_i hupper
    simp only [CodePoint.isUpper, Bool.and_eq_true, decide_eq_true_eq] at hupper
    have hval := congrArg CodePoint.val h
    rw [CodePoint.ofNat, dif_pos (by omega)] at hval
    have he : (CodePoint.ofChar 'e').val = 101 := rfl
    have hE : (CodePoint.ofChar 'E').val = 69 := rfl
    exact .inr (CodePoint.ext_val (by simp only at hval; omega))
  · exact .inl h

theorem lower_append (t w : Text) : (t ++ w : Text).lower = t.lower ++ w.lower := List.map_append

theorem lower_eq (h : ∀ c ∈ t, c.isUpper = false) : t.lower = t := by
  have hmap : t.map CodePoint.toLower = t.map id :=
    List.map_congr_left fun c hc => if_neg (by simp [h c hc])
  rw [Text.lower, hmap, List.map_id]

theorem isUpper_of_isDigit (h : c.isDigit = true) : c.isUpper = false := by
  simp only [CodePoint.isDigit, CodePoint.isUpper, Bool.and_eq_true, decide_eq_true_eq,
    Bool.and_eq_false_iff, decide_eq_false_iff_not] at h ⊢
  omega

theorem isUpper_of_sign {sign : Text}
    (h : sign = [] ∨ sign = [.ofChar '-'] ∨ sign = [.ofChar '+']) :
    ∀ c ∈ sign, c.isUpper = false := by
  rcases h with rfl | rfl | rfl <;> decide

theorem lower_fraction (h : IsFraction f fraction) : f.lower = f := by
  cases h with
  | none => rfl
  | some _ hdigits =>
    exact lower_eq (List.forall_mem_cons.mpr ⟨by decide, fun c hc =>
      isUpper_of_isDigit (hdigits c hc)⟩)

theorem lower_exponent (h : IsExponent e exponent) : IsExponent e.lower exponent := by
  cases h with
  | none => exact .none
  | @some c sign digits hc hsign hne hdigits =>
    have hrest : (sign ++ digits : Text).lower = sign ++ digits :=
      lower_eq (List.forall_mem_append.mpr ⟨isUpper_of_sign hsign, fun c hc =>
        isUpper_of_isDigit (hdigits c hc)⟩)
    have hlower : Text.lower (c :: (sign ++ digits)) = c.toLower :: (sign ++ digits) :=
      congrArg (c.toLower :: ·) hrest
    rw [hlower]
    exact .some (by rw [hc]; rfl) hsign hne hdigits

theorem readExponent_eq (h : IsExponent e exponent) : Text.readExponent e = some exponent := by
  cases h with
  | none => rfl
  | @some c sign digits hc hsign hne hdigits =>
    have hsign : Text.cutSign (sign ++ digits) = (decide (sign = [.ofChar '-']), digits) := by
      rcases hsign with rfl | rfl | rfl
      · exact cutSign_of_digit fun c hc => hdigits c (List.mem_of_mem_head? hc)
      · rfl
      · rfl
    have hall : digits.all CodePoint.isDigit = true := List.all_eq_true.mpr hdigits
    rw [Text.readExponent, if_pos hc, hsign]
    simp [hne, hall]

theorem head_exponent (he : IsExponent e exponent) :
    ∀ c ∈ e.head?, c = .ofChar 'e' ∨ c = .ofChar 'E' := by
  intro c hc
  cases he with
  | none => cases hc
  | some hlower => exact Option.some.inj hc ▸ eq_of_toLower hlower

/-- What follows the digits before the point starts with no digit. -/
theorem head_tail (hf : IsFraction f fraction) (he : IsExponent e exponent) :
    ∀ c ∈ (f ++ e).head?, c = .ofChar '.' ∨ c = .ofChar 'e' ∨ c = .ofChar 'E' := by
  intro c hc
  cases hf with
  | some => exact .inl (Option.some.inj hc).symm
  | none => exact .inr (head_exponent he c hc)

theorem readDecimal_eq (hwhole : IsWhole whole) (hf : IsFraction f fraction)
    (he : IsExponent e exponent) :
    Text.readDecimal (whole ++ (f ++ e)) = some ⟨whole, fraction, exponent⟩ := by
  have hstop : ∀ c ∈ (f ++ e).head?, c.isDigit = false := by
    intro c hc
    rcases head_tail hf he c hc with rfl | rfl | rfl <;> rfl
  rw [Text.readDecimal, takeWhile_append_stop hwhole.digits hstop,
    dropWhile_append_stop hwhole.digits hstop]
  have hread := readExponent_eq he
  cases hf with
  | some hnil hdigits =>
    have hstop : ∀ c ∈ e.head?, c.isDigit = false := by
      intro c hc
      rcases head_exponent he c hc with rfl | rfl <;> rfl
    simp [takeWhile_append_stop hdigits hstop, dropWhile_append_stop hdigits hstop, hread,
      hwhole.ne_nil]
  | none =>
    cases e with
    | nil => simp [hread, hwhole.ne_nil]
    | cons c e =>
      have hc : c ≠ .ofChar '.' := by
        rcases head_exponent he c rfl with rfl | rfl <;> decide
      simp [hc, hread, hwhole.ne_nil]

theorem isAtomPart_tail (hf : IsFraction f fraction) (he : IsExponent e exponent) :
    ∀ c ∈ f ++ e, isAtomPart c = true := by
  refine List.forall_mem_append.mpr ⟨?_, ?_⟩
  · cases hf with
    | none => nofun
    | some _ hdigits =>
      exact List.forall_mem_cons.mpr ⟨rfl, fun c hc => isAtomPart_of_isDigit (hdigits c hc)⟩
  · cases he with
    | none => nofun
    | some hlower hsign _ hdigits =>
      refine List.forall_mem_cons.mpr ⟨?_, List.forall_mem_append.mpr
        ⟨?_, fun c hc => isAtomPart_of_isDigit (hdigits c hc)⟩⟩
      · rcases eq_of_toLower hlower with rfl | rfl <;> rfl
      · rcases hsign with rfl | rfl | rfl <;> decide

theorem isAtomPart_decimal (hwhole : IsWhole whole) (hf : IsFraction f fraction)
    (he : IsExponent e exponent) : ∀ c ∈ whole ++ (f ++ e), isAtomPart c = true :=
  List.forall_mem_append.mpr ⟨fun c hc => isAtomPart_of_isDigit (hwhole.digits c hc),
    isAtomPart_tail hf he⟩

theorem isDigit_head (hwhole : IsWhole whole) : ∀ c ∈ (whole ++ t).head?, c.isDigit = true := by
  obtain ⟨c, rest, rfl⟩ := List.exists_cons_of_ne_nil hwhole.ne_nil
  exact fun d hd => Option.some.inj hd ▸ hwhole.digits c List.mem_cons_self

theorem ne_of_head (hwhole : IsWhole whole) (hw : ∀ c ∈ w.head?, c.isDigit = false) (hne : w ≠ []) :
    whole ++ t ≠ w := by
  rintro rfl
  obtain ⟨c, rest, hcons⟩ := List.exists_cons_of_ne_nil hne
  have hc : c ∈ (whole ++ t).head? := by rw [hcons]; rfl
  have hnot := hw c hc
  rw [isDigit_head hwhole c hc] at hnot
  cases hnot

theorem not_contains_colon (h : ∀ c ∈ t, isAtomPart c = true) :
    t.contains (.ofChar ':') = false := by
  rw [List.contains_eq_mem, decide_eq_false_iff_not]
  exact fun hmem => absurd (h _ hmem) (by decide)

theorem readBinary64_eq (hwhole : IsWhole whole) (hf : IsFraction f fraction)
    (he : IsExponent e exponent) : Text.readBinary64 (whole ++ (f ++ e)) =
      some (DecimalParts.toBinary64 false ⟨whole, fraction, exponent⟩) := by
  have hparts := isAtomPart_decimal hwhole hf he
  have hsign : Text.cutSign (whole ++ (f ++ e)) = (false, whole ++ (f ++ e)) :=
    cutSign_of_digit (isDigit_head hwhole)
  have hlower : (whole ++ (f ++ e) : Text).lower = whole ++ Text.lower (f ++ e) := by
    rw [lower_append, lower_eq fun c hc => isUpper_of_isDigit (hwhole.digits c hc)]
  have hword (w : Text) (hw : ∀ c ∈ w.head?, c.isDigit = false) (hne : w ≠ []) :
      (whole ++ (f ++ e) : Text).lower ≠ w := hlower ▸ ne_of_head hwhole hw hne
  unfold Text.readBinary64
  rw [asciiNumeral_eq hparts, trim_eq hparts, hsign]
  dsimp only
  rw [if_neg (by simpa using ⟨hword "inf" (by decide) (by decide),
      hword "infinity" (by decide) (by decide)⟩),
    if_neg (hword "nan" (by decide) (by decide)), readDecimal_eq hwhole hf he]
  rfl

theorem floatOf_decimal (hwhole : IsWhole whole) (hf : IsFraction f fraction)
    (he : IsExponent e exponent) : floatOf (signText negative ++ (whole ++ (f ++ e))) =
      .ok (DecimalParts.toBinary64 negative ⟨whole, fraction, exponent⟩) := by
  have hparts : ∀ c ∈ signText negative ++ (whole ++ (f ++ e)), isAtomPart c = true :=
    List.forall_mem_append.mpr ⟨isAtomPart_signText, isAtomPart_decimal hwhole hf he⟩
  have he' := lower_exponent he
  have hlower : (signText negative ++ (whole ++ (f ++ e)) : Text).lowercase =
      signText negative ++ (whole ++ (f ++ Text.lower e)) := by
    have hsign : (signText negative).lower = signText negative := by cases negative <;> rfl
    rw [Text.lowercase_ascii fun c hc => (not_of_isAtomPart (hparts c hc)).1, lower_append,
      lower_append, lower_append, hsign, lower_fraction hf,
      lower_eq fun c hc => isUpper_of_isDigit (hwhole.digits c hc)]
  have hunsigned : unsignedFloat (whole ++ (f ++ Text.lower e)) =
      .ok (DecimalParts.toBinary64 false ⟨whole, fraction, exponent⟩) := by
    unfold unsignedFloat
    rw [if_neg (ne_of_head hwhole (by decide) (by decide)),
      if_neg (ne_of_head hwhole (by decide) (by decide)),
      not_contains_colon (isAtomPart_decimal hwhole hf he'), floatIn,
      readBinary64_eq hwhole hf he']
    rfl
  unfold floatOf floatParts
  rw [without_eq hparts, if_neg (by simp [hwhole.ne_nil]), hlower,
    cutSign_signText (isDigit_head hwhole)]
  dsimp only
  rw [hunsigned, DecimalParts.toBinary64_eq negative]
  rfl

/-! ## The look of numbers -/

/-- The words that have a tag of their own. -/
def taggedWords : List Text := truthWords ++ nullWords ++ [("<<" : Text), "=", "!", "&", "*"]

theorem head_number (hwhole : IsWhole whole) : ∃ c rest,
    signText negative ++ (whole ++ t) = c :: rest ∧ (c.isDigit = true ∨ c = .ofChar '-') := by
  cases negative with
  | true => exact ⟨_, _, rfl, .inr rfl⟩
  | false =>
    obtain ⟨c, rest, rfl⟩ := List.exists_cons_of_ne_nil hwhole.ne_nil
    exact ⟨c, rest ++ t, rfl, .inl (hwhole.digits c List.mem_cons_self)⟩

/-- A text that starts like a number is no word. -/
theorem ne_of_head_number (hwhole : IsWhole whole)
    (hw : ∀ c ∈ w.head?, c.isDigit = false ∧ c ≠ .ofChar '-') :
    signText negative ++ (whole ++ t) ≠ w := by
  obtain ⟨c, rest, hcons, hc⟩ := @head_number negative t whole hwhole
  rw [hcons]
  rintro rfl
  obtain ⟨hdigit, hsign⟩ := hw c rfl
  rcases hc with hc | hc
  · rw [hc] at hdigit
    cases hdigit
  · exact hsign hc

theorem not_mem_taggedWords (hwhole : IsWhole whole) :
    signText negative ++ (whole ++ t) ∉ taggedWords := by
  have hwords : ∀ w ∈ taggedWords, ∀ c ∈ w.head?, c.isDigit = false ∧ c ≠ .ofChar '-' := by decide
  exact fun hmem => ne_of_head_number hwhole (hwords _ hmem) rfl

theorem tagByLook_number (hwhole : IsWhole whole) (ht : ∀ c ∈ t, isAtomPart c = true) :
    tagByLook (signText negative ++ (whole ++ t)) =
      if looksLikeFloat (signText negative ++ (whole ++ t)) then .float
      else if looksLikeInt (signText negative ++ (whole ++ t)) then .int
      else if looksLikeTimestamp (signText negative ++ (whole ++ t)) then .timestamp
      else .text := by
  have hnot := @not_mem_taggedWords negative t whole hwhole
  have hparts : ∀ c ∈ signText negative ++ (whole ++ t), isAtomPart c = true :=
    List.forall_mem_append.mpr ⟨isAtomPart_signText, List.forall_mem_append.mpr
      ⟨fun c hc => isAtomPart_of_isDigit (hwhole.digits c hc), ht⟩⟩
  generalize signText negative ++ (whole ++ t) = word at hnot hparts
  have hline : dropLastLineFeed word = word := by
    refine if_neg fun h => ?_
    have hmem := List.mem_of_getLast? h.2
    exact (not_of_isAtomPart (hparts _ hmem)).2.2.2.2 rfl
  simp only [taggedWords, List.mem_append, not_or, List.mem_cons] at hnot
  simp [tagByLook, hline, hnot]

theorem dropSign_signText (hwhole : IsWhole whole) :
    dropSign (signText negative ++ (whole ++ t)) = whole ++ t := by
  cases negative with
  | true => rfl
  | false =>
    obtain ⟨c, rest, rfl⟩ := List.exists_cons_of_ne_nil hwhole.ne_nil
    have hdigit := hwhole.digits c List.mem_cons_self
    refine if_neg ?_
    rintro (rfl | rfl) <;> cases hdigit

theorem isDigitOrLow_of_isDigit (h : c.isDigit = true) : isDigitOrLow c = true := by
  simp [isDigitOrLow, h]

theorem cutNumber_whole (hwhole : IsWhole whole) (ht : ∀ c ∈ t.head?, isDigitOrLow c = false) :
    cutNumber (whole ++ t) = some (whole, t) := by
  have htake := takeWhile_append_stop (fun c hc => isDigitOrLow_of_isDigit (hwhole.digits c hc)) ht
  have hdrop := dropWhile_append_stop (fun c hc => isDigitOrLow_of_isDigit (hwhole.digits c hc)) ht
  obtain ⟨c, rest, rfl⟩ := List.exists_cons_of_ne_nil hwhole.ne_nil
  unfold cutNumber
  rw [List.cons_append] at htake hdrop ⊢
  dsimp only
  rw [if_pos (hwhole.digits c List.mem_cons_self), htake, hdrop]

theorem looksLikeFloat_whole (hwhole : IsWhole whole) :
    looksLikeFloat (signText negative ++ (whole ++ [])) = false := by
  have hinf : [(".inf" : Text), ".Inf", ".INF"].contains (whole ++ []) = false := by
    have hwords : ∀ w ∈ [(".inf" : Text), ".Inf", ".INF"],
        (∀ c ∈ w.head?, c.isDigit = false) ∧ w ≠ [] := by decide
    rw [List.contains_eq_mem, decide_eq_false_iff_not]
    exact fun hmem => ne_of_head hwhole (hwords _ hmem).1 (hwords _ hmem).2 rfl
  have hnan : [(".nan" : Text), ".NaN", ".NAN"].contains
      (signText negative ++ (whole ++ [])) = false := by
    have hwords : ∀ w ∈ [(".nan" : Text), ".NaN", ".NAN"],
        ∀ c ∈ w.head?, c.isDigit = false ∧ c ≠ .ofChar '-' := by decide
    rw [List.contains_eq_mem, decide_eq_false_iff_not]
    exact fun hmem => ne_of_head_number hwhole (hwords _ hmem) rfl
  unfold looksLikeFloat
  rw [dropSign_signText hwhole]
  dsimp only
  rw [hinf, hnan, cutNumber_whole hwhole (by simp)]
  rfl

theorem looksLikeInt_whole (hwhole : IsWhole whole) :
    looksLikeInt (signText negative ++ (whole ++ [])) = true := by
  by_cases hzero : whole.head? = some (.ofChar '0')
  · obtain rfl := hwhole.zero hzero
    cases negative <;> decide
  · have hrest : (whole ++ []).dropWhile isDigitOrLow = [] :=
      dropWhile_append_stop (fun c hc => isDigitOrLow_of_isDigit (hwhole.digits c hc)) nofun
    have hhead : (whole ++ []).head?.any (fun c : CodePoint =>
        c.isDigit && c != CodePoint.ofChar '0') = true := by
      obtain ⟨c, rest, rfl⟩ := List.exists_cons_of_ne_nil hwhole.ne_nil
      have hc : c ≠ .ofChar '0' := by simpa using hzero
      simp [hwhole.digits c List.mem_cons_self, hc]
    unfold looksLikeInt
    rw [dropSign_signText hwhole]
    dsimp only
    rw [hrest, hhead]
    simp

theorem tagByLook_int (hwhole : IsWhole whole) :
    tagByLook (signText negative ++ whole) = .int := by
  have htag := @tagByLook_number negative [] whole hwhole nofun
  rw [looksLikeFloat_whole hwhole, looksLikeInt_whole hwhole, List.append_nil] at htag
  exact htag

/-! ## The look of decimals -/

theorem areSixtieths_of_head (h : ∀ c ∈ t.head?, c ≠ .ofChar ':') (hne : t ≠ []) :
    areSixtieths t = false := by
  obtain ⟨c, rest, rfl⟩ := List.exists_cons_of_ne_nil hne
  have hc := h c rfl
  unfold areSixtieths Text.splitAll
  cases Text.splitAll ':' rest with
  | nil => rfl
  | cons piece pieces =>
    dsimp only
    rw [if_neg hc]

/-- A zero before the point stands alone. -/
theorem eq_of_zero (hwhole : IsWhole whole) {rest : Text}
    (h : whole ++ t = .ofChar '0' :: rest) : t = rest := by
  obtain ⟨c, digits, rfl⟩ := List.exists_cons_of_ne_nil hwhole.ne_nil
  obtain ⟨rfl, hrest⟩ := List.cons.inj h
  obtain rfl := (List.cons.inj (hwhole.zero rfl)).2
  exact hrest

theorem looksLikeInt_decimal (hwhole : IsWhole whole) (hne : t ≠ [])
    (ht : ∀ c ∈ t.head?, c = .ofChar '.' ∨ c = .ofChar 'e' ∨ c = .ofChar 'E') :
    looksLikeInt (signText negative ++ (whole ++ t)) = false := by
  have hbase (d : Char) (hd : d = 'b' ∨ d = 'x') :
      Text.after? [.ofChar '0', .ofChar d] (whole ++ t) = none := by
    cases hafter : Text.after? [.ofChar '0', .ofChar d] (whole ++ t) with
    | none => rfl
    | some rest =>
      rw [eq_of_zero hwhole (Text.after?_eq_some_iff.mp hafter)] at ht
      rcases hd with rfl | rfl
      · exact absurd (ht _ rfl) (by decide)
      · exact absurd (ht _ rfl) (by decide)
  have hoctal : (Text.after? "0" (whole ++ t)).any (fun digits => !digits.isEmpty &&
      digits.all fun c => (48 ≤ c.val && c.val < 56) || c = CodePoint.ofChar '_') = false := by
    cases hafter : Text.after? "0" (whole ++ t) with
    | none => rfl
    | some rest =>
      obtain rfl : t = rest := eq_of_zero hwhole (Text.after?_eq_some_iff.mp hafter)
      obtain ⟨c, rest, rfl⟩ := List.exists_cons_of_ne_nil hne
      rcases ht c rfl with rfl | rfl | rfl <;> rfl
  have hzero : whole ++ t ≠ ("0" : Text) := fun h => hne (eq_of_zero hwhole h)
  have hdrop : (whole ++ t).dropWhile isDigitOrLow = t := by
    refine dropWhile_append_stop (fun c hc => isDigitOrLow_of_isDigit (hwhole.digits c hc)) ?_
    intro c hc
    rcases ht c hc with rfl | rfl | rfl <;> rfl
  have hsixty : areSixtieths t = false := by
    refine areSixtieths_of_head (fun c hc => ?_) hne
    rcases ht c hc with rfl | rfl | rfl <;> decide
  unfold looksLikeInt
  rw [dropSign_signText hwhole]
  dsimp only
  rw [hdrop, hsixty, hoctal]
  rw [show Text.after? "0b" (whole ++ t) = none from hbase 'b' (.inl rfl),
    show Text.after? "0x" (whole ++ t) = none from hbase 'x' (.inr rfl)]
  simp [hne, hzero]

theorem cutDigits_eq_some {least most : Nat} {digits rest : Text}
    (h : cutDigits least most t = some (digits, rest)) :
    t = digits ++ rest ∧ (∀ c ∈ digits, c.isDigit = true) ∧ least ≤ digits.length := by
  unfold cutDigits at h
  dsimp only at h
  split at h
  · rename_i hleast
    cases h
    refine ⟨?_, List.all_eq_true.mp List.all_takeWhile, hleast⟩
    have hstarts := (List.takeWhile_prefix CodePoint.isDigit (l := t.take most)).trans
      (List.take_prefix most t)
    exact (List.prefix_iff_eq_append.mp hstarts).symm
  · cases h

theorem cutOne_eq_some {rest : Text} (h : cutOne c t = some rest) : t = c :: rest := by
  unfold cutOne at h
  split at h
  · cases h
  split at h
  · rename_i hc
    cases h
    rw [hc]
  · cases h

/-- A timestamp starts with the digits of a year and a hyphen. -/
theorem exists_year {stamp : TimestampText} (h : readTimestamp t = some stamp) :
    ∃ year rest, t = year ++ .ofChar '-' :: rest ∧ (∀ c ∈ year, c.isDigit = true) ∧ year ≠ [] := by
  unfold readTimestamp at h
  cases hyear : cutDigits 4 4 t with
  | none =>
    rw [hyear] at h
    cases h
  | some cut =>
    obtain ⟨year, rest⟩ := cut
    obtain ⟨rfl, hdigits, hlength⟩ := cutDigits_eq_some hyear
    rw [hyear] at h
    cases hhyphen : cutOne (.ofChar '-') rest with
    | none =>
      simp only [hhyphen, Option.bind_eq_bind, Option.bind_some, Option.bind_none] at h
      cases h
    | some after =>
      rw [cutOne_eq_some hhyphen]
      refine ⟨year, after, rfl, hdigits, ?_⟩
      rintro rfl
      cases hlength

theorem looksLikeTimestamp_decimal (hwhole : IsWhole whole)
    (ht : ∀ c ∈ t.head?, c = .ofChar '.' ∨ c = .ofChar 'e' ∨ c = .ofChar 'E') :
    looksLikeTimestamp (signText negative ++ (whole ++ t)) = false := by
  have hread : readTimestamp (signText negative ++ (whole ++ t)) = none := by
    cases hread : readTimestamp (signText negative ++ (whole ++ t)) with
    | none => rfl
    | some stamp =>
      obtain ⟨year, rest, hword, hyear, hne⟩ := exists_year hread
      cases negative with
      | true =>
        obtain ⟨c, year, rfl⟩ := List.exists_cons_of_ne_nil hne
        cases (List.cons.inj hword).1
        cases hyear _ List.mem_cons_self
      | false =>
        have hword : whole ++ t = year ++ .ofChar '-' :: rest := hword
        have hdigits := congrArg (List.dropWhile CodePoint.isDigit) hword
        rw [dropWhile_append_stop hwhole.digits, dropWhile_append_stop hyear] at hdigits
        · subst hdigits
          exact absurd (ht _ rfl) (by decide)
        · exact fun c hc => Option.some.inj hc ▸ rfl
        · intro c hc
          rcases ht c hc with rfl | rfl | rfl <;> rfl
  rw [looksLikeTimestamp, hread]

/-! ## Values -/

theorem isAtomPart_atom {v : Json} (h : IsAtom w v) : ∀ c ∈ w, isAtomPart c = true := by
  cases h with
  | literal h =>
    have hliterals : ∀ word ∈ Json.literals.map (·.1), ∀ c ∈ word, isAtomPart c = true := by decide
    exact hliterals w (List.mem_map_of_mem h)
  | int hwhole =>
    exact List.forall_mem_append.mpr ⟨isAtomPart_signText, fun c hc =>
      isAtomPart_of_isDigit (hwhole.digits c hc)⟩
  | float hwhole hf he =>
    exact List.forall_mem_append.mpr ⟨isAtomPart_signText, isAtomPart_decimal hwhole hf he⟩

/-- A literal or a number that does not look like a text has the same value in both notations. -/
theorem scalarOf?_atom {v : Json} (h : IsAtom w v) (hlook : tagByLook w ≠ .text) :
    ∃ x, v.toValue = .scalar x ∧ ∀ mark, scalarOf? (tagByLook w) mark w = some (.ok x) := by
  cases h with
  | literal h =>
    simp only [Json.literals, List.mem_cons, Prod.mk.injEq, List.not_mem_nil, or_false] at h
    rcases h with ⟨rfl, rfl⟩ | ⟨rfl, rfl⟩ | ⟨rfl, rfl⟩ | ⟨rfl, rfl⟩ | ⟨rfl, rfl⟩ | ⟨rfl, rfl⟩
    iterate 3 exact ⟨_, rfl, fun mark => rfl⟩
    all_goals exact absurd (by decide) hlook
  | int hwhole hlength =>
    refine ⟨_, rfl, fun mark => ?_⟩
    rw [tagByLook_int hwhole, scalarOf?, integerOf_whole hwhole hlength]
    rfl
  | @float negative whole f fraction e exponent hwhole hf he hne =>
    have htail := head_tail hf he
    refine ⟨_, rfl, fun mark => ?_⟩
    rw [tagByLook_number hwhole (isAtomPart_tail hf he), looksLikeInt_decimal hwhole hne htail,
      looksLikeTimestamp_decimal hwhole htail] at hlook ⊢
    split at hlook
    · rename_i hfloat
      rw [if_pos hfloat, scalarOf?, floatOf_decimal hwhole hf he]
      rfl
    · exact absurd rfl hlook

end Yaml

end CollectionInterfaces
