import CollectionInterfaces.Proofs.Json.Reading

/-!
# Literals and numbers of JSON

What stands in a text for a literal or a number, and what it denotes (`Json.isAtom_of_readAtom`).
-/

namespace CollectionInterfaces.Json

def signText (negative : Bool) : Text := if negative then [.ofChar '-'] else []

/-- The digits of a number before its fraction: a zero stands alone. -/
structure IsWhole (whole : Text) : Prop where
  ne_nil : whole ≠ []
  digits : ∀ c ∈ whole, c.isDigit = true
  zero : whole.head? = some (.ofChar '0') → whole = [.ofChar '0']

/-- A text is nothing or a fraction with some digits. -/
inductive IsFraction : Text → Text → Prop
  | none : IsFraction [] []
  | some {digits : Text} (hne : digits ≠ []) (hdigits : ∀ c ∈ digits, c.isDigit = true) :
      IsFraction (.ofChar '.' :: digits) digits

/-- A text is nothing or an exponent. -/
inductive IsExponent : Text → Int → Prop
  | none : IsExponent [] 0
  | some {c : CodePoint} {sign digits : Text} (hc : c.toLower = .ofChar 'e')
      (hsign : sign = [] ∨ sign = [.ofChar '-'] ∨ sign = [.ofChar '+']) (hne : digits ≠ [])
      (hdigits : ∀ c ∈ digits, c.isDigit = true) :
      IsExponent (c :: (sign ++ digits))
        (if sign = [.ofChar '-'] then -(Text.toNat digits : Int) else Text.toNat digits)

/-- A text is a literal or a number, and denotes a document. -/
inductive IsAtom : Text → Json → Prop
  | literal {word : Text} {v : Json} (h : (word, v) ∈ literals) : IsAtom word v
  | int {negative : Bool} {whole : Text} (hwhole : IsWhole whole)
      (hlength : whole.length ≤ Text.maxIntegerDigits) :
      IsAtom (signText negative ++ whole)
        (.int (if negative then -(whole.toNat : Int) else whole.toNat))
  | float {negative : Bool} {whole f fraction e : Text} {exponent : Int}
      (hwhole : IsWhole whole) (hfraction : IsFraction f fraction)
      (hexponent : IsExponent e exponent) (hne : f ++ e ≠ []) :
      IsAtom (signText negative ++ (whole ++ (f ++ e)))
        (.float (DecimalParts.toBinary64 negative ⟨whole, fraction, exponent⟩))

variable {negative : Bool} {start t whole rest : Text} {v : Json}

theorem forall_mem_takeWhile {p : CodePoint → Bool} : ∀ c ∈ t.takeWhile p, p c = true :=
  List.all_eq_true.mp List.all_takeWhile

theorem isWhole_of_cutWhole (h : cutWhole t = (whole, rest)) (hne : whole ≠ []) :
    t = whole ++ rest ∧ IsWhole whole := by
  have happend := cutWhole_append t
  rw [h] at happend
  refine ⟨happend.symm, ?_⟩
  unfold cutWhole at h
  split at h
  · cases h
    exact absurd rfl hne
  split at h
  · rename_i hzero
    cases h
    rw [hzero]
    exact ⟨by simp, by decide, fun _ => rfl⟩
  · rename_i c rest hzero
    cases h
    refine ⟨hne, forall_mem_takeWhile, fun hhead => ?_⟩
    rw [List.head?_takeWhile, List.head?_cons] at hhead
    exact absurd (Option.some.inj (Option.mem_filter_iff.mp hhead).1) hzero

theorem isFraction_of_cutFraction {fraction : Option Text} (h : cutFraction t = (fraction, rest)) :
    ∃ f, t = f ++ rest ∧ IsFraction f (fraction.getD []) ∧ (fraction.isNone = true ↔ f = []) := by
  unfold cutFraction at h
  split at h
  · cases h
    exact ⟨[], rfl, .none, by simp⟩
  · split at h
    · rename_i hpoint
      cases h
      refine ⟨_, ?_, .some hpoint.2 forall_mem_takeWhile, by simp⟩
      rw [hpoint.1, Option.getD_some, List.cons_append, List.takeWhile_append_dropWhile]
    · cases h
      exact ⟨[], rfl, .none, by simp⟩

theorem exists_sign (t : Text) :
    ∃ sign, t = sign ++ (Text.cutSign t).2 ∧
      (sign = [] ∨ sign = [.ofChar '-'] ∨ sign = [.ofChar '+']) ∧
      ((Text.cutSign t).1 = true ↔ sign = [.ofChar '-']) := by
  unfold Text.cutSign
  split
  · exact ⟨[], rfl, .inl rfl, by simp⟩
  split
  · rename_i hminus
    exact ⟨[.ofChar '-'], by rw [hminus]; rfl, .inr (.inl rfl), by simp⟩
  split
  · rename_i hplus
    exact ⟨[.ofChar '+'], by rw [hplus]; rfl, .inr (.inr rfl), by simp⟩
  · exact ⟨[], rfl, .inl rfl, by simp⟩

theorem isExponent_of_cutExponent {exponent : Option Int} (h : cutExponent t = (exponent, rest)) :
    ∃ e, t = e ++ rest ∧ IsExponent e (exponent.getD 0) ∧ (exponent.isNone = true ↔ e = []) := by
  unfold cutExponent at h
  split at h
  · cases h
    exact ⟨[], rfl, .none, by simp⟩
  · rename_i c body
    obtain ⟨sign, hbody, hsign, hnegative⟩ := exists_sign body
    dsimp only at h
    split at h
    · rename_i hexponent
      cases h
      have hvalue := IsExponent.some hexponent.1 hsign hexponent.2 forall_mem_takeWhile
      refine ⟨_, ?_, by simpa [hnegative] using hvalue, by simp⟩
      rw [List.cons_append, List.append_assoc, List.takeWhile_append_dropWhile, ← hbody]
    · cases h
      exact ⟨[], rfl, .none, by simp⟩

theorem isAtom_of_readNumber (h : readNumber negative start t = .ok (v, rest)) :
    ∃ body, t = body ++ rest ∧ IsAtom (signText negative ++ body) v := by
  unfold readNumber at h
  split at h
  · cases h
  · rename_i whole rest₁ hempty hcut
    obtain ⟨rfl, hwhole⟩ := isWhole_of_cutWhole hcut hempty
    split at h
    rename_i fraction rest₂ hfraction
    obtain ⟨f, rfl, hf, hnoFraction⟩ := isFraction_of_cutFraction hfraction
    split at h
    rename_i exponent rest₃ hexponent
    obtain ⟨e, rfl, he, hnoExponent⟩ := isExponent_of_cutExponent hexponent
    split at h
    · rename_i hinteger
      obtain ⟨rfl, rfl⟩ : f = [] ∧ e = [] := by
        rw [← hnoFraction, ← hnoExponent]
        simpa using hinteger
      split at h
      · cases h
      · rename_i hlength
        cases h
        exact ⟨whole, rfl, .int hwhole (Nat.le_of_not_lt hlength)⟩
    · rename_i hfloat
      cases h
      refine ⟨whole ++ (f ++ e), by simp, .float hwhole hf he fun hnil => hfloat ?_⟩
      obtain ⟨hf, he⟩ := List.append_eq_nil_iff.mp hnil
      simp [hnoFraction.mpr hf, hnoExponent.mpr he]

theorem isAtom_of_readAtom (h : readAtom t = .ok (v, rest)) :
    ∃ word, t = word ++ rest ∧ IsAtom word v := by
  unfold readAtom at h
  split at h
  · rename_i read hliteral
    cases h
    obtain ⟨word, hword, rfl⟩ := readLiteral?_eq_some hliteral
    exact ⟨word, rfl, .literal hword⟩
  split at h
  · cases h
  split at h
  · rename_i hminus
    obtain ⟨body, rfl, hatom⟩ := isAtom_of_readNumber h
    exact ⟨signText true ++ body, by rw [hminus]; rfl, hatom⟩
  · obtain ⟨body, heq, hatom⟩ := isAtom_of_readNumber h
    exact ⟨body, heq, hatom⟩

end CollectionInterfaces.Json
