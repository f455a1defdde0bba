import CollectionInterfaces.Proofs.Yaml.Cursor
import CollectionInterfaces.Proofs.Yaml.Outcome
import CollectionInterfaces.Yaml.Lexeme.Block
import CollectionInterfaces.Yaml.Lexeme.Tag

/-!
# Readers of lexemes

A reader of a lexeme leaves a suffix of its text, and what it refuses is a fault of the text. There
are two exceptions: escapes in quotes, and a number of a version that is too long
(`readDirective_eq_error_iff`).
-/

namespace CollectionInterfaces.Yaml

open Cursor

/-- A reader in a text leaves a suffix of it or finds a fault. -/
def ReadsIn (t : Text) (r : Except Error (α × Cursor)) : Prop :=
  Ends (fun e => e.isFault = true) r fun x => x.2.rest <:+ t

variable {t : Text} {c after : Cursor} {start : Mark} {fuel : Text} {context uriContext : Context}
  {e : Error}

theorem Ends.require {m : Malformation} {condition : Bool} :
    Ends (fun e => e.isFault = true) (Yaml.require condition (.malformed m))
      fun _ => condition = true := by
  unfold Yaml.require
  split
  · assumption
  · rfl

/-! ## Names -/

theorem readName_ends {mayFollow : CodePoint → Bool} :
    Ends (fun e => e.isFault = true) (readName context start mayFollow c) fun x =>
      x.1 ++ x.2.rest = c.rest :=
  Ends.bind .require fun _ _ => span_append

theorem skipLineEnd_ends (h : c.rest <:+ t) :
    Ends (fun e => e.isFault = true) (skipLineEnd context start c) fun after => after.rest <:+ t :=
  Ends.bind .require fun _ _ =>
    lineBreak_suffix.trans (skipComment_suffix.trans (skipWhile_suffix.trans h))

theorem readAnchor_ends (h : c.rest <:+ t) : ReadsIn t (readAnchor context c) :=
  readName_ends.mono fun x hx => by
    have hname : x.2.rest <:+ c.next.rest := ⟨x.1, hx⟩
    exact hname.trans (next_suffix.trans h)

/-! ## Scalars in block notation -/

theorem readIndentation_ends (h : c.rest <:+ t) : ReadsIn t (readIndentation start c) := by
  unfold readIndentation
  split
  · exact Ends.bind .require fun _ _ => next_suffix.trans h
  · exact h

theorem readBlockHead_ends (h : c.rest <:+ t) : ReadsIn t (readBlockHead start c) := by
  have hnext : c.next.rest <:+ t := next_suffix.trans h
  unfold readBlockHead
  dsimp only
  split
  · refine Ends.bind (readIndentation_ends hnext) fun x hx => ?_
    exact Ends.bind (.pure hx) fun y hy => Ends.bind .require fun _ _ => hy
  · refine Ends.bind (readIndentation_ends h) fun x hx => ?_
    split
    · exact Ends.bind (.pure (next_suffix.trans hx)) fun _ hy => Ends.bind .require fun _ _ => hy
    · exact Ends.bind (.pure hx) fun _ hy => Ends.bind .require fun _ _ => hy

theorem readBlock_ends (h : c.rest <:+ t) : ReadsIn t (readBlock folded indent c) := by
  refine Ends.bind (readBlockHead_ends (next_suffix.trans h)) fun _ hhead => ?_
  refine Ends.bind (skipLineEnd_ends hhead) fun _ hfirst => ?_
  dsimp only
  split
  · exact .pure (readBlockLines_suffix.trans (readLeadingLines_suffix.trans hfirst))
  · exact .pure (readBlockLines_suffix.trans (readAllBlankLines_suffix.trans hfirst))

/-! ## Tags -/

theorem readUriBytes_ends (h : c.rest <:+ t) : ReadsIn t (readUriBytes context start fuel c) := by
  induction fuel generalizing c with
  | nil => exact h
  | cons _ fuel ih =>
    unfold readUriBytes
    split
    · exact h
    dsimp only
    split
    · rfl
    · exact Ends.bind (ih (skip_suffix.trans (next_suffix.trans h))) fun _ hx => hx

theorem readUriPieces_ends (h : c.rest <:+ t) :
    ReadsIn t (readUriPieces context start fuel c) := by
  induction fuel generalizing c with
  | nil => exact h
  | cons _ fuel ih =>
    have hpiece : (c.span isUriPart).2.rest <:+ t := span_suffix.trans h
    unfold readUriPieces
    dsimp only
    split
    · exact .pure hpiece
    refine Ends.bind (readUriBytes_ends hpiece) fun _ hx => ?_
    split
    · rfl
    · exact Ends.bind (ih hx) fun _ hy => hy

theorem readUri_ends (h : c.rest <:+ t) : ReadsIn t (readUri context uriContext start c) :=
  Ends.bind (readUriPieces_ends h) fun _ hx => Ends.bind .require fun _ _ => hx

theorem readHandle_ends (h : c.rest <:+ t) : ReadsIn t (readHandle context start c) := by
  have hnext : c.next.rest <:+ t := next_suffix.trans h
  refine Ends.bind .require fun _ _ => ?_
  dsimp only
  split
  · exact .pure hnext
  · exact Ends.bind .require fun _ _ => next_suffix.trans (span_suffix.trans hnext)

theorem readTagParts_ends (h : c.rest <:+ t) : ReadsIn t (readTagParts c) := by
  have hnext : c.next.rest <:+ t := next_suffix.trans h
  unfold readTagParts
  dsimp only
  split
  · refine Ends.bind (readUri_ends (skip_suffix.trans h)) fun _ hx => ?_
    exact Ends.bind .require fun _ _ => next_suffix.trans hx
  split
  · exact .pure hnext
  split
  · refine Ends.bind (readHandle_ends h) fun _ hx => ?_
    exact Ends.bind (readUri_ends hx) fun _ hy => hy
  · exact Ends.bind (readUri_ends hnext) fun _ hx => hx

theorem readTag_ends (h : c.rest <:+ t) : ReadsIn t (readTag c) :=
  Ends.bind (readTagParts_ends h) fun _ hx => Ends.bind .require fun _ _ => hx

/-! ## Directives -/

theorem require_eq_error_iff {condition : Bool} {problem : Error} :
    require condition problem = .error e ↔ condition = false ∧ problem = e := by
  cases condition <;> simp [require]

theorem require_eq_ok_iff {condition : Bool} {problem : Error} {u : Unit} :
    require condition problem = .ok u ↔ condition = true := by
  cases condition <;> simp [require]

/-- A number of a version has too many digits. -/
def IsLongNumber (c : Cursor) (e : Error) : Prop :=
  Text.maxIntegerDigits < (c.span CodePoint.isDigit).1.length ∧
    e = .conversion (.longInteger (c.span CodePoint.isDigit).1.length)

/-- The first or the second number of a version is too long; what is in front of it was read. -/
def IsLongVersion (start : Mark) (c : Cursor) (e : Error) : Prop :=
  IsLongNumber (c.skipWhile isSpace) e ∨
    ∃ major point, readVersionNumber start (c.skipWhile isSpace) = .ok (major, point) ∧
      point.peek = .ofChar '.' ∧ IsLongNumber point.next e

theorem readVersionNumber_ends (h : c.rest <:+ t) :
    Ends (fun _ => True) (readVersionNumber start c) fun x => x.2.rest <:+ t :=
  Ends.bind (Ends.require.forget) fun _ _ =>
    Ends.bind (Ends.trivial _) fun _ _ => span_suffix.trans h

theorem readVersionNumber_eq_error_iff (he : e.isFault = false) :
    readVersionNumber start c = .error e ↔ IsLongNumber c e := by
  unfold readVersionNumber IsLongNumber
  simp only [bind_eq_error_iff, require_eq_error_iff, require_eq_ok_iff, decide_eq_false_iff_not,
    Nat.not_le]
  constructor
  · rintro (⟨-, rfl⟩ | ⟨_, -, ⟨hlong, rfl⟩ | ⟨_, -, ⟨⟩⟩⟩)
    · cases he
    · exact ⟨hlong, rfl⟩
  · rintro ⟨hlong, rfl⟩
    have hne : (c.span CodePoint.isDigit).1.isEmpty = false := by
      rw [List.isEmpty_eq_false_iff, ← List.length_pos_iff]
      omega
    exact .inr ⟨(), by simp [hne], .inl ⟨hlong, rfl⟩⟩

theorem readVersion_ends (h : c.rest <:+ t) :
    Ends (fun _ => True) (readVersion start c) fun x => x.2.rest <:+ t := by
  refine Ends.bind (readVersionNumber_ends (skipWhile_suffix.trans h)) fun _ hx => ?_
  refine Ends.bind Ends.require.forget fun _ _ => ?_
  refine Ends.bind (readVersionNumber_ends (next_suffix.trans hx)) fun _ hy => ?_
  exact Ends.bind Ends.require.forget fun _ _ => hy

theorem readVersion_eq_error_iff (he : e.isFault = false) :
    readVersion start c = .error e ↔ IsLongVersion start c e := by
  unfold readVersion IsLongVersion
  simp only [bind_eq_error_iff, require_eq_error_iff, require_eq_ok_iff,
    readVersionNumber_eq_error_iff he, decide_eq_true_eq]
  constructor
  · rintro (hmajor | ⟨⟨major, point⟩, hmajor, ⟨-, rfl⟩ | ⟨_, hpoint, hminor | ⟨_, _, h⟩⟩⟩)
    · exact .inl hmajor
    · cases he
    · exact .inr ⟨major, point, hmajor, hpoint, hminor⟩
    · rcases h with ⟨-, rfl⟩ | ⟨_, -, ⟨⟩⟩
      cases he
  · rintro (hmajor | ⟨major, point, hmajor, hpoint, hminor⟩)
    · exact .inl hmajor
    · exact .inr ⟨(major, point), hmajor, .inr ⟨(), hpoint, .inl hminor⟩⟩

theorem readShorthand_ends (h : c.rest <:+ t) : ReadsIn t (readShorthand start c) := by
  refine Ends.bind (readHandle_ends (skipWhile_suffix.trans h)) fun _ hx => ?_
  refine Ends.bind .require fun _ _ => ?_
  refine Ends.bind (readUri_ends (skipWhile_suffix.trans hx)) fun _ hy => ?_
  exact Ends.bind .require fun _ _ => hy

theorem readDirective_ends (h : c.rest <:+ t) :
    Ends (fun _ => True) (readDirective c) fun x => x.2.rest <:+ t := by
  refine Ends.bind readName_ends.forget fun x hname => ?_
  have hrest : x.2.rest <:+ t := (List.suffix_append x.1 _).trans (hname ▸ next_suffix.trans h)
  have hend {directive : Directive} {after : Cursor} (hafter : after.rest <:+ t) :
      Ends (fun _ => True) (do return (directive, ← skipLineEnd .directive c.mark after))
        fun x => x.2.rest <:+ t :=
    Ends.bind (skipLineEnd_ends hafter).forget fun _ hy => hy
  dsimp only
  split
  · exact Ends.bind (readVersion_ends hrest) fun _ hy => hend hy
  split
  · exact Ends.bind (readShorthand_ends hrest).forget fun _ hy => hend hy
  · exact hend (skipWhile_suffix.trans hrest)

/-- Reading a directive fails without a fault exactly if that is one of a version, and a number of
the version is too long. -/
theorem readDirective_eq_error_iff (he : e.isFault = false) :
    readDirective c = .error e ↔ ∃ after,
      readName .directive c.mark isSpaceOrEnd c.next = .ok ("YAML", after) ∧
        IsLongVersion c.mark after e := by
  have hend {directive : Directive} {after : Cursor} :
      (do return (directive, ← skipLineEnd .directive c.mark after) : Except Error _) ≠
        .error e := by
    intro h
    rcases bind_eq_error_iff.mp h with hend | ⟨_, -, ⟨⟩⟩
    have hfault := (skipLineEnd_ends (List.suffix_refl _)).error hend
    rw [he] at hfault
    cases hfault
  unfold readDirective
  rw [bind_eq_error_iff]
  constructor
  · rintro (hname | ⟨⟨name, after⟩, hname, h⟩)
    · have hfault := readName_ends.error hname
      rw [he] at hfault
      cases hfault
    dsimp only at h
    split at h
    · rename_i hyaml
      subst hyaml
      rcases bind_eq_error_iff.mp h with hversion | ⟨_, -, h⟩
      · exact ⟨after, hname, (readVersion_eq_error_iff he).mp hversion⟩
      · exact absurd h hend
    split at h
    · rcases bind_eq_error_iff.mp h with hshorthand | ⟨_, -, h⟩
      · have hfault := (readShorthand_ends (List.suffix_refl _)).error hshorthand
        rw [he] at hfault
        cases hfault
      · exact absurd h hend
    · exact absurd h hend
  · rintro ⟨after, hname, hlong⟩
    refine .inr ⟨("YAML", after), hname, ?_⟩
    dsimp only
    rw [if_pos rfl]
    exact bind_eq_error_iff.mpr (.inl ((readVersion_eq_error_iff he).mpr hlong))

end CollectionInterfaces.Yaml
