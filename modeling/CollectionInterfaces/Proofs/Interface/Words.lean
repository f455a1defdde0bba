import CollectionInterfaces.Proofs.Interface.Recased

/-!
# Names that are spelled as words

A name can be spelled as words with a separator between any two of them. Casing such a name puts
the words after each other, each with an upper case letter in front. Neither the choice of the
separators nor one more in front of the name makes a difference (`Text.pascalCase_wordsLaw`).
-/

namespace CollectionInterfaces

/-- A code point that separates words. -/
abbrev Separator := { c : CodePoint // c.isSeparator = true }

/-- A word of a name. It starts with a letter or a digit, and no separator is in it. -/
structure Word where
  first : CodePoint
  rest : Text
  isStart : (first.isLetter || first.isDigit) = true
  isSeparator_eq_false : ∀ c ∈ rest, c.isSeparator = false

namespace Word

def text (w : Word) : Text := w.first :: w.rest

/-- The word with its first letter in upper case. -/
def capitalized (w : Word) : Text := w.first.toUpper :: w.rest

theorem isWord_first (w : Word) : w.first.isWord = true := by
  have h := w.isStart
  simp only [CodePoint.isLetter, Bool.or_eq_true] at h
  simp only [CodePoint.isWord, Bool.or_eq_true]
  exact .inl h

theorem isSeparator_first (w : Word) : w.first.isSeparator = false :=
  CodePoint.isSeparator_eq_false w.isStart

end Word

namespace Text

variable {s t : Text} {first : Word} {others : List (Separator × Word)}

/-- The words as a name, each with its separator in front. -/
def led (others : List (Separator × Word)) : Text :=
  others.flatMap fun (sep, w) => sep.val :: w.text

/-- The words as a name, with separators between them. -/
def separated (first : Word) (others : List (Separator × Word)) : Text := first.text ++ led others

/-- The words after each other, each with its first letter in upper case. -/
def capitalizedWords (words : List Word) : Text := words.flatMap Word.capitalized

theorem dropSeparators_append (h : ∀ c ∈ t, c.isSeparator = false) :
    dropSeparators (t ++ s) = t ++ dropSeparators s := by
  induction t with
  | nil => rfl
  | cons c t ih =>
    rw [List.forall_mem_cons] at h
    rw [List.cons_append, dropSeparators_cons_of_not_isSeparator h.1, ih h.2, List.cons_append]

/-- The separators in front of words are exactly those that go. -/
theorem dropSeparators_led (others : List (Separator × Word)) :
    dropSeparators (led others) = capitalizedWords (others.map Prod.snd) := by
  induction others with
  | nil => rfl
  | cons other others ih =>
    obtain ⟨sep, w⟩ := other
    have hled : led ((sep, w) :: others) = sep.val :: w.first :: (w.rest ++ led others) := by
      simp [led, Word.text]
    rw [hled, dropSeparators_cons_cons sep.property w.isWord_first,
      dropSeparators_append w.isSeparator_eq_false, ih]
    simp [capitalizedWords, Word.capitalized]

theorem pascalCase_separated (first : Word) (others : List (Separator × Word)) :
    (separated first others).pascalCase = capitalizedWords (first :: others.map Prod.snd) := by
  have hdrop : dropSeparators (separated first others) =
      first.text ++ capitalizedWords (others.map Prod.snd) := by
    rw [separated, dropSeparators_append, dropSeparators_led]
    exact List.forall_mem_cons.mpr ⟨first.isSeparator_first, first.isSeparator_eq_false⟩
  rw [pascalCase, hdrop]
  rfl

theorem pascalCase_led (sep : Separator) (first : Word) (others : List (Separator × Word)) :
    (led ((sep, first) :: others)).pascalCase =
      capitalizedWords (first :: others.map Prod.snd) := by
  rw [pascalCase, dropSeparators_led]
  simp only [List.map_cons, capitalizedWords, List.flatMap_cons, Word.capitalized,
    List.cons_append, capitalize, CodePoint.toUpper_toUpper]

/-- What holds of a name that is spelled as words. -/
structure WordsLaw (first : Word) (others : List (Separator × Word)) : Prop where
  between : (separated first others).pascalCase =
    capitalizedWords (first :: others.map Prod.snd)
  /-- One more separator in front of the name makes no difference. -/
  inFront : ∀ sep : Separator, pascalCase (sep.val :: separated first others) =
    capitalizedWords (first :: others.map Prod.snd)
  /-- Other separators make no difference. -/
  respelled : ∀ others' : List (Separator × Word), others'.map Prod.snd = others.map Prod.snd →
    (separated first others').pascalCase = (separated first others).pascalCase

/-- **Casing puts words after each other, whatever separates them.** -/
theorem pascalCase_wordsLaw (first : Word) (others : List (Separator × Word)) :
    WordsLaw first others where
  between := pascalCase_separated first others
  inFront sep := pascalCase_led sep first others
  respelled others' h := by rw [pascalCase_separated, pascalCase_separated, h]

/-- A word can be a single digit or start with one. -/
example : pascalCase "top-5_2nd" = ("Top52nd" : Text) := by decide

end Text

end CollectionInterfaces
