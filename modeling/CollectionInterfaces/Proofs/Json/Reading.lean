import CollectionInterfaces.Json.Reader
import CollectionInterfaces.Proofs.Results
import CollectionInterfaces.Proofs.Text.Split

/-!
# Reading without fuel

What a step of the reader can give is said once for every function of the reader (`ValueStep`,
`ElementsStep`, `MembersStep`). A reader that succeeds has gone on in the text, so that as many
steps as twice the code points that it has read are enough, and more change nothing
(`Reads.readValue_of_le`).
-/

namespace CollectionInterfaces

@[simp] theorem CodePoint.ofChar_inj {a b : Char} : ofChar a = ofChar b ↔ a = b :=
  ⟨ofChar_injective, congrArg ofChar⟩

namespace Json

/-! ## What a step gives -/

/-- What a step of reading a document can give. -/
inductive ValueStep (fuel : Nat) : (room : Nat) → Text → Json → Text → Prop
  | text : readText (CodePoint.ofChar '"' :: t) [] t = .ok (s, rest) →
      ValueStep fuel room (CodePoint.ofChar '"' :: t) (.text s) rest
  | emptyArray : skipBlanks t = CodePoint.ofChar ']' :: rest →
      ValueStep fuel (room + 1) (CodePoint.ofChar '[' :: t) (.array []) rest
  | array : skipBlanks t = d :: rest' → d ≠ CodePoint.ofChar ']' →
      readElements fuel room (d :: rest') = .ok (elements, rest) →
      ValueStep fuel (room + 1) (CodePoint.ofChar '[' :: t) (.array elements) rest
  | emptyObject : skipBlanks t = CodePoint.ofChar '}' :: rest →
      ValueStep fuel (room + 1) (CodePoint.ofChar '{' :: t) (.object []) rest
  | object : skipBlanks t = d :: rest' → d ≠ CodePoint.ofChar '}' →
      readMembers fuel room [] (d :: rest') = .ok (members, rest) →
      ValueStep fuel (room + 1) (CodePoint.ofChar '{' :: t) (.object members) rest
  | atom : c ≠ CodePoint.ofChar '"' → c ≠ CodePoint.ofChar '[' → c ≠ CodePoint.ofChar '{' →
      readAtom (c :: t) = .ok (v, rest) → ValueStep fuel room (c :: t) v rest

/-- What a step of reading elements can give. -/
inductive ElementsStep (fuel room : Nat) (t : Text) : List Json → Text → Prop
  | last : readValue fuel room t = .ok (v, rest') →
      skipBlanks rest' = CodePoint.ofChar ']' :: rest → ElementsStep fuel room t [v] rest
  | more : readValue fuel room t = .ok (v, rest') →
      skipBlanks rest' = CodePoint.ofChar ',' :: next →
      readElements fuel room (skipBlanks next) = .ok (elements, rest) →
      ElementsStep fuel room t (v :: elements) rest

/-- The name of a member is read, and a colon after it. -/
def ReadsName (t : Text) (name : Text) (next : Text) : Prop :=
  ∃ s rest, t = CodePoint.ofChar '"' :: s ∧ readText t [] s = .ok (name, rest) ∧
    skipBlanks rest = CodePoint.ofChar ':' :: next

/-- What a step of reading members can give. -/
inductive MembersStep (fuel room : Nat) (members : List (Text × Json)) (t : Text) :
    List (Text × Json) → Text → Prop
  | last : ReadsName t name next → readValue fuel room (skipBlanks next) = .ok (v, rest') →
      skipBlanks rest' = CodePoint.ofChar '}' :: rest →
      MembersStep fuel room members t (insertMember name v members) rest
  | more : ReadsName t name next → readValue fuel room (skipBlanks next) = .ok (v, rest') →
      skipBlanks rest' = CodePoint.ofChar ',' :: after →
      readMembers fuel room (insertMember name v members) (skipBlanks after) = .ok (all, rest) →
      MembersStep fuel room members t all rest

variable {fuel room room' : Nat} {negative : Bool} {c d : CodePoint}
  {t s start half rest rest' : Text} {v : Json} {elements : List Json}
  {members all : List (Text × Json)} {failure : Failure}

theorem valueStep_of_readValue (h : readValue (fuel + 1) room t = .ok (v, rest)) :
    ValueStep fuel room t v rest := by
  cases t with
  | nil => cases h
  | cons c t =>
    unfold readValue at h
    split at h
    · rename_i hc
      subst hc
      obtain ⟨_, htext, ⟨⟩⟩ := map_eq_ok_iff.mp h
      exact .text htext
    split at h
    · rename_i hc
      subst hc
      obtain _ | room := room
      · cases h
      dsimp only at h
      split at h
      · rename_i d rest' hblanks
        split at h
        · rename_i hd
          cases h
          exact .emptyArray (hd ▸ hblanks)
        · rename_i hd
          obtain ⟨_, helements, ⟨⟩⟩ := map_eq_ok_iff.mp h
          exact .array hblanks hd helements
      · cases h
    split at h
    · rename_i hc
      subst hc
      obtain _ | room := room
      · cases h
      dsimp only at h
      split at h
      · rename_i d rest' hblanks
        split at h
        · rename_i hd
          cases h
          exact .emptyObject (hd ▸ hblanks)
        · rename_i hd
          obtain ⟨_, hmembers, ⟨⟩⟩ := map_eq_ok_iff.mp h
          exact .object hblanks hd hmembers
      · cases h
    · exact .atom ‹_› ‹_› ‹_› h

theorem ValueStep.readValue (h : ValueStep fuel room t v rest) :
    readValue (fuel + 1) room t = .ok (v, rest) := by
  cases h with
  | text htext =>
    unfold Json.readValue
    rw [if_pos rfl, htext]
    rfl
  | emptyArray hblanks =>
    unfold Json.readValue
    simp [hblanks]
  | array hblanks hd helements =>
    unfold Json.readValue
    simp [hblanks, hd, helements]
    rfl
  | emptyObject hblanks =>
    unfold Json.readValue
    simp [hblanks]
  | object hblanks hd hmembers =>
    unfold Json.readValue
    simp [hblanks, hd, hmembers]
    rfl
  | atom htext harray hobject hatom =>
    unfold Json.readValue
    simp [htext, harray, hobject, hatom]

theorem elementsStep_of_readElements (h : readElements (fuel + 1) room t = .ok (elements, rest)) :
    ElementsStep fuel room t elements rest := by
  unfold readElements at h
  obtain ⟨⟨v, rest'⟩, hvalue, h⟩ := bind_eq_ok_iff.mp h
  dsimp only at h
  split at h
  · cases h
  · rename_i c next hblanks
    split at h
    · rename_i hc
      cases h
      exact .last hvalue (hc ▸ hblanks)
    · split at h
      · rename_i hc
        obtain ⟨_, hmore, ⟨⟩⟩ := bind_eq_ok_iff.mp h
        exact .more hvalue (hc ▸ hblanks) hmore
      · cases h

theorem ElementsStep.readElements (h : ElementsStep fuel room t elements rest) :
    readElements (fuel + 1) room t = .ok (elements, rest) := by
  unfold Json.readElements
  cases h with
  | last hvalue hblanks => simp [hvalue, bind, Except.bind, hblanks]
  | more hvalue hblanks hmore => simp [hvalue, bind, Except.bind, hblanks, hmore]

theorem membersStep_of_readMembers
    (h : readMembers (fuel + 1) room members t = .ok (all, rest)) :
    MembersStep fuel room members t all rest := by
  cases t with
  | nil => cases h
  | cons c t =>
    unfold readMembers at h
    split at h
    · cases h
    · rename_i hc
      simp only [ne_eq, Decidable.not_not] at hc
      subst hc
      obtain ⟨⟨name, afterName⟩, htext, h⟩ := bind_eq_ok_iff.mp h
      dsimp only at h
      split at h
      · cases h
      · rename_i d next hname
        split at h
        · cases h
        · rename_i hd
          simp only [ne_eq, Decidable.not_not] at hd
          have hreads : ReadsName (CodePoint.ofChar '"' :: t) name next :=
            ⟨t, afterName, rfl, htext, hd ▸ hname⟩
          obtain ⟨⟨v, rest'⟩, hvalue, h⟩ := bind_eq_ok_iff.mp h
          dsimp only at h
          split at h
          · cases h
          · rename_i e after hblanks
            split at h
            · rename_i he
              cases h
              exact .last hreads hvalue (he ▸ hblanks)
            · split at h
              · rename_i he
                exact .more hreads hvalue (he ▸ hblanks) h
              · cases h

theorem MembersStep.readMembers (h : MembersStep fuel room members t all rest) :
    readMembers (fuel + 1) room members t = .ok (all, rest) := by
  cases h with
  | last hname hvalue hblanks =>
    obtain ⟨s, afterName, rfl, htext, hnext⟩ := hname
    unfold Json.readMembers
    simp [htext, bind, Except.bind, hnext, hvalue, hblanks]
  | more hname hvalue hblanks hmore =>
    obtain ⟨s, afterName, rfl, htext, hnext⟩ := hname
    unfold Json.readMembers
    simp [htext, bind, Except.bind, hnext, hvalue, hblanks, hmore]

/-! ## Going on in the text -/

theorem skipBlanks_of_not_isBlank (h : isBlank c = false) : skipBlanks (c :: t) = c :: t := by
  simp [skipBlanks, h]

theorem length_skipBlanks_le (t : Text) : (skipBlanks t).length ≤ t.length :=
  (List.dropWhile_sublist _).length_le

theorem prepend_eq_ok_iff {codePoints : Text} {read : Except Failure (Text × Text)} :
    prepend codePoints read = .ok (s, rest) ↔
      ∃ more, read = .ok (more, rest) ∧ s = codePoints ++ more := by
  unfold prepend
  rw [map_eq_ok_iff]
  constructor
  · rintro ⟨⟨more, rest⟩, hread, ⟨⟩⟩
    exact ⟨more, hread, rfl⟩
  · rintro ⟨more, hread, rfl⟩
    exact ⟨(more, rest), hread, rfl⟩

/-- A text that is read ends with its closing quote. -/
theorem length_of_readText (h : readText start half t = .ok (s, rest)) :
    rest.length < t.length := by
  fun_induction readText start half t generalizing s with
  | case1 | case3 | case4 | case10 | case11 | case13 => cases h
  | case2 =>
    cases h
    simp
  | case8 =>
    rename_i ih
    have hlength := ih h
    simp only [List.length_cons] at hlength ⊢
    omega
  | case5 | case6 | case7 | case9 | case12 | case14 =>
    rename_i ih
    obtain ⟨more, hmore, -⟩ := prepend_eq_ok_iff.mp h
    have hlength := ih hmore
    simp only [List.length_cons] at hlength ⊢
    omega

theorem cutWhole_append (t : Text) : (cutWhole t).1 ++ (cutWhole t).2 = t := by
  unfold cutWhole
  split
  · rfl
  · split
    · rfl
    · exact List.takeWhile_append_dropWhile

theorem length_cutFraction_le (t : Text) : (cutFraction t).2.length ≤ t.length := by
  unfold cutFraction
  split
  · exact Nat.le_refl _
  · rename_i c rest
    split
    · exact Nat.le_succ_of_le (List.dropWhile_sublist _).length_le
    · exact Nat.le_refl _

theorem length_cutSign_le (t : Text) : (Text.cutSign t).2.length ≤ t.length := by
  unfold Text.cutSign
  split
  · exact Nat.le_refl _
  · split
    · exact Nat.le_succ _
    · split
      · exact Nat.le_succ _
      · exact Nat.le_refl _

theorem length_cutExponent_le (t : Text) : (cutExponent t).2.length ≤ t.length := by
  unfold cutExponent
  split
  · exact Nat.le_refl _
  · rename_i c rest
    have hsign := length_cutSign_le rest
    dsimp only
    split
    · have hbody :=
        (List.dropWhile_sublist CodePoint.isDigit (l := (Text.cutSign rest).2)).length_le
      exact Nat.le_succ_of_le (Nat.le_trans hbody hsign)
    · exact Nat.le_refl _

theorem length_of_readNumber (h : readNumber negative start t = .ok (v, rest)) :
    rest.length < t.length := by
  have happend := congrArg List.length (cutWhole_append t)
  rw [List.length_append] at happend
  have hfraction := length_cutFraction_le (cutWhole t).2
  have hexponent := length_cutExponent_le (cutFraction (cutWhole t).2).2
  unfold readNumber at h
  split at h
  · cases h
  · rename_i whole after hempty hwhole
    have hpos : 0 < whole.length := List.length_pos_iff.mpr fun hnil => hempty hnil
    rw [hwhole] at happend hfraction hexponent
    dsimp only at h happend hfraction hexponent
    split at h
    · split at h
      · cases h
      · cases h
        omega
    · cases h
      omega

/-- A literal that is read is one of the list. -/
theorem readLiteral?_eq_some (h : readLiteral? t = some (v, rest)) :
    ∃ word, (word, v) ∈ literals ∧ t = word ++ rest := by
  unfold readLiteral? at h
  obtain ⟨⟨word, w⟩, hword, hread⟩ := List.exists_of_findSome?_eq_some h
  obtain ⟨after, hafter, heq⟩ := Option.map_eq_some_iff.mp hread
  cases heq
  exact ⟨word, hword, Text.after?_eq_some_iff.mp hafter⟩

theorem length_of_readAtom (h : readAtom t = .ok (v, rest)) : rest.length < t.length := by
  unfold readAtom at h
  split at h
  · rename_i read hliteral
    cases h
    obtain ⟨word, hword, rfl⟩ := readLiteral?_eq_some hliteral
    have hlength : ∀ entry ∈ literals, 0 < entry.1.length := by decide
    have hpos := hlength _ hword
    simp only [List.length_append] at hpos ⊢
    omega
  · split at h
    · cases h
    · split at h
      · have := length_of_readNumber h
        simp only [List.length_cons]
        omega
      · exact length_of_readNumber h

theorem length_of_skipBlanks_eq (h : skipBlanks t = c :: rest) : rest.length < t.length := by
  have hlength := length_skipBlanks_le t
  rwa [h] at hlength

theorem length_of_readsName {name next : Text} (h : ReadsName t name next) :
    next.length < t.length := by
  obtain ⟨s, rest, rfl, htext, hnext⟩ := h
  have hrest := length_of_readText htext
  have hlength := length_of_skipBlanks_eq hnext
  simp only [List.length_cons]
  omega

/-! ## Enough fuel -/

/-- With some fuel a reader gives a result only after it has gone on in the text, and it gives the
same with any fuel from twice the number of code points on that it has read, less `slack`. -/
def GoesOn {α : Type} (read : Nat → Text → Except Failure (α × Text)) (slack fuel : Nat) : Prop :=
  ∀ t a rest, read fuel t = .ok (a, rest) → rest.length < t.length ∧
    ∀ more, 2 * (t.length - rest.length) ≤ more + slack → read more t = .ok (a, rest)

/-- A reader that has gone on needs a step at least. -/
theorem with_step {P : Nat → Prop} {slack : Nat} (hslack : slack ≤ 1)
    (hlength : rest.length < t.length)
    (h : ∀ more, 2 * (t.length - rest.length) ≤ more + 1 + slack → P (more + 1)) :
    rest.length < t.length ∧
      ∀ more, 2 * (t.length - rest.length) ≤ more + slack → P more := by
  refine ⟨hlength, fun more hmore => ?_⟩
  obtain _ | more := more
  · omega
  · exact h more hmore

theorem goesOn_readValue
    (hreadElements : ∀ room, GoesOn (readElements · room) 0 fuel)
    (hreadMembers : ∀ room, GoesOn (readMembers · room []) 0 fuel) :
    GoesOn (readValue · room) 1 (fuel + 1) := by
  intro t v rest h
  cases valueStep_of_readValue h with
  | text htext =>
    have hlength := length_of_readText htext
    exact with_step (by omega) (Nat.lt_succ_of_lt hlength)
      fun more _ => (ValueStep.text htext).readValue
  | emptyArray hblanks =>
    have hlength := length_of_skipBlanks_eq hblanks
    exact with_step (by omega) (Nat.lt_succ_of_lt hlength)
      fun more _ => (ValueStep.emptyArray hblanks).readValue
  | emptyObject hblanks =>
    have hlength := length_of_skipBlanks_eq hblanks
    exact with_step (by omega) (Nat.lt_succ_of_lt hlength)
      fun more _ => (ValueStep.emptyObject hblanks).readValue
  | array hblanks hd helements =>
    have hlength := length_of_skipBlanks_eq hblanks
    obtain ⟨hrest, hmore⟩ := hreadElements _ _ _ _ helements
    simp only [List.length_cons] at hrest hmore
    refine with_step (by omega) (by simp only [List.length_cons]; omega) fun more hle => ?_
    simp only [List.length_cons] at hle
    exact (ValueStep.array hblanks hd (hmore more (by omega))).readValue
  | object hblanks hd hmembers =>
    have hlength := length_of_skipBlanks_eq hblanks
    obtain ⟨hrest, hmore⟩ := hreadMembers _ _ _ _ hmembers
    simp only [List.length_cons] at hrest hmore
    refine with_step (by omega) (by simp only [List.length_cons]; omega) fun more hle => ?_
    simp only [List.length_cons] at hle
    exact (ValueStep.object hblanks hd (hmore more (by omega))).readValue
  | atom htext harray hobject hatom =>
    exact with_step (by omega) (length_of_readAtom hatom)
      fun more _ => (ValueStep.atom htext harray hobject hatom).readValue

theorem goesOn_readElements (hreadValue : GoesOn (readValue · room) 1 fuel)
    (hreadElements : GoesOn (readElements · room) 0 fuel) :
    GoesOn (readElements · room) 0 (fuel + 1) := by
  intro t elements rest h
  cases elementsStep_of_readElements h with
  | last hvalue hblanks =>
    obtain ⟨hrest, hmore⟩ := hreadValue _ _ _ hvalue
    have hlength := length_of_skipBlanks_eq hblanks
    refine with_step (by omega) (by omega) fun more hle => ?_
    exact (ElementsStep.last (hmore more (by omega)) hblanks).readElements
  | @more _ _ next _ _ hvalue hblanks helements =>
    obtain ⟨hrest, hmore⟩ := hreadValue _ _ _ hvalue
    have hlength := length_of_skipBlanks_eq hblanks
    have hnext := length_skipBlanks_le next
    obtain ⟨hrest', hmore'⟩ := hreadElements _ _ _ helements
    refine with_step (by omega) (by omega) fun more hle => ?_
    exact (ElementsStep.more (hmore more (by omega)) hblanks (hmore' more (by omega))).readElements

theorem goesOn_readMembers (hreadValue : GoesOn (readValue · room) 1 fuel)
    (hreadMembers : ∀ members, GoesOn (readMembers · room members) 0 fuel)
    (members : List (Text × Json)) : GoesOn (readMembers · room members) 0 (fuel + 1) := by
  intro t all rest h
  cases membersStep_of_readMembers h with
  | @last _ next _ _ _ hname hvalue hblanks =>
    have hafter := length_of_readsName hname
    have hnext := length_skipBlanks_le next
    obtain ⟨hrest, hmore⟩ := hreadValue _ _ _ hvalue
    have hlength := length_of_skipBlanks_eq hblanks
    refine with_step (by omega) (by omega) fun more hle => ?_
    exact (MembersStep.last hname (hmore more (by omega)) hblanks).readMembers
  | @more _ next _ _ after _ _ hname hvalue hblanks hmembers =>
    have hafter := length_of_readsName hname
    have hnext := length_skipBlanks_le next
    obtain ⟨hrest, hmore⟩ := hreadValue _ _ _ hvalue
    have hlength := length_of_skipBlanks_eq hblanks
    have hnext' := length_skipBlanks_le after
    obtain ⟨hrest', hmore'⟩ := hreadMembers _ _ _ _ hmembers
    refine with_step (by omega) (by omega) fun more hle => ?_
    exact (MembersStep.more hname (hmore more (by omega)) hblanks
      (hmore' more (by omega))).readMembers

theorem goesOn (fuel : Nat) :
    (∀ room, GoesOn (readValue · room) 1 fuel) ∧ (∀ room, GoesOn (readElements · room) 0 fuel) ∧
      ∀ room members, GoesOn (readMembers · room members) 0 fuel := by
  induction fuel with
  | zero => exact ⟨nofun, nofun, nofun⟩
  | succ fuel ih =>
    obtain ⟨ihValue, ihElements, ihMembers⟩ := ih
    exact ⟨fun room => goesOn_readValue ihElements fun room => ihMembers room [],
      fun room => goesOn_readElements (ihValue room) (ihElements room),
      fun room => goesOn_readMembers (ihValue room) (ihMembers room)⟩

/-- A document stands at the start of a text, with no more containers inside each other than there
is room for. -/
def Reads (room : Nat) (t : Text) (v : Json) (rest : Text) : Prop :=
  ∃ fuel, readValue fuel room t = .ok (v, rest)

theorem Reads.length_lt (h : Reads room t v rest) : rest.length < t.length := by
  obtain ⟨fuel, hfuel⟩ := h
  exact ((goesOn fuel).1 room t v rest hfuel).1

/-- Fuel for the code points of the document is enough to read it. -/
theorem Reads.readValue_of_le (h : Reads room t v rest)
    (hfuel : 2 * (t.length - rest.length) ≤ fuel + 1) : readValue fuel room t = .ok (v, rest) := by
  obtain ⟨enough, henough⟩ := h
  exact ((goesOn enough).1 room t v rest henough).2 fuel hfuel

theorem reads_of_readDocument (h : readDocument room t = .ok v) :
    ∃ rest, Reads room (skipBlanks t) v rest ∧ skipBlanks rest = [] := by
  unfold readDocument at h
  split at h
  · cases h
  obtain ⟨⟨w, rest⟩, hread, h⟩ := bind_eq_ok_iff.mp h
  dsimp only at h
  split at h
  · rename_i hend
    cases h
    exact ⟨rest, ⟨_, hread⟩, hend⟩
  · cases h

theorem parse_eq_ok_iff [i : Interpreter] : parse t = .ok v ↔ readDocument i.jsonRoom t = .ok v :=
  mapError_eq_ok_iff

/-! ## More room -/

/-- What is read is read with more room, too. -/
theorem readValue_mono (fuel : Nat) :
    (∀ room room' t v rest, room ≤ room' → readValue fuel room t = .ok (v, rest) →
      readValue fuel room' t = .ok (v, rest)) ∧
    (∀ room room' t elements rest, room ≤ room' → readElements fuel room t = .ok (elements, rest) →
      readElements fuel room' t = .ok (elements, rest)) ∧
    (∀ room room' members t all rest, room ≤ room' →
      readMembers fuel room members t = .ok (all, rest) →
      readMembers fuel room' members t = .ok (all, rest)) := by
  induction fuel with
  | zero => exact ⟨nofun, nofun, nofun⟩
  | succ fuel ih =>
    obtain ⟨ihValue, ihElements, ihMembers⟩ := ih
    refine ⟨?_, ?_, ?_⟩
    · intro room room' t v rest hle h
      cases valueStep_of_readValue h with
      | text htext => exact (ValueStep.text htext).readValue
      | atom htext harray hobject hatom =>
        exact (ValueStep.atom htext harray hobject hatom).readValue
      | emptyArray hblanks =>
        obtain ⟨room', rfl⟩ := Nat.exists_eq_add_one_of_ne_zero (Nat.ne_zero_of_lt hle)
        exact (ValueStep.emptyArray hblanks).readValue
      | emptyObject hblanks =>
        obtain ⟨room', rfl⟩ := Nat.exists_eq_add_one_of_ne_zero (Nat.ne_zero_of_lt hle)
        exact (ValueStep.emptyObject hblanks).readValue
      | array hblanks hd helements =>
        obtain ⟨room', rfl⟩ := Nat.exists_eq_add_one_of_ne_zero (Nat.ne_zero_of_lt hle)
        exact (ValueStep.array hblanks hd
          (ihElements _ _ _ _ _ (Nat.le_of_succ_le_succ hle) helements)).readValue
      | object hblanks hd hmembers =>
        obtain ⟨room', rfl⟩ := Nat.exists_eq_add_one_of_ne_zero (Nat.ne_zero_of_lt hle)
        exact (ValueStep.object hblanks hd
          (ihMembers _ _ _ _ _ _ (Nat.le_of_succ_le_succ hle) hmembers)).readValue
    · intro room room' t elements rest hle h
      cases elementsStep_of_readElements h with
      | last hvalue hblanks =>
        exact (ElementsStep.last (ihValue _ _ _ _ _ hle hvalue) hblanks).readElements
      | more hvalue hblanks hmore =>
        exact (ElementsStep.more (ihValue _ _ _ _ _ hle hvalue) hblanks
          (ihElements _ _ _ _ _ hle hmore)).readElements
    · intro room room' members t all rest hle h
      cases membersStep_of_readMembers h with
      | last hname hvalue hblanks =>
        exact (MembersStep.last hname (ihValue _ _ _ _ _ hle hvalue) hblanks).readMembers
      | more hname hvalue hblanks hmore =>
        exact (MembersStep.more hname (ihValue _ _ _ _ _ hle hvalue) hblanks
          (ihMembers _ _ _ _ _ _ hle hmore)).readMembers

theorem readDocument_mono (hle : room ≤ room') (h : readDocument room t = .ok v) :
    readDocument room' t = .ok v := by
  unfold readDocument at h ⊢
  split at h
  · cases h
  rename_i hmark
  obtain ⟨⟨w, rest⟩, hread, h⟩ := bind_eq_ok_iff.mp h
  rw [if_neg hmark, (readValue_mono _).1 _ _ _ _ _ hle hread]
  exact h

/-- Room makes no difference to what a text is read as, if it is read. -/
theorem readDocument_unique {w : Json} (h : readDocument room t = .ok v)
    (h' : readDocument room' t = .ok w) : v = w := by
  rcases Nat.le_total room room' with hle | hle
  · exact Except.ok.inj ((readDocument_mono hle h).symm.trans h')
  · exact Except.ok.inj (h.symm.trans (readDocument_mono hle h'))

end Json

end CollectionInterfaces
