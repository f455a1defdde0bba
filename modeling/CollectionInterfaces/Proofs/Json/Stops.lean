import CollectionInterfaces.Proofs.Json.LongInteger
import CollectionInterfaces.Proofs.Json.Places

/-!
# Where reading stops

A text may keep to the notation and not be read all the same: it has an integer that is too long, or
a container that there is no room for (`Stops`). Reading fails in such a way exactly if the reader
comes to such a place, after everything before it was read (`readDocument_eq_error_iff`).
-/

namespace CollectionInterfaces.Json

/-- The failure is one of the notation. -/
def Failure.isFault : Failure → Bool
  | .fault _ _ => true
  | _ => false

/-- The reader of a value can go no further at a text, although that may keep to the notation. -/
inductive Stops : Failure → (room : Nat) → Text → Prop
  | longInteger : LongInteger count t → Stops (.tooManyDigits count) room t
  | array : Stops (.exhausted .array) 0 (CodePoint.ofChar '[' :: t)
  | object : Stops (.exhausted .object) 0 (CodePoint.ofChar '{' :: t)

/-! ## What a step fails with -/

/-- How a step of reading a document can fail, apart from the notation. -/
inductive ValueFails (fuel : Nat) (failure : Failure) : (room : Nat) → Text → Prop
  | stops : Stops failure room t → ValueFails fuel failure room t
  | array : skipBlanks t = d :: rest → d ≠ CodePoint.ofChar ']' →
      readElements fuel room (d :: rest) = .error failure →
      ValueFails fuel failure (room + 1) (CodePoint.ofChar '[' :: t)
  | object : skipBlanks t = d :: rest → d ≠ CodePoint.ofChar '}' →
      readMembers fuel room [] (d :: rest) = .error failure →
      ValueFails fuel failure (room + 1) (CodePoint.ofChar '{' :: t)

/-- How a step of reading elements can fail, apart from the notation. -/
inductive ElementsFails (fuel room : Nat) (t : Text) (failure : Failure) : Prop
  | element : readValue fuel room t = .error failure → ElementsFails fuel room t failure
  | nextElement : readValue fuel room t = .ok (v, rest) →
      skipBlanks rest = CodePoint.ofChar ',' :: next →
      readElements fuel room (skipBlanks next) = .error failure →
      ElementsFails fuel room t failure

/-- How a step of reading members can fail, apart from the notation. -/
inductive MembersFails (fuel room : Nat) (members : List (Text × Json)) (t : Text)
    (failure : Failure) : Prop
  | member : ReadsName t name next → readValue fuel room (skipBlanks next) = .error failure →
      MembersFails fuel room members t failure
  | nextMember : ReadsName t name next → readValue fuel room (skipBlanks next) = .ok (v, rest) →
      skipBlanks rest = CodePoint.ofChar ',' :: after →
      readMembers fuel room (insertMember name v members) (skipBlanks after) = .error failure →
      MembersFails fuel room members t failure

variable {fuel room : Nat} {negative : Bool} {c d : CodePoint} {t u s start half rest : Text}
  {v : Json} {failure : Failure}

theorem prepend_eq_error_iff {codePoints : Text} {read : Except Failure (Text × Text)} :
    prepend codePoints read = .error failure ↔ read = .error failure := map_eq_error_iff

theorem isFault_of_readText (h : readText start half t = .error failure) :
    failure.isFault = true := by
  fun_induction readText start half t with
  | case2 => cases h
  | case1 | case3 | case4 | case10 | case11 | case13 =>
    cases h
    rfl
  | case8 =>
    rename_i ih
    exact ih h
  | case5 | case6 | case7 | case9 | case12 | case14 =>
    rename_i ih
    exact ih (prepend_eq_error_iff.mp h)

theorem failure_of_readNumber (h : readNumber negative start t = .error failure) :
    failure.isFault = true ∨ ∃ count, failure = .tooManyDigits count := by
  unfold readNumber at h
  split at h
  · cases h
    exact .inl rfl
  · dsimp only at h
    split at h
    · split at h <;> cases h
      exact .inr ⟨_, rfl⟩
    · cases h

theorem stops_of_readAtom (hfailure : failure.isFault = false)
    (h : readAtom t = .error failure) : Stops failure room t := by
  have hkind : failure.isFault = true ∨ ∃ count, failure = .tooManyDigits count := by
    unfold readAtom at h
    split at h
    · cases h
    · split at h
      · cases h
        exact .inl rfl
      · split at h <;> exact failure_of_readNumber h
  rcases hkind with hfault | ⟨count, rfl⟩
  · rw [hfailure] at hfault
    cases hfault
  · exact .longInteger (readAtom_eq_tooManyDigits_iff.mp h)

theorem Stops.readValue (h : Stops failure room t) (fuel : Nat) :
    readValue (fuel + 1) room t = .error failure := by
  cases h with
  | longInteger hlong =>
    have hatom := readAtom_eq_tooManyDigits_iff.mpr hlong
    obtain ⟨c, rest, rfl, hc⟩ := hlong.head
    -- what starts it opens no text, no array and no object
    have hne {d : Char} (hd : (CodePoint.ofChar d).isDigit = false) (hminus : d ≠ '-') :
        c ≠ CodePoint.ofChar d := by
      rintro rfl
      rcases hc with hc | hc
      · rw [hd] at hc
        cases hc
      · exact hminus (CodePoint.ofChar_injective hc)
    unfold Json.readValue
    rw [if_neg (hne (by decide) (by decide)), if_neg (hne (by decide) (by decide)),
      if_neg (hne (by decide) (by decide)), hatom]
  | array => simp [Json.readValue]
  | object => simp [Json.readValue]

theorem valueFails_of_readValue (hfailure : failure.isFault = false)
    (h : readValue (fuel + 1) room t = .error failure) : ValueFails fuel failure room t := by
  cases t with
  | nil =>
    cases h
    cases hfailure
  | cons c t =>
    unfold readValue at h
    split at h
    · have hfault := isFault_of_readText (map_eq_error_iff.mp h)
      rw [hfailure] at hfault
      cases hfault
    split at h
    · rename_i hc
      subst hc
      obtain _ | room := room
      · cases h
        exact .stops .array
      dsimp only at h
      split at h
      · rename_i d rest hblanks
        split at h
        · cases h
        · rename_i hd
          exact .array hblanks hd (map_eq_error_iff.mp h)
      · cases h
        cases hfailure
    split at h
    · rename_i hc
      subst hc
      obtain _ | room := room
      · cases h
        exact .stops .object
      dsimp only at h
      split at h
      · rename_i d rest hblanks
        split at h
        · cases h
        · rename_i hd
          exact .object hblanks hd (map_eq_error_iff.mp h)
      · cases h
        cases hfailure
    · exact .stops (stops_of_readAtom hfailure h)

theorem ValueFails.readValue (h : ValueFails fuel failure room t) :
    readValue (fuel + 1) room t = .error failure := by
  cases h with
  | stops hstops => exact hstops.readValue fuel
  | array hblanks hd helements =>
    unfold Json.readValue
    simp [hblanks, hd, helements]
    rfl
  | object hblanks hd hmembers =>
    unfold Json.readValue
    simp [hblanks, hd, hmembers]
    rfl

theorem elementsFails_of_readElements (hfailure : failure.isFault = false)
    (h : readElements (fuel + 1) room t = .error failure) : ElementsFails fuel room t failure := by
  unfold readElements at h
  rcases bind_eq_error_iff.mp h with hvalue | ⟨⟨v, rest⟩, hvalue, h⟩
  · exact .element hvalue
  dsimp only at h
  split at h
  · cases h
    cases hfailure
  · rename_i c next hblanks
    split at h
    · cases h
    · split at h
      · rename_i hc
        rcases bind_eq_error_iff.mp h with hmore | ⟨_, _, ⟨⟩⟩
        exact .nextElement hvalue (hc ▸ hblanks) hmore
      · cases h
        cases hfailure

theorem ElementsFails.readElements (h : ElementsFails fuel room t failure) :
    readElements (fuel + 1) room t = .error failure := by
  unfold Json.readElements
  cases h with
  | element hvalue =>
    rw [hvalue]
    rfl
  | nextElement hvalue hblanks hmore => simp [hvalue, bind, Except.bind, hblanks, hmore]

theorem membersFails_of_readMembers {members : List (Text × Json)}
    (hfailure : failure.isFault = false)
    (h : readMembers (fuel + 1) room members t = .error failure) :
    MembersFails fuel room members t failure := by
  cases t with
  | nil =>
    cases h
    cases hfailure
  | cons c t =>
    unfold readMembers at h
    split at h
    · cases h
      cases hfailure
    · rename_i hc
      simp only [ne_eq, Decidable.not_not] at hc
      subst hc
      rcases bind_eq_error_iff.mp h with htext | ⟨⟨name, afterName⟩, htext, h⟩
      · have hfault := isFault_of_readText htext
        rw [hfailure] at hfault
        cases hfault
      dsimp only at h
      split at h
      · cases h
        cases hfailure
      · rename_i d next hname
        split at h
        · cases h
          cases hfailure
        · rename_i hd
          simp only [ne_eq, Decidable.not_not] at hd
          have hreads : ReadsName (CodePoint.ofChar '"' :: t) name next :=
            ⟨t, afterName, rfl, htext, hd ▸ hname⟩
          rcases bind_eq_error_iff.mp h with hvalue | ⟨⟨v, rest⟩, hvalue, h⟩
          · exact .member hreads hvalue
          dsimp only at h
          split at h
          · cases h
            cases hfailure
          · rename_i e after hblanks
            split at h
            · cases h
            · split at h
              · rename_i he
                exact .nextMember hreads hvalue (he ▸ hblanks) h
              · cases h
                cases hfailure

theorem MembersFails.readMembers {members : List (Text × Json)}
    (h : MembersFails fuel room members t failure) :
    readMembers (fuel + 1) room members t = .error failure := by
  cases h with
  | member hname hvalue =>
    obtain ⟨s, afterName, rfl, htext, hnext⟩ := hname
    unfold Json.readMembers
    simp [htext, bind, Except.bind, hnext, hvalue]
  | nextMember hname hvalue hblanks hmore =>
    obtain ⟨s, afterName, rfl, htext, hnext⟩ := hname
    unfold Json.readMembers
    simp [htext, bind, Except.bind, hnext, hvalue, hblanks, hmore]

/-! ## Coming to a place -/

/-- Inside a part of a document the reader comes to a value where it can go no further. -/
def ComesToStop (failure : Failure) (place : Place) : Prop :=
  ∃ room t, Visits place ⟨.value, room, t⟩ ∧ Stops failure room t

theorem ComesToStop.of_enters {place place' : Place} (henters : Enters place place')
    (h : ComesToStop failure place') : ComesToStop failure place := by
  obtain ⟨room, t, hvisits, hstops⟩ := h
  exact ⟨room, t, .head henters hvisits, hstops⟩

/-- A reader that fails apart from the notation has come to such a value. -/
theorem comesToStop_of_error (hfailure : failure.isFault = false) (fuel : Nat) :
    (∀ room t, readValue fuel room t = .error failure →
      ComesToStop failure ⟨.value, room, t⟩) ∧
    (∀ room t, readElements fuel room t = .error failure →
      ComesToStop failure ⟨.elements, room, t⟩) ∧
    (∀ room members t, readMembers fuel room members t = .error failure →
      ComesToStop failure ⟨.members, room, t⟩) := by
  induction fuel with
  | zero =>
    have hnone {problem : Fault} {t : Text} {P : Prop} (h : Failure.fault problem t = failure) :
        P := by
      subst h
      cases hfailure
    exact ⟨fun _ _ h => hnone (Except.error.inj h), fun _ _ h => hnone (Except.error.inj h),
      fun _ _ _ h => hnone (Except.error.inj h)⟩
  | succ fuel ih =>
    obtain ⟨ihValue, ihElements, ihMembers⟩ := ih
    refine ⟨?_, ?_, ?_⟩
    · intro room t h
      cases valueFails_of_readValue hfailure h with
      | stops hstops => exact ⟨room, t, .refl, hstops⟩
      | array hblanks hd helements => exact (ihElements _ _ helements).of_enters (.array hblanks hd)
      | object hblanks hd hmembers =>
        exact (ihMembers _ _ _ hmembers).of_enters (.object hblanks hd)
    · intro room t h
      cases elementsFails_of_readElements hfailure h with
      | element hvalue => exact (ihValue _ _ hvalue).of_enters .element
      | nextElement hvalue hblanks hmore =>
        exact (ihElements _ _ hmore).of_enters (.nextElement ⟨fuel, hvalue⟩ hblanks)
    · intro room members t h
      cases membersFails_of_readMembers hfailure h with
      | member hname hvalue => exact (ihValue _ _ hvalue).of_enters (.member hname)
      | nextMember hname hvalue hblanks hmore =>
        exact (ihMembers _ _ _ hmore).of_enters (.nextMember hname ⟨fuel, hvalue⟩ hblanks)

/-- Reading a part of a document fails, with fuel for all code points. -/
def FailsWith (failure : Failure) : Place → Prop
  | ⟨.value, room, t⟩ => ∀ fuel, 2 * t.length ≤ fuel → readValue fuel room t = .error failure
  | ⟨.elements, room, t⟩ => ∀ fuel, 2 * t.length < fuel → readElements fuel room t = .error failure
  | ⟨.members, room, t⟩ => ∀ fuel members, 2 * t.length < fuel →
    readMembers fuel room members t = .error failure

theorem Stops.failsWith (h : Stops failure room t) : FailsWith failure ⟨.value, room, t⟩ := by
  intro fuel hfuel
  obtain _ | fuel := fuel
  · have hne : t ≠ [] := by
      cases h with
      | longInteger hlong =>
        obtain ⟨c, rest, rfl, -⟩ := hlong.head
        exact List.cons_ne_nil c rest
      | array | object => exact List.cons_ne_nil _ _
    have hpos := List.length_pos_iff.mpr hne
    omega
  · exact h.readValue fuel

/-- The failure of a part is passed on by what it is entered from. -/
theorem FailsWith.of_enters {place place' : Place} (henters : Enters place place')
    (h : FailsWith failure place') : FailsWith failure place := by
  cases henters with
  | @array s d rest room hblanks hd =>
    intro fuel hfuel
    have hlength := length_of_skipBlanks_eq hblanks
    simp only [List.length_cons] at hfuel
    obtain _ | fuel := fuel
    · omega
    · have hless : 2 * (d :: rest).length < fuel := by
        rw [List.length_cons]
        omega
      exact (ValueFails.array hblanks hd (h fuel hless)).readValue
  | @object s d rest room hblanks hd =>
    intro fuel hfuel
    have hlength := length_of_skipBlanks_eq hblanks
    simp only [List.length_cons] at hfuel
    obtain _ | fuel := fuel
    · omega
    · exact (ValueFails.object hblanks hd
        (h fuel [] (by simp only [List.length_cons]; omega))).readValue
  | element =>
    intro fuel hfuel
    obtain _ | fuel := fuel
    · omega
    · exact (ElementsFails.element (h fuel (by omega))).readElements
  | @nextElement room t v rest next hvalue hblanks =>
    intro fuel hfuel
    have hrest := hvalue.length_lt
    have hnext := length_of_skipBlanks_eq hblanks
    have hskip := length_skipBlanks_le next
    obtain _ | fuel := fuel
    · omega
    · exact (ElementsFails.nextElement (hvalue.readValue_of_le (by omega)) hblanks
        (h fuel (by omega))).readElements
  | @member t name next room hname =>
    intro fuel members hfuel
    have hlength := length_of_readsName hname
    have hskip := length_skipBlanks_le next
    obtain _ | fuel := fuel
    · omega
    · exact (MembersFails.member hname (h fuel (by omega))).readMembers
  | @nextMember t name next room v rest after hname hvalue hblanks =>
    intro fuel members hfuel
    have hlength := length_of_readsName hname
    have hskip := length_skipBlanks_le next
    have hrest := hvalue.length_lt
    have hafter := length_of_skipBlanks_eq hblanks
    have hskip' := length_skipBlanks_le after
    obtain _ | fuel := fuel
    · omega
    · exact (MembersFails.nextMember hname (hvalue.readValue_of_le (by omega)) hblanks
        (h fuel _ (by omega))).readMembers

/-- A reader that comes to a value where it can go no further fails. -/
theorem ComesToStop.failsWith {place : Place} (h : ComesToStop failure place) :
    FailsWith failure place := by
  obtain ⟨room, t, hvisits, hstops⟩ := h
  induction hvisits using Relation.ReflTransGen.head_induction_on with
  | refl => exact hstops.failsWith
  | head henters _ ih => exact ih.of_enters henters

/-- The reader of a text comes to a value where it can go no further. -/
def Meets (room : Nat) (failure : Failure) (t : Text) : Prop :=
  t.head? ≠ some byteOrderMark ∧ ComesToStop failure ⟨.value, room, skipBlanks t⟩

/-- **When reading fails apart from the notation.** Exactly if the reader comes to an integer that
is too long, or to a container that there is no room for. -/
theorem readDocument_eq_error_iff (hfailure : failure.isFault = false) :
    readDocument room t = .error failure ↔ Meets room failure t := by
  unfold readDocument Meets
  by_cases hmark : t.head? = some byteOrderMark
  · rw [if_pos hmark]
    refine ⟨fun h => ?_, fun h => absurd hmark h.1⟩
    cases h
    cases hfailure
  rw [if_neg hmark]
  constructor
  · intro h
    refine ⟨hmark, ?_⟩
    rcases bind_eq_error_iff.mp h with hvalue | ⟨⟨v, rest⟩, _, h⟩
    · exact (comesToStop_of_error hfailure _).1 _ _ hvalue
    · dsimp only at h
      split at h <;> cases h
      cases hfailure
  · rintro ⟨-, hstop⟩
    have hskip := length_skipBlanks_le t
    rw [hstop.failsWith (2 * t.length + 2) (by omega)]
    rfl

end CollectionInterfaces.Json
