import CollectionInterfaces.Json.Printer
import CollectionInterfaces.Proofs.Json.Reading
import CollectionInterfaces.Proofs.Text.Join
import CollectionInterfaces.Proofs.Text.Utf8
import CollectionInterfaces.Proofs.Value.Insertion

/-!
# Reading what was written

A document that is written on one line is read again, if it has no numbers, if no surrogate stands
in its texts, if no name is repeated in an object, and if there is room for its containers
(`Json.readDocument_write`).
-/

namespace CollectionInterfaces

namespace CodePoint

theorem val_ofNat {n : Nat} (h : n < 0x110000) : (ofNat n).val = n := by
  rw [ofNat, dif_pos h]

theorem digitValue?_ofDigit {d : Nat} (h : d < 16) : (ofDigit d).digitValue? = some d := by
  revert d
  decide

end CodePoint

namespace Text

theorem digitsUpTo_succ (base fuel n : Nat) (acc : Text) :
    digitsUpTo base (fuel + 1) n acc = if n < base then CodePoint.ofDigit n :: acc
      else digitsUpTo base fuel (n / base) (CodePoint.ofDigit (n % base) :: acc) := rfl

/-- Four hexadecimal digits for a number that needs no more. -/
theorem ofNatHex_four {n : Nat} (h : n < 0x10000) :
    ofNatHex 4 n = [.ofDigit (n / 0x1000), .ofDigit (n / 0x100 % 16), .ofDigit (n / 16 % 16),
      .ofDigit (n % 16)] := by
  have hzero : (.ofChar '0' : CodePoint) = .ofDigit 0 := by rfl
  unfold ofNatHex
  dsimp only
  rw [digitsUpTo_succ]
  split
  · rename_i hn
    simp [zeros, List.replicate, hzero, Nat.div_eq_of_lt hn, Nat.mod_eq_of_lt hn,
      show n / 0x1000 = 0 by omega, show n / 0x100 = 0 by omega]
  · have hlog : 4 ≤ Nat.log2 n := (Nat.le_log2 (by omega)).mpr (by omega)
    obtain ⟨fuel, hfuel⟩ := Nat.exists_eq_add_of_le' hlog
    rw [hfuel, digitsUpTo_succ, digitsUpTo_succ, digitsUpTo_succ]
    simp only [Nat.div_div_eq_div_mul, Nat.reduceMul]
    split
    · simp [zeros, List.replicate, hzero, show n / 0x1000 = 0 by omega,
        show n / 0x100 = 0 by omega, Nat.mod_eq_of_lt ‹n / 16 < 16›]
    split
    · simp [zeros, hzero, show n / 0x1000 = 0 by omega, Nat.mod_eq_of_lt ‹n / 256 < 16›]
    · rw [if_pos (show n / 0x1000 < 16 by omega)]
      rfl

end Text

namespace Json

variable {start rest next : Text} {c high low : CodePoint} {n : Nat} {t : Text}

/-! ## Texts -/

theorem hexEscape?_ofDigits (h : n < 0x10000) :
    hexEscape? (.ofDigit (n / 0x1000)) (.ofDigit (n / 0x100 % 16)) (.ofDigit (n / 16 % 16))
      (.ofDigit (n % 16)) = some (.ofNat n) := by
  have hdigit (d : Nat) (hd : d < 16) := CodePoint.digitValue?_ofDigit hd
  simp only [hexEscape?, Text.readDigits, hdigit _ (show n / 0x1000 < 16 by omega),
    hdigit _ (Nat.mod_lt _ (by decide)), if_pos (show n / 0x1000 < 16 by omega),
    if_pos (Nat.mod_lt _ (show 0 < 16 by decide)), Option.map_some]
  congr 2
  omega

theorem unitEscape_append (h : n < 0x10000) (next : Text) :
    unitEscape n ++ next = .ofChar '\\' :: .ofChar 'u' :: .ofDigit (n / 0x1000) ::
      .ofDigit (n / 0x100 % 16) :: .ofDigit (n / 16 % 16) :: .ofDigit (n % 16) :: next := by
  rw [unitEscape, Text.ofNatHex_four h]
  rfl

/-- An escape by number is read, and waits for its other half if it has one. -/
theorem readText_unitEscape (h : n < 0x10000) (hnext : next ≠ []) :
    readText start [] (unitEscape n ++ next) =
      if (CodePoint.ofNat n).isHighSurrogate then readText start [.ofNat n] next
      else prepend [.ofNat n] (readText start [] next) := by
  obtain ⟨d, next, rfl⟩ := List.exists_cons_of_ne_nil hnext
  rw [unitEscape_append h]
  conv => lhs; unfold readText
  rw [if_neg (by decide), if_pos rfl]
  dsimp only
  rw [if_pos rfl, hexEscape?_ofDigits h]

theorem readText_lowEscape (h : n < 0x10000) (hlow : (CodePoint.ofNat n).isLowSurrogate = true)
    (hnext : next ≠ []) : readText start [high] (unitEscape n ++ next) =
      prepend [.ofSurrogatePair high (.ofNat n)] (readText start [] next) := by
  obtain ⟨d, next, rfl⟩ := List.exists_cons_of_ne_nil hnext
  rw [unitEscape_append h]
  conv => lhs; unfold readText
  rw [if_neg (by decide), if_pos rfl]
  dsimp only
  rw [if_pos rfl, hexEscape?_ofDigits h]
  dsimp only
  rw [if_pos hlow]

theorem ofSurrogatePair_halves (h : 0x10000 ≤ c.val) :
    CodePoint.ofSurrogatePair (.ofNat (0xD800 + (c.val - 0x10000) / 0x400))
      (.ofNat (0xDC00 + (c.val - 0x10000) % 0x400)) = c := by
  have hlt := c.isLt
  apply CodePoint.ext_val
  have hhigh := CodePoint.val_ofNat (show 0xD800 + (c.val - 0x10000) / 0x400 < 0x110000 by omega)
  have hlow := CodePoint.val_ofNat (show 0xDC00 + (c.val - 0x10000) % 0x400 < 0x110000 by omega)
  rw [CodePoint.ofSurrogatePair, hhigh, hlow, CodePoint.val_ofNat (by omega)]
  omega

/-- A code point that is written in a text is read again. -/
theorem readText_escaped (hc : c.isSurrogate = false) (hnext : next ≠ []) :
    readText start [] (escaped c ++ next) = prepend [c] (readText start [] next) := by
  have hlt := c.isLt
  have hscalar := CodePoint.isSurrogate_eq_false_iff.mp hc
  have hletter (e u : CodePoint) (he : e ≠ .ofChar 'u') (hu : letterEscape? e = some u)
      (hcu : u = c) : readText start [] (.ofChar '\\' :: e :: next) =
        prepend [c] (readText start [] next) := by
    conv => lhs; unfold readText
    rw [if_neg (by decide), if_pos rfl]
    dsimp only
    rw [if_neg he, hu, hcu]
    rfl
  unfold escaped
  split
  · exact hletter (.ofChar '"') (.ofChar '"') (by decide) (by rfl) (Eq.symm ‹_›)
  split
  · exact hletter (.ofChar '\\') (.ofChar '\\') (by decide) (by rfl) (Eq.symm ‹_›)
  split
  · exact hletter (.ofChar 'n') .lineFeed (by decide) (by rfl) (Eq.symm ‹_›)
  split
  · exact hletter (.ofChar 'r') .carriageReturn (by decide) (by rfl) (Eq.symm ‹_›)
  split
  · exact hletter (.ofChar 't') (.ofChar '\t') (by decide) (by rfl) (Eq.symm ‹_›)
  split
  · exact hletter (.ofChar 'b') (.ofNat 0x08) (by decide) (by rfl) (CodePoint.ext_val (Eq.symm ‹_›))
  split
  · exact hletter (.ofChar 'f') (.ofNat 0x0C) (by decide) (by rfl) (CodePoint.ext_val (Eq.symm ‹_›))
  split
  · -- the other characters between the blank and the tilde are written as they are
    conv => lhs; unfold readText
    dsimp only [List.singleton_append]
    rw [if_neg ‹_›, if_neg ‹_›, if_neg (by omega)]
    rfl
  split
  · have hhigh : c.isHighSurrogate = false := by
      simp only [CodePoint.isHighSurrogate, Bool.and_eq_false_iff, decide_eq_false_iff_not]
      omega
    rw [readText_unitEscape (by omega) hnext, CodePoint.ofNat_val, hhigh]
    rfl
  · -- a pair of surrogates, of which the first waits for the second
    have hhigh : (CodePoint.ofNat (0xD800 + (c.val - 0x10000) / 0x400)).isHighSurrogate = true := by
      rw [CodePoint.isHighSurrogate, CodePoint.val_ofNat (by omega), Bool.and_eq_true,
        decide_eq_true_eq, decide_eq_true_eq]
      omega
    have hlow : (CodePoint.ofNat (0xDC00 + (c.val - 0x10000) % 0x400)).isLowSurrogate = true := by
      rw [CodePoint.isLowSurrogate, CodePoint.val_ofNat (by omega), Bool.and_eq_true,
        decide_eq_true_eq, decide_eq_true_eq]
      omega
    rw [List.append_assoc, readText_unitEscape (by omega) (by simp [hnext]), if_pos hhigh,
      readText_lowEscape (by omega) hlow hnext,
      ofSurrogatePair_halves (show 0x10000 ≤ c.val by omega)]

/-- A text that is written is read again. -/
theorem readText_flatMap (h : Utf8.IsScalar t) :
    readText start [] (t.flatMap escaped ++ .ofChar '"' :: rest) = .ok (t, rest) := by
  induction t with
  | nil =>
    unfold readText
    exact if_pos rfl
  | cons c t ih =>
    rw [List.flatMap_cons, List.append_assoc, readText_escaped (h c (by simp)) (by simp),
      ih fun d hd => h d (List.mem_cons_of_mem c hd)]
    rfl

/-! ## Documents -/

/-- A document that is read as it was written where there is so much room: it has no more containers
inside each other and no numbers, no surrogate stands in its texts, and no name is repeated in an
object. -/
inductive IsFaithful : (room : Nat) → Json → Prop
  | null : IsFaithful room .null
  | bool (b : Bool) : IsFaithful room (.bool b)
  | text {t : Text} (h : Utf8.IsScalar t) : IsFaithful room (.text t)
  | array {elements : List Json} (h : ∀ v ∈ elements, IsFaithful room v) :
      IsFaithful (room + 1) (.array elements)
  | object {members : List (Text × Json)} (hnames : (members.map (·.1)).Nodup)
      (hscalar : ∀ member ∈ members, Utf8.IsScalar member.1)
      (h : ∀ member ∈ members, IsFaithful room member.2) : IsFaithful (room + 1) (.object members)

variable {room : Nat} {v : Json} {elements : List Json} {members before : List (Text × Json)}

/-- What is written starts with no blank, and with no bracket that closes. -/
theorem exists_write_eq_cons (h : IsFaithful room v) :
    ∃ c rest, write v = c :: rest ∧ isBlank c = false ∧ c ≠ .ofChar ']' := by
  cases h with
  | null => exact ⟨_, _, rfl, by decide, by decide⟩
  | bool b => cases b <;> exact ⟨_, _, rfl, by decide, by decide⟩
  | text h => exact ⟨.ofChar '"', _, rfl, by decide, by decide⟩
  | array h => exact ⟨.ofChar '[', _, rfl, by decide, by decide⟩
  | object hnames hscalar h => exact ⟨.ofChar '{', _, rfl, by decide, by decide⟩

/-- Elements stand at the start of a text. -/
def ReadsElements (room : Nat) (t : Text) (elements : List Json) (rest : Text) : Prop :=
  ∃ fuel, readElements fuel room t = .ok (elements, rest)

/-- Members stand at the start of a text; `all` are those before them and they themselves. -/
def ReadsMembers (room : Nat) (before : List (Text × Json)) (t : Text)
    (all : List (Text × Json)) (rest : Text) : Prop :=
  ∃ fuel, readMembers fuel room before t = .ok (all, rest)

variable {t' rest' : Text} {d : CodePoint} {name : Text} {all : List (Text × Json)}

theorem ReadsElements.last (hvalue : Reads room t v rest')
    (hblanks : skipBlanks rest' = .ofChar ']' :: rest) : ReadsElements room t [v] rest := by
  obtain ⟨fuel, hfuel⟩ := hvalue
  exact ⟨fuel + 1, (ElementsStep.last hfuel hblanks).readElements⟩

theorem ReadsElements.more (hvalue : Reads room t v rest')
    (hblanks : skipBlanks rest' = .ofChar ',' :: next)
    (hmore : ReadsElements room (skipBlanks next) elements rest) :
    ReadsElements room t (v :: elements) rest := by
  obtain ⟨enough, henough⟩ := hmore
  have hfuel := ((goesOn enough).2.1 _ _ _ _ henough).2
  have hnext := length_skipBlanks_le next
  have hrest' := length_of_skipBlanks_eq hblanks
  have ht := hvalue.length_lt
  exact ⟨2 * t.length + 1, (ElementsStep.more (hvalue.readValue_of_le (by omega)) hblanks
    (hfuel _ (by omega))).readElements⟩

theorem ReadsMembers.last (hname : ReadsName t name next)
    (hvalue : Reads room (skipBlanks next) v rest')
    (hblanks : skipBlanks rest' = .ofChar '}' :: rest) :
    ReadsMembers room before t (insertMember name v before) rest := by
  obtain ⟨fuel, hfuel⟩ := hvalue
  exact ⟨fuel + 1, (MembersStep.last hname hfuel hblanks).readMembers⟩

theorem ReadsMembers.more {after : Text} (hname : ReadsName t name next)
    (hvalue : Reads room (skipBlanks next) v rest')
    (hblanks : skipBlanks rest' = .ofChar ',' :: after)
    (hmore : ReadsMembers room (insertMember name v before) (skipBlanks after) all rest) :
    ReadsMembers room before t all rest := by
  obtain ⟨enough, henough⟩ := hmore
  have hfuel := ((goesOn enough).2.2 _ _ _ _ _ henough).2
  have hafter := length_skipBlanks_le after
  have hrest' := length_of_skipBlanks_eq hblanks
  have hskip := length_skipBlanks_le next
  have hnext := length_of_readsName hname
  have ht := hvalue.length_lt
  exact ⟨2 * t.length + 1, (MembersStep.more hname (hvalue.readValue_of_le (by omega)) hblanks
    (hfuel _ (by omega))).readMembers⟩

theorem writeElements_eq_map (elements : List Json) :
    writeElements elements = elements.map write := by
  induction elements with
  | nil => rfl
  | cons v elements ih => rw [writeElements, ih, List.map_cons]

/-- A document is read at the start of any text that starts with it. -/
def IsReadBack (room : Nat) (v : Json) : Prop := ∀ rest, Reads room (write v ++ rest) v rest

theorem exists_join_eq (sep piece : Text) (pieces : List Text) :
    ∃ more, Text.join sep (piece :: pieces) = piece ++ more := by
  have hpart : [piece] <+: piece :: pieces := ⟨pieces, rfl⟩
  obtain ⟨more, hmore⟩ : Text.join sep [piece] <+: Text.join sep (piece :: pieces) :=
    Text.join_prefix_of_prefix hpart
  exact ⟨more, hmore.symm⟩

theorem skipBlanks_space : skipBlanks (.ofChar ' ' :: t) = skipBlanks t := by
  simp [skipBlanks, isBlank]

theorem skipBlanks_comma (t : Text) :
    skipBlanks (Text.ofString ", " ++ t) = .ofChar ',' :: .ofChar ' ' :: t :=
  skipBlanks_of_not_isBlank (by decide)

theorem skipBlanks_colon (t : Text) :
    skipBlanks (Text.ofString ": " ++ t) = .ofChar ':' :: .ofChar ' ' :: t :=
  skipBlanks_of_not_isBlank (by decide)

/-- What is written starts with no blank. -/
theorem skipBlanks_write (h : IsFaithful room v) (rest : Text) :
    skipBlanks (write v ++ rest) = write v ++ rest := by
  obtain ⟨c, s, hwrite, hblank, -⟩ := exists_write_eq_cons h
  rw [hwrite]
  exact skipBlanks_of_not_isBlank hblank

theorem readsElements_write (hfaithful : ∀ v ∈ elements, IsFaithful room v)
    (h : ∀ v ∈ elements, IsReadBack room v) (hne : elements ≠ []) (rest : Text) :
    ReadsElements room (Text.join ", " (writeElements elements) ++ .ofChar ']' :: rest)
      elements rest := by
  induction elements with
  | nil => exact absurd rfl hne
  | cons v elements ih =>
    rw [List.forall_mem_cons] at hfaithful h
    cases elements with
    | nil => exact .last (h.1 _) (skipBlanks_of_not_isBlank (by decide))
    | cons w elements =>
      have hnext := ih hfaithful.2 h.2 (by simp)
      obtain ⟨more, hmore⟩ := exists_join_eq ", " (write w) (writeElements elements)
      have hskip : skipBlanks (.ofChar ' ' :: (Text.join ", " (writeElements (w :: elements)) ++
          .ofChar ']' :: rest)) =
          Text.join ", " (writeElements (w :: elements)) ++ .ofChar ']' :: rest := by
        rw [skipBlanks_space, writeElements, hmore, List.append_assoc]
        exact skipBlanks_write (hfaithful.2 w (by simp)) _
      rw [writeElements, Text.join_cons (by simp [writeElements]), List.append_assoc,
        List.append_assoc]
      refine .more (h.1 _) (skipBlanks_comma _) ?_
      rwa [hskip]

theorem readsName_writeText (h : Utf8.IsScalar name) (rest : Text) :
    ReadsName (writeText name ++ (Text.ofString ": " ++ rest)) name (.ofChar ' ' :: rest) := by
  refine ⟨name.flatMap escaped ++ .ofChar '"' :: (Text.ofString ": " ++ rest),
    Text.ofString ": " ++ rest, ?_, readText_flatMap h, skipBlanks_colon _⟩
  simp [writeText]

theorem skipBlanks_writeText (name rest : Text) :
    skipBlanks (writeText name ++ rest) = writeText name ++ rest :=
  skipBlanks_of_not_isBlank (by decide)

theorem readsMembers_write (hfaithful : ∀ member ∈ members, IsFaithful room member.2)
    (hscalar : ∀ member ∈ members, Utf8.IsScalar member.1)
    (h : ∀ member ∈ members, IsReadBack room member.2) (hne : members ≠ [])
    (hnames : ((before ++ members).map (·.1)).Nodup) (rest : Text) :
    ReadsMembers room before (Text.join ", " (writeMembers members) ++ .ofChar '}' :: rest)
      (before ++ members) rest := by
  induction members generalizing before with
  | nil => exact absurd rfl hne
  | cons member members ih =>
    obtain ⟨name, v⟩ := member
    rw [List.forall_mem_cons] at hfaithful hscalar h
    have hnew : name ∉ before.map (·.1) := by
      rw [List.map_append, List.nodup_append] at hnames
      exact fun hmem => hnames.2.2 name hmem name (by simp) rfl
    have hinsert : insertMember name v before = before ++ [(name, v)] := insertEntry_of_not_mem hnew
    have hvalue (t : Text) : Reads room (skipBlanks (.ofChar ' ' :: (write v ++ t))) v t := by
      rw [skipBlanks_space, skipBlanks_write hfaithful.1]
      exact h.1 t
    cases members with
    | nil =>
      rw [← hinsert]
      have hwritten : Text.join ", " (writeMembers [(name, v)]) ++ .ofChar '}' :: rest =
          writeText name ++ (Text.ofString ": " ++ (write v ++ .ofChar '}' :: rest)) := by
        simp [writeMembers, Text.join]
      rw [hwritten]
      exact .last (readsName_writeText hscalar.1 _) (hvalue _)
        (skipBlanks_of_not_isBlank (by decide))
    | cons next members =>
      obtain ⟨nextName, w⟩ := next
      have hall : before ++ (name, v) :: (nextName, w) :: members =
          insertMember name v before ++ (nextName, w) :: members := by
        rw [hinsert, List.append_assoc]
        rfl
      have hmore := ih hfaithful.2 hscalar.2 h.2 (by simp) (hall ▸ hnames)
      obtain ⟨more, hjoin⟩ := exists_join_eq ", "
        (writeText nextName ++ Text.ofString ": " ++ write w) (writeMembers members)
      have hskip : skipBlanks (.ofChar ' ' ::
          (Text.join ", " (writeMembers ((nextName, w) :: members)) ++ .ofChar '}' :: rest)) =
          Text.join ", " (writeMembers ((nextName, w) :: members)) ++ .ofChar '}' :: rest := by
        rw [skipBlanks_space, writeMembers, hjoin]
        simp only [List.append_assoc]
        exact skipBlanks_writeText nextName _
      rw [hall, writeMembers, Text.join_cons (by simp [writeMembers])]
      simp only [List.append_assoc]
      refine .more (readsName_writeText hscalar.1 _) (hvalue _) (skipBlanks_comma _) ?_
      rwa [hskip]

theorem reads_null (rest : Text) : Reads room (write .null ++ rest) .null rest := ⟨1, rfl⟩

theorem reads_bool (b : Bool) (rest : Text) :
    Reads room (write (.bool b) ++ rest) (.bool b) rest := by
  cases b <;> exact ⟨1, rfl⟩

theorem reads_text (h : Utf8.IsScalar t) (rest : Text) :
    Reads room (write (.text t) ++ rest) (.text t) rest := by
  have hstep : ValueStep 0 room (.ofChar '"' :: (t.flatMap escaped ++ .ofChar '"' :: rest))
      (.text t) rest := .text (readText_flatMap h)
  refine ⟨1, ?_⟩
  simpa [write, writeText] using hstep.readValue

/-- **What is written is read again**, at the start of any text. -/
theorem reads_write (h : IsFaithful room v) : IsReadBack room v := by
  induction h with
  | null => exact reads_null
  | bool b => exact reads_bool b
  | text h => exact reads_text h
  | @array _ elements h ih =>
    intro rest
    have hwrite : write (.array elements) ++ rest =
        .ofChar '[' :: (Text.join ", " (writeElements elements) ++ .ofChar ']' :: rest) := by
      simp [write, bracketed]
    rw [hwrite]
    cases elements with
    | nil => exact ⟨1, (ValueStep.emptyArray (skipBlanks_of_not_isBlank (by decide))).readValue⟩
    | cons v elements =>
      obtain ⟨fuel, hfuel⟩ := readsElements_write h ih (by simp) rest
      obtain ⟨c, s, hs, hblank, hbracket⟩ := exists_write_eq_cons (h v (by simp))
      obtain ⟨more, hmore⟩ := exists_join_eq ", " (write v) (writeElements elements)
      rw [writeElements, hmore, hs] at hfuel ⊢
      exact ⟨fuel + 1,
        (ValueStep.array (skipBlanks_of_not_isBlank hblank) hbracket hfuel).readValue⟩
  | @object _ members hnames hscalar h ih =>
    intro rest
    have hwrite : write (.object members) ++ rest =
        .ofChar '{' :: (Text.join ", " (writeMembers members) ++ .ofChar '}' :: rest) := by
      simp [write, braced]
    rw [hwrite]
    cases members with
    | nil => exact ⟨1, (ValueStep.emptyObject (skipBlanks_of_not_isBlank (by decide))).readValue⟩
    | cons member members =>
      obtain ⟨name, v⟩ := member
      obtain ⟨fuel, hfuel⟩ : ReadsMembers _ []
          (Text.join ", " (writeMembers ((name, v) :: members)) ++ .ofChar '}' :: rest)
          ((name, v) :: members) rest :=
        readsMembers_write h hscalar ih (by simp) hnames rest
      obtain ⟨more, hmore⟩ := exists_join_eq ", "
        (writeText name ++ Text.ofString ": " ++ write v) (writeMembers members)
      rw [writeMembers, hmore] at hfuel ⊢
      exact ⟨fuel + 1, (ValueStep.object (skipBlanks_of_not_isBlank (by decide)) (by decide)
        hfuel).readValue⟩

/-! ## Written characters -/

/-- A character of ASCII that is seen, or a space. -/
def IsVisible (c : CodePoint) : Prop := 0x20 ≤ c.val ∧ c.val < 0x7F

instance (c : CodePoint) : Decidable (IsVisible c) := inferInstanceAs (Decidable (_ ∧ _))

theorem isVisible_ofDigit {d : Nat} (h : d < 16) : IsVisible (.ofDigit d) := by
  revert d
  decide

theorem isVisible_unitEscape (h : n < 0x10000) : ∀ d ∈ unitEscape n, IsVisible d := by
  have hmod (m : Nat) : IsVisible (.ofDigit (m % 16)) :=
    isVisible_ofDigit (Nat.mod_lt _ (by decide))
  rw [unitEscape, Text.ofNatHex_four h, List.forall_mem_append]
  refine ⟨by decide, ?_⟩
  simp only [List.forall_mem_cons]
  exact ⟨isVisible_ofDigit (by omega), hmod _, hmod _, hmod _, by simp⟩

theorem isVisible_escaped (c : CodePoint) : ∀ d ∈ escaped c, IsVisible d := by
  have hlt := c.isLt
  unfold escaped
  split; · decide
  split; · decide
  split; · decide
  split; · decide
  split; · decide
  split; · decide
  split; · decide
  split
  · rw [List.forall_mem_singleton]
    assumption
  split
  · exact isVisible_unitEscape ‹_›
  · rw [List.forall_mem_append]
    exact ⟨isVisible_unitEscape (by omega), isVisible_unitEscape (by omega)⟩

theorem isVisible_writeText (t : Text) : ∀ d ∈ writeText t, IsVisible d := by
  intro d hd
  simp only [writeText, List.cons_append, List.mem_cons, List.mem_append, List.not_mem_nil,
    or_false] at hd
  rcases hd with rfl | hd | rfl
  · decide
  · obtain ⟨c, -, hc⟩ := List.mem_flatMap.mp hd
    exact isVisible_escaped c d hc
  · decide

theorem isVisible_join {sep : Text} {pieces : List Text} (hsep : ∀ d ∈ sep, IsVisible d)
    (h : ∀ piece ∈ pieces, ∀ d ∈ piece, IsVisible d) : ∀ d ∈ Text.join sep pieces, IsVisible d := by
  intro d hd
  by_cases hmem : d ∈ sep
  · exact hsep d hmem
  · obtain ⟨piece, hpiece, hd⟩ := Text.mem_of_mem_join hmem hd
    exact h piece hpiece d hd

theorem writeMembers_eq_map (members : List (Text × Json)) :
    writeMembers members =
      members.map fun member => writeText member.1 ++ Text.ofString ": " ++ write member.2 := by
  induction members with
  | nil => rfl
  | cons member members ih => rw [writeMembers, ih, List.map_cons]

theorem isVisible_write (h : IsFaithful room v) : ∀ d ∈ write v, IsVisible d := by
  have hclosed (opening closing : CodePoint) (t : Text) (hopening : IsVisible opening)
      (hclosing : IsVisible closing) (ht : ∀ d ∈ t, IsVisible d) :
      ∀ d ∈ opening :: t ++ [closing], IsVisible d := by
    rw [List.forall_mem_append, List.forall_mem_cons, List.forall_mem_singleton]
    exact ⟨⟨hopening, ht⟩, hclosing⟩
  induction h with
  | null => decide
  | bool b => cases b <;> decide
  | text h => exact isVisible_writeText _
  | @array _ elements h ih =>
    rw [write, writeElements_eq_map]
    refine hclosed _ _ _ (by decide) (by decide) (isVisible_join (by decide) ?_)
    rw [List.forall_mem_map]
    exact ih
  | @object _ members hnames hscalar h ih =>
    rw [write, writeMembers_eq_map]
    refine hclosed _ _ _ (by decide) (by decide) (isVisible_join (by decide) ?_)
    rw [List.forall_mem_map]
    intro member hmember
    rw [List.forall_mem_append, List.forall_mem_append]
    exact ⟨⟨isVisible_writeText _, by decide⟩, ih member hmember⟩

/-- **A written document is read as it was.** -/
theorem readDocument_write (h : IsFaithful room v) :
    readDocument room (write v) = .ok v := by
  obtain ⟨c, s, hwrite, hblank, -⟩ := exists_write_eq_cons h
  have hmark : (write v).head? ≠ some byteOrderMark := by
    intro hhead
    have hvisible := isVisible_write h byteOrderMark (List.mem_of_mem_head? hhead)
    exact absurd hvisible (by decide)
  have hread : readValue (2 * (write v).length + 2) room (write v) = .ok (v, []) := by
    have hreads := reads_write h []
    rw [List.append_nil] at hreads
    exact hreads.readValue_of_le (by omega)
  have hskip : skipBlanks (write v) = write v := by
    rw [hwrite]
    exact skipBlanks_of_not_isBlank hblank
  rw [readDocument, if_neg hmark, hskip, hread]
  rfl

/-- What is written has no line ends. -/
theorem unixLines_write (h : IsFaithful room v) : (write v).unixLines = write v := by
  have hlines (t : Text) (ht : ∀ d ∈ t, IsVisible d) : t.unixLines = t := by
    induction t with
    | nil => rfl
    | cons c t ih =>
      rw [List.forall_mem_cons] at ht
      have hc : c ≠ .carriageReturn := by
        rintro rfl
        exact absurd ht.1 (by decide)
      rw [Text.unixLines.eq_def]
      simp only [hc, if_false, ih ht.2]
  exact hlines _ (isVisible_write h)

/-- What is written has bytes. -/
theorem isScalar_write (h : IsFaithful room v) : Utf8.IsScalar (write v) := by
  intro d hd
  have hvisible := isVisible_write h d hd
  rw [CodePoint.isSurrogate_eq_false_iff]
  exact .inl (Nat.lt_trans hvisible.2 (by decide))

end Json

end CollectionInterfaces
