import CollectionInterfaces.Proofs.Json.Values
import CollectionInterfaces.Proofs.Value.Insertion
import CollectionInterfaces.Proofs.Yaml.Flow.Atoms
import CollectionInterfaces.Proofs.Yaml.Flow.Lexemes
import CollectionInterfaces.Proofs.Yaml.Flow.Shared
import CollectionInterfaces.Proofs.Yaml.Flow.Values
import Mathlib.Data.List.TakeWhile

/-!
# Tokens of a document that is read as JSON

While the reader of JSON goes over a document, the lexer goes over the same text, one lexeme after
another, and finds the tokens of a spelling with the value of the document (`spells_of_read`). The
tokens are put together to that value (`parse_of_readDocument`).
-/

namespace CollectionInterfaces.Yaml

open Json (skipBlanks skipBlanks_of_not_isBlank Visits Enters ReadsName)

variable {s s' : Lexer} {level level' : Nat} {kinds kinds' : List TokenKind} {kind : TokenKind}
  {d : CodePoint} {key key' : Bool} {place place' : Json.Place} {t t' u w rest next : Text}
  {fuel room : Nat} {v : Json}

/-- A literal or a number starts with a letter or a digit, except for a minus. -/
theorem exists_head_atom (h : Json.IsAtom w v) : ∃ d w',
    (w = d :: w' ∨ w = .ofChar '-' :: d :: w') ∧ Lexer.isLetterOrDigit d = true := by
  have hnumber : ∀ {negative : Bool} {whole rest : Text}, Json.IsWhole whole → ∃ d w',
      (Json.signText negative ++ (whole ++ rest) = d :: w' ∨
        Json.signText negative ++ (whole ++ rest) = .ofChar '-' :: d :: w') ∧
      Lexer.isLetterOrDigit d = true := by
    intro negative whole rest hwhole
    obtain ⟨d, w', rfl⟩ := List.exists_cons_of_ne_nil hwhole.ne_nil
    have hd : Lexer.isLetterOrDigit d = true := by
      simp [Lexer.isLetterOrDigit, hwhole.digits d List.mem_cons_self]
    cases negative with
    | true => exact ⟨d, _, .inr rfl, hd⟩
    | false => exact ⟨d, _, .inl rfl, hd⟩
  cases h with
  | literal h =>
    simp only [Json.literals, List.mem_cons, Prod.mk.injEq, List.not_mem_nil, or_false] at h
    rcases h with ⟨rfl, -⟩ | ⟨rfl, -⟩ | ⟨rfl, -⟩ | ⟨rfl, -⟩ | ⟨rfl, -⟩ | ⟨rfl, -⟩
    iterate 5 exact ⟨_, _, .inl rfl, rfl⟩
    exact ⟨_, _, .inr rfl, rfl⟩
  | @int negative whole hwhole => simpa using @hnumber negative whole [] hwhole
  | float hwhole => exact hnumber hwhole

namespace Lexer

/-! ## Lexers on their way -/

theorem Next.suffix (h : s.Next s') : s'.cursor.rest <:+ s.cursor.rest := by
  have hends := step_ends (s := s) (List.suffix_refl _)
  rw [h.step] at hends
  exact hends

theorem suffix_of_steps (h : Relation.ReflTransGen Next s s') :
    s'.cursor.rest <:+ s.cursor.rest := by
  induction h with
  | refl => exact List.suffix_refl _
  | tail _ hnext ih => exact hnext.suffix.trans ih

/-- A lexer has found tokens and stands in front of a text, up to blanks. -/
structure StandsAt (s : Lexer) (level : Nat) (kinds : List TokenKind) (t : Text) (key : Bool) :
    Prop where
  stands : s.Stands level kinds
  skip : skipBlanks s.cursor.rest = skipBlanks t
  shared : HasSharedCharacters s.cursor.rest
  key : key = true → s.keyAllowed = true

/-- Steps lead to a lexer that has found tokens and stands in front of a text. -/
def Leads (s : Lexer) (level : Nat) (kinds : List TokenKind) (t : Text) (key : Bool) : Prop :=
  ∃ s', Relation.ReflTransGen Next s s' ∧ s'.StandsAt level kinds t key

theorem Leads.trans (h : s.Leads level kinds t key)
    (hnext : ∀ s' : Lexer, s'.StandsAt level kinds t key → s'.Leads level' kinds' t' key') :
    s.Leads level' kinds' t' key' := by
  obtain ⟨s', hsteps, hs'⟩ := h
  obtain ⟨s'', hsteps', hs''⟩ := hnext s' hs'
  exact ⟨s'', hsteps.trans hsteps', hs''⟩

namespace StandsAt

theorem leads (h : s.StandsAt level kinds t key) (hsteps : Relation.ReflTransGen Next s s')
    (hs' : s'.Stands level' kinds') (hrest : skipBlanks s'.cursor.rest = skipBlanks t')
    (hkey : key' = true → s'.keyAllowed = true) : s.Leads level' kinds' t' key' :=
  ⟨s', hsteps, hs', hrest, h.shared.suffix (suffix_of_steps hsteps), hkey⟩

theorem of_skipBlanks (h : s.StandsAt level kinds t key) :
    s.StandsAt level kinds (skipBlanks t) key :=
  { h with skip := by rw [h.skip, skipBlanks_skipBlanks] }

theorem skip_cons (h : s.StandsAt level kinds (d :: t) key) (hd : Json.isBlank d = false) :
    skipBlanks s.cursor.rest = d :: t := by rw [h.skip, skipBlanks_of_not_isBlank hd]

theorem skip_suffix (h : s.StandsAt level kinds t key) : skipBlanks t <:+ s.cursor.rest := by
  rw [← h.skip]
  exact List.dropWhile_suffix _

theorem leads_open {a : Char} (h : s.StandsAt level kinds (.ofChar a :: t) key)
    (hopen : 0 < level ∨ s.indent = -1)
    (ha : a = '[' ∧ kind = .flowSequenceStart ∨ a = '{' ∧ kind = .flowMappingStart) :
    s.Leads (level + 1) (kind :: kinds) t true := by
  have hskip := h.skip_cons (by rcases ha with ⟨rfl, -⟩ | ⟨rfl, -⟩ <;> decide)
  obtain ⟨s', hnext, hs', hrest, hkey⟩ := h.stands.next_open hopen h.shared.tabs hskip ha
  exact h.leads (.single hnext) hs' (congrArg _ hrest) fun _ => hkey

theorem leads_close {a : Char} (h : s.StandsAt (level + 1) kinds t key)
    (ht : skipBlanks t = .ofChar a :: rest)
    (ha : a = ']' ∧ kind = .flowSequenceEnd ∨ a = '}' ∧ kind = .flowMappingEnd) :
    s.Leads level (kind :: kinds) rest false := by
  obtain ⟨s', hnext, hs', hrest⟩ := h.stands.next_close h.shared.tabs (h.skip.trans ht) ha
  exact h.leads (.single hnext) hs' (congrArg _ hrest) nofun

theorem leads_comma (h : s.StandsAt level kinds t key) (ht : skipBlanks t = .ofChar ',' :: rest) :
    s.Leads level (.flowEntry :: kinds) rest true := by
  obtain ⟨s', hnext, hs', hrest, hkey⟩ := h.stands.next_comma h.shared.tabs (h.skip.trans ht)
  exact h.leads (.single hnext) hs' (congrArg _ hrest) fun _ => hkey

theorem leads_text {start text : Text} (h : s.StandsAt (level + 1) kinds (.ofChar '"' :: t) key)
    (htext : Json.readText start [] t = .ok (text, rest)) :
    s.Leads (level + 1) (.scalar text false :: kinds) rest false := by
  have hshared := h.shared.suffix (.trans (List.suffix_cons _ _) h.skip_suffix)
  obtain ⟨w, _, rfl, rfl, hstands⟩ :=
    Json.standsFor_of_readText htext hshared.pairs fun _ _ _ h => absurd rfl h
  obtain ⟨s', hnext, hs', hrest, -⟩ := h.stands.next_text h.shared.tabs (h.skip_cons (by decide))
    hstands fun d hd => hshared.breaks d (List.mem_append_left _ hd)
  exact h.leads (.single hnext) hs' (congrArg _ hrest) nofun

theorem leads_atom (h : s.StandsAt (level + 1) kinds (w ++ rest) key) (hatom : Json.IsAtom w v)
    (hends : EndsItem rest) : s.Leads (level + 1) (.scalar w true :: kinds) rest false := by
  have hhead := exists_head_atom hatom
  have hskip : skipBlanks s.cursor.rest = w ++ rest := by
    obtain ⟨d, w', rfl | rfl, hd⟩ := hhead
    · exact h.skip_cons (not_of_isLetterOrDigit hd).2.2.2.2.2
    · exact h.skip_cons (by decide)
  obtain ⟨s', hnext, hs', hrest⟩ :=
    h.stands.next_atom h.shared.tabs hskip (isAtomPart_atom hatom) hhead hends
  exact h.leads (.single hnext) hs' (by rw [hrest, skipBlanks_skipBlanks]) nofun

theorem leads_name {name : Text} (h : s.StandsAt (level + 1) kinds t true)
    (hplaces : SharesPlaces ⟨.members, room, t⟩) (hname : ReadsName t name next) :
    s.Leads (level + 1) (.value :: .scalar name false :: .key :: kinds) next false := by
  obtain ⟨all, hall⟩ := Json.exists_of_readsName hname
  have hsized := hplaces.names room all name next (hall ▸ .refl) (hall ▸ hname)
  obtain ⟨body, after, rfl, htext, hcolon⟩ := hname
  have hshared := h.shared.suffix (.trans (List.suffix_cons _ _) h.skip_suffix)
  obtain ⟨w, _, rfl, rfl, hstands⟩ :=
    Json.standsFor_of_readText htext hshared.pairs fun _ _ _ h => absurd rfl h
  have hafter : after.takeWhile Json.isBlank ++ .ofChar ':' :: next = after := by
    rw [← hcolon]
    exact List.takeWhile_append_dropWhile
  -- the name with its quotes and the blanks after it are what stands in front of the colon
  have hword : .ofChar '"' :: (w ++ [.ofChar '"']) ++ after.takeWhile Json.isBlank = all := by
    refine List.append_cancel_right (.trans ?_ hall)
    rw [List.append_assoc, hafter]
    simp
  rw [← hword] at hsized
  obtain ⟨s', hnext, hs', hrest, hcandidate⟩ := h.stands.next_text h.shared.tabs
    (h.skip_cons (by decide)) hstands fun d hd => hshared.breaks d (List.mem_append_left _ hd)
  obtain ⟨s'', hnext', hs'', hrest'⟩ := hs'.next_colon (hcandidate (h.key rfl) hsized.of_append)
    (h.shared.suffix hnext.suffix).tabs (hrest.trans hafter.symm)
    (List.all_eq_true.mp List.all_takeWhile) hsized
  exact h.leads (.head hnext (.single hnext')) hs'' (congrArg _ hrest') nofun

end StandsAt

end Lexer

/-! ## Parts of a document -/

/-- Over a document the lexer finds the tokens of a spelling with its value, which has no more
brackets inside each other than there is room for. Outside of brackets it has to be an object, and
there must be no block around it. -/
def SpellsValue (room : Nat) (t : Text) (v : Json) (rest : Text) : Prop :=
  ∃ tree : Spelling, tree.value = v.toValue ∧ tree.IsConvertible ∧ tree.Fits room ∧
    ∀ (s : Lexer) (level : Nat) (kinds : List TokenKind) (key : Bool),
      s.StandsAt level kinds t key →
      (0 < level ∨ s.indent = -1 ∧ ∃ members, v = .object members) →
      s.Leads level (tree.kinds.reverse ++ kinds) rest false

/-- Over elements and the closing bracket after them the lexer finds the tokens of items. -/
def SpellsElements (room : Nat) (t : Text) (elements : List Json) (rest : Text) : Prop :=
  ∃ items : List Spelling, items ≠ [] ∧ Spelling.itemValues items = Json.elementValues elements ∧
    (∀ item ∈ items, item.IsConvertible ∧ item.Fits room) ∧
    ∀ (s : Lexer) (level : Nat) (kinds : List TokenKind) (key : Bool),
      s.StandsAt (level + 1) kinds t key →
      s.Leads level ((Spelling.itemKinds true items).reverse ++ kinds) rest false

/-- Over members and the closing bracket after them the lexer finds the tokens of entries. All
members are then those before with the entries inserted. -/
def SpellsMembers (room : Nat) (members : List (Text × Json)) (t : Text)
    (all : List (Text × Json)) (rest : Text) : Prop :=
  ∃ entries : List (Text × Spelling), entries ≠ [] ∧
    Json.memberValues all = (Spelling.entryValues entries).foldl
      (fun merged entry => insertEntry Scalar.sameKey (.text entry.1) entry.2 merged)
      (Json.memberValues members) ∧
    (∀ entry ∈ entries, entry.2.IsConvertible ∧ entry.2.Fits room) ∧
    ∀ (s : Lexer) (level : Nat) (kinds : List TokenKind), s.StandsAt (level + 1) kinds t true →
      s.Leads level ((Spelling.entryKinds true entries).reverse ++ kinds) rest false

theorem itemKinds_false {items : List Spelling} (h : items ≠ []) :
    Spelling.itemKinds false items = .flowEntry :: Spelling.itemKinds true items := by
  cases items with
  | nil => exact absurd rfl h
  | cons item items => simp [Spelling.itemKinds]

theorem entryKinds_false {entries : List (Text × Spelling)} (h : entries ≠ []) :
    Spelling.entryKinds false entries = .flowEntry :: Spelling.entryKinds true entries := by
  cases entries with
  | nil => exact absurd rfl h
  | cons entry entries => simp [Spelling.entryKinds]

theorem memberValues_insertMember {name : Text} {members : List (Text × Json)} :
    Json.memberValues (Json.insertMember name v members) =
      insertEntry Scalar.sameKey (.text name) v.toValue (Json.memberValues members) := by
  have hsame (a b : Text) : decide (a = b) = Scalar.sameKey (.text a) (.text b) := by
    have htext : a = b ↔ Scalar.text a = .text b := by simp
    exact decide_eq_decide.mpr htext
  rw [Json.memberValues_eq_map, Json.memberValues_eq_map]
  exact map_insertEntry (f := Scalar.text) (g := Json.toValue) fun member _ => hsame member.1 name

section

variable {elements : List Json} {members all : List (Text × Json)} {name text start after : Text}

theorem spellsValue_text (htext : Json.readText start [] t = .ok (text, rest)) :
    SpellsValue room (.ofChar '"' :: t) (.text text) rest := by
  refine ⟨.quoted text, rfl, .quoted text, .quoted, fun s level kinds key h hlevel => ?_⟩
  obtain _ | level := level
  · simp at hlevel
  · exact h.leads_text htext

theorem spellsValue_atom (hatom : Json.IsAtom w v) (hlook : tagByLook w ≠ .text)
    (hends : EndsItem rest) : SpellsValue room (w ++ rest) v rest := by
  obtain ⟨x, hvalue, hscalar⟩ := scalarOf?_atom hatom hlook
  have hplain := Spelling.plainScalar_eq hscalar
  refine ⟨.plain w, by rw [hvalue, Spelling.value, hplain],
    .plain (hplain ▸ hscalar), .plain, fun s level kinds key h hlevel => ?_⟩
  obtain _ | level := level
  · obtain hlevel | ⟨-, members, rfl⟩ := hlevel
    · omega
    · simp [Json.toValue] at hvalue
  · exact h.leads_atom hatom hends

theorem spellsValue_emptyArray (hblanks : skipBlanks t = .ofChar ']' :: rest) :
    SpellsValue (room + 1) (.ofChar '[' :: t) (.array []) rest := by
  refine ⟨.list [], rfl, .list nofun, .list nofun, fun s level kinds key h hlevel => ?_⟩
  refine (h.leads_open (hlevel.imp_right (·.1)) (.inl ⟨rfl, rfl⟩)).trans fun s h => ?_
  exact h.leads_close hblanks (.inl ⟨rfl, rfl⟩)

theorem spellsValue_array (hblanks : skipBlanks t = d :: u)
    (helements : SpellsElements room (d :: u) elements rest) :
    SpellsValue (room + 1) (.ofChar '[' :: t) (.array elements) rest := by
  obtain ⟨items, -, hvalues, hitems, hleads⟩ := helements
  refine ⟨.list items, by rw [Spelling.value, hvalues, Json.toValue],
    .list fun item hitem => (hitems item hitem).1, .list fun item hitem => (hitems item hitem).2,
    fun s level kinds key h hlevel => ?_⟩
  refine (h.leads_open (hlevel.imp_right (·.1)) (.inl ⟨rfl, rfl⟩)).trans fun s h => ?_
  simpa [Spelling.kinds] using hleads s level _ true (hblanks ▸ h.of_skipBlanks)

theorem spellsValue_emptyObject (hblanks : skipBlanks t = .ofChar '}' :: rest) :
    SpellsValue (room + 1) (.ofChar '{' :: t) (.object []) rest := by
  refine ⟨.map [], rfl, .map nofun, .map nofun, fun s level kinds key h hlevel => ?_⟩
  refine (h.leads_open (hlevel.imp_right (·.1)) (.inr ⟨rfl, rfl⟩)).trans fun s h => ?_
  exact h.leads_close hblanks (.inr ⟨rfl, rfl⟩)

theorem spellsValue_object (hblanks : skipBlanks t = d :: u)
    (hmembers : SpellsMembers room [] (d :: u) members rest) :
    SpellsValue (room + 1) (.ofChar '{' :: t) (.object members) rest := by
  obtain ⟨entries, -, hvalues, hentries, hleads⟩ := hmembers
  refine ⟨.map entries, by rw [Spelling.value, Json.toValue, hvalues]; rfl,
    .map fun entry hentry => (hentries entry hentry).1,
    .map fun entry hentry => (hentries entry hentry).2, fun s level kinds key h hlevel => ?_⟩
  refine (h.leads_open (hlevel.imp_right (·.1)) (.inr ⟨rfl, rfl⟩)).trans fun s h => ?_
  simpa [Spelling.kinds] using hleads s level _ (hblanks ▸ h.of_skipBlanks)

theorem spellsElements_last (hvalue : SpellsValue room t v u)
    (hblanks : skipBlanks u = .ofChar ']' :: rest) : SpellsElements room t [v] rest := by
  obtain ⟨tree, hvalue, hconv, hfits, hleads⟩ := hvalue
  refine ⟨[tree], nofun, by rw [Spelling.itemValues, hvalue]; rfl, by simpa using ⟨hconv, hfits⟩,
    fun s level kinds key h => ?_⟩
  refine (hleads s _ kinds key h (.inl (Nat.succ_pos level))).trans fun s h => ?_
  simpa [Spelling.itemKinds] using h.leads_close hblanks (.inl ⟨rfl, rfl⟩)

theorem spellsElements_more (hvalue : SpellsValue room t v u)
    (hblanks : skipBlanks u = .ofChar ',' :: next)
    (hmore : SpellsElements room (skipBlanks next) elements rest) :
    SpellsElements room t (v :: elements) rest := by
  obtain ⟨tree, hvalue, hconv, hfits, hleads⟩ := hvalue
  obtain ⟨items, hne, hvalues, hitems, hmore⟩ := hmore
  refine ⟨tree :: items, nofun, by rw [Spelling.itemValues, hvalue, hvalues]; rfl,
    List.forall_mem_cons.mpr ⟨⟨hconv, hfits⟩, hitems⟩, fun s level kinds key h => ?_⟩
  refine (hleads s _ kinds key h (.inl (Nat.succ_pos level))).trans fun s h => ?_
  refine (h.leads_comma hblanks).trans fun s h => ?_
  simpa [Spelling.itemKinds, itemKinds_false hne] using hmore s level _ true h.of_skipBlanks

theorem leads_member {tree : Spelling} {s : Lexer} (hplaces : SharesPlaces ⟨.members, room, t⟩)
    (hname : ReadsName t name next)
    (hleads : ∀ (s : Lexer) (level : Nat) (kinds : List TokenKind) (key : Bool),
      s.StandsAt level kinds (skipBlanks next) key →
      (0 < level ∨ s.indent = -1 ∧ ∃ members, v = .object members) →
      s.Leads level (tree.kinds.reverse ++ kinds) u false)
    (h : s.StandsAt (level + 1) kinds t true) :
    s.Leads (level + 1)
      (tree.kinds.reverse ++ .value :: .scalar name false :: .key :: kinds) u false :=
  (h.leads_name hplaces hname).trans fun s h =>
    hleads s _ _ false h.of_skipBlanks (.inl (Nat.succ_pos level))

theorem spellsMembers_last (hplaces : SharesPlaces ⟨.members, room, t⟩)
    (hname : ReadsName t name next) (hvalue : SpellsValue room (skipBlanks next) v u)
    (hblanks : skipBlanks u = .ofChar '}' :: rest) :
    SpellsMembers room members t (Json.insertMember name v members) rest := by
  obtain ⟨tree, hvalue, hconv, hfits, hleads⟩ := hvalue
  refine ⟨[(name, tree)], nofun, ?_, by simpa using ⟨hconv, hfits⟩, fun s level kinds h => ?_⟩
  · rw [memberValues_insertMember, Spelling.entryValues, hvalue]
    rfl
  · refine (leads_member hplaces hname hleads h).trans fun s h => ?_
    simpa [Spelling.entryKinds] using h.leads_close hblanks (.inr ⟨rfl, rfl⟩)

theorem spellsMembers_more (hplaces : SharesPlaces ⟨.members, room, t⟩)
    (hname : ReadsName t name next) (hvalue : SpellsValue room (skipBlanks next) v u)
    (hblanks : skipBlanks u = .ofChar ',' :: after)
    (hmore : SpellsMembers room (Json.insertMember name v members) (skipBlanks after) all rest) :
    SpellsMembers room members t all rest := by
  obtain ⟨tree, hvalue, hconv, hfits, hleads⟩ := hvalue
  obtain ⟨entries, hne, hvalues, hentries, hmore⟩ := hmore
  refine ⟨(name, tree) :: entries, nofun, ?_,
    List.forall_mem_cons.mpr ⟨⟨hconv, hfits⟩, hentries⟩,
    fun s level kinds h => ?_⟩
  · rw [hvalues, memberValues_insertMember, Spelling.entryValues, hvalue]
    rfl
  · refine (leads_member hplaces hname hleads h).trans fun s h => ?_
    refine (h.leads_comma hblanks).trans fun s h => ?_
    simpa [Spelling.entryKinds, entryKinds_false hne] using hmore s level _ h.of_skipBlanks

end

/-- What the reader of JSON reads, the lexer spells. -/
theorem spells_of_read (fuel : Nat) :
    (∀ room t v rest, Json.readValue fuel room t = .ok (v, rest) →
      SharesPlaces ⟨.value, room, t⟩ → EndsItem rest → SpellsValue room t v rest) ∧
    (∀ room t elements rest, Json.readElements fuel room t = .ok (elements, rest) →
      SharesPlaces ⟨.elements, room, t⟩ → SpellsElements room t elements rest) ∧
    (∀ room members t all rest, Json.readMembers fuel room members t = .ok (all, rest) →
      SharesPlaces ⟨.members, room, t⟩ → SpellsMembers room members t all rest) := by
  -- only an atom could go on in what comes after it, so only values need to know where they end
  induction fuel with
  | zero => exact ⟨nofun, nofun, nofun⟩
  | succ fuel ih =>
    obtain ⟨ihValue, ihElements, ihMembers⟩ := ih
    have hends : ∀ {a : Char} {t rest : Text}, skipBlanks t = .ofChar a :: rest →
        a = ',' ∨ a = ']' ∨ a = '}' → EndsItem t := by
      intro a t rest ht ha d hd
      rw [ht] at hd
      obtain rfl := Option.some.inj hd
      simpa using ha
    refine ⟨?_, ?_, ?_⟩
    · intro room t v rest h hplaces hends
      cases Json.valueStep_of_readValue h with
      | text htext => exact spellsValue_text htext
      | emptyArray hblanks => exact spellsValue_emptyArray hblanks
      | emptyObject hblanks => exact spellsValue_emptyObject hblanks
      | array hblanks hd helements =>
        exact spellsValue_array hblanks
          (ihElements _ _ _ _ helements (hplaces.enters (.array hblanks hd)))
      | object hblanks hd hmembers =>
        exact spellsValue_object hblanks
          (ihMembers _ _ _ _ _ hmembers (hplaces.enters (.object hblanks hd)))
      | atom htext harray hobject hatom =>
        obtain ⟨word, hword, hisAtom⟩ := Json.isAtom_of_readAtom hatom
        rw [hword] at hatom hplaces ⊢
        exact spellsValue_atom hisAtom (hplaces.words room word v rest .refl hatom) hends
    · intro room t elements rest h hplaces
      cases Json.elementsStep_of_readElements h with
      | last hvalue hblanks =>
        exact spellsElements_last (ihValue _ _ _ _ hvalue (hplaces.enters .element)
          (hends hblanks (.inr (.inl rfl)))) hblanks
      | more hvalue hblanks helements =>
        have hafter := hplaces.enters (.nextElement ⟨fuel, hvalue⟩ hblanks)
        exact spellsElements_more (ihValue _ _ _ _ hvalue (hplaces.enters .element)
          (hends hblanks (.inl rfl))) hblanks (ihElements _ _ _ _ helements hafter)
    · intro room members t all rest h hplaces
      cases Json.membersStep_of_readMembers h with
      | last hname hvalue hblanks =>
        exact spellsMembers_last hplaces hname (ihValue _ _ _ _ hvalue
          (hplaces.enters (.member hname)) (hends hblanks (.inr (.inr rfl)))) hblanks
      | more hname hvalue hblanks hmembers =>
        have hafter := hplaces.enters (.nextMember hname ⟨fuel, hvalue⟩ hblanks)
        exact spellsMembers_more hplaces hname (ihValue _ _ _ _ hvalue
          (hplaces.enters (.member hname)) (hends hblanks (.inl rfl))) hblanks
          (ihMembers _ _ _ _ _ hmembers hafter)

/-! ## Whole texts -/

theorem Lexer.run_succ : run (fuel + 1) s =
    match s.step with
    | .error e => ⟨s.certainTokens, some e⟩
    | .ok t => if t.isDone then ⟨t.newest.reverse, none⟩ else run fuel t := rfl

/-- Steps to the last one are a run. -/
theorem Lexer.run_of_steps {last : Lexer} (hsteps : Relation.ReflTransGen Next s s')
    (hlast : s'.step = .ok last) (hdone : last.isDone = true)
    (hfuel : s.cursor.rest.length < fuel) : run fuel s = ⟨last.newest.reverse, none⟩ := by
  induction hsteps using Relation.ReflTransGen.head_induction_on generalizing fuel with
  | refl =>
    obtain _ | fuel := fuel
    · cases hfuel
    · simp [run_succ, hlast, hdone]
  | head hnext _ ih =>
    obtain _ | fuel := fuel
    · cases hfuel
    · have hless := hnext.less
      simpa [run_succ, hnext.step, hnext.more] using ih (by omega)

variable [i : Interpreter]

theorem exists_tokens (h : Json.readDocument i.yamlRoom t = .ok v)
    (hobject : ∃ members, v = .object members) (hshares : SharesNotation t) :
    ∃ (tree : Spelling) (tokens : List Token), tree.value = v.toValue ∧ tree.IsConvertible ∧
      tree.Fits i.yamlRoom ∧ TokenStream.ofText t = ⟨tokens, none⟩ ∧
      tokens.map (·.kind) = .streamStart :: (tree.kinds ++ [.streamEnd]) := by
  obtain ⟨rest, ⟨fuel, hread⟩, hend⟩ := Json.reads_of_readDocument h
  have hends : EndsItem rest := by
    rw [EndsItem, hend]
    simp
  obtain ⟨tree, hvalue, hconv, hfits, hleads⟩ :=
    (spells_of_read fuel).1 _ _ v rest hread hshares.places hends
  have hstart : (Lexer.ofText t).StandsAt 0 [.streamStart] (skipBlanks t) true :=
    ⟨⟨rfl, rfl, rfl, Lexer.isCalm_nil, rfl⟩, (skipBlanks_skipBlanks t).symm, hshares.characters,
      fun _ => rfl⟩
  obtain ⟨s', hsteps, hs'⟩ := hleads _ _ _ _ hstart (.inr ⟨rfl, hobject⟩)
  obtain ⟨last, hlast, hdone, hkinds⟩ := hs'.stands.step_end hs'.shared.tabs (hs'.skip.trans hend)
  refine ⟨tree, last.newest.reverse, hvalue, hconv, hfits,
    Lexer.run_of_steps hsteps hlast hdone (Nat.lt_add_of_pos_right (by decide)), ?_⟩
  rw [List.map_reverse, hkinds]
  simp

/-- **An object that is read as JSON is read as YAML**, with the same value, if its text keeps to
what the notations share. -/
theorem parse_of_readDocument (h : Json.readDocument room t = .ok v)
    (hobject : ∃ members, v = .object members) (hshares : SharesNotation t) :
    parse t = .ok v.toDocument := by
  obtain ⟨w, hroom⟩ := hshares.nesting
  obtain rfl := Json.readDocument_unique h hroom
  obtain ⟨tree, tokens, hvalue, hconv, hfits, htokens, hkinds⟩ :=
    exists_tokens hroom hobject hshares
  obtain ⟨g, root, hgraph, hholds⟩ := Graph.ofTokens_of_kinds hkinds
  have hallowed : t.dropWhile isAllowed = [] := by
    rw [List.dropWhile_eq_nil_iff]
    exact hshares.characters.allowed
  have hwithin : ((TokenStream.ofText t).within i.yamlRoom).toGraph = .ok (g, some root) := by
    rw [htokens, TokenStream.within, TokenStream.withinFrom_of_fits (hkinds ▸ hfits.document)]
    exact mapError_eq_ok_iff.mpr hgraph
  unfold parse
  rw [hallowed]
  dsimp only
  rw [hwithin]
  dsimp only [bind, Except.bind]
  rw [Graph.toDocument_of_holds hholds hconv, hvalue]
  rfl

end CollectionInterfaces.Yaml
