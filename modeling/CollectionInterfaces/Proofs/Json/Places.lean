import CollectionInterfaces.Proofs.Json.Reading
import Mathlib.Logic.Relation

/-!
# Places in a document

A reader goes from a part of a document to the parts in it (`Enters`), with less room for containers
inside of one. All places that it comes to in this way can be listed (`mem_entered`).
-/

namespace CollectionInterfaces.Json

/-- What is read at a place inside a document. -/
inductive Part
  | value
  | elements
  | members

/-- A part of a document that starts at a text, with the room that is left for containers. -/
structure Place where
  part : Part
  room : Nat
  text : Text

/-- From a part of a document the reader goes to another part. Everything in between was read. -/
inductive Enters : Place → Place → Prop
  | array : skipBlanks t = d :: rest → d ≠ CodePoint.ofChar ']' →
      Enters ⟨.value, room + 1, CodePoint.ofChar '[' :: t⟩ ⟨.elements, room, d :: rest⟩
  | object : skipBlanks t = d :: rest → d ≠ CodePoint.ofChar '}' →
      Enters ⟨.value, room + 1, CodePoint.ofChar '{' :: t⟩ ⟨.members, room, d :: rest⟩
  | element : Enters ⟨.elements, room, t⟩ ⟨.value, room, t⟩
  | nextElement : Reads room t v rest → skipBlanks rest = CodePoint.ofChar ',' :: next →
      Enters ⟨.elements, room, t⟩ ⟨.elements, room, skipBlanks next⟩
  | member : ReadsName t name next → Enters ⟨.members, room, t⟩ ⟨.value, room, skipBlanks next⟩
  | nextMember : ReadsName t name next → Reads room (skipBlanks next) v rest →
      skipBlanks rest = CodePoint.ofChar ',' :: after →
      Enters ⟨.members, room, t⟩ ⟨.members, room, skipBlanks after⟩

/-- Inside a part of a document the reader comes to a part. -/
abbrev Visits : Place → Place → Prop := Relation.ReflTransGen Enters

/-! ## Lists of places -/

variable {name next rest start half s t : Text} {place place' : Place} {room : Nat}

/-- A name in front of a text and the text after its colon. -/
def readName? : Text → Option (Text × Text)
  | [] => none
  | c :: s =>
    match readText (c :: s) [] s with
    | .error _ => none
    | .ok (name, rest) =>
      match skipBlanks rest with
      | [] => none
      | d :: next => if c = .ofChar '"' ∧ d = .ofChar ':' then some (name, next) else none

/-- The place where a part goes on after a value, if there is a comma. -/
def following (part : Part) (room : Nat) (t : Text) : List Place :=
  match readValue (2 * t.length) room t with
  | .error _ => []
  | .ok (_, rest) =>
    match skipBlanks rest with
    | [] => []
    | c :: next => if c = .ofChar ',' then [⟨part, room, skipBlanks next⟩] else []

/-- The places that the reader may enter. -/
def entered : Place → List Place
  | ⟨.value, room + 1, c :: t⟩ =>
    if c = .ofChar '[' then [⟨.elements, room, skipBlanks t⟩]
    else if c = .ofChar '{' then [⟨.members, room, skipBlanks t⟩]
    else []
  | ⟨.value, _, _⟩ => []
  | ⟨.elements, room, t⟩ => ⟨.value, room, t⟩ :: following .elements room t
  | ⟨.members, room, t⟩ =>
    match readName? t with
    | none => []
    | some (_, next) =>
      ⟨.value, room, skipBlanks next⟩ :: following .members room (skipBlanks next)

theorem readName?_of_readsName (h : ReadsName t name next) : readName? t = some (name, next) := by
  obtain ⟨s, rest, rfl, htext, hnext⟩ := h
  simp [readName?, htext, hnext]

theorem following_of_reads {part : Part} {v : Json} (h : Reads room t v rest)
    (hrest : skipBlanks rest = .ofChar ',' :: next) :
    following part room t = [⟨part, room, skipBlanks next⟩] := by
  have hread : readValue (2 * t.length) room t = .ok (v, rest) := h.readValue_of_le (by omega)
  simp [following, hread, hrest]

theorem mem_entered (h : Enters place place') : place' ∈ entered place := by
  cases h with
  | array hblanks => simp [entered, hblanks]
  | object hblanks => simp [entered, hblanks]
  | element => exact List.mem_cons_self
  | nextElement hvalue hblanks => simp [entered, following_of_reads hvalue hblanks]
  | member hname => simp [entered, readName?_of_readsName hname]
  | nextMember hname hvalue hblanks =>
    simp [entered, readName?_of_readsName hname, following_of_reads hvalue hblanks]

theorem suffix_of_readText (h : readText start half t = .ok (s, rest)) : rest <:+ t := by
  fun_induction readText start half t generalizing s with
  | case1 | case3 | case4 | case10 | case11 | case13 => cases h
  | case2 =>
    cases h
    exact List.suffix_cons _ _
  | case8 =>
    rename_i ih
    have hsuffix := ih h
    simp [List.suffix_cons_iff, hsuffix]
  | case5 | case6 | case7 | case9 | case12 | case14 =>
    rename_i ih
    obtain ⟨more, hmore, -⟩ := prepend_eq_ok_iff.mp h
    have hsuffix := ih hmore
    simp [List.suffix_cons_iff, hsuffix]

/-- The place of a name starts with the name and its colon. -/
theorem exists_of_readsName (h : ReadsName t name next) : ∃ w, t = w ++ .ofChar ':' :: next := by
  obtain ⟨s, rest, rfl, htext, hnext⟩ := h
  have hcolon : .ofChar ':' :: next <:+ rest := hnext ▸ List.dropWhile_suffix _
  obtain ⟨w, hw⟩ := hcolon.trans ((suffix_of_readText htext).trans (List.suffix_cons _ _))
  exact ⟨w, hw.symm⟩

end CollectionInterfaces.Json
