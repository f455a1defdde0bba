import CollectionInterfaces.Proofs.Json.Places
import CollectionInterfaces.Proofs.Yaml.Flow.Quoted
import CollectionInterfaces.Yaml.Document

/-!
# What JSON and YAML share

A text in JSON is read as YAML as well as long as it keeps to what both have (`SharesNotation`):
there are conditions on its characters, on the names of members and on literals and numbers, and
there must be room for its brackets. The conditions on the places in a document can be checked by
going over all of them (`sharesPlaces_of_fitAll`).
-/

namespace CollectionInterfaces

open Json (skipBlanks Visits Enters ReadsName)

variable {place place' : Json.Place} {t u : Text} {fuel : Nat}

theorem Json.isPairFree_of_not_mem (h : .ofChar '\\' ∉ t) : IsPairFree t := by
  rintro u high rest low rest' hu ⟨a, b, c, d, rfl, -⟩
  exact absurd (hu.subset List.mem_cons_self) h

namespace Yaml

/-- The characters of a text mean the same in both notations. -/
structure HasSharedCharacters (t : Text) : Prop where
  allowed : ∀ c ∈ t, isAllowed c = true
  tabs : .ofChar '\t' ∉ t
  breaks : ∀ c ∈ t, isForeignBreak c = false
  pairs : Json.IsPairFree t

/-- Wherever a reader of JSON comes to a name, the name is fit for a key up to the colon, and
wherever it comes to a literal or a number, that does not look like a text. -/
structure SharesPlaces (place : Json.Place) : Prop where
  names : ∀ room w name next, Visits place ⟨.members, room, w ++ .ofChar ':' :: next⟩ →
    ReadsName (w ++ .ofChar ':' :: next) name next → IsKeySized w
  words : ∀ room word v rest, Visits place ⟨.value, room, word ++ rest⟩ →
    Json.readAtom (word ++ rest) = .ok (v, rest) → tagByLook word ≠ .text

/-- A text in JSON keeps to what YAML has as well, and a reader of YAML has room for its
brackets. -/
structure SharesNotation [i : Interpreter] (t : Text) : Prop where
  characters : HasSharedCharacters t
  nesting : ∃ v, Json.readDocument i.yamlRoom t = .ok v
  places : SharesPlaces ⟨.value, i.yamlRoom, skipBlanks t⟩

theorem HasSharedCharacters.suffix (h : HasSharedCharacters t) (hsuffix : u <:+ t) :
    HasSharedCharacters u where
  allowed c hc := h.allowed c (hsuffix.subset hc)
  tabs hmem := h.tabs (hsuffix.subset hmem)
  breaks c hc := h.breaks c (hsuffix.subset hc)
  pairs := h.pairs.suffix hsuffix

theorem SharesPlaces.enters (h : SharesPlaces place) (henters : Enters place place') :
    SharesPlaces place' where
  names room w name next hvisits := h.names room w name next (.head henters hvisits)
  words room word v rest hvisits := h.words room word v rest (.head henters hvisits)

/-! ## Checking the places -/

/-- What stands at a place, if it is a name, a literal or a number, is shared. -/
def fits : Json.Place → Bool
  | ⟨.value, _, t⟩ =>
    match Json.readAtom t with
    | .error _ => true
    | .ok (_, rest) => tagByLook (t.take (t.length - rest.length)) ≠ .text
  | ⟨.elements, _, _⟩ => true
  | ⟨.members, _, t⟩ =>
    match Json.readName? t with
    | none => true
    | some (_, next) => IsKeySized (t.take (t.length - (next.length + 1)))

/-- Everything that a reader of JSON comes to from a place within some steps is shared, and it
comes no further. -/
def fitAll : (fuel : Nat) → Json.Place → Bool
  | 0, _ => false
  | fuel + 1, place => fits place && (Json.entered place).all (fitAll fuel)

theorem fits_of_visits (h : fitAll fuel place = true) (hvisits : Visits place place') :
    fits place' = true := by
  induction hvisits using Relation.ReflTransGen.head_induction_on generalizing fuel with
  | refl =>
    obtain _ | fuel := fuel
    · cases h
    · exact (Bool.and_eq_true_iff.mp h).1
  | head henters _ ih =>
    obtain _ | fuel := fuel
    · cases h
    · have hnext := (Bool.and_eq_true_iff.mp h).2
      exact ih (List.all_eq_true.mp hnext _ (Json.mem_entered henters))

theorem sharesPlaces_of_fitAll (h : fitAll fuel place = true) : SharesPlaces place where
  names room w name next hvisits hname := by
    have hfits := fits_of_visits h hvisits
    simpa [fits, Json.readName?_of_readsName hname] using hfits
  words room word v rest hvisits hatom := by
    have hfits := fits_of_visits h hvisits
    simpa [fits, hatom] using hfits

end Yaml

end CollectionInterfaces
