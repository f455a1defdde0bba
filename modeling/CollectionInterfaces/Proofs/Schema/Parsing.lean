import CollectionInterfaces.Proofs.Results
import CollectionInterfaces.Schema.Loading

/-!
# Documents that are parsed

A document that a schema is taken from was read in one of the notations, and its root is a mapping
(`Schema.parseObject_eq_ok_iff`). It is a schema if there is also room to show the keys of its
attributes (`Schema.parse_eq_ok_iff`).
-/

namespace CollectionInterfaces.Schema

variable [i : Interpreter] {p : Path} {t : Text} {d : Document} {s : Schema}
  {members : List (Text × Json)}

theorem readDocument_json_eq_ok_iff (hp : p.isYaml = false) :
    readDocument p t = .ok d ↔ ∃ v, Json.parse t = .ok v ∧ v.toDocument = d := by
  unfold readDocument
  rw [if_neg (by simp [hp]), mapError_eq_ok_iff, map_eq_ok_iff]

theorem readDocument_yaml_eq_ok_iff (hp : p.isYaml = true) :
    readDocument p t = .ok d ↔ Yaml.parse t = .ok d := by
  unfold readDocument
  rw [if_pos hp, mapError_eq_ok_iff]

theorem parseObject_eq_ok_iff :
    parseObject p t = .ok d ↔
      readDocument p t = .ok d ∧ ∃ entries, d.knots.untie d.root = .map entries := by
  unfold parseObject
  rw [bind_eq_ok_iff]
  constructor
  · rintro ⟨read, hread, hroot⟩
    split at hroot
    · cases hroot
    · rename_i entries hentries
      cases hroot
      exact ⟨hread, entries, hentries⟩
    · cases hroot
  · rintro ⟨hread, entries, hentries⟩
    exact ⟨d, hread, by rw [hentries]⟩

/-- In JSON the root of a document is a mapping exactly if the text is an object. -/
theorem parseObject_json_eq_ok_iff (hp : p.isYaml = false) :
    parseObject p t = .ok d ↔
      ∃ members, Json.parse t = .ok (.object members) ∧ (Json.object members).toDocument = d := by
  rw [parseObject_eq_ok_iff, readDocument_json_eq_ok_iff hp]
  constructor
  · rintro ⟨⟨v, hjson, rfl⟩, entries, hroot⟩
    cases v with
    | object members => exact ⟨members, hjson, rfl⟩
    | _ => cases hroot
  · rintro ⟨members, hjson, rfl⟩
    exact ⟨⟨_, hjson, rfl⟩, _, rfl⟩

theorem parse_of_keysFit (hobject : parseObject p t = .ok d) (hkeys : keysFit d = true) :
    parse p t = (ofDocument d).mapError .invalid := by
  rw [parse, hobject]
  exact if_pos hkeys

theorem parse_of_not_keysFit (hobject : parseObject p t = .ok d) (hkeys : keysFit d = false) :
    parse p t = .error .exhausted := by
  rw [parse, hobject]
  exact if_neg (by simp [hkeys])

theorem parse_eq_ok_iff : parse p t = .ok s ↔
    ∃ d, parseObject p t = .ok d ∧ keysFit d = true ∧ ofDocument d = .ok s := by
  constructor
  · intro h
    obtain ⟨d, hobject, hresult⟩ := bind_eq_ok_iff.mp h
    cases hkeys : keysFit d with
    | true =>
      rw [if_pos hkeys] at hresult
      exact ⟨d, hobject, hkeys, mapError_eq_ok_iff.mp hresult⟩
    | false =>
      rw [if_neg (by simp [hkeys])] at hresult
      cases hresult
  · rintro ⟨d, hobject, hkeys, hschema⟩
    rw [parse_of_keysFit hobject hkeys, hschema]
    rfl

end CollectionInterfaces.Schema
