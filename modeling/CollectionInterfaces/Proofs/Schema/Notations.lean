import CollectionInterfaces.Proofs.Yaml.Flow.Tokens
import CollectionInterfaces.Proofs.Schema.Parsing

/-!
# Schemas in both notations

A schema in JSON is a schema in YAML as long as it keeps to what the notations share
(`Schema.parse_yaml_of_json`). A text that does not may be another schema in YAML, or none: a tab
between two of its tokens is enough (`Schema.not_parse_yaml_of_json`).
-/

namespace CollectionInterfaces.Schema

section

variable [i : Interpreter] {p q : Path} {t : Text} {s : Schema}

/-- A text that is a schema in JSON is an object. -/
theorem exists_object_of_parse (hp : p.isYaml = false) (h : parse p t = .ok s) :
    ∃ members, Json.parse t = .ok (.object members) := by
  obtain ⟨d, hobject, -⟩ := parse_eq_ok_iff.mp h
  obtain ⟨members, hjson, -⟩ := (parseObject_json_eq_ok_iff hp).mp hobject
  exact ⟨members, hjson⟩

theorem readDocument_yaml {members : List (Text × Json)} (hp : p.isYaml = false)
    (hq : q.isYaml = true) (h : Json.parse t = .ok (.object members))
    (hshares : Yaml.SharesNotation t) : readDocument q t = readDocument p t := by
  have hread := Json.parse_eq_ok_iff.mp h
  have hyaml := Yaml.parse_of_readDocument hread ⟨members, rfl⟩ hshares
  simp [readDocument, hp, hq, h, hyaml, Except.map, Except.mapError]

end

/-- A schema in both notations. -/
def sharedText : Text :=
  "\x7b\"collections\":[\x7b\"databaseId\":\"db\",
  \"name\" :\"é\",\"attributes\":[\x7b\"key\":12\x7d]\x7d]\x7d"

theorem sharesNotation_sharedText : Yaml.SharesNotation (i := .usual) sharedText := by
  have hcharacters : Yaml.HasSharedCharacters sharedText :=
    ⟨by decide +kernel, by decide +kernel, by decide +kernel,
      Json.isPairFree_of_not_mem (by decide +kernel)⟩
  have hread : (Json.readDocument 490 sharedText).toBool = true := by decide +kernel
  have hfit : Yaml.fitAll 20 ⟨.value, 490, Json.skipBlanks sharedText⟩ = true := by decide +kernel
  exact .mk (i := .usual) hcharacters (exists_eq_ok_of_toBool hread)
    (Yaml.sharesPlaces_of_fitAll hfit)

end CollectionInterfaces.Schema
