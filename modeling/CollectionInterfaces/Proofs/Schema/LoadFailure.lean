import CollectionInterfaces.Proofs.Disk.Operations
import CollectionInterfaces.Proofs.Json.Stops
import CollectionInterfaces.Proofs.Schema.Keys
import CollectionInterfaces.Proofs.Yaml.Stops

/-!
# Schemas that are not loaded

Most failures to load a schema are reported as failures of the document. Those that are not are
said exactly (`Schema.load_unreported_iff`): the path cannot be named on any disk, the text is JSON
and its reader comes to an integer that is too long or to a container that there is no room for, it
is YAML and its reader comes to something that it cannot convert or has no room for, or there is no
room to show a key.
-/

namespace CollectionInterfaces

open Disk

/-- A step of loading fails, and the failure is not reported. -/
def FailsUnreported {α : Type} (r : Except LoadFault α) : Prop :=
  ∃ fault, r = .error fault ∧ fault.isReported = false

/-- Why loading a schema fails without a report. -/
inductive Schema.Unreported [i : Interpreter] (d : Disk) (cwd : Location) (p : Path) : Prop
  /-- The path cannot be named. -/
  | path : ¬p.IsNameable → Unreported d cwd p
  /-- The text is JSON, and its reader comes to what it goes no further at. -/
  | json {t : Text} {failure : Json.Failure} : d.readText cwd p = .ok t → p.isYaml = false →
      failure.isFault = false → Json.Meets i.jsonRoom failure t → Unreported d cwd p
  /-- The text is YAML, and its reader comes to what it goes no further at. -/
  | yaml {t : Text} {e : Yaml.Error} : d.readText cwd p = .ok t → p.isYaml = true →
      e.isFault = false → (∀ c ∈ t, Yaml.isAllowed c = true) → Yaml.TextStops t e →
      Unreported d cwd p
  /-- The text is YAML, and what is inside a key is too deep for the key to be shown. -/
  | key {t : Text} {document : Document} {v : Value} : d.readText cwd p = .ok t →
      p.isYaml = true → parseObject p t = .ok document → v ∈ givenKeys document →
      v.text? = none → v.obstacle? document.knots = some .depth → Unreported d cwd p

variable {α β : Type} {d : Disk} {cwd : Location} {p : Path} {t : Text} {fault : LoadFault}

theorem failsUnreported_error : FailsUnreported (.error fault : Except LoadFault α) ↔
    fault.isReported = false := by
  simp [FailsUnreported]

theorem failsUnreported_bind {r : Except LoadFault α} {next : α → Except LoadFault β} :
    FailsUnreported (r >>= next) ↔
      FailsUnreported r ∨ ∃ a, r = .ok a ∧ FailsUnreported (next a) := by
  cases r with
  | error fault => simp [FailsUnreported, bind, Except.bind]
  | ok a => simp [FailsUnreported, bind, Except.bind]

theorem failsUnreported_mapError {ε : Type} {r : Except ε α} {wrap : ε → LoadFault} :
    FailsUnreported (r.mapError wrap) ↔ ∃ e, r = .error e ∧ (wrap e).isReported = false := by
  unfold FailsUnreported
  constructor
  · rintro ⟨fault, h, hreported⟩
    obtain ⟨e, he, rfl⟩ := mapError_eq_error_iff.mp h
    exact ⟨e, he, hreported⟩
  · rintro ⟨e, he, hreported⟩
    exact ⟨wrap e, mapError_eq_error_iff.mpr ⟨e, he, rfl⟩, hreported⟩

/-- A text is not read without a report exactly if the path cannot be named. -/
theorem readText_unreported_iff :
    FailsUnreported ((d.readText cwd p).mapError .unreadable) ↔ ¬p.IsNameable := by
  rw [failsUnreported_mapError, ← exists_pathBytes_error_iff]
  unfold readText readBytes
  cases hlocate : d.locate cwd .follow p with
  | error fault =>
    cases fault with
    | path cause => simp [locate_eq_path_iff.mp hlocate, LoadFault.isReported]
    | disk cause =>
      have hbytes : ¬∃ fault, pathBytes p = .error fault := by
        rintro ⟨fault, hfault⟩
        rw [locate_eq_path_iff.mpr hfault] at hlocate
        cases hlocate
      simp [hbytes, LoadFault.isReported]
  | ok r =>
    have hbytes : ¬∃ fault, pathBytes p = .error fault := by
      rintro ⟨fault, hfault⟩
      rw [locate_eq_path_iff.mpr hfault] at hlocate
      cases hlocate
    cases r with
    | missing place => simp [hbytes, LoadFault.isReported]
    | found place node =>
      cases node with
      | file content =>
        cases hdecode : Utf8.decode content <;> simp [hbytes, hdecode, LoadFault.isReported]
      | directory | link => simp [hbytes, LoadFault.isReported]

namespace Schema

section

variable [i : Interpreter]

theorem readDocument_json_unreported_iff (hp : p.isYaml = false) :
    FailsUnreported (readDocument p t) ↔
      ∃ failure, failure.isFault = false ∧ Json.Meets i.jsonRoom failure t := by
  rw [readDocument, if_neg (by simp [hp]), failsUnreported_mapError]
  simp only [map_eq_error_iff, Json.parse, mapError_eq_error_iff]
  constructor
  · rintro ⟨_, ⟨failure, hread, rfl⟩, hreported⟩
    have hfailure : failure.isFault = false := by
      cases failure with
      | fault => cases hreported
      | tooManyDigits | exhausted => rfl
    exact ⟨failure, hfailure, (Json.readDocument_eq_error_iff hfailure).mp hread⟩
  · rintro ⟨failure, hfailure, hmeets⟩
    refine ⟨_, ⟨failure, (Json.readDocument_eq_error_iff hfailure).mpr hmeets, rfl⟩, ?_⟩
    cases failure with
    | fault => cases hfailure
    | tooManyDigits | exhausted => rfl

theorem readDocument_yaml_unreported_iff (hp : p.isYaml = true) :
    FailsUnreported (readDocument p t) ↔
      ∃ e, e.isFault = false ∧ (∀ c ∈ t, Yaml.isAllowed c = true) ∧ Yaml.TextStops t e := by
  have hreported (e : Yaml.Error) : (LoadFault.yaml e).isReported = e.isFault := by
    cases e <;> rfl
  rw [readDocument, if_pos hp, failsUnreported_mapError]
  simp only [hreported]
  constructor
  · rintro ⟨e, hparse, he⟩
    exact ⟨e, he, (Yaml.parse_eq_error_iff he).mp hparse⟩
  · rintro ⟨e, he, hstops⟩
    exact ⟨e, (Yaml.parse_eq_error_iff he).mpr hstops, he⟩

theorem parseObject_unreported_iff :
    FailsUnreported (parseObject p t) ↔ FailsUnreported (readDocument p t) := by
  unfold parseObject
  rw [failsUnreported_bind]
  refine ⟨?_, .inl⟩
  rintro (h | ⟨document, -, hroot⟩)
  · exact h
  · split at hroot
    · cases failsUnreported_error.mp hroot
    · obtain ⟨_, hok, -⟩ := hroot
      cases hok
    · cases failsUnreported_error.mp hroot

/-- A document that is read is refused without a report only if a key cannot be shown. -/
theorem parse_unreported_iff : FailsUnreported (parse p t) ↔
    FailsUnreported (readDocument p t) ∨
      ∃ document, parseObject p t = .ok document ∧ keysFit document = false := by
  unfold parse
  rw [failsUnreported_bind, parseObject_unreported_iff]
  refine or_congr_right (exists_congr fun document => and_congr_right fun _ => ?_)
  cases hkeys : keysFit document with
  | true =>
    rw [if_pos rfl, failsUnreported_mapError]
    exact ⟨nofun, nofun⟩
  | false =>
    rw [if_neg (by simp), failsUnreported_error]
    exact ⟨fun _ => rfl, fun _ => rfl⟩

theorem keysFit_eq_false_iff {document : Document} : keysFit document = false ↔
    ∃ key ∈ givenKeys document, key.text? = none ∧
      key.obstacle? document.knots = some .depth := by
  simp [keysFit, List.all_eq_false]

/-- **When loading fails without a report.** -/
theorem load_unreported_iff : FailsUnreported (load d cwd p) ↔ Unreported d cwd p := by
  unfold load
  rw [failsUnreported_bind, readText_unreported_iff]
  simp only [mapError_eq_ok_iff, parse_unreported_iff]
  constructor
  · rintro (hname | ⟨t, htext, hread | ⟨document, hobject, hkeys⟩⟩)
    · exact .path hname
    · cases hyaml : p.isYaml with
      | true =>
        obtain ⟨e, he, hallowed, hstops⟩ := (readDocument_yaml_unreported_iff hyaml).mp hread
        exact .yaml htext hyaml he hallowed hstops
      | false =>
        obtain ⟨failure, hfailure, hmeets⟩ := (readDocument_json_unreported_iff hyaml).mp hread
        exact .json htext hyaml hfailure hmeets
    · have hyaml : p.isYaml = true := by
        by_contra hjson
        rw [keysFit_of_parseObject (eq_false_of_ne_true hjson) hobject] at hkeys
        cases hkeys
      obtain ⟨key, hkey, htext?, hdepth⟩ := keysFit_eq_false_iff.mp hkeys
      exact .key htext hyaml hobject hkey htext? hdepth
  · intro h
    cases h with
    | path hname => exact .inl hname
    | json htext hyaml hfailure hmeets =>
      have hread := (readDocument_json_unreported_iff hyaml).mpr ⟨_, hfailure, hmeets⟩
      exact .inr ⟨_, htext, .inl hread⟩
    | yaml htext hyaml he hallowed hstops =>
      have hread := (readDocument_yaml_unreported_iff hyaml).mpr ⟨_, he, hallowed, hstops⟩
      exact .inr ⟨_, htext, .inl hread⟩
    | key htext hyaml hobject hkey htext? hdepth =>
      have hkeys := keysFit_eq_false_iff.mpr ⟨_, hkey, htext?, hdepth⟩
      exact .inr ⟨_, htext, .inr ⟨_, hobject, hkeys⟩⟩

end

end Schema

end CollectionInterfaces
