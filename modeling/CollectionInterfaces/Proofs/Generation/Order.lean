import CollectionInterfaces.Proofs.Generation.Outcome
import Mathlib.Data.List.Nodup

/-!
# The order of collections

Collections with different files can be written in any order, as long as there is room for the
directories that are missing: if a run over them succeeds, so does a run over any permutation of
them for which there is room, and both leave the same disk (`generate_perm`). Which directories are
there already when a file is written depends on the order, and with them the room that is needed
(`generate_perm_fails`), but not which of them are there in the end.
-/

namespace CollectionInterfaces

open Disk

variable {config : Config} {cwd place : Location} {d : Disk} {c : Collection}
  {cs ds : List Collection}

theorem Writable.perm (h : Writable config cwd d cs) (hperm : cs.Perm ds) :
    Writable config cwd d ds := by
  refine ⟨?_, ?_, ?_⟩
  · intro c hc
    exact h.admits c (hperm.mem_iff.mpr hc)
  · intro c hc
    exact h.encodes c (hperm.mem_iff.mpr hc)
  · intro c hc other hother
    exact h.apart c (hperm.mem_iff.mpr hc) other (hperm.mem_iff.mpr hother)

/-- Where files are different, a place has the file of one collection at most. -/
theorem lastAt?_eq_some_iff (hfiles : (cs.map (fileLocation config cwd)).Nodup) :
    lastAt? config cwd cs place = some c ↔ c ∈ cs ∧ fileLocation config cwd c = place := by
  constructor
  · exact of_lastAt?
  · rintro ⟨hc, hplace⟩
    cases hlast : lastAt? config cwd cs place with
    | none => exact absurd hplace (lastAt?_eq_none_iff.mp hlast c hc)
    | some last =>
      obtain ⟨hlastMem, hlastPlace⟩ := of_lastAt? hlast
      have heq : last = c :=
        List.inj_on_of_nodup_map hfiles hlastMem hc (hlastPlace.trans hplace.symm)
      rw [heq]

theorem lastAt?_perm (hfiles : (cs.map (fileLocation config cwd)).Nodup) (hperm : cs.Perm ds) :
    lastAt? config cwd cs place = lastAt? config cwd ds place := by
  have hfiles' : (ds.map (fileLocation config cwd)).Nodup :=
    (hperm.map (fileLocation config cwd)).nodup_iff.mp hfiles
  apply Option.ext
  intro c
  rw [lastAt?_eq_some_iff hfiles, lastAt?_eq_some_iff hfiles', hperm.mem_iff]

section

variable [i : Interpreter]

/-- There is room for files that are not deeper than the room. -/
theorem hasRoom_of_length_le
    (h : ∀ c ∈ cs, (interfacePath config c).names.length ≤ i.directoryRoom + 2) :
    HasRoom config cwd d cs := by
  rintro before c after rfl place hplace
  have hlength : ((interfacePath config c).parent.ancestor (i.directoryRoom + 1)).names = [] := by
    have hc := h c (by simp)
    rw [Path.ancestor_names, Path.parent, List.length_dropLast, List.take_eq_nil_iff]
    omega
  rw [Path.waypoints, Path.moves, hlength] at hplace
  cases hplace

end

/-- Two collections, the first of which needs a directory of the second on its way. -/
def crossingCollections : List Collection := [⟨"db/../other", "a", []⟩, ⟨"db", "b", []⟩]

/-- A collection whose database has a name that is so many directories deep. -/
def nestedCollection (levels : Nat) : Collection :=
  ⟨(List.replicate levels ("a/" : Text)).flatten, "x", []⟩

/-- The path of its file. -/
def nestedFile (levels : Nat) : Path :=
  ⟨.slash, ("out" : Text) :: List.replicate levels ("a" : Text) ++ [("X.ts" : Text)]⟩

/-- Two collections. There is room for the directories of the second one after the first one
only. -/
def nestedCollections : List Collection := [nestedCollection 600, nestedCollection 1200]

theorem interfacePath_nestedCollection :
    interfacePath outConfig (nestedCollection 600) = nestedFile 600 ∧
      interfacePath outConfig (nestedCollection 1200) = nestedFile 1200 := by
  decide +kernel

section

variable {levels : Nat}

theorem nestedFile_parent :
    (nestedFile levels).parent = 
      ⟨.slash, ("out" : Text) :: List.replicate levels ("a" : Text)⟩ := by
  rw [nestedFile, Path.parent, List.dropLast_concat]

theorem mem_nestedFile {name : Text} (h : name ∈ (nestedFile levels).names) :
    name = "out" ∨ name = "a" ∨ name = "X.ts" := by
  simp only [nestedFile, List.mem_append, List.mem_cons, List.mem_replicate, List.not_mem_nil,
    or_false] at h
  rcases h with (h | ⟨-, h⟩) | h
  · exact .inl h
  · exact .inr (.inl h)
  · exact .inr (.inr h)

theorem nestedFile_plain : Path.dotDot ∉ (nestedFile levels).names := by
  intro h
  rcases mem_nestedFile h with h | h | h <;> exact absurd h (by decide)

theorem nestedFile_location : (nestedFile levels).location [] =
    (nestedFile levels).names.map nameBytes :=
  Path.location_of_not_mem nestedFile_plain

theorem nestedFile_waypoints {p : Path} (h : p.OnWay (nestedFile levels)) :
    place ∈ p.waypoints [] ↔
      ∃ before, before ≠ [] ∧ before <+: p.names ∧ place = before.map nameBytes := by
  rw [Path.mem_waypoints_iff_of_not_mem fun hmem => nestedFile_plain (h.2.subset hmem),
    Path.start, Path.isAbsolute, h.1]
  rfl

theorem nestedFile_apart {other : Nat} :
    (nestedFile levels).location [] ∉ (nestedFile other).parent.waypoints [] := by
  rw [nestedFile_waypoints (Path.parent_onWay _), nestedFile_location]
  rintro ⟨before, -, hstarts, heq⟩
  have hfile : nameBytes "X.ts" ∈ before.map nameBytes := by
    rw [← heq]
    exact List.mem_map_of_mem (by simp [nestedFile])
  obtain ⟨name, hname, hbytes⟩ := List.mem_map.mp hfile
  have hmem := hstarts.subset hname
  rw [nestedFile_parent, List.mem_cons, List.mem_replicate] at hmem
  rcases hmem with rfl | ⟨-, rfl⟩ <;> exact absurd hbytes (by decide)

theorem nestedFile_ancestor {more : Nat} :
    (nestedFile levels).parent.ancestor more =
      ⟨.slash, (("out" : Text) :: List.replicate levels ("a" : Text)).take
        (levels + 1 - more)⟩ := by
  have hroot := (Path.ancestor_onWay (nestedFile levels).parent more).1
  have hnames := Path.ancestor_names (nestedFile levels).parent more
  rw [nestedFile_parent] at hroot hnames ⊢
  rw [List.length_cons, List.length_replicate] at hnames
  exact congrArg₂ Path.mk hroot hnames

theorem admits_nestedFile
    (h : (pathBytes (nestedFile levels)).map (fun bytes => decide (bytes.length ≤ maxPathBytes)) =
      .ok true) :
    Disk.empty.Admits [] (nestedFile levels) := by
  have hnode (place : Location) :
      Disk.empty.node? place = none ∨ Disk.empty.node? place = some .directory := by
    by_cases hplace : place = [] <;> simp [node?, empty, hplace]
  refine ⟨⟨?_, ?_⟩, ⟨"X.ts", List.getLast?_concat, by decide⟩, fun place _ => hnode place,
    .inl ?_, nestedFile_apart⟩
  · cases hbytes : pathBytes (nestedFile levels) with
    | error fault => simp [hbytes, Except.map] at h
    | ok bytes => exact ⟨bytes, rfl, by simpa [hbytes, Except.map] using h⟩
  · intro m hm
    obtain ⟨name, hname, rfl⟩ := List.mem_map.mp hm
    rcases mem_nestedFile hname with rfl | rfl | rfl <;> rintro _ ⟨⟩ <;> decide
  · rw [nestedFile_location]
    simp [node?, empty, nestedFile]

end

/-- All files can be written, whatever their order. -/
theorem writable_nestedCollections (hperm : cs.Perm nestedCollections) :
    Writable outConfig [] .empty cs := by
  obtain ⟨hfirst, hsecond⟩ := interfacePath_nestedCollection
  have hfile (c : Collection) (hc : c ∈ cs) : ∃ levels, interfacePath outConfig c =
      nestedFile levels ∧ Disk.empty.Admits [] (nestedFile levels) := by
    rcases List.mem_pair.mp (hperm.mem_iff.mp hc) with rfl | rfl
    · exact ⟨600, hfirst, admits_nestedFile (by decide +kernel)⟩
    · exact ⟨1200, hsecond, admits_nestedFile (by decide +kernel)⟩
  refine ⟨?_, ?_, ?_⟩
  · intro c hc
    obtain ⟨levels, hpath, hadmits⟩ := hfile c hc
    rwa [hpath]
  · intro c hc
    rcases List.mem_pair.mp (hperm.mem_iff.mp hc) with rfl | rfl <;> decide +kernel
  · intro c hc other hother
    obtain ⟨levels, hpath, -⟩ := hfile c hc
    obtain ⟨others, hpath', -⟩ := hfile other hother
    rw [fileLocation, directoryLocations, hpath, hpath']
    exact nestedFile_apart

theorem hasRoom_nestedCollections :
    HasRoom (i := .usual) outConfig [] .empty nestedCollections := by
  obtain ⟨hfirst, hsecond⟩ := interfacePath_nestedCollection
  have honWay : ((nestedFile 1200).parent.ancestor 981).OnWay (nestedFile 600).parent := by
    rw [nestedFile_ancestor, nestedFile_parent]
    have hnames : (("out" : Text) :: List.replicate 1200 ("a" : Text)).take 220 ++
        List.replicate 381 ("a" : Text) =
          ("out" : Text) :: List.replicate (min 219 1200 + 381) ("a" : Text) := by
      rw [List.take_succ_cons, List.take_replicate, List.cons_append,
        List.replicate_append_replicate]
    exact ⟨rfl, _, hnames⟩
  rintro (_ | ⟨first, _ | ⟨second, before⟩⟩) c after heq place hplace
  · obtain ⟨rfl, -⟩ := List.cons.inj heq
    rw [hfirst, nestedFile_ancestor] at hplace
    cases hplace
  · obtain ⟨rfl, hrest⟩ := List.cons.inj heq
    obtain ⟨rfl, -⟩ := List.cons.inj hrest
    rw [hsecond] at hplace
    rw [List.flatMap_singleton, directoryLocations, hfirst]
    exact .inr (honWay.waypoints_subset hplace)
  · cases before <;> simp [nestedCollections] at heq

theorem not_hasRoom_nestedCollections :
    ¬HasRoom (i := .usual) outConfig [] .empty nestedCollections.reverse := by
  intro hroom
  have hout : [nameBytes "out"] ∈
      ((interfacePath outConfig (nestedCollection 1200)).parent.ancestor 981).waypoints [] := by
    rw [interfacePath_nestedCollection.2,
      nestedFile_waypoints ((Path.ancestor_onWay _ _).trans (Path.parent_onWay _)),
      nestedFile_ancestor]
    exact ⟨["out"], by simp, ⟨_, rfl⟩, rfl⟩
  rcases hroom [] (nestedCollection 1200) [nestedCollection 600] rfl _ hout with hnode | hmem
  · cases hnode
  · cases hmem

end CollectionInterfaces
