import CollectionInterfaces.Value.Basic

/-!
# Entries with a key each

Entries are added one at a time, each in place of the entry with its key if there is one. So keys
stay apart (`pairwise_insertEntry`), in the order in which they came first (`map_fst_insertEntry`).
Where no key stands twice, keys in their order and what is found under them are all there is to know
about entries (`eq_of_lookup_eq`).
-/

namespace CollectionInterfaces

variable {κ ν : Type}

/-! ## One entry more -/

section

variable {same : κ → κ → Bool} {key : κ} {value : ν} {entries : List (κ × ν)} {entry : κ × ν}

theorem fst_of_mem_insertEntry (h : entry ∈ insertEntry same key value entries) :
    entry.1 = key ∨ ∃ other ∈ entries, entry.1 = other.1 := by
  induction entries with
  | nil => exact .inl (congrArg Prod.fst (List.mem_singleton.mp h))
  | cons other entries ih =>
    rw [insertEntry] at h
    split at h
    · rcases List.mem_cons.mp h with rfl | h
      · exact .inr ⟨other, List.mem_cons_self, rfl⟩
      · exact .inr ⟨entry, List.mem_cons_of_mem _ h, rfl⟩
    · rcases List.mem_cons.mp h with rfl | h
      · exact .inr ⟨_, List.mem_cons_self, rfl⟩
      · exact (ih h).imp_right fun ⟨first, hfirst, heq⟩ =>
          ⟨first, List.mem_cons_of_mem _ hfirst, heq⟩

theorem snd_of_mem_insertEntry (h : entry ∈ insertEntry same key value entries) :
    entry.2 = value ∨ ∃ other ∈ entries, entry.2 = other.2 := by
  induction entries with
  | nil => exact .inl (congrArg Prod.snd (List.mem_singleton.mp h))
  | cons other entries ih =>
    rw [insertEntry] at h
    split at h
    · rcases List.mem_cons.mp h with rfl | h
      · exact .inl rfl
      · exact .inr ⟨entry, List.mem_cons_of_mem _ h, rfl⟩
    · rcases List.mem_cons.mp h with rfl | h
      · exact .inr ⟨_, List.mem_cons_self, rfl⟩
      · exact (ih h).imp_right fun ⟨first, hfirst, heq⟩ =>
          ⟨first, List.mem_cons_of_mem _ hfirst, heq⟩

/-- An entry is added behind entries with other keys only. -/
theorem pairwise_insertEntry (h : (entries.map (·.1)).Pairwise fun k k' => same k k' = false) :
    ((insertEntry same key value entries).map (·.1)).Pairwise fun k k' => same k k' = false := by
  induction entries with
  | nil => exact List.pairwise_singleton _ _
  | cons other entries ih =>
    rw [List.map_cons, List.pairwise_cons] at h
    rw [insertEntry]
    split
    · exact List.pairwise_cons.mpr h
    · rename_i hother
      refine List.pairwise_cons.mpr ⟨?_, ih h.2⟩
      refine List.forall_mem_map.mpr fun entry hentry => ?_
      rcases fst_of_mem_insertEntry hentry with heq | ⟨before, hbefore, heq⟩
      · rw [heq]
        exact (Bool.not_eq_true _).mp hother
      · rw [heq]
        exact h.1 _ (List.mem_map_of_mem hbefore)

/-- It does not matter whether keys and values are changed before an entry is added or after it. -/
theorem map_insertEntry {κ' ν' : Type} {same' : κ' → κ' → Bool} {f : κ → κ'} {g : ν → ν'}
    (h : ∀ entry ∈ entries, same entry.1 key = same' (f entry.1) (f key)) :
    (insertEntry same key value entries).map (fun entry => (f entry.1, g entry.2)) =
      insertEntry same' (f key) (g value) (entries.map fun entry => (f entry.1, g entry.2)) := by
  induction entries with
  | nil => rfl
  | cons entry entries ih =>
    rw [List.forall_mem_cons] at h
    simp only [insertEntry, List.map_cons, ← h.1]
    split
    · rfl
    · rw [List.map_cons, ih h.2]

end

/-! ## Keys and what is found under them -/

section

variable [DecidableEq κ] {key : κ} {value : ν} {entries : List (κ × ν)}

/-- A new key comes last, and a known one keeps its place. -/
theorem map_fst_insertEntry [BEq κ] [LawfulBEq κ] :
    (insertEntry (fun a b => decide (a = b)) key value entries).map (·.1) =
      if key ∈ entries.map (·.1) then entries.map (·.1) else entries.map (·.1) ++ [key] := by
  induction entries with
  | nil => rfl
  | cons entry entries ih =>
    obtain ⟨k, v⟩ := entry
    by_cases hk : k = key
    · simp [insertEntry, hk]
    · simp only [insertEntry, hk, decide_false, Bool.false_eq_true, if_false, List.map_cons, ih,
        List.mem_cons, Ne.symm hk, false_or]
      split <;> rfl

theorem insertEntry_of_not_mem (h : key ∉ entries.map (·.1)) :
    insertEntry (fun a b => decide (a = b)) key value entries = entries ++ [(key, value)] := by
  induction entries with
  | nil => rfl
  | cons entry entries ih =>
    simp only [List.map_cons, List.mem_cons, not_or] at h
    rw [insertEntry, if_neg (by simpa using Ne.symm h.1), ih h.2, List.cons_append]

theorem nodup_insertEntry (h : (entries.map (·.1)).Nodup) :
    ((insertEntry (fun a b => decide (a = b)) key value entries).map (·.1)).Nodup := by
  have hsame {keys : List κ} :
      keys.Nodup ↔ keys.Pairwise fun a b => decide (a = b) = false := by
    simp only [List.Nodup, decide_eq_false_iff_not, ne_eq]
  rw [hsame] at h ⊢
  exact pairwise_insertEntry h

theorem lookup_insertEntry [BEq κ] [LawfulBEq κ] (key other : κ) (value : ν)
    (entries : List (κ × ν)) :
    (insertEntry (fun a b => decide (a = b)) key value entries).lookup other =
      if other = key then some value else entries.lookup other := by
  induction entries with
  | nil => grind [insertEntry]
  | cons entry rest ih =>
    obtain ⟨k, v⟩ := entry
    by_cases hk : k = key
    · grind [insertEntry]
    · simp only [insertEntry, hk, decide_false]
      grind

end

/-! ## Entries whose keys stand once -/

section

variable [BEq κ] [LawfulBEq κ] {entries entries' : List (κ × ν)} {key : κ}

theorem lookup_eq_none_iff_not_mem : entries.lookup key = none ↔ key ∉ entries.map (·.1) := by
  simp only [List.lookup_eq_none_iff, List.mem_map, not_exists, not_and]
  exact forall₂_congr fun entry _ => bne_iff_ne.trans ne_comm

theorem lookup_cons_of_ne {entry : κ × ν} (h : key ≠ entry.1) :
    (entry :: entries).lookup key = entries.lookup key := by
  rw [List.lookup_cons, beq_eq_false_iff_ne.mpr h]

/-- What is found does not depend on the order of entries. -/
theorem lookup_reverse (h : (entries.map (·.1)).Nodup) :
    entries.reverse.lookup key = entries.lookup key := by
  induction entries with
  | nil => rfl
  | cons entry entries ih =>
    rw [List.map_cons, List.nodup_cons] at h
    rw [List.reverse_cons, List.lookup_append, ih h.2]
    by_cases hkey : key = entry.1
    · subst hkey
      rw [lookup_eq_none_iff_not_mem.mpr h.1, Option.none_or, List.lookup_cons_self,
        List.lookup_cons_self]
    · rw [lookup_cons_of_ne hkey, lookup_cons_of_ne hkey, List.lookup_nil, Option.or_none]

theorem eq_of_lookup_eq (hkeys : entries.map (·.1) = entries'.map (·.1))
    (hnodup : (entries.map (·.1)).Nodup) (h : ∀ key, entries.lookup key = entries'.lookup key) :
    entries = entries' := by
  induction entries generalizing entries' with
  | nil => exact (List.map_eq_nil_iff.mp hkeys.symm).symm
  | cons entry entries ih =>
    cases entries' with
    | nil => cases hkeys
    | cons entry' entries' =>
      obtain ⟨k, v⟩ := entry
      obtain ⟨k', v'⟩ := entry'
      obtain ⟨rfl, hrest⟩ := List.cons.inj hkeys
      rw [List.map_cons, List.nodup_cons] at hnodup
      have hv : v = v' := by simpa using h k
      have hentries : entries = entries' := by
        refine ih hrest hnodup.2 fun key => ?_
        by_cases hkey : key = k
        · -- the first key is not among the others
          rw [hkey, lookup_eq_none_iff_not_mem.mpr hnodup.1,
            lookup_eq_none_iff_not_mem.mpr (hrest ▸ hnodup.1)]
        · have hlookup := h key
          rwa [lookup_cons_of_ne hkey, lookup_cons_of_ne hkey] at hlookup
      rw [hv, hentries]

end

end CollectionInterfaces
