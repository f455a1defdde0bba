import CollectionInterfaces.CommandLine.ExtraOptions
import CollectionInterfaces.Proofs.Interface.Imports
import CollectionInterfaces.Proofs.Text.Split
import CollectionInterfaces.Proofs.Value.Insertion

/-!
# Options that are kept

Arguments are read from left to right. A key stands where it came first (`keys_ofArguments`), and it
has the value that came last (`lookup_ofArguments`). So arguments can be read part by part, and
options are read back from the arguments that spell them exactly if each of their keys stands once
and can be spelled (`ofArguments_optionsLaw`).
-/

namespace CollectionInterfaces.ExtraOptions

variable {options more : ExtraOptions} {arguments longer : List Text} {key : Text}
  {entry : Text × Option Text}

def keys (options : ExtraOptions) : List Text := options.map (·.1)

/-! ## Updates -/

/-- Options with further ones, one after another. A key that is there keeps its place and takes the
later value. -/
def update (options more : ExtraOptions) : ExtraOptions :=
  more.foldl (fun options (key, value) => insert options key value) options

theorem update_cons {value : Option Text} :
    update options ((key, value) :: more) = update (insert options key value) more := rfl

theorem update_append {later : ExtraOptions} :
    update options (more ++ later) = update (update options more) later :=
  List.foldl_append

theorem keys_insert {value : Option Text} : (insert options key value).keys =
    if key ∈ options.keys then options.keys else options.keys ++ [key] :=
  map_fst_insertEntry

/-- New keys come behind the ones that are there, each where it came first. -/
theorem keys_update (options more : ExtraOptions) : (update options more).keys =
    options.keys ++ (firstOccurrences more.keys).filter (· ∉ options.keys) := by
  induction more generalizing options with
  | nil => simp [update, keys, firstOccurrences]
  | cons entry more ih =>
    obtain ⟨key, value⟩ := entry
    have hkeys : keys ((key, value) :: more) = key :: keys more := rfl
    rw [update_cons, ih, keys_insert, hkeys, firstOccurrences, List.filter_cons, List.filter_filter]
    by_cases hkey : key ∈ options.keys
    · -- what is not among the keys so far is not this one either
      rw [if_pos hkey, if_neg (by simpa using hkey)]
      refine congrArg (options.keys ++ ·) (List.filter_congr fun other _ => ?_)
      have hne : other ∉ options.keys → other ≠ key := fun h heq => h (heq ▸ hkey)
      simpa using hne
    · rw [if_neg hkey, if_pos (by simpa using hkey), List.append_assoc, List.singleton_append]
      refine congrArg (options.keys ++ key :: ·) (List.filter_congr fun other _ => ?_)
      simp [not_or, Bool.and_comm]

theorem keys_update_nil (more : ExtraOptions) :
    (update [] more).keys = firstOccurrences more.keys := by
  rw [keys_update]
  exact List.filter_eq_self.mpr fun key _ => decide_eq_true (List.not_mem_nil (a := key))

/-- The last value of a key counts. -/
theorem lookup_update (options more : ExtraOptions) (key : Text) :
    (update options more).lookup key = (more.reverse.lookup key).or (options.lookup key) := by
  induction more generalizing options with
  | nil => rfl
  | cons entry more ih =>
    obtain ⟨k, value⟩ := entry
    rw [update_cons, ih, insert, lookup_insertEntry, List.reverse_cons, List.lookup_append,
      Option.or_assoc]
    by_cases hkey : key = k
    · rw [if_pos hkey, hkey, List.lookup_cons_self, Option.some_or]
    · rw [if_neg hkey, lookup_cons_of_ne hkey, List.lookup_nil, Option.none_or]

theorem lookup_update_nil (more : ExtraOptions) (key : Text) :
    (update [] more).lookup key = more.reverse.lookup key := by
  rw [lookup_update, List.lookup_nil, Option.or_none]

theorem nodup_keys_update (h : options.keys.Nodup) : (update options more).keys.Nodup := by
  rw [keys_update]
  refine List.nodup_append.mpr ⟨h, (nodup_firstOccurrences _).filter _, ?_⟩
  rintro key hkey _ hother rfl
  simp [hkey] at hother

theorem update_nil (h : more.keys.Nodup) : update [] more = more := by
  have hkeys : (update [] more).keys = more.keys := by
    rw [keys_update_nil, firstOccurrences_eq_self h]
  refine eq_of_lookup_eq hkeys (nodup_keys_update List.nodup_nil) fun key => ?_
  rw [lookup_update_nil, lookup_reverse h]

/-- Options can be collected before they update others. -/
theorem update_update_nil (h : options.keys.Nodup) :
    update options (update [] more) = update options more := by
  have hnodup : (update [] more).keys.Nodup := nodup_keys_update List.nodup_nil
  have hkeys : (update options (update [] more)).keys = (update options more).keys := by
    rw [keys_update, firstOccurrences_eq_self hnodup, keys_update_nil, ← keys_update]
  refine eq_of_lookup_eq hkeys (nodup_keys_update h) fun key => ?_
  -- the collected options hold the last values already, and looking from their end finds the same
  rw [lookup_update, lookup_reverse hnodup, lookup_update_nil, ← lookup_update]

/-! ## Reading arguments -/

/-- The options that arguments spell, with all their repetitions. -/
def spelled (arguments : List Text) : ExtraOptions := arguments.filterMap ofArgument?

theorem ofArguments_eq_update (arguments : List Text) :
    ofArguments arguments = update [] (spelled arguments) := rfl

theorem keys_ofArguments (arguments : List Text) :
    (ofArguments arguments).keys = firstOccurrences (spelled arguments).keys :=
  keys_update_nil _

theorem lookup_ofArguments (arguments : List Text) (key : Text) :
    (ofArguments arguments).lookup key = (spelled arguments).reverse.lookup key :=
  lookup_update_nil _ key

theorem nodup_keys_ofArguments (arguments : List Text) : (ofArguments arguments).keys.Nodup :=
  nodup_keys_update List.nodup_nil

theorem ofArguments_append (earlier later : List Text) :
    ofArguments (earlier ++ later) = update (ofArguments earlier) (ofArguments later) := by
  calc ofArguments (earlier ++ later)
      = update [] (spelled earlier ++ spelled later) := by
        rw [ofArguments_eq_update, spelled, List.filterMap_append, ← spelled, ← spelled]
    _ = update (ofArguments earlier) (spelled later) := update_append
    _ = update (ofArguments earlier) (ofArguments later) :=
        (update_update_nil (nodup_keys_ofArguments earlier)).symm

/-! ## Spelling options -/

def argument : Text × Option Text → Text
  | (key, none) => "--" ++ key
  | (key, some value) => "--" ++ key ++ "=" ++ value

/-- Options that arguments can spell. -/
structure IsDictionary (options : ExtraOptions) : Prop where
  nodup : options.keys.Nodup
  /-- No key has an equals sign: it would end there. -/
  equals_not_mem : ∀ entry ∈ options, ('=' : CodePoint) ∉ entry.1

theorem ofArgument?_argument (h : ('=' : CodePoint) ∉ entry.1) :
    ofArgument? (argument entry) = some entry := by
  have hmark (rest : Text) : ofArgument? ("--" ++ rest) = some (Text.cut equals rest) :=
    congrArg (Option.map (Text.cut equals)) (Text.after?_eq_some_iff.mpr rfl)
  obtain ⟨key, value⟩ := entry
  have hkey : equals ∉ key := h
  cases value with
  | none => rw [argument, hmark, Text.cut_of_not_mem hkey]
  | some value =>
    have hvalue : ("=" : Text) ++ value = equals :: value := rfl
    rw [argument, List.append_assoc, List.append_assoc, hvalue, hmark, Text.cut_append hkey]

theorem spelled_map_argument (h : ∀ entry ∈ options, ('=' : CodePoint) ∉ entry.1) :
    spelled (options.map argument) = options := by
  induction options with
  | nil => rfl
  | cons entry options ih =>
    rw [List.forall_mem_cons] at h
    rw [spelled, List.map_cons, List.filterMap_cons_some (ofArgument?_argument h.1), ← spelled,
      ih h.2]

theorem equals_not_mem_of_mem_spelled (h : entry ∈ spelled arguments) :
    ('=' : CodePoint) ∉ entry.1 := by
  obtain ⟨argument, -, hargument⟩ := List.mem_filterMap.mp h
  obtain ⟨rest, -, rfl⟩ := Option.map_eq_some_iff.mp hargument
  exact Text.not_mem_cut equals rest

theorem isDictionary_ofArguments (arguments : List Text) :
    IsDictionary (ofArguments arguments) where
  nodup := nodup_keys_ofArguments arguments
  equals_not_mem entry hentry := by
    have hkey : entry.1 ∈ (ofArguments arguments).keys := List.mem_map_of_mem hentry
    rw [keys_ofArguments, mem_firstOccurrences] at hkey
    obtain ⟨spelling, hspelling, heq⟩ := List.mem_map.mp hkey
    exact heq ▸ equals_not_mem_of_mem_spelled hspelling

/-- Options are read back from their arguments exactly if arguments can spell them. -/
theorem ofArguments_map_argument_iff :
    ofArguments (options.map argument) = options ↔ IsDictionary options := by
  constructor
  · intro h
    exact h ▸ isDictionary_ofArguments (options.map argument)
  · intro h
    rw [ofArguments_eq_update, spelled_map_argument h.equals_not_mem, update_nil h.nodup]

/-! ## What is no option -/

/-- Arguments that are no options are put between some arguments, anywhere and any number of
them. -/
inductive Interspersed : List Text → List Text → Prop
  | nil : Interspersed [] []
  | keep {arguments longer : List Text} (argument : Text) (h : Interspersed arguments longer) :
      Interspersed (argument :: arguments) (argument :: longer)
  | insert {arguments longer : List Text} {argument : Text} (hmark : ¬("--" : Text) <+: argument)
      (h : Interspersed arguments longer) : Interspersed arguments (argument :: longer)

theorem ofArgument?_of_not_marked {argument : Text} (h : ¬("--" : Text) <+: argument) :
    ofArgument? argument = none := by
  rw [ofArgument?, Option.map_eq_none_iff, Option.eq_none_iff_forall_not_mem]
  intro rest hrest
  exact h ⟨rest, (Text.after?_eq_some_iff.mp hrest).symm⟩

theorem Interspersed.spelled_eq (h : Interspersed arguments longer) :
    spelled longer = spelled arguments := by
  induction h with
  | nil => rfl
  | keep argument _ ih =>
    unfold spelled at ih ⊢
    rw [List.filterMap_cons, List.filterMap_cons, ih]
  | insert hmark _ ih =>
    rw [spelled, List.filterMap_cons_none (ofArgument?_of_not_marked hmark), ← spelled, ih]

/-! ## The law of options -/

/-- What arguments say about options. -/
structure OptionsLaw (options : ExtraOptions) (earlier later : List Text) : Prop where
  spelled_iff : ofArguments (options.map argument) = options ↔ IsDictionary options
  appended : ofArguments (earlier ++ later) = update (ofArguments earlier) (ofArguments later)
  /-- A key keeps its first place. -/
  places : (ofArguments (earlier ++ later)).keys = (ofArguments earlier).keys ++
    (ofArguments later).keys.filter (· ∉ (ofArguments earlier).keys)
  /-- A key takes its last value. -/
  values : ∀ key, (ofArguments (earlier ++ later)).lookup key =
    ((ofArguments later).lookup key).or ((ofArguments earlier).lookup key)
  /-- What is no option has no influence, wherever it stands. -/
  interspersed : ∀ longer, Interspersed earlier longer → ofArguments longer = ofArguments earlier

/-- **Options are spelled by arguments, and the last one counts.** -/
theorem ofArguments_optionsLaw (options : ExtraOptions) (earlier later : List Text) :
    OptionsLaw options earlier later where
  spelled_iff := ofArguments_map_argument_iff
  appended := ofArguments_append earlier later
  places := by
    rw [ofArguments_append, keys_update, firstOccurrences_eq_self (nodup_keys_ofArguments later)]
  values key := by
    rw [ofArguments_append, lookup_update, lookup_reverse (nodup_keys_ofArguments later)]
  interspersed longer h := by
    rw [ofArguments_eq_update, h.spelled_eq, ← ofArguments_eq_update]

/-- Options with an empty key, with an empty value and with further equals signs and hyphens. -/
def oddOptions : ExtraOptions :=
  [("a", some "1=2"), ("", none), ("b", some ""), ("--c", some "--d")]

def mixedArguments : List Text := ["x", "--a", "-b=1", "", "--b", "-"]

/-- The first place and the last value of a key can come from different arguments. -/
theorem ofArguments_optionsLaw_odd :
    IsDictionary oddOptions ∧ Interspersed ["--a", "--b"] mixedArguments ∧
      ofArguments ["--a=1=2", "--", "--b=", "----c=--d"] = oddOptions ∧
      ofArguments (mixedArguments ++ (["--c", "--a=1"] : List Text)) =
        ([("a", some "1"), ("b", none), ("c", none)] : ExtraOptions) := by
  have hodd : IsDictionary oddOptions := ⟨by decide, by decide⟩
  have hmixed : Interspersed ["--a", "--b"] mixedArguments :=
    .insert (by decide) (.keep _ (.insert (by decide) (.insert (by decide) (.keep _
      (.insert (by decide) .nil)))))
  refine ⟨hodd, hmixed, (ofArguments_optionsLaw oddOptions [] []).spelled_iff.mpr hodd, ?_⟩
  rw [(ofArguments_optionsLaw oddOptions mixedArguments ["--c", "--a=1"]).appended,
    (ofArguments_optionsLaw oddOptions ["--a", "--b"] []).interspersed mixedArguments hmixed]
  decide

end CollectionInterfaces.ExtraOptions
