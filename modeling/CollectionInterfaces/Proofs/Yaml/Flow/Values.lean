import CollectionInterfaces.Proofs.Yaml.Flow.Making

/-!
# Documents of spellings

The final values of nodes are put together. A node may be met again, and then it is the value that
was put together before, which is no other (`Graph.Holds.value_unique`). So a graph that holds a
spelling is read as the value of the spelling (`Graph.toDocument_of_holds`).
-/

namespace CollectionInterfaces.Yaml

open Make

variable {g : Graph} {id : NodeId} {tree : Spelling}

theorem Graph.HoldsText.unique {t t' : Text} (h : g.HoldsText id t) (h' : g.HoldsText id t') :
    t = t' := by
  obtain ⟨_, hn⟩ := h
  obtain ⟨_, hn'⟩ := h'
  exact Body.scalar.inj (congrArg Node.body (Option.some.inj (hn.symm.trans hn')))

theorem eq_of_forall₂ {α β γ δ : Type} {R : α → β → Prop} {R' : α → γ → Prop} {f : β → δ}
    {f' : γ → δ} {as : List α} {bs : List β} {cs : List γ}
    (h : List.Forall₂ R as bs) (h' : List.Forall₂ R' as cs)
    (H : ∀ b ∈ bs, ∀ c ∈ cs, ∀ a, R a b → R' a c → f b = f' c) : bs.map f = cs.map f' := by
  induction h generalizing cs with
  | nil =>
    cases h'
    rfl
  | cons hab _ ih =>
    cases h' with
    | cons hac hrest =>
      rw [List.map_cons, List.map_cons, H _ List.mem_cons_self _ List.mem_cons_self _ hab hac,
        ih hrest fun b hb c hc => H b (List.mem_cons_of_mem _ hb) c (List.mem_cons_of_mem _ hc)]

theorem Graph.Holds.scalar_inv {tag : CoreTag} {mark : Mark} {t : Text} (h : g.Holds id tree)
    (hconv : tree.IsConvertible) (hn : g[id]? = some ⟨tag.toText, mark, .scalar t⟩) :
    ∃ x, tree.value = .scalar x ∧ scalarOf? tag mark t = some (.ok x) := by
  cases h with
  | plain hn' =>
    have hnode := Option.some.inj (hn'.symm.trans hn)
    obtain rfl := CoreTag.toText_inj.mp (congrArg Node.tag hnode)
    obtain rfl := Body.scalar.inj (congrArg Node.body hnode)
    cases hconv with
    | plain hx => exact ⟨_, rfl, hx mark⟩
  | quoted hn' =>
    obtain ⟨_, hn'⟩ := hn'
    have hnode := Option.some.inj (hn'.symm.trans hn)
    obtain rfl := CoreTag.toText_inj.mp (congrArg Node.tag hnode)
    obtain rfl := Body.scalar.inj (congrArg Node.body hnode)
    exact ⟨_, rfl, rfl⟩
  | list hn' => cases congrArg Node.body (Option.some.inj (hn.symm.trans hn'))
  | map hn' => cases congrArg Node.body (Option.some.inj (hn.symm.trans hn'))

theorem Graph.Holds.list_inv {tag : Text} {mark : Mark} {ids : List NodeId} (h : g.Holds id tree)
    (hn : g[id]? = some ⟨tag, mark, .sequence ids⟩) :
    ∃ items, tree = .list items ∧ List.Forall₂ g.Holds ids items := by
  cases h with
  | list hn' _ hitems =>
    obtain rfl := Body.sequence.inj (congrArg Node.body (Option.some.inj (hn'.symm.trans hn)))
    exact ⟨_, rfl, hitems⟩
  | plain hn' => cases congrArg Node.body (Option.some.inj (hn.symm.trans hn'))
  | quoted hn' =>
    obtain ⟨_, hn'⟩ := hn'
    cases congrArg Node.body (Option.some.inj (hn.symm.trans hn'))
  | map hn' => cases congrArg Node.body (Option.some.inj (hn.symm.trans hn'))

theorem Graph.Holds.map_inv {tag : Text} {mark : Mark} {pairs : List (NodeId × NodeId)}
    (h : g.Holds id tree) (hn : g[id]? = some ⟨tag, mark, .mapping pairs⟩) :
    ∃ entries, tree = .map entries ∧
      List.Forall₂ g.HoldsText (pairs.map (·.1)) (entries.map (·.1)) ∧
      List.Forall₂ g.Holds (pairs.map (·.2)) (entries.map (·.2)) := by
  cases h with
  | map hn' _ hnames hvalues =>
    obtain rfl := Body.mapping.inj (congrArg Node.body (Option.some.inj (hn'.symm.trans hn)))
    exact ⟨_, rfl, hnames, hvalues⟩
  | plain hn' => cases congrArg Node.body (Option.some.inj (hn.symm.trans hn'))
  | quoted hn' =>
    obtain ⟨_, hn'⟩ := hn'
    cases congrArg Node.body (Option.some.inj (hn.symm.trans hn'))
  | list hn' => cases congrArg Node.body (Option.some.inj (hn.symm.trans hn'))

theorem names_unique {ids : List NodeId} {names names' : List Text}
    (h : List.Forall₂ g.HoldsText ids names) (h' : List.Forall₂ g.HoldsText ids names') :
    names = names' := by
  have hmap : names.map (fun t => t) = names'.map (fun t => t) :=
    eq_of_forall₂ h h' fun _ _ _ _ _ h h' => h.unique h'
  simpa using hmap

theorem entryValues_eq_zip (entries : List (Text × Spelling)) :
    Spelling.entryValues entries = (entries.map (·.1)).zip (entries.map (·.2.value)) := by
  rw [Spelling.entryValues_eq_map, List.zip_map']

/-- A graph holds only one value at a node. -/
theorem Graph.Holds.value_unique {tree' : Spelling} (h : g.Holds id tree) (h' : g.Holds id tree')
    (hconv : tree.IsConvertible) (hconv' : tree'.IsConvertible) : tree.value = tree'.value := by
  induction tree using Spelling.induct generalizing id tree' with
  | plain t =>
    cases h with
    | plain hn =>
    cases hconv with
    | plain hx =>
      obtain ⟨x, hvalue, hx'⟩ := h'.scalar_inv hconv' hn
      rw [hvalue, ← Except.ok.inj (Option.some.inj ((hx _).symm.trans hx'))]
      rfl
  | quoted t =>
    cases h with
    | quoted hn =>
      obtain ⟨mark, hn⟩ := hn
      obtain ⟨x, hvalue, hx⟩ := h'.scalar_inv hconv' hn
      rw [hvalue, ← show Scalar.text t = x from Except.ok.inj (Option.some.inj hx)]
      rfl
  | list items ih =>
    cases h with
    | list hn hparts hitems =>
    cases hconv with
    | list hconv =>
      obtain ⟨items', rfl, hitems'⟩ := h'.list_inv hn
      cases hconv' with
      | list hconv' =>
        rw [Spelling.value, Spelling.value, Spelling.itemValues_eq_map, Spelling.itemValues_eq_map]
        exact congrArg _ (eq_of_forall₂ hitems hitems' fun item hitem item' hitem' _ h h' =>
          ih item hitem h h' (hconv item hitem) (hconv' item' hitem'))
  | map entries ih =>
    cases h with
    | map hn hparts hnames hvalues =>
    cases hconv with
    | map hconv =>
      obtain ⟨entries', rfl, hnames', hvalues'⟩ := h'.map_inv hn
      cases hconv' with
      | map hconv' =>
        rw [List.forall₂_map_right_iff] at hvalues hvalues'
        have hvalue : entries.map (·.2.value) = entries'.map (·.2.value) :=
          eq_of_forall₂ hvalues hvalues' fun entry hentry entry' hentry' _ h h' =>
            ih entry hentry h h' (hconv entry hentry) (hconv' entry' hentry')
        rw [Spelling.value, Spelling.value, entryValues_eq_zip, entryValues_eq_zip,
          names_unique hnames hnames', hvalue]

namespace Assemble

/-- The values that were put together are those of spellings, and no container is a knot. -/
structure Sound (g : Graph) (a : Assembly) : Prop where
  knots : a.knots = []
  values : ∀ id v tree, a.values[id]?.join = some v → g.Holds id tree → tree.IsConvertible →
    v = tree.value

variable {a : Assembly} {made : MadeValues} {fuel : Nat} {inside : List NodeId}

theorem container_run {v : Value} (ha : Sound g a) (hholds : g.Holds id tree)
    (hconv : tree.IsConvertible) (hv : v = tree.value) (hknot : v.isKnotted = false) :
    ∃ a', (container id v).run a = (v, a') ∧ Sound g a' := by
  refine ⟨⟨a.values.setIfInBounds id (some v), a.knots⟩, ?_, ha.knots, ?_⟩
  · simp only [container, hknot]
    rfl
  · intro j w tree' hj hholds' hconv'
    by_cases hid : id = j
    · subst hid
      have hlt : id < a.values.size := by
        by_contra hge
        simp [hge] at hj
      obtain rfl : v = w := by simpa [hlt] using hj
      rw [hv]
      exact hholds.value_unique hholds' hconv hconv'
    · rw [Array.getElem?_setIfInBounds_ne hid] at hj
      exact ha.values j w tree' hj hholds' hconv'

/-- A step puts a value together, whatever was put together before. -/
def Yields (g : Graph) {α : Type} (m : Assemble α) (x : α) : Prop :=
  ∀ a, Sound g a → ∃ a', m.run a = (x, a') ∧ Sound g a'

variable {α β : Type}

theorem Yields.pure {x : α} : Yields g (Pure.pure x) x := fun a ha => ⟨a, rfl, ha⟩

theorem Yields.bind {m : Assemble α} {next : α → Assemble β} {x : α} {y : β} (h : Yields g m x)
    (hnext : Yields g (next x) y) : Yields g (m >>= next) y := by
  intro a ha
  obtain ⟨a', hrun, ha'⟩ := h a ha
  obtain ⟨a'', hrun', ha''⟩ := hnext a' ha'
  refine ⟨a'', ?_, ha''⟩
  rw [StateT.run_bind, hrun]
  exact hrun'

theorem Yields.mapM {f : α → Assemble β} {xs : List α} {ys : List β}
    (h : List.Forall₂ (fun x y => Yields g (f x) y) xs ys) : Yields g (xs.mapM f) ys := by
  induction h with
  | nil => exact .pure
  | cons hxy _ ih =>
    rw [List.mapM_cons]
    exact .bind hxy (.bind ih .pure)

theorem forall₂_insertEntry {κ ν ν' : Type} {R : ν → ν' → Prop} {same : κ → κ → Bool} {k : κ}
    {v : ν} {v' : ν'} {entries : List (κ × ν)} {entries' : List (κ × ν')}
    (h : List.Forall₂ (fun e e' => e.1 = e'.1 ∧ R e.2 e'.2) entries entries') (hv : R v v') :
    List.Forall₂ (fun e e' => e.1 = e'.1 ∧ R e.2 e'.2) (insertEntry same k v entries)
      (insertEntry same k v' entries') := by
  induction h with
  | nil => exact .cons ⟨rfl, hv⟩ .nil
  | @cons e e' _ _ he hrest ih =>
    obtain ⟨k₀, v₀⟩ := e
    obtain ⟨k₀', v₀'⟩ := e'
    obtain ⟨rfl, h₀⟩ : k₀ = k₀' ∧ R v₀ v₀' := he
    simp only [insertEntry]
    split
    · exact .cons ⟨rfl, hv⟩ hrest
    · exact .cons ⟨rfl, h₀⟩ ih

theorem forall₂_mergeEntries {ν ν' : Type} {R : ν → ν' → Prop} {entries : List (Text × ν)}
    {entries' : List (Text × ν')}
    (h : List.Forall₂ (fun e e' => e.1 = e'.1 ∧ R e.2 e'.2) entries entries') :
    List.Forall₂ (fun e e' => e.1 = e'.1 ∧ R e.2 e'.2) (Spelling.mergeEntries entries)
      (Spelling.mergeEntries entries') := by
  have hfold {merged : List (Scalar × ν)} {merged' : List (Scalar × ν')}
      (hmerged : List.Forall₂ (fun e e' => e.1 = e'.1 ∧ R e.2 e'.2) merged merged') :
      List.Forall₂ (fun e e' => e.1 = e'.1 ∧ R e.2 e'.2)
        (entries.foldl (fun merged e => insertEntry Scalar.sameKey (.text e.1) e.2 merged) merged)
        (entries'.foldl (fun merged e => insertEntry Scalar.sameKey (.text e.1) e.2 merged)
          merged') := by
    induction h generalizing merged merged' with
    | nil => exact hmerged
    | cons he _ ih =>
      rw [List.foldl_cons, List.foldl_cons, he.1]
      exact ih (forall₂_insertEntry hmerged he.2)
  exact hfold .nil

/-- A node is taken from what was put together before, or it is put together from its parts, for
which less fuel is needed. -/
theorem value_of_made [i : Interpreter] {m : Made} (hholds : g.Holds id tree)
    (hconv : tree.IsConvertible)
    (hm : made[id]?.join = some m) (hfuel : g.size < id + fuel) (hinside : ∀ i ∈ inside, i < id)
    (H : ∀ fuel, (∀ part, id < part → g.size < part + fuel) →
      Yields g (match some m with
        | some (.scalar k) => return .scalar k.scalar
        | some (.list items) => do
          container id (.list (← items.mapM (value made fuel (id :: inside))))
        | some (.map entries) => do
          container id (.map (← entries.mapM fun (key, v) =>
            return (key, ← value made fuel (id :: inside) v)))
        | some (.set members) => container id (.set (i.setOrder members))
        | some (.pairs entries) => do
          container id (.list (← entries.mapM fun (key, v) =>
            return .pair (← value made fuel (id :: inside) key)
              (← value made fuel (id :: inside) v)))
        | _ => return .scalar .null) tree.value) :
    Yields g (value made fuel inside id) tree.value := by
  obtain _ | fuel := fuel
  · exact absurd hholds.lt_size (Nat.not_lt_of_lt hfuel)
  intro a ha
  unfold value
  rw [StateT.run_bind]
  cases hvalue : a.values[id]?.join with
  | some v =>
    refine ⟨a, ?_, ha⟩
    obtain rfl := ha.values id v tree hvalue hholds hconv
    simp only [StateT.run_get, pure_bind, hvalue]
    rfl
  | none =>
    have hless (part : NodeId) (hpart : id < part) : g.size < part + fuel := by
      refine Nat.lt_of_lt_of_le hfuel ?_
      rw [Nat.add_comm fuel 1, ← Nat.add_assoc]
      exact Nat.add_le_add_right hpart fuel
    obtain ⟨a', hrun, ha'⟩ := H fuel hless a ha
    refine ⟨a', ?_, ha'⟩
    have hnot : inside.contains id = false := by
      rw [List.contains_eq_mem, decide_eq_false_iff_not]
      exact fun hmem => Nat.lt_irrefl _ (hinside id hmem)
    simp only [StateT.run_get, pure_bind, hvalue, hnot, hm]
    exact hrun

theorem scalar_yields [Interpreter] {visited : NodeId → Prop} {tag : CoreTag} {mark : Mark}
    {t : Text}
    (hmade : ∀ m, made[id]?.join = some m → IsFinal g visited id m) (hholds : g.Holds id tree)
    (hconv : tree.IsConvertible) (hvisited : (made[id]?.join).isSome) (hfuel : g.size < id + fuel)
    (hinside : ∀ i ∈ inside, i < id) (hn : g[id]? = some ⟨tag.toText, mark, .scalar t⟩) :
    Yields g (value made fuel inside id) tree.value := by
  obtain ⟨m, hm⟩ := Option.isSome_iff_exists.mp hvisited
  refine value_of_made hholds hconv hm hfuel hinside fun fuel _ => ?_
  obtain ⟨x, hvalue, hx⟩ := hholds.scalar_inv hconv hn
  obtain ⟨x', origin, rfl, hx'⟩ := (hmade m hm).scalar_inv hn
  rw [hvalue, Except.ok.inj (Option.some.inj (hx.symm.trans hx'))]
  exact .pure

theorem container_yields {v : Value} (hholds : g.Holds id tree) (hconv : tree.IsConvertible)
    (hv : v = tree.value) (hknot : v.isKnotted = false) : Yields g (container id v) v :=
  fun _ ha => container_run ha hholds hconv hv hknot

theorem forall₂_zip {κ ν ν' : Type} {R : ν → ν' → Prop} {keys : List κ} {vs : List ν}
    {vs' : List ν'} (h : List.Forall₂ R vs vs') :
    List.Forall₂ (fun e e' => e.1 = e'.1 ∧ R e.2 e'.2) (keys.zip vs) (keys.zip vs') := by
  induction h generalizing keys with
  | nil => simp
  | cons hv _ ih =>
    cases keys with
    | nil => exact .nil
    | cons key keys => exact .cons ⟨rfl, hv⟩ ih

theorem isKnotted_value (s : Spelling) : s.value.isKnotted = false := by
  cases s with
  | plain t | quoted t => rfl
  | list items =>
    rw [Spelling.value, Spelling.itemValues_eq_map, Value.isKnotted, List.any_map,
      List.any_eq_false]
    exact fun item _ => by simp [Spelling.hasKnot_value]
  | map entries =>
    have hentries : List.Forall₂ (fun e e' : Text × Value => e.1 = e'.1 ∧ e.2.hasKnot = false)
        (Spelling.entryValues entries) (Spelling.entryValues entries) := by
      rw [Spelling.entryValues_eq_map, List.forall₂_same]
      exact List.forall_mem_map.mpr fun entry _ => ⟨rfl, entry.2.hasKnot_value⟩
    rw [Spelling.value, Value.isKnotted, List.any_eq_false]
    intro e he
    obtain ⟨_, -, -, hknot⟩ := exists_of_forall₂
      (forall₂_mergeEntries (R := fun v _ => v.hasKnot = false) hentries) he
    simp [hknot]

/-- Nodes whose values are made are put together to what they are spellings of. -/
theorem value_yields [Interpreter]
    (hmade : ∀ id m, made[id]?.join = some m → IsFinal g (fun id => (made[id]?.join).isSome) id m)
    (hholds : g.Holds id tree) (hconv : tree.IsConvertible) (hvisited : (made[id]?.join).isSome)
    (hfuel : g.size < id + fuel) (hinside : ∀ i ∈ inside, i < id) :
    Yields g (value made fuel inside id) tree.value := by
  -- the numbers of parts are greater than those of what is around them, so that no part is inside
  -- itself
  induction tree using Spelling.induct generalizing id fuel inside with
  | plain t =>
    obtain ⟨mark, tag, hn⟩ : ∃ mark tag, g[id]? = some ⟨CoreTag.toText tag, mark, .scalar t⟩ := by
      cases hholds with
      | plain hn => exact ⟨_, _, hn⟩
    exact scalar_yields (hmade id) hholds hconv hvisited hfuel hinside hn
  | quoted t =>
    obtain ⟨mark, hn⟩ : g.HoldsText id t := by
      cases hholds with
      | quoted hn => exact hn
    exact scalar_yields (hmade id) hholds hconv hvisited hfuel hinside hn
  | list items ih =>
    obtain ⟨m, hm⟩ := Option.isSome_iff_exists.mp hvisited
    refine value_of_made hholds hconv hm hfuel hinside fun fuel hfuel => ?_
    have hcontainer := fun v hv =>
      container_yields (v := v) hholds hconv hv (hv ▸ isKnotted_value _)
    cases hholds with
    | list hn hparts hitems =>
    cases hconv with
    | list hconv =>
    obtain ⟨rfl, hids⟩ := (hmade id m hm).list_inv hn
    refine .bind (.mapM ?_) (hcontainer _ rfl)
    rw [Spelling.itemValues_eq_map, List.forall₂_map_right_iff]
    refine forall₂_imp_of_mem hitems fun part hpart item hitem hholds => ?_
    have hlt := hparts part hpart
    exact ih item hitem hholds (hconv item hitem) (hids part hpart) (hfuel part hlt)
      (List.forall_mem_cons.mpr ⟨hlt, fun i hi => Nat.lt_trans (hinside i hi) hlt⟩)
  | map entries ih =>
    obtain ⟨m, hm⟩ := Option.isSome_iff_exists.mp hvisited
    refine value_of_made hholds hconv hm hfuel hinside fun fuel hfuel => ?_
    have hcontainer := fun v hv =>
      container_yields (v := v) hholds hconv hv (hv ▸ isKnotted_value _)
    cases hholds with
    | @map _ _ pairs _ hn hparts hnames hitems =>
    cases hconv with
    | map hconv =>
    obtain ⟨names, rfl, hids, hnames'⟩ := (hmade id m hm).map_inv hn
    obtain rfl := names_unique hnames' hnames
    have hvalues : List.Forall₂ (fun part v => Yields g (value made fuel (id :: inside) part) v)
        (pairs.map (·.2)) (entries.map (·.2.value)) := by
      rw [List.forall₂_map_left_iff, List.forall₂_map_right_iff] at hitems ⊢
      refine forall₂_imp_of_mem hitems fun pair hpair entry hentry hholds => ?_
      have hlt := (hparts pair hpair).2
      exact ih entry hentry hholds (hconv entry hentry) (hids pair hpair) (hfuel _ hlt)
        (List.forall_mem_cons.mpr ⟨hlt, fun i hi => Nat.lt_trans (hinside i hi) hlt⟩)
    refine .bind (.mapM ?_) (hcontainer _ rfl)
    rw [entryValues_eq_zip]
    refine (forall₂_mergeEntries (forall₂_zip hvalues)).imp fun e e' ⟨hkey, hvalue⟩ => ?_
    obtain ⟨k, v⟩ := e'
    obtain rfl : e.1 = k := hkey
    exact .bind hvalue .pure

end Assemble

theorem join_replicate {α : Type} {n : Nat} :
    ((Array.replicate n (none : Option α))[id]?).join = none := by
  rw [Array.getElem?_replicate]
  split <;> rfl

/-- **A graph says what it holds.** -/
theorem Graph.toDocument_of_holds [Interpreter] (hholds : g.Holds id tree)
    (hconv : tree.IsConvertible) :
    g.toDocument id = .ok ⟨tree.value, []⟩ := by
  let start : Maker := ⟨g, .replicate g.size none, []⟩
  have hstart : start.Sound g [] :=
    ⟨rfl, Array.size_replicate, nofun, fun id m hm => nomatch join_replicate.symm.trans hm⟩
  obtain ⟨s₁, hvisit, hs₁, hvisited, -⟩ :=
    Make.visit_holds (P := fun _ => True) hstart hholds hconv trivial
  have hfuel : g.size ≤ 0 + (g.size + 1) := by omega
  obtain ⟨s₂, hlook, hs₂, hqueue, hmono⟩ :=
    Make.lookIntoAll_gives hs₁ (fun _ _ => Nat.zero_le _) hfuel
  have hmade : ∀ id m, s₂.made[id]?.join = some m → IsFinal g s₂.Visited id m := fun id m hm =>
    (hs₂.made id m hm).resolve_left fun ⟨_, hwaits⟩ => by simp [hqueue] at hwaits
  have hyields : Assemble.Yields g (Assemble.value s₂.made (g.size + 1) [] id) tree.value :=
    Assemble.value_yields hmade hholds hconv (hmono id hvisited) (by omega) nofun
  obtain ⟨a, hrun, ha⟩ := hyields ⟨.replicate g.size none, []⟩
    ⟨rfl, fun id v tree hv => nomatch join_replicate.symm.trans hv⟩
  have hwork : (do Make.visit id; Make.lookIntoAll (g.size + 1) : Make Unit).run start =
      .ok ((), s₂) := hvisit.bind hlook
  unfold Graph.toDocument
  dsimp only
  rw [hwork]
  dsimp only [bind, Except.bind]
  rw [hrun, ← ha.knots]
  rfl

end CollectionInterfaces.Yaml
