import CollectionInterfaces.Proofs.Value.Insertion
import CollectionInterfaces.Proofs.Value.Tree
import CollectionInterfaces.Proofs.Yaml.Flow.Nodes
import CollectionInterfaces.Proofs.Yaml.Visits

/-!
# Values of the nodes of a spelling

Values are made a round at a time: the nodes that a round looks into are the parts of those before,
so they have greater numbers, and there are fewer rounds than nodes. Up to then a value is either
final (`IsFinal`) or that of a collection which waits (`Maker.Sound`); in the end all are final
(`Make.lookIntoAll_gives`).
-/

namespace CollectionInterfaces.Yaml

theorem CoreTag.toText_inj {tag tag' : CoreTag} : tag.toText = tag'.toText ↔ tag = tag' := by
  refine ⟨fun h => ?_, fun h => h ▸ rfl⟩
  have hof := congrArg CoreTag.ofText? h
  rwa [ofText?_toText, ofText?_toText, Option.some.injEq] at hof

/-- The value of a node is made, or it will be. -/
def Maker.Visited (s : Maker) (id : NodeId) : Prop := (s.made[id]?.join).isSome

/-- A node has its value when its parts have been visited. -/
inductive IsFinal (g : Graph) (visited : NodeId → Prop) : NodeId → Made → Prop
  | scalar {id : NodeId} {mark : Mark} {tag : CoreTag} {t : Text} {x : Scalar}
      {origin : Option NodeId} (hn : g[id]? = some ⟨tag.toText, mark, .scalar t⟩)
      (hx : scalarOf? tag mark t = some (.ok x)) :
      IsFinal g visited id (.scalar ⟨x, origin⟩)
  | list {id : NodeId} {mark : Mark} {ids : List NodeId}
      (hn : g[id]? = some ⟨CoreTag.list.toText, mark, .sequence ids⟩)
      (hparts : ∀ part ∈ ids, visited part) : IsFinal g visited id (.list ids)
  | map {id : NodeId} {mark : Mark} {pairs : List (NodeId × NodeId)} {names : List Text}
      (hn : g[id]? = some ⟨CoreTag.map.toText, mark, .mapping pairs⟩)
      (hparts : ∀ pair ∈ pairs, visited pair.2)
      (hnames : List.Forall₂ g.HoldsText (pairs.map (·.1)) names) :
      IsFinal g visited id (.map (Spelling.mergeEntries (names.zip (pairs.map (·.2)))))

/-- A node is a collection whose scalars can be converted. -/
def IsCollection (g : Graph) (id : NodeId) : Prop :=
  (∃ items, g.Holds id (.list items) ∧ Spelling.IsConvertible (.list items)) ∨
    ∃ entries, g.Holds id (.map entries) ∧ Spelling.IsConvertible (.map entries)

/-- Every value that was made is final, except those of collections that wait to be looked into. -/
structure Maker.Sound (g : Graph) (waiting : List NodeId) (s : Maker) : Prop where
  graph : s.graph = g
  size : s.made.size = g.size
  waits : ∀ id ∈ waiting ++ s.queue, IsCollection g id
  made : ∀ id m, s.made[id]?.join = some m →
    m = .pending ∧ id ∈ waiting ++ s.queue ∨ IsFinal g s.Visited id m

/-- What was visited stays so, and collections that wait since are as `P` says. -/
structure Maker.Advances (P : NodeId → Prop) (s s' : Maker) : Prop where
  visited : ∀ id, s.Visited id → s'.Visited id
  queue : ∀ id ∈ s'.queue, id ∈ s.queue ∨ P id

variable {g : Graph} {id : NodeId} {tree : Spelling} {s s' s'' : Maker} {P : NodeId → Prop}
  {waiting : List NodeId}

theorem Maker.Advances.refl : Maker.Advances P s s := ⟨fun _ h => h, fun _ h => .inl h⟩

theorem Maker.Advances.trans (h : Maker.Advances P s s') (h' : Maker.Advances P s' s'') :
    Maker.Advances P s s'' where
  visited id hid := h'.visited id (h.visited id hid)
  queue id hid := (h'.queue id hid).elim (h.queue id) .inr

theorem IsFinal.mono {visited visited' : NodeId → Prop} {m : Made} (h : IsFinal g visited id m)
    (hmono : ∀ id, visited id → visited' id) : IsFinal g visited' id m := by
  cases h with
  | scalar hn hx => exact .scalar hn hx
  | list hn hids => exact .list hn fun part hpart => hmono part (hids part hpart)
  | map hn hpairs hnames => exact .map hn (fun pair hpair => hmono _ (hpairs pair hpair)) hnames

theorem IsFinal.scalar_inv {visited : NodeId → Prop} {m : Made} {tag : CoreTag} {mark : Mark}
    {t : Text} (h : IsFinal g visited id m)
    (hn : g[id]? = some ⟨tag.toText, mark, .scalar t⟩) :
    ∃ x origin, m = .scalar ⟨x, origin⟩ ∧ scalarOf? tag mark t = some (.ok x) := by
  cases h with
  | scalar hn' hx =>
    have hnode := Option.some.inj (hn'.symm.trans hn)
    obtain rfl := CoreTag.toText_inj.mp (congrArg Node.tag hnode)
    obtain rfl := Body.scalar.inj (congrArg Node.body hnode)
    obtain rfl := congrArg Node.mark hnode
    exact ⟨_, _, rfl, hx⟩
  | list hn' => cases congrArg Node.body (Option.some.inj (hn.symm.trans hn'))
  | map hn' => cases congrArg Node.body (Option.some.inj (hn.symm.trans hn'))

theorem IsFinal.list_inv {visited : NodeId → Prop} {m : Made} {tag : Text} {mark : Mark}
    {ids : List NodeId} (h : IsFinal g visited id m)
    (hn : g[id]? = some ⟨tag, mark, .sequence ids⟩) :
    m = .list ids ∧ ∀ part ∈ ids, visited part := by
  cases h with
  | list hn' hparts =>
    obtain rfl := Body.sequence.inj (congrArg Node.body (Option.some.inj (hn'.symm.trans hn)))
    exact ⟨rfl, hparts⟩
  | scalar hn' => cases congrArg Node.body (Option.some.inj (hn.symm.trans hn'))
  | map hn' => cases congrArg Node.body (Option.some.inj (hn.symm.trans hn'))

theorem IsFinal.map_inv {visited : NodeId → Prop} {m : Made} {tag : Text} {mark : Mark}
    {pairs : List (NodeId × NodeId)} (h : IsFinal g visited id m)
    (hn : g[id]? = some ⟨tag, mark, .mapping pairs⟩) :
    ∃ names, m = .map (Spelling.mergeEntries (names.zip (pairs.map (·.2)))) ∧
      (∀ pair ∈ pairs, visited pair.2) ∧ List.Forall₂ g.HoldsText (pairs.map (·.1)) names := by
  cases h with
  | map hn' hparts hnames =>
    obtain rfl := Body.mapping.inj (congrArg Node.body (Option.some.inj (hn'.symm.trans hn)))
    exact ⟨_, rfl, hparts, hnames⟩
  | scalar hn' => cases congrArg Node.body (Option.some.inj (hn.symm.trans hn'))
  | list hn' => cases congrArg Node.body (Option.some.inj (hn.symm.trans hn'))

namespace Make

theorem record_gives {m : Made} :
    Gives (record id m) s () { s with made := s.made.setIfInBounds id (some m) } := rfl

theorem visited_record {m : Made} (hlt : id < s.made.size) :
   Maker.Visited { s with made := s.made.setIfInBounds id (some m) } id := by
  simp [Maker.Visited, hlt]

theorem visited_record_mono {m : Made} {j : NodeId} (h : s.Visited j) :
   Maker.Visited { s with made := s.made.setIfInBounds id (some m) } j := by
  by_cases hj : id = j
  · subst hj
    refine visited_record ?_
    by_contra hge
    simp [Maker.Visited, Array.getElem?_eq_none (Nat.le_of_not_lt hge)] at h
  · simpa [Maker.Visited, Array.getElem?_setIfInBounds_ne hj] using h

theorem convert_gives [i : Interpreter] {tag : CoreTag} {mark : Mark} {t : Text} {x : Scalar}
    (hnode : s.graph.node id = ⟨tag.toText, mark, .scalar t⟩)
    (hx : scalarOf? tag mark t = some (.ok x)) :
    Gives (convert id tag) s () { s with
      made := s.made.setIfInBounds id
        (some (.scalar ⟨x, if isNanWord t then none else some id⟩)) } := by
  have htext : Gives (liftM (s.graph.scalarText i.defaultRoom id) : Make Text) s t s :=
    Gives.lift_iff.mpr ⟨Graph.scalarText_of_scalar (by rw [hnode]), rfl⟩
  have hscalar : (scalarOf? tag mark []).isNone = false := by
    rw [Option.isNone_eq_false_iff, scalarOf?_isSome, ← @scalarOf?_isSome tag mark t, hx]
    rfl
  refine .bind rfl ?_
  dsimp only
  rw [hnode, hscalar, if_neg Bool.false_ne_true]
  refine .bind htext ?_
  rw [if_neg (by rintro ⟨-, h⟩; cases h)]
  dsimp only
  rw [hx]
  exact .bind rfl record_gives

theorem visit_scalar_gives [Interpreter] {tag : CoreTag} {mark : Mark} {t : Text} {x : Scalar}
    (hvisited : ¬s.Visited id)
    (hnode : s.graph.node id = ⟨tag.toText, mark, .scalar t⟩)
    (hx : scalarOf? tag mark t = some (.ok x)) :
    ∃ origin, Gives (visit id) s ()
      { s with made := s.made.setIfInBounds id (some (.scalar ⟨x, origin⟩)) } := by
  refine ⟨if isNanWord t then none else some id, .bind made?_gives ?_⟩
  rw [if_neg (show ¬(s.made[id]?.join).isSome = true from hvisited)]
  refine .bind rfl ?_
  dsimp only
  rw [hnode, CoreTag.ofText?_toText]
  cases tag <;> first | exact convert_gives hnode hx | cases hx

theorem visit_collection_gives [Interpreter] {n : Node} (hvisited : ¬s.Visited id)
    (hnode : s.graph.node id = n)
    (htag : n.tag = CoreTag.list.toText ∨ n.tag = CoreTag.map.toText) :
    Gives (visit id) s ()
      { s with made := s.made.setIfInBounds id (some .pending), queue := id :: s.queue } := by
  refine .bind made?_gives ?_
  rw [if_neg (show ¬(s.made[id]?.join).isSome = true from hvisited)]
  refine .bind rfl ?_
  dsimp only
  rw [hnode]
  rcases htag with htag | htag
  all_goals
    rw [htag, CoreTag.ofText?_toText]
    exact .bind record_gives rfl

end Make

open Make

/-- The value of a node is final, and the node waits no more. -/
theorem Maker.Sound.record {m : Made} {waiting' : List NodeId} (hs : s.Sound g waiting)
    (hm : IsFinal g s.Visited id m) (hless : waiting' ⊆ waiting)
    (hwaits : ∀ j ∈ waiting, j = id ∨ j ∈ waiting') :
    Maker.Sound g waiting' { s with made := s.made.setIfInBounds id (some m) } where
  graph := hs.graph
  size := by rw [Array.size_setIfInBounds, hs.size]
  waits j hj := hs.waits j (List.append_subset.mpr ⟨List.subset_append_of_subset_left _ hless,
    List.subset_append_right _ _⟩ hj)
  made j m' hj := by
    by_cases hid : id = j
    · subst hid
      have hlt : id < s.made.size := by
        by_contra hge
        simp [hge] at hj
      obtain rfl : m = m' := by simpa [hlt] using hj
      exact .inr (hm.mono fun _ => visited_record_mono)
    · rw [Array.getElem?_setIfInBounds_ne hid] at hj
      rcases hs.made j m' hj with ⟨hpending, hj⟩ | hfinal
      · refine .inl ⟨hpending, List.mem_append.mpr ?_⟩
        refine (List.mem_append.mp hj).imp_left fun hj => ?_
        exact (hwaits j hj).resolve_left (Ne.symm hid)
      · exact .inr (hfinal.mono fun _ => visited_record_mono)

/-- A collection waits to be looked into. -/
theorem Maker.Sound.wait (hs : s.Sound g waiting) (hid : IsCollection g id) :
    Maker.Sound g waiting
      { s with made := s.made.setIfInBounds id (some .pending), queue := id :: s.queue } where
  graph := hs.graph
  size := by rw [Array.size_setIfInBounds, hs.size]
  waits j hj := by
    simp only [List.mem_append, List.mem_cons] at hj
    rcases hj with hj | rfl | hj
    · exact hs.waits j (List.mem_append_left _ hj)
    · exact hid
    · exact hs.waits j (List.mem_append_right _ hj)
  made j m' hj := by
    by_cases heq : id = j
    · subst heq
      have hlt : id < s.made.size := by
        by_contra hge
        simp [hge] at hj
      obtain rfl : Made.pending = m' := by simpa [hlt] using hj
      exact .inl ⟨rfl, by simp⟩
    · rw [Array.getElem?_setIfInBounds_ne heq] at hj
      rcases hs.made j m' hj with ⟨hpending, hj⟩ | hfinal
      · refine .inl ⟨hpending, ?_⟩
        simp only [List.mem_append, List.mem_cons] at hj ⊢
        exact hj.imp_right .inr
      · exact .inr (hfinal.mono fun _ => visited_record_mono)

namespace Make

theorem visit_scalar [Interpreter] {tag : CoreTag} {mark : Mark} {t : Text} {x : Scalar}
    (hs : s.Sound g waiting) (hn : g[id]? = some ⟨tag.toText, mark, .scalar t⟩)
    (hx : scalarOf? tag mark t = some (.ok x)) :
    ∃ s', Gives (visit id) s () s' ∧ s'.Sound g waiting ∧ s'.Visited id ∧ s.Advances P s' := by
  by_cases hvisited : s.Visited id
  · refine ⟨s, .bind made?_gives ?_, hs, hvisited, .refl⟩
    rw [if_pos (show (s.made[id]?.join).isSome = true from hvisited)]
    exact .pure
  have hlt : id < s.made.size := hs.size ▸ Graph.lt_size_of_getElem? hn
  have hnode : s.graph.node id = ⟨tag.toText, mark, .scalar t⟩ := by
    rw [hs.graph, Graph.node, hn, Option.getD_some]
  obtain ⟨origin, hgives⟩ := visit_scalar_gives hvisited hnode hx
  exact ⟨_, hgives, hs.record (.scalar hn hx) (List.Subset.refl _) fun _ hj => .inr hj,
    visited_record hlt, fun _ => visited_record_mono, fun _ hj => .inl hj⟩

theorem visit_collection [Interpreter] (hs : s.Sound g waiting) (hid : IsCollection g id)
    (hP : P id) :
    ∃ s', Gives (visit id) s () s' ∧ s'.Sound g waiting ∧ s'.Visited id ∧ s.Advances P s' := by
  by_cases hvisited : s.Visited id
  · refine ⟨s, .bind made?_gives ?_, hs, hvisited, .refl⟩
    rw [if_pos (show (s.made[id]?.join).isSome = true from hvisited)]
    exact .pure
  obtain ⟨n, hn, htag⟩ : ∃ n, g[id]? = some n ∧
      (n.tag = CoreTag.list.toText ∨ n.tag = CoreTag.map.toText) := by
    rcases hid with ⟨items, hholds, -⟩ | ⟨entries, hholds, -⟩
    · cases hholds with
      | list hn => exact ⟨_, hn, .inl rfl⟩
    · cases hholds with
      | map hn => exact ⟨_, hn, .inr rfl⟩
  have hlt : id < s.made.size := hs.size ▸ Graph.lt_size_of_getElem? hn
  have hnode : s.graph.node id = n := by rw [hs.graph, Graph.node, hn, Option.getD_some]
  refine ⟨_, visit_collection_gives hvisited hnode htag, hs.wait hid, visited_record hlt,
    fun _ => visited_record_mono, fun j hj => ?_⟩
  rcases List.mem_cons.mp hj with rfl | hj
  · exact .inr hP
  · exact .inl hj

/-- The node of a spelling can be visited. -/
theorem visit_holds [Interpreter] (hs : s.Sound g waiting) (hholds : g.Holds id tree)
    (hconv : tree.IsConvertible) (hP : P id) :
    ∃ s', Gives (visit id) s () s' ∧ s'.Sound g waiting ∧ s'.Visited id ∧ s.Advances P s' := by
  cases tree with
  | plain t =>
    cases hholds with
    | plain hn =>
      cases hconv with
      | plain hx => exact visit_scalar hs hn (hx _)
  | quoted t =>
    cases hholds with
    | quoted hn =>
      obtain ⟨mark, hn⟩ := hn
      exact visit_scalar hs hn rfl
  | list items => exact visit_collection hs (.inl ⟨items, hholds, hconv⟩) hP
  | map entries => exact visit_collection hs (.inr ⟨entries, hholds, hconv⟩) hP

theorem forM_visit [Interpreter] {ids : List NodeId} {items : List Spelling}
    (hs : s.Sound g waiting)
    (hitems : List.Forall₂ g.Holds ids items) (hconv : ∀ item ∈ items, item.IsConvertible)
    (hP : ∀ id ∈ ids, P id) :
    ∃ s', Gives (ids.forM visit) s () s' ∧ s'.Sound g waiting ∧ (∀ id ∈ ids, s'.Visited id) ∧
      s.Advances P s' := by
  induction hitems generalizing s with
  | nil => exact ⟨s, .pure, hs, nofun, .refl⟩
  | cons hitem _ ih =>
    rw [List.forall_mem_cons] at hconv hP
    obtain ⟨s₁, hgives₁, hs₁, hid, hadvances₁⟩ := visit_holds hs hitem hconv.1 hP.1
    obtain ⟨s₂, hgives₂, hs₂, hids, hadvances₂⟩ := ih hs₁ hconv.2 hP.2
    refine ⟨s₂, .bind hgives₁ hgives₂, hs₂, ?_, hadvances₁.trans hadvances₂⟩
    exact List.forall_mem_cons.mpr ⟨hadvances₂.visited _ hid, hids⟩

theorem made_text {name : Text} (hs : s.Sound g waiting) (hname : g.HoldsText id name)
    (hvisited : s.Visited id) :
    ∃ origin, s.made[id]?.join = some (.scalar ⟨.text name, origin⟩) := by
  obtain ⟨mark, hn⟩ := hname
  obtain ⟨m, hm⟩ := Option.isSome_iff_exists.mp hvisited
  rcases hs.made id m hm with ⟨-, hwaits⟩ | hfinal
  · rcases hs.waits id hwaits with ⟨items, hholds, -⟩ | ⟨entries, hholds, -⟩
    · cases hholds with
      | list hn' => cases congrArg Node.body (Option.some.inj (hn.symm.trans hn'))
    · cases hholds with
      | map hn' => cases congrArg Node.body (Option.some.inj (hn.symm.trans hn'))
  · obtain ⟨x, origin, rfl, hx⟩ := hfinal.scalar_inv hn
    obtain rfl : Scalar.text name = x := Except.ok.inj (Option.some.inj hx)
    exact ⟨origin, hm⟩

theorem keyOf_text [Interpreter] {name : Text} (mark : Mark) (hs : s.Sound g waiting)
    (hname : g.HoldsText id name) :
    ∃ s' origin, Gives (keyOf mark id) s ⟨.text name, origin⟩ s' ∧ s'.Sound g waiting ∧
      s.Advances P s' := by
  have hholds := hname
  obtain ⟨mark', hn⟩ := hholds
  obtain ⟨s', hgives, hs', hvisited, hadvances⟩ := visit_scalar (P := P) hs hn rfl
  obtain ⟨origin, hm⟩ := made_text hs' hname hvisited
  refine ⟨s', origin, .bind hgives (.bind made?_gives ?_), hs', hadvances⟩
  rw [hm]
  exact .pure

/-- Keys that are texts are the same if the texts are. -/
theorem sameKey_of_texts {k k' : Key} {t t' : Text} (h : k.scalar = .text t)
    (h' : k'.scalar = .text t') : Key.same k k' = k.scalar.sameKey k'.scalar := by
  rw [Key.same, h, h']

/-- Entries with the same keys make the same mapping, if the keys are texts. -/
theorem foldl_insertEntry {keyed before : List (Key × NodeId)} {entries : List (Text × NodeId)}
    (hkeyed : keyed.map (fun e => (e.1.scalar, e.2)) = entries.map fun e => (.text e.1, e.2))
    (hbefore : ∀ e ∈ before, ∃ t, e.1.scalar = .text t) :
    (keyed.foldl (fun entries e => insertEntry Key.same e.1 e.2 entries) before).map
        (fun e => (e.1.scalar, e.2)) =
      entries.foldl (fun merged e => insertEntry Scalar.sameKey (.text e.1) e.2 merged)
        (before.map fun e => (e.1.scalar, e.2)) := by
  induction keyed generalizing before entries with
  | nil =>
    obtain rfl := List.map_eq_nil_iff.mp hkeyed.symm
    rfl
  | cons e keyed ih =>
    obtain ⟨name, entries, rfl, hname, hrest⟩ := List.map_eq_cons_iff.mp hkeyed.symm
    obtain ⟨hkey, hvalue⟩ := Prod.mk.inj hname
    have htexts : ∀ e' ∈ insertEntry Key.same e.1 e.2 before, ∃ t, e'.1.scalar = .text t := by
      intro e' he'
      rcases fst_of_mem_insertEntry he' with heq | ⟨e'', he'', heq⟩
      · exact ⟨name.1, by rw [heq, hkey]⟩
      · rw [heq]
        exact hbefore e'' he''
    rw [List.foldl_cons, List.foldl_cons, ih hrest.symm htexts]
    congr 1
    -- keys that are texts are the same by their text, from whatever nodes they come
    rw [hkey, hvalue]
    refine map_insertEntry (f := Key.scalar) (g := id) fun e' he' => ?_
    obtain ⟨t, ht⟩ := hbefore e' he'
    exact sameKey_of_texts ht hkey.symm

theorem mapM_keyedEntry [Interpreter] {pairs : List (NodeId × NodeId)} {names : List Text}
    {items : List Spelling} (mark : Mark) (hs : s.Sound g waiting)
    (hnames : List.Forall₂ g.HoldsText (pairs.map (·.1)) names)
    (hitems : List.Forall₂ g.Holds (pairs.map (·.2)) items)
    (hconv : ∀ item ∈ items, item.IsConvertible) (hP : ∀ pair ∈ pairs, P pair.2) :
    ∃ s' keyed, Gives (pairs.mapM (keyedEntry mark)) s keyed s' ∧ s'.Sound g waiting ∧
      (∀ pair ∈ pairs, s'.Visited pair.2) ∧ s.Advances P s' ∧
      keyed.map (fun e => (e.1.scalar, e.2)) =
        (names.zip (pairs.map (·.2))).map fun e => (.text e.1, e.2) := by
  induction pairs generalizing s names items with
  | nil =>
    cases hnames
    exact ⟨s, [], .pure, hs, nofun, .refl, rfl⟩
  | cons pair pairs ih =>
    cases hnames with
    | @cons _ name _ names hname hnames =>
    cases hitems with
    | @cons _ item _ items hitem hitems =>
      rw [List.forall_mem_cons] at hconv hP
      obtain ⟨s₁, origin, hgives₁, hs₁, hadvances₁⟩ := keyOf_text mark (P := P) hs hname
      obtain ⟨s₂, hgives₂, hs₂, hvisited, hadvances₂⟩ := visit_holds hs₁ hitem hconv.1 hP.1
      obtain ⟨s₃, keyed, hgives₃, hs₃, hvisited₃, hadvances₃, hkeyed⟩ :=
        ih hs₂ hnames hitems hconv.2 hP.2
      refine ⟨s₃, (⟨.text name, origin⟩, pair.2) :: keyed, ?_, hs₃, List.forall_mem_cons.mpr
        ⟨hadvances₃.visited _ hvisited, hvisited₃⟩,
        hadvances₁.trans (hadvances₂.trans hadvances₃), ?_⟩
      · rw [List.mapM_cons]
        exact .bind (.bind hgives₁ (.bind hgives₂ .pure)) (.bind hgives₃ .pure)
      · simp [hkeyed]

theorem exists_of_forall₂ {α β : Type} {R : α → β → Prop} {as : List α} {bs : List β} {a : α}
    (h : List.Forall₂ R as bs) (ha : a ∈ as) : ∃ b ∈ bs, R a b := by
  induction h with
  | nil => cases ha
  | cons hab _ ih =>
    rcases List.mem_cons.mp ha with rfl | ha
    · exact ⟨_, List.mem_cons_self, hab⟩
    · obtain ⟨b, hb, hab⟩ := ih ha
      exact ⟨b, List.mem_cons_of_mem _ hb, hab⟩

/-- Entries whose keys are texts are not merged. -/
theorem flatten_eq [Interpreter] {mark : Mark} {pairs : List (NodeId × NodeId)} {names : List Text}
    (hn : g[id]? = some ⟨CoreTag.map.toText, mark, .mapping pairs⟩)
    (hnames : List.Forall₂ g.HoldsText (pairs.map (·.1)) names) : g.flatten id = .ok g := by
  have hentries : g.entries id = pairs := by
    rw [Graph.entries, Graph.node, hn]
    rfl
  refine Graph.flatten_eq_self fun pair hpair => ?_
  rw [hentries] at hpair
  obtain ⟨name, -, mark, hkey⟩ := exists_of_forall₂ hnames (List.mem_map_of_mem hpair)
  simp only [Graph.hasTag, Graph.node, hkey, Option.getD_some, CoreTag.toText_inj]
  decide

theorem mappingEntries_gives [Interpreter] {mark : Mark} {pairs : List (NodeId × NodeId)}
    {names : List Text}
    {items : List Spelling} (hs : s.Sound g waiting)
    (hn : g[id]? = some ⟨CoreTag.map.toText, mark, .mapping pairs⟩)
    (hnames : List.Forall₂ g.HoldsText (pairs.map (·.1)) names)
    (hitems : List.Forall₂ g.Holds (pairs.map (·.2)) items)
    (hconv : ∀ item ∈ items, item.IsConvertible) (hP : ∀ pair ∈ pairs, P pair.2) :
    ∃ s', Gives (mappingEntries id) s (Spelling.mergeEntries (names.zip (pairs.map (·.2)))) s' ∧
      s'.Sound g waiting ∧ (∀ pair ∈ pairs, s'.Visited pair.2) ∧ s.Advances P s' := by
  obtain ⟨s', keyed, hgives, hs', hvisited, hadvances, hkeyed⟩ :=
    mapM_keyedEntry mark hs hnames hitems hconv hP
  have hget : Gives (get : Make Maker) s s s := rfl
  have hnode : s.graph.node id = ⟨CoreTag.map.toText, mark, .mapping pairs⟩ := by
    rw [hs.graph, Graph.node, hn, Option.getD_some]
  have hflatten : Gives (liftM (s.graph.flatten id) : Make Graph) s g s := by
    rw [hs.graph, flatten_eq hn hnames]
    rfl
  have hset : Gives (modify fun s => { s with graph := g } : Make Unit) s () s := by
    obtain ⟨graph, made, queue⟩ := s
    obtain rfl : graph = g := hs.graph
    rfl
  have hentries : g.entries id = pairs := by
    rw [Graph.entries, Graph.node, hn]
    rfl
  have hmerged : (keyed.foldl (fun entries e => insertEntry Key.same e.1 e.2 entries) []).map
      (fun e => (e.1.scalar, e.2)) = Spelling.mergeEntries (names.zip (pairs.map (·.2))) :=
    foldl_insertEntry hkeyed (List.forall_mem_nil _)
  refine ⟨s', .bind hget ?_, hs', hvisited, hadvances⟩
  dsimp only
  rw [hnode]
  dsimp only
  refine .bind hget (.bind hflatten (.bind hset (.bind (hentries ▸ hgives) ?_)))
  rw [← hmerged]
  exact .pure

theorem lookInto_collection [Interpreter] (hs : s.Sound g (id :: waiting))
    (hP : ∀ part, id < part → P part) :
    ∃ s' m, Gives (lookInto id) s m s' ∧ s'.Sound g (id :: waiting) ∧
      IsFinal g s'.Visited id m ∧ s.Advances P s' := by
  have hget : Gives (get : Make Maker) s s s := rfl
  rcases hs.waits id (by simp) with ⟨items, hholds, hconv⟩ | ⟨entries, hholds, hconv⟩
  · cases hholds with
    | @list _ mark ids _ hn hids hitems =>
    cases hconv with
    | list hconv =>
      obtain ⟨s', hgives, hs', hvisited, hadvances⟩ :=
        forM_visit hs hitems hconv fun part hpart => hP part (hids part hpart)
      refine ⟨s', .list ids, .bind hget ?_, hs', .list hn hvisited, hadvances⟩
      dsimp only
      rw [hs.graph, Graph.node, hn, Option.getD_some, CoreTag.ofText?_toText]
      exact .bind hgives .pure
  · cases hholds with
    | @map _ mark pairs _ hn hpairs hnames hvalues =>
    cases hconv with
    | map hconv =>
      obtain ⟨s', hgives, hs', hvisited, hadvances⟩ := mappingEntries_gives hs hn hnames hvalues
        (List.forall_mem_map.mpr hconv) fun pair hpair => hP _ (hpairs pair hpair).2
      refine ⟨s', _, .bind hget ?_, hs', .map hn hvisited hnames, hadvances⟩
      dsimp only
      rw [hs.graph, Graph.node, hn, Option.getD_some, CoreTag.ofText?_toText]
      exact .bind hgives .pure

/-- A round: those that wait are looked into, one after another. -/
theorem forM_lookInto [Interpreter] {first : NodeId} (hs : s.Sound g waiting)
    (hfirst : ∀ id ∈ waiting, first ≤ id) :
    ∃ s', Gives (waiting.forM fun id => do record id (← lookInto id)) s () s' ∧ s'.Sound g [] ∧
      s.Advances (first < ·) s' := by
  induction waiting generalizing s with
  | nil => exact ⟨s, .pure, hs, .refl⟩
  | cons id waiting ih =>
    rw [List.forall_mem_cons] at hfirst
    obtain ⟨s₁, m, hgives₁, hs₁, hfinal, hadvances₁⟩ := lookInto_collection (P := (first < ·)) hs
      fun part hpart => Nat.lt_of_le_of_lt hfirst.1 hpart
    have hs₂ := hs₁.record hfinal (List.subset_cons_self id waiting) fun j hj => List.mem_cons.mp hj
    obtain ⟨s₃, hgives₃, hs₃, hadvances₃⟩ := ih hs₂ hfirst.2
    have hrecord : s₁.Advances (first < ·)
        { s₁ with made := s₁.made.setIfInBounds id (some m) } :=
      ⟨fun _ => visited_record_mono, fun _ hj => .inl hj⟩
    exact ⟨s₃, .bind (.bind hgives₁ record_gives) hgives₃, hs₃,
      hadvances₁.trans (hrecord.trans hadvances₃)⟩

theorem lt_size_of_isCollection (h : IsCollection g id) : id < g.size := by
  rcases h with ⟨items, hholds, -⟩ | ⟨entries, hholds, -⟩
  · exact hholds.lt_size
  · exact hholds.lt_size

/-- Every round looks into collections with greater numbers, so that there are not more rounds than
nodes. -/
theorem lookIntoAll_gives [Interpreter] {fuel : Nat} {first : NodeId} (hs : s.Sound g [])
    (hfirst : ∀ id ∈ s.queue, first ≤ id) (hfuel : g.size ≤ first + fuel) :
    ∃ s', Gives (lookIntoAll fuel) s () s' ∧ s'.Sound g [] ∧ s'.queue = [] ∧
      ∀ id, s.Visited id → s'.Visited id := by
  induction fuel generalizing s first with
  | zero =>
    have hempty : s.queue = [] := by
      refine List.eq_nil_iff_forall_not_mem.mpr fun id hid => ?_
      have hlt := lt_size_of_isCollection (hs.waits id (List.mem_append_right _ hid))
      exact Nat.not_lt_of_le (Nat.le_trans hfuel (hfirst id hid)) hlt
    exact ⟨s, .pure, hs, hempty, fun _ h => h⟩
  | succ fuel ih =>
    unfold lookIntoAll
    let s₀ : Maker := { s with queue := [] }
    have hget : Gives (modifyGet fun s : Maker => (s.queue.reverse, { s with queue := [] }) :
        Make _) s s.queue.reverse s₀ := rfl
    by_cases hqueue : s.queue = []
    · refine ⟨s₀, .bind hget ?_, ?_, rfl, fun _ h => h⟩
      · rw [hqueue]
        exact .pure
      · obtain ⟨graph, made, queue⟩ := s
        obtain rfl : queue = [] := hqueue
        exact hs
    have hs₀ : s₀.Sound g s.queue.reverse :=
      ⟨hs.graph, hs.size, fun id hid => hs.waits id (by simpa [s₀] using hid),
        fun id m hm => (hs.made id m hm).imp_left fun hpending =>
          ⟨hpending.1, by simpa [s₀] using hpending.2⟩⟩
    obtain ⟨s₁, hgives₁, hs₁, hadvances₁⟩ :=
      forM_lookInto hs₀ fun id hid => hfirst id (List.mem_reverse.mp hid)
    have hfirst₁ : ∀ id ∈ s₁.queue, first + 1 ≤ id := fun id hid =>
      (hadvances₁.queue id hid).resolve_left List.not_mem_nil
    obtain ⟨s₂, hgives₂, hs₂, hqueue₂, hvisited₂⟩ := ih hs₁ hfirst₁ (by omega)
    refine ⟨s₂, .bind hget ?_, hs₂, hqueue₂, fun id h => hvisited₂ id (hadvances₁.visited id h)⟩
    rw [if_neg (by simpa using hqueue)]
    exact .bind hgives₁ hgives₂

end Make

end CollectionInterfaces.Yaml
