import Mathlib.Data.List.Forall2
import CollectionInterfaces.Proofs.Yaml.Flow.Spelling
import CollectionInterfaces.Proofs.Yaml.Outcome
import CollectionInterfaces.Yaml.Node.Grammar

/-!
# Nodes of documents in flow notation

The tokens of a spelling are put together to a graph that holds the spelling
(`Graph.ofTokens_of_kinds`). What a step takes and adds is said by `Build.Extends`, which is carried
through the steps of the grammar.
-/

namespace CollectionInterfaces.Yaml

theorem forall₂_imp_of_mem {α β : Type} {R R' : α → β → Prop} {as : List α} {bs : List β}
    (h : List.Forall₂ R as bs) (H : ∀ a ∈ as, ∀ b ∈ bs, R a b → R' a b) :
    List.Forall₂ R' as bs := by
  induction h with
  | nil => exact .nil
  | cons hab _ ih =>
    refine .cons (H _ List.mem_cons_self _ List.mem_cons_self hab) (ih fun a ha b hb => ?_)
    exact H a (List.mem_cons_of_mem _ ha) b (List.mem_cons_of_mem _ hb)

namespace Graph

def HoldsText (g : Graph) (id : NodeId) (t : Text) : Prop :=
  ∃ mark, g[id]? = some ⟨CoreTag.text.toText, mark, .scalar t⟩

/-- A node is what a spelling describes. Its parts have greater numbers. -/
inductive Holds (g : Graph) : NodeId → Spelling → Prop
  | plain {id : NodeId} {mark : Mark} {t : Text}
      (hn : g[id]? = some ⟨(tagByLook t).toText, mark, .scalar t⟩) : Holds g id (.plain t)
  | quoted {id : NodeId} {t : Text} (hn : HoldsText g id t) : Holds g id (.quoted t)
  | list {id : NodeId} {mark : Mark} {ids : List NodeId} {items : List Spelling}
      (hn : g[id]? = some ⟨CoreTag.list.toText, mark, .sequence ids⟩)
      (hparts : ∀ part ∈ ids, id < part) (hitems : List.Forall₂ (Holds g) ids items) :
      Holds g id (.list items)
  | map {id : NodeId} {mark : Mark} {pairs : List (NodeId × NodeId)}
      {entries : List (Text × Spelling)}
      (hn : g[id]? = some ⟨CoreTag.map.toText, mark, .mapping pairs⟩)
      (hparts : ∀ pair ∈ pairs, id < pair.1 ∧ id < pair.2)
      (hnames : List.Forall₂ (HoldsText g) (pairs.map (·.1)) (entries.map (·.1)))
      (hvalues : List.Forall₂ (Holds g) (pairs.map (·.2)) (entries.map (·.2))) :
      Holds g id (.map entries)

variable {g g' : Graph} {id first : NodeId} {s : Spelling}

theorem lt_size_of_getElem? {n : Node} (hn : g[id]? = some n) : id < g.size :=
  (Array.getElem?_eq_some_iff.mp hn).1

theorem Holds.lt_size (h : g.Holds id s) : id < g.size := by
  cases h with
  | plain hn | list hn | map hn => exact lt_size_of_getElem? hn
  | quoted hn =>
    obtain ⟨_, hn⟩ := hn
    exact lt_size_of_getElem? hn

/-- The nodes from a number on stay what they are. -/
def Stays (g g' : Graph) (first : NodeId) : Prop :=
  ∀ (id : NodeId) n, first ≤ id → g[id]? = some n → g'[id]? = some n

theorem Stays.trans {g'' : Graph} (h : g.Stays g' first) (h' : g'.Stays g'' first) :
    g.Stays g'' first := fun id n hid hn => h' id n hid (h id n hid hn)

theorem stays_push {n : Node} : g.Stays (g.push n) 0 := by
  intro id n' _ hn
  rw [Array.getElem?_push, if_neg (Nat.ne_of_lt (lt_size_of_getElem? hn)), hn]

theorem stays_setBody {body : Body} :
    g.Stays (g.setBody id body) (id + 1) := by
  intro id' n hid hn
  rw [setBody, Array.getElem?_setIfInBounds_ne (Nat.ne_of_lt hid), hn]

theorem HoldsText.mono (h : g.HoldsText id t) (hstays : g.Stays g' first) (hle : first ≤ id) :
    g'.HoldsText id t := by
  obtain ⟨mark, hn⟩ := h
  exact ⟨mark, hstays id _ hle hn⟩

theorem Holds.mono (h : g.Holds id s) (hstays : g.Stays g' first) (hle : first ≤ id) :
    g'.Holds id s := by
  induction s using Spelling.induct generalizing id with
  | plain t =>
    cases h with
    | plain hn => exact .plain (hstays _ _ hle hn)
  | quoted t =>
    cases h with
    | quoted hn => exact .quoted (hn.mono hstays hle)
  | list items ih =>
    cases h with
    | list hn hids hitems =>
      refine .list (hstays _ _ hle hn) hids
        (forall₂_imp_of_mem hitems fun part hpart item hitem h => ?_)
      exact ih item hitem h (Nat.le_trans hle (Nat.le_of_lt (hids part hpart)))
  | map entries ih =>
    cases h with
    | map hn hpairs hnames hvalues =>
      refine .map (hstays _ _ hle hn) hpairs (forall₂_imp_of_mem hnames ?_)
        (forall₂_imp_of_mem hvalues ?_)
      · intro key hkey name hname h
        obtain ⟨pair, hpair, rfl⟩ := List.mem_map.mp hkey
        exact h.mono hstays (Nat.le_trans hle (Nat.le_of_lt (hpairs pair hpair).1))
      · intro value hvalue item hitem h
        obtain ⟨pair, hpair, rfl⟩ := List.mem_map.mp hvalue
        obtain ⟨entry, hentry, rfl⟩ := List.mem_map.mp hitem
        exact ih entry hentry h (Nat.le_trans hle (Nat.le_of_lt (hpairs pair hpair).2))

end Graph

/-- The state after the tokens up to some others are taken. -/
def Builder.skipTo (s : Builder) (more : List Token) : Builder :=
  { s with tokens := more }

namespace Build

variable {α β : Type} {m : Build α} {next : α → Build β} {s s' s'' : Builder} {a : α} {b : β}
  {token : Token} {more : List Token} {kind : TokenKind} {kinds kinds' : List TokenKind}
  {P P' : NodeId → Graph → α → Prop}

/-! ## Steps -/

theorem peek_gives (h : s.tokens = token :: more) : Gives peek s token s := by
  obtain ⟨tokens, shorthands, graph, anchors⟩ := s
  dsimp only at h
  subst h
  rfl

theorem take_gives (h : s.tokens = token :: more) : Gives take s token (s.skipTo more) := by
  obtain ⟨tokens, shorthands, graph, anchors⟩ := s
  dsimp only at h
  subst h
  rfl

theorem properties_gives (h : s.tokens = token :: more)
    (hanchor : ∀ name, token.kind ≠ .anchor name)
    (htag : ∀ handle rest, token.kind ≠ .tag handle rest) :
    Gives properties s ⟨none, none, none⟩ s := by
  have hno : Gives anchor? s none s := by
    refine .bind (peek_gives h) ?_
    split
    · exact absurd ‹_› (hanchor _)
    · exact .pure
  have hno' : Gives tag? s none s := by
    refine .bind (peek_gives h) ?_
    split
    · exact absurd ‹_› (htag _ _)
    · exact .pure
  exact .bind hno (.bind hno' .pure)

/-- A step takes tokens of some kinds and adds nodes, starting with a number; its result in the new
graph is as `P` says. -/
def Extends (m : Build α) (kinds : List TokenKind) (P : NodeId → Graph → α → Prop) : Prop :=
  ∀ s toks more, s.tokens = toks ++ more → toks.map (·.kind) = kinds →
    ∃ a g, Gives m s a { s.skipTo more with graph := g } ∧ s.graph.size ≤ g.size ∧
      s.graph.Stays g 0 ∧ P s.graph.size g a

namespace Extends

theorem pure (h : ∀ g : Graph, P g.size g a) : Extends (Pure.pure a) [] P := by
  rintro s toks more hs hkinds
  obtain rfl := List.map_eq_nil_iff.mp hkinds
  rw [List.nil_append] at hs
  refine ⟨a, s.graph, ?_, Nat.le_refl _, fun _ _ _ hn => hn, h _⟩
  rw [Builder.skipTo, ← hs]
  exact .pure

theorem mono (H : Extends m kinds P) (h : ∀ first g a, P first g a → P' first g a) :
    Extends m kinds P' := by
  intro s toks more hs hkinds
  obtain ⟨a, g, hgives, hsize, hstays, ha⟩ := H s toks more hs hkinds
  exact ⟨a, g, hgives, hsize, hstays, h _ _ _ ha⟩

theorem bind {R : α → NodeId → Graph → β → Prop} (H : Extends m kinds P)
    (Hnext : ∀ a, Extends (next a) kinds' (R a)) :
    Extends (m >>= next) (kinds ++ kinds') fun first g b => ∃ a g₀, first ≤ g₀.size ∧
      g₀.Stays g 0 ∧ P first g₀ a ∧ R a g₀.size g b := by
  intro s toks more hs hkinds
  obtain ⟨toks, toks', rfl, hkinds, hkinds'⟩ := List.map_eq_append_iff.mp hkinds
  obtain ⟨a, g₀, hgives, hsize, hstays, ha⟩ :=
    H s toks (toks' ++ more) (by rw [hs, List.append_assoc]) hkinds
  obtain ⟨b, g, hgives', hsize', hstays', hb⟩ :=
    Hnext a { s.skipTo (toks' ++ more) with graph := g₀ } toks' more rfl hkinds'
  exact ⟨b, g, .bind hgives hgives', Nat.le_trans hsize hsize', hstays.trans hstays',
    a, g₀, hsize, hstays', ha, hb⟩

theorem map {f : α → β} (H : Extends m kinds P) :
    Extends (do return f (← m)) kinds fun first g b => ∃ a, b = f a ∧ P first g a := by
  intro s toks more hs hkinds
  obtain ⟨a, g, hgives, hsize, hstays, ha⟩ := H s toks more hs hkinds
  exact ⟨f a, g, .bind hgives .pure, hsize, hstays, a, rfl, ha⟩

theorem take {next : Token → Build α} (H : ∀ token, Extends (next token) kinds P) :
    Extends (Build.take >>= next) (kind :: kinds) P := by
  intro s toks more hs hkinds
  obtain ⟨token, toks, rfl, -, hkinds⟩ := List.map_eq_cons_iff.mp hkinds
  obtain ⟨a, g, hgives, hrest⟩ := H token (s.skipTo (toks ++ more)) toks more rfl hkinds
  exact ⟨a, g, .bind (take_gives hs) hgives, hrest⟩

theorem peek {next : Token → Build α} (hkinds : kinds = kind :: kinds')
    (H : ∀ token, token.kind = kind → Extends (next token) kinds P) :
    Extends (Build.peek >>= next) kinds P := by
  intro s toks more hs htoks
  obtain ⟨token, toks, rfl, hkind, -⟩ := List.map_eq_cons_iff.mp (htoks.trans hkinds)
  obtain ⟨a, g, hgives, hrest⟩ := H token hkind s _ more hs htoks
  exact ⟨a, g, .bind (peek_gives hs) hgives, hrest⟩

theorem nextIs {next : Bool → Build α} {some : List TokenKind} (hkinds : kinds = kind :: kinds')
    (H : Extends (next (some.contains kind)) kinds P) :
    Extends (Build.nextIs some >>= next) kinds P := by
  intro s toks more hs htoks
  obtain ⟨token, toks, rfl, rfl, -⟩ := List.map_eq_cons_iff.mp (htoks.trans hkinds)
  obtain ⟨a, g, hgives, hrest⟩ := H s _ more hs htoks
  exact ⟨a, g, .bind (.bind (peek_gives hs) .pure) hgives, hrest⟩

/-- A node whose first token is its content has no properties. -/
theorem properties {next : Properties → Build α} (hkinds : kinds = kind :: kinds')
    (hanchor : ∀ name, kind ≠ .anchor name) (htag : ∀ handle rest, kind ≠ .tag handle rest)
    (H : Extends (next ⟨none, none, none⟩) kinds P) :
    Extends (Build.properties >>= next) kinds P := by
  intro s toks more hs htoks
  obtain ⟨token, toks, rfl, rfl, -⟩ := List.map_eq_cons_iff.mp (htoks.trans hkinds)
  obtain ⟨a, g, hgives, hrest⟩ := H s _ more hs htoks
  exact ⟨a, g, .bind (properties_gives hs hanchor htag) hgives, hrest⟩

theorem addNamed {n : Node} : Extends (Build.addNamed ⟨none, none, none⟩ n) []
    fun first g id => first ≤ id ∧ g[id]? = some n := by
  intro s toks more hs hkinds
  obtain rfl := List.map_eq_nil_iff.mp hkinds
  rw [List.nil_append] at hs
  refine ⟨s.graph.size, s.graph.push n, ?_, by simp, Graph.stays_push, Nat.le_refl _, by simp⟩
  rw [Builder.skipTo, ← hs]
  rfl

/-- A collection is put together from its opening bracket on: its node comes first, then its parts
do, and then the node gets them. -/
theorem collection {n : Node} {body : α → Body} (H : Extends m kinds P) :
    Extends (do
      let id ← Build.addNamed ⟨none, none, none⟩ n
      let _ ← Build.take
      setBody id (body (← m))
      return id) (kind :: kinds) fun first g id => first ≤ id ∧ ∃ parts g₀,
        g[id]? = some { n with body := body parts } ∧ P (id + 1) g₀ parts ∧
          g₀.Stays g (id + 1) := by
  intro s toks more hs hkinds
  obtain ⟨token, toks, rfl, -, hkinds⟩ := List.map_eq_cons_iff.mp hkinds
  let s' : Builder := { s.skipTo (toks ++ more) with graph := s.graph.push n }
  obtain ⟨parts, g, hgives, hsize, hstays, hparts⟩ := H s' toks more rfl hkinds
  have hpush : s'.graph.size = s.graph.size + 1 := Array.size_push n
  rw [hpush] at hparts hsize
  have hnode : g[s.graph.size]? = some n := hstays _ _ (Nat.zero_le _) (by simp [s'])
  have hadd : Gives (Build.addNamed ⟨none, none, none⟩ n) s s.graph.size
      { s with graph := s.graph.push n } := rfl
  refine ⟨s.graph.size, g.setBody s.graph.size (body parts),
    .bind hadd (.bind (take_gives hs) (.bind hgives (.bind rfl .pure))), ?_, ?_, Nat.le_refl _,
    parts, g, ?_, hparts, Graph.stays_setBody⟩
  · rw [Graph.setBody, Array.size_setIfInBounds]
    exact Nat.le_of_lt hsize
  · intro id n' _ hn
    rw [Graph.setBody,
      Array.getElem?_setIfInBounds_ne (Nat.ne_of_gt (Graph.lt_size_of_getElem? hn))]
    exact hstays _ _ (Nat.zero_le _) (Graph.stays_push _ _ (Nat.zero_le _) hn)
  · rw [Graph.setBody, Array.getElem?_setIfInBounds_self_of_lt hsize, Graph.node, hnode]
    rfl

end Extends

/-! ## Nodes -/

/-- A node is the one of a spelling, and new. -/
def IsNode (s : Spelling) (first : NodeId) (g : Graph) (id : NodeId) : Prop :=
  first ≤ id ∧ g.Holds id s

def AreItems (items : List Spelling) (first : NodeId) (g : Graph) (ids : List NodeId) : Prop :=
  (∀ part ∈ ids, first ≤ part) ∧ List.Forall₂ g.Holds ids items

/-- Pairs of nodes are those of entries. -/
def AreEntries (entries : List (Text × Spelling)) (first : NodeId) (g : Graph)
    (pairs : List (NodeId × NodeId)) : Prop :=
  (∀ pair ∈ pairs, first ≤ pair.1 ∧ first ≤ pair.2) ∧
    List.Forall₂ g.HoldsText (pairs.map (·.1)) (entries.map (·.1)) ∧
    List.Forall₂ g.Holds (pairs.map (·.2)) (entries.map (·.2))

variable {fuel : Nat} {allowed : Notation} {t name : Text} {isPlain first : Bool} {start : Mark}
  {item : Spelling} {items : List Spelling} {entries : List (Text × Spelling)}

theorem node_scalar : Extends (node (fuel + 1) allowed) [.scalar t isPlain]
    fun first g id => first ≤ id ∧ ∃ mark,
      g[id]? = some ⟨(if isPlain then tagByLook t else .text).toText, mark, .scalar t⟩ := by
  unfold node
  refine .peek rfl fun token hkind => ?_
  simp only [hkind]
  refine .properties rfl nofun nofun (.peek rfl fun token hkind => ?_)
  simp only [hkind]
  refine .take fun _ => Extends.addNamed.mono fun first g id ⟨hle, hn⟩ => ⟨hle, token.start, ?_⟩
  rw [hn]
  cases isPlain <;> rfl

theorem node_list (H : ∀ start, Extends (flowItems fuel start true)
      (Spelling.itemKinds true items) (AreItems items)) :
    Extends (node (fuel + 1) allowed) (Spelling.kinds (.list items)) (IsNode (.list items)) := by
  unfold node
  refine .peek rfl fun token hkind => ?_
  simp only [hkind]
  refine .properties rfl nofun nofun (.peek rfl fun token hkind => ?_)
  simp only [hkind]
  refine (Extends.collection (H token.start)).mono ?_
  rintro first g id ⟨hle, ids, g₀, hn, ⟨hids, hitems⟩, hstays⟩
  exact ⟨hle, .list hn hids (forall₂_imp_of_mem hitems fun part hpart _ _ hitem =>
    hitem.mono hstays (hids part hpart))⟩

theorem node_map (H : ∀ start, Extends (flowEntries fuel start true)
      (Spelling.entryKinds true entries) (AreEntries entries)) :
    Extends (node (fuel + 1) allowed) (Spelling.kinds (.map entries)) (IsNode (.map entries)) := by
  unfold node
  refine .peek rfl fun token hkind => ?_
  simp only [hkind]
  refine .properties rfl nofun nofun (.peek rfl fun token hkind => ?_)
  simp only [hkind]
  refine (Extends.collection (H token.start)).mono ?_
  rintro first g id ⟨hle, pairs, g₀, hn, ⟨hpairs, hnames, hvalues⟩, hstays⟩
  refine ⟨hle, .map hn hpairs (forall₂_imp_of_mem hnames ?_) (forall₂_imp_of_mem hvalues ?_)⟩
  · intro key hkey name _ hname
    obtain ⟨pair, hpair, rfl⟩ := List.mem_map.mp hkey
    exact hname.mono hstays (hpairs pair hpair).1
  · intro value hvalue item _ hitem
    obtain ⟨pair, hpair, rfl⟩ := List.mem_map.mp hvalue
    exact hitem.mono hstays (hpairs pair hpair).2

/-! ## Parts of collections -/

theorem exists_kinds_eq_cons (s : Spelling) : ∃ kind kinds, s.kinds = kind :: kinds ∧
    kind ∉ [TokenKind.key, .flowEntry, .flowSequenceEnd, .flowMappingEnd] := by
  cases s <;> exact ⟨_, _, rfl, by simp⟩

/-- The kinds of a comma, which stands in front of all parts of a collection but the first. -/
abbrev commaKinds (first : Bool) : List TokenKind := if first then [] else [.flowEntry]

/-- A collection goes on after the comma, if there has to be one. -/
theorem comma_extends {context : Context} {problem : TokenKind → Problem} (H : Extends m kinds P) :
    Extends (if !first then do
        let token ← peek
        if token.kind = .flowEntry then
          let _ ← take
          m
        else
          fail context start (problem token.kind) token.start
          m
      else m) (commaKinds first ++ kinds) P := by
  cases first with
  | true => exact H
  | false =>
    refine .peek rfl fun token hkind => ?_
    rw [if_pos hkind]
    exact .take fun _ => H

theorem flowItems_nil :
    Extends (flowItems (fuel + 1) start first) (Spelling.itemKinds first []) (AreItems []) := by
  unfold flowItems
  exact .nextIs rfl (.take fun _ => .pure fun g => ⟨nofun, .nil⟩)

theorem flowItems_cons (hitem : Extends (node fuel .flow) item.kinds (IsNode item))
    (hitems : Extends (flowItems fuel start false) (Spelling.itemKinds false items)
      (AreItems items)) :
    Extends (flowItems (fuel + 1) start first) (Spelling.itemKinds first (item :: items))
      (AreItems (item :: items)) := by
  obtain ⟨kind, kinds, hkinds, hkind⟩ := exists_kinds_eq_cons item
  have hhead : ∃ kind' kinds', Spelling.itemKinds first (item :: items) = kind' :: kinds' ∧
      kind' ≠ .flowSequenceEnd := by
    rw [Spelling.itemKinds, hkinds]
    cases first
    · exact ⟨_, _, rfl, nofun⟩
    · exact ⟨_, _, rfl, by simp_all⟩
  obtain ⟨kind', kinds', hhead, hkind'⟩ := hhead
  unfold flowItems
  refine .nextIs hhead ?_
  rw [if_neg (by simpa using hkind')]
  refine comma_extends (.peek (congrArg (· ++ _) hkinds) fun token htoken => ?_)
  simp only [List.mem_cons, not_or] at hkind
  rw [if_neg (by rw [htoken]; exact hkind.1), if_neg (by rw [htoken]; exact hkind.2.2.1)]
  refine (hitem.bind fun id => hitems.map).mono ?_
  rintro first g _ ⟨id, g₀, hsize, hstays, ⟨hid, hitem⟩, ids, rfl, hids, hitems⟩
  refine ⟨List.forall_mem_cons.mpr ⟨hid, fun part hpart => ?_⟩, .cons ?_ hitems⟩
  · exact Nat.le_trans hsize (hids part hpart)
  · exact hitem.mono hstays (Nat.zero_le _)

theorem flowEntries_nil :
    Extends (flowEntries (fuel + 1) start first) (Spelling.entryKinds first [])
      (AreEntries []) := by
  unfold flowEntries
  exact .nextIs rfl (.take fun _ => .pure fun g => ⟨nofun, .nil, .nil⟩)

theorem nodeUnless_extends {ends : List TokenKind} (hkinds : kinds = kind :: kinds')
    (hends : kind ∉ ends) {P : NodeId → Graph → NodeId → Prop}
    (H : Extends (node fuel allowed) kinds P) :
    Extends (nodeUnless (fuel + 1) ends allowed start) kinds P := by
  unfold nodeUnless
  refine .nextIs hkinds ?_
  rw [if_neg (by simpa using hends)]
  exact H

theorem flowEntries_cons (hitem : Extends (node (fuel + 1) .flow) item.kinds (IsNode item))
    (hentries : Extends (flowEntries (fuel + 3) start false) (Spelling.entryKinds false entries)
      (AreEntries entries)) :
    Extends (flowEntries (fuel + 4) start first)
      (Spelling.entryKinds first ((name, item) :: entries))
      (AreEntries ((name, item) :: entries)) := by
  obtain ⟨kind, kinds, hkinds, hkind⟩ := exists_kinds_eq_cons item
  have hhead : ∃ kind' kinds', Spelling.entryKinds first ((name, item) :: entries) =
      kind' :: kinds' ∧ kind' ≠ .flowMappingEnd := by
    rw [Spelling.entryKinds]
    cases first
    · exact ⟨_, _, rfl, nofun⟩
    · exact ⟨_, _, rfl, nofun⟩
  obtain ⟨kind', kinds', hhead, hkind'⟩ := hhead
  have hvalue : Extends (valueUnless (fuel + 3) [.flowEntry, .flowMappingEnd] .flow)
      (.value :: item.kinds) (IsNode item) := by
    unfold valueUnless
    refine .nextIs rfl (.take fun token => nodeUnless_extends hkinds ?_ hitem)
    simp_all
  unfold flowEntries
  refine .nextIs hhead ?_
  rw [if_neg (by simpa using hkind')]
  refine comma_extends (.peek rfl fun token htoken => ?_)
  rw [if_pos htoken]
  refine .take fun _ => ?_
  have hkey : Extends (nodeUnless (fuel + 3) [.value, .flowEntry, .flowMappingEnd] .flow token.stop)
      [.scalar name false] fun first g id => first ≤ id ∧ g.HoldsText id name :=
    nodeUnless_extends rfl (by simp) node_scalar
  refine (hkey.bind fun key => hvalue.bind fun id => hentries.map).mono ?_
  rintro first g _ ⟨key, g₀, hsize, hstays, ⟨hle, hname⟩, id, g₁, hsize₁, hstays₁, ⟨hid, hitem⟩,
    pairs, rfl, hpairs, hnames, hvalues⟩
  refine ⟨List.forall_mem_cons.mpr ⟨⟨hle, Nat.le_trans hsize hid⟩, fun pair hpair => ?_⟩,
    .cons (hname.mono hstays (Nat.zero_le _)) hnames,
    .cons (hitem.mono hstays₁ (Nat.zero_le _)) hvalues⟩
  have hle := Nat.le_trans hsize hsize₁
  exact ⟨Nat.le_trans hle (hpairs pair hpair).1, Nat.le_trans hle (hpairs pair hpair).2⟩

/-- Fuel for the tokens of a spelling is enough to read its node. -/
def IsRead (s : Spelling) : Prop :=
  ∀ fuel allowed, s.kinds.length ≤ fuel → Extends (node fuel allowed) s.kinds (IsNode s)

theorem itemKinds_ne_nil : Spelling.itemKinds first items ≠ [] := by
  obtain _ | ⟨item, items⟩ := items
  · simp [Spelling.itemKinds]
  · obtain ⟨kind, kinds, hkinds, -⟩ := exists_kinds_eq_cons item
    simp [Spelling.itemKinds, hkinds]

theorem flowItems_extends (h : ∀ item ∈ items, IsRead item)
    (hfuel : (Spelling.itemKinds first items).length ≤ fuel) :
    Extends (flowItems fuel start first) (Spelling.itemKinds first items) (AreItems items) := by
  have hpos := List.length_pos_iff.mpr (@itemKinds_ne_nil first items)
  obtain ⟨fuel, rfl⟩ := Nat.exists_eq_add_of_le' (Nat.le_trans hpos hfuel)
  induction items generalizing first fuel with
  | nil => exact flowItems_nil
  | cons item items ih =>
    rw [List.forall_mem_cons] at h
    simp only [Spelling.itemKinds, List.length_append] at hfuel
    have hrest := List.length_pos_iff.mpr (@itemKinds_ne_nil false items)
    obtain ⟨kind, kinds, hkinds, -⟩ := exists_kinds_eq_cons item
    have hitem : 0 < item.kinds.length := by simp [hkinds]
    obtain ⟨fuel, rfl⟩ := Nat.exists_eq_add_of_le' (show 1 ≤ fuel by omega)
    exact flowItems_cons (h.1 _ _ (by omega)) (ih h.2 hrest fuel (by omega))

theorem entryKinds_ne_nil : Spelling.entryKinds first entries ≠ [] := by
  cases entries <;> simp [Spelling.entryKinds]

theorem flowEntries_extends (h : ∀ entry ∈ entries, IsRead entry.2)
    (hfuel : (Spelling.entryKinds first entries).length ≤ fuel) :
    Extends (flowEntries fuel start first) (Spelling.entryKinds first entries)
      (AreEntries entries) := by
  have hpos := List.length_pos_iff.mpr (@entryKinds_ne_nil first entries)
  induction entries generalizing first fuel with
  | nil =>
    obtain ⟨fuel, rfl⟩ := Nat.exists_eq_add_of_le' (Nat.le_trans hpos hfuel)
    exact flowEntries_nil
  | cons entry entries ih =>
    obtain ⟨name, item⟩ := entry
    rw [List.forall_mem_cons] at h
    obtain ⟨hitem, h⟩ := h
    change IsRead item at hitem
    simp only [Spelling.entryKinds, List.length_append, List.length_cons] at hfuel
    have hrest := List.length_pos_iff.mpr (@entryKinds_ne_nil false entries)
    obtain ⟨fuel, rfl⟩ := Nat.exists_eq_add_of_le' (show 4 ≤ fuel by omega)
    exact flowEntries_cons (hitem (fuel + 1) .flow (by omega)) (ih h (by omega) hrest)

theorem isRead (s : Spelling) : IsRead s := by
  induction s using Spelling.induct with
  | plain t =>
    intro fuel allowed hfuel
    obtain ⟨fuel, rfl⟩ := Nat.exists_eq_add_of_le' hfuel
    exact node_scalar.mono fun first g id ⟨hle, mark, hn⟩ => ⟨hle, .plain hn⟩
  | quoted t =>
    intro fuel allowed hfuel
    obtain ⟨fuel, rfl⟩ := Nat.exists_eq_add_of_le' hfuel
    exact node_scalar.mono fun first g id ⟨hle, hn⟩ => ⟨hle, .quoted hn⟩
  | list items ih =>
    intro fuel allowed hfuel
    rw [Spelling.kinds, List.length_cons] at hfuel
    obtain ⟨fuel, rfl⟩ := Nat.exists_eq_add_of_le' (Nat.le_trans (Nat.le_add_left _ _) hfuel)
    exact node_list fun start => flowItems_extends ih (by omega)
  | map entries ih =>
    intro fuel allowed hfuel
    rw [Spelling.kinds, List.length_cons] at hfuel
    obtain ⟨fuel, rfl⟩ := Nat.exists_eq_add_of_le' (Nat.le_trans (Nat.le_add_left _ _) hfuel)
    exact node_map fun start => flowEntries_extends ih (by omega)

/-! ## Whole documents -/

theorem nextIs_gives (h : s.tokens = token :: more) :
    Gives (nextIs kinds) s (kinds.contains token.kind) s := .bind (peek_gives h) .pure

theorem nextIsDirective_gives (h : s.tokens = token :: more)
    (hkind : ∀ d, token.kind ≠ .directive d) : Gives nextIsDirective s false s := by
  refine .bind (peek_gives h) ?_
  split
  · exact absurd ‹_› (hkind _)
  · exact .pure

theorem streamEnd_gives {root : NodeId} (h : s.tokens = [token])
    (hkind : token.kind = .streamEnd) : Gives (streamEnd fuel root) s () s := by
  have hends : Gives (documentEnds fuel) s () s := by
    cases fuel with
    | zero => exact .pure
    | succ fuel =>
      refine .bind (nextIs_gives h) ?_
      rw [hkind]
      exact .pure
  refine .bind hends (.bind (nextIs_gives h) ?_)
  rw [hkind]
  exact .pure

theorem singleDocument_gives {tree : Spelling} {tokens : List Token}
    (hkinds : tokens.map (·.kind) = .streamStart :: (tree.kinds ++ [.streamEnd]))
    (hfuel : tree.kinds.length ≤ fuel) :
    ∃ root s, Gives (singleDocument fuel) ⟨tokens, defaultShorthands, #[], []⟩
      (some root) s ∧ s.graph.Holds root tree := by
  obtain ⟨first, tokens, rfl, -, hkinds⟩ := List.map_eq_cons_iff.mp hkinds
  obtain ⟨toks, ends, rfl, htree, hends⟩ := List.map_eq_append_iff.mp hkinds
  obtain ⟨last, rfl, hlast⟩ := List.map_eq_singleton_iff.mp hends
  obtain ⟨kind, kinds, hhead, hkind⟩ := exists_kinds_eq_cons tree
  obtain ⟨token, toks, rfl, htoken, -⟩ := List.map_eq_cons_iff.mp (htree.trans hhead)
  obtain ⟨root, g, hgives, -, -, -, hholds⟩ := isRead tree fuel .block hfuel
    ⟨token :: toks ++ [last], defaultShorthands, #[], []⟩ _ _ rfl htree
  refine ⟨root, ⟨[last], defaultShorthands, g, []⟩,
    .bind (take_gives rfl) (.bind (nextIs_gives rfl) ?_), hholds⟩
  have hstart : kind ∉ [TokenKind.streamEnd, .documentStart] ∧ ∀ d, kind ≠ .directive d := by
    cases tree <;> cases hhead <;> simp
  rw [htoken, if_neg (by simp_all)]
  refine .bind (.bind (nextIs_gives rfl) (.bind (nextIsDirective_gives rfl ?_) .pure)) ?_
  · simp_all
  rw [htoken, if_neg (by simp_all)]
  exact .bind hgives (.bind (streamEnd_gives rfl hlast) .pure)

end Build

/-- The tokens of a spelling are put together to nodes. -/
theorem Graph.ofTokens_of_kinds {tree : Spelling} {tokens : List Token}
    (hkinds : tokens.map (·.kind) = .streamStart :: (tree.kinds ++ [.streamEnd])) :
    ∃ g root, Graph.ofTokens tokens = .ok (g, some root) ∧ g.Holds root tree := by
  have hlength := congrArg List.length hkinds
  simp only [List.length_map, List.length_cons, List.length_append] at hlength
  have hfuel : tree.kinds.length ≤ 4 * tokens.length + 8 := by omega
  obtain ⟨root, s, hgives, hholds⟩ := Build.singleDocument_gives hkinds hfuel
  refine ⟨s.graph, root, ?_, hholds⟩
  rw [ofTokens]
  dsimp only
  rw [hgives]
  rfl

end CollectionInterfaces.Yaml
