import CollectionInterfaces.Yaml.Token.Nesting

/-!
# Room for collections

Of the tokens of a text those are kept that there is room for, up to the first one that opens one
collection too many (`TokenStream.fits_or_cuts`).
-/

namespace CollectionInterfaces.Yaml

variable {room : Nat} {inside : List OpenCollection} {kinds kinds' : List TokenKind}
  {tokens : List Token}

/-- The collections that are open after tokens, where some are open in front of them. -/
def nestAll (inside : List OpenCollection) (kinds : List TokenKind) : List OpenCollection :=
  kinds.foldl TokenKind.nest inside

/-- There is room for all collections that tokens open inside each other, where some are open in
front of them. -/
def FitsFrom (room : Nat) : (inside : List OpenCollection) → List TokenKind → Prop
  | _, [] => True
  | inside, kind :: kinds =>
    (kind.nest inside).length ≤ room ∧ FitsFrom room (kind.nest inside) kinds

theorem nestAll_append : nestAll inside (kinds ++ kinds') = nestAll (nestAll inside kinds) kinds' :=
  List.foldl_append

theorem fitsFrom_append : FitsFrom room inside (kinds ++ kinds') ↔
    FitsFrom room inside kinds ∧ FitsFrom room (nestAll inside kinds) kinds' := by
  induction kinds generalizing inside with
  | nil => simp [FitsFrom, nestAll]
  | cons kind kinds ih => exact (and_congr_right fun _ => ih).trans and_assoc.symm

/-- There is room for tokens inside of some collections, and others are open after them. -/
structure Nests (room : Nat) (inside : List OpenCollection) (kinds : List TokenKind)
    (after : List OpenCollection) : Prop where
  fits : FitsFrom room inside kinds
  after : nestAll inside kinds = after

theorem Nests.append {middle after : List OpenCollection} (h : Nests room inside kinds middle)
    (h' : Nests room middle kinds' after) : Nests room inside (kinds ++ kinds') after where
  fits := fitsFrom_append.mpr ⟨h.fits, h.after ▸ h'.fits⟩
  after := by rw [nestAll_append, h.after, h'.after]

/-- The first token that there is no room for, with the tokens in front of it. -/
structure CutsAt (room : Nat) (inside : List OpenCollection) (tokens before : List Token)
    (token : Token) : Prop where
  split : ∃ after, tokens = before ++ token :: after
  fits : FitsFrom room inside (before.map (·.kind))
  exceeds : room < (token.kind.nest (nestAll inside (before.map (·.kind)))).length

namespace TokenStream

theorem withinFrom_of_fits {e : Option Error} (h : FitsFrom room inside (tokens.map (·.kind))) :
    withinFrom room e inside tokens = ⟨tokens, e⟩ := by
  induction tokens generalizing inside with
  | nil => rfl
  | cons token tokens ih =>
    rw [withinFrom]
    dsimp only
    rw [if_neg (Nat.not_lt.mpr h.1), ih h.2]

theorem withinFrom_of_cutsAt {e : Option Error} {before : List Token} {token : Token}
    (h : CutsAt room inside tokens before token) :
    withinFrom room e inside tokens = ⟨before ++ [token], some .exhausted⟩ := by
  obtain ⟨⟨after, rfl⟩, hfits, hexceeds⟩ := h
  induction before generalizing inside with
  | nil => exact if_pos hexceeds
  | cons first before ih =>
    rw [List.cons_append, withinFrom]
    dsimp only
    rw [if_neg (Nat.not_lt.mpr hfits.1), ih hfits.2 hexceeds]
    rfl

theorem fits_or_cuts (room : Nat) (inside : List OpenCollection) (tokens : List Token) :
    FitsFrom room inside (tokens.map (·.kind)) ∨
      ∃ before token, CutsAt room inside tokens before token := by
  induction tokens generalizing inside with
  | nil => exact .inl trivial
  | cons token tokens ih =>
    by_cases hroom : room < (token.kind.nest inside).length
    · exact .inr ⟨[], token, ⟨tokens, rfl⟩, trivial, hroom⟩
    have hfits := Nat.le_of_not_lt hroom
    rcases ih (token.kind.nest inside) with h | ⟨before, last, ⟨after, rfl⟩, h, hlast⟩
    · exact .inl ⟨hfits, h⟩
    · exact .inr ⟨token :: before, last, ⟨after, rfl⟩, ⟨hfits, h⟩, hlast⟩

theorem mem_of_mem_withinFrom {e : Option Error} {token : Token}
    (h : token ∈ (withinFrom room e inside tokens).tokens) : token ∈ tokens := by
  induction tokens generalizing inside with
  | nil => exact h
  | cons first tokens ih =>
    unfold withinFrom at h
    dsimp only at h
    split at h
    · exact List.mem_cons.mpr (.inl (List.mem_singleton.mp h))
    · exact List.mem_cons.mpr ((List.mem_cons.mp h).imp_right ih)

end TokenStream

end CollectionInterfaces.Yaml
