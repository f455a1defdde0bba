import CollectionInterfaces.Proofs.Yaml.Nesting
import CollectionInterfaces.Proofs.Yaml.Tokens
import CollectionInterfaces.Proofs.Yaml.Visits
import Mathlib.Data.List.TakeWhile

/-!
# Where reading a text stops

Besides the faults of its notation, reading a text fails at what it comes to and cannot convert, and
at what there is no room for (`parse_eq_error_iff`). Tokens are asked for while nodes are put
together: an error after them counts if nothing in front of it is malformed.
-/

namespace CollectionInterfaces.Yaml

variable [i : Interpreter] {t : Text} {e : Error}

/-- Reading a text comes to what stops it without a fault of the notation. -/
inductive TextStops (t : Text) (e : Error) : Prop
  /-- A lexeme cannot be converted, and nothing is wrong with the nodes in front of it. -/
  | lexeme {count : Nat} {s : Lexer} : count ≤ t.length + 1 → (Lexer.ofText t).Lexes count s →
    s.Stops e → FitsFrom i.yamlRoom [] (s.certainTokens.map (·.kind)) →
    Graph.ofTokens s.certainTokens = .error .wanting → TextStops t e
  /-- There is no room for a collection, and nothing is wrong with the nodes in front of it. -/
  | nesting {before : List Token} {token : Token} :
    CutsAt i.yamlRoom [] (TokenStream.ofText t).tokens before token →
    Graph.ofTokens (before ++ [token]) = .error .wanting → e = .exhausted → TextStops t e
  | value {g : Graph} {root : NodeId} :
    Graph.ofTokens ((TokenStream.ofText t).within i.yamlRoom).tokens = .ok (g, some root) →
    g.Stops root e → TextStops t e

omit i in
theorem TokenStream.toGraph_eq_error_iff {stream : TokenStream} (he : e.isFault = false) :
    stream.toGraph = .error e ↔
      Graph.ofTokens stream.tokens = .error .wanting ∧ stream.error = some e := by
  rw [toGraph, mapError_eq_error_iff]
  constructor
  · rintro ⟨fault, htokens, h⟩
    cases fault with
    | malformed m =>
      rw [← h] at he
      cases he
    | wanting =>
      cases herror : stream.error with
      | none =>
        rw [herror] at h
        rw [← h] at he
        cases he
      | some e' =>
        rw [herror] at h
        exact ⟨htokens, congrArg some h⟩
  · rintro ⟨htokens, herror⟩
    exact ⟨_, htokens, by rw [herror]; rfl⟩

/-- **When reading a text fails without a fault of the notation.** -/
theorem parse_eq_error_iff (he : e.isFault = false) :
    parse t = .error e ↔ (∀ c ∈ t, isAllowed c = true) ∧ TextStops t e := by
  unfold parse
  split
  · rename_i c rest hdrop
    refine ⟨fun h => ?_, fun ⟨hallowed, _⟩ => ?_⟩
    · rw [← Except.error.inj h] at he
      cases he
    · rw [List.dropWhile_eq_nil_iff.mpr hallowed] at hdrop
      cases hdrop
  rename_i hdrop
  have hallowed := List.dropWhile_eq_nil_iff.mp hdrop
  rw [bind_eq_error_iff, TokenStream.toGraph_eq_error_iff he]
  constructor
  · rintro (⟨htokens, herror⟩ | ⟨⟨g, root?⟩, htokens, h⟩)
    · refine ⟨hallowed, ?_⟩
      rcases TokenStream.fits_or_cuts i.yamlRoom [] (TokenStream.ofText t).tokens with
        hfits | ⟨before, token, hcuts⟩
      · rw [TokenStream.within, TokenStream.withinFrom_of_fits hfits] at htokens herror
        obtain ⟨count, hcount, s, hlexes, hstops, heq⟩ := (TokenStream.ofText_eq_iff he).mp
          (show TokenStream.ofText t = ⟨_, some e⟩ from congrArg (TokenStream.mk _) herror)
        exact .lexeme hcount hlexes hstops (heq ▸ hfits) (heq ▸ htokens)
      · rw [TokenStream.within, TokenStream.withinFrom_of_cutsAt hcuts] at htokens herror
        exact .nesting hcuts htokens (Option.some.inj herror).symm
    · refine ⟨hallowed, ?_⟩
      cases root? with
      | none => cases h
      | some root =>
        exact .value (mapError_eq_ok_iff.mp htokens) ((Graph.toDocument_eq_error_iff he).mp h)
  · rintro ⟨-, ⟨hcount, hlexes, hstops, hfits, htokens⟩ | ⟨hcuts, htokens, rfl⟩ | ⟨htokens, hstops⟩⟩
    · have hstream := (TokenStream.ofText_eq_iff he).mpr ⟨_, hcount, _, hlexes, hstops, rfl⟩
      rw [hstream, TokenStream.within, TokenStream.withinFrom_of_fits hfits]
      exact .inl ⟨htokens, rfl⟩
    · rw [TokenStream.within, TokenStream.withinFrom_of_cutsAt hcuts]
      exact .inl ⟨htokens, rfl⟩
    · exact .inr ⟨_, mapError_eq_ok_iff.mpr htokens, (Graph.toDocument_eq_error_iff he).mpr hstops⟩

end CollectionInterfaces.Yaml
