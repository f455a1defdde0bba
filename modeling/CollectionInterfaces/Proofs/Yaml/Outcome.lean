import CollectionInterfaces.Proofs.Results
import CollectionInterfaces.Yaml.Error

/-!
# Outcomes of reading YAML

Most failures are faults of the text. The others are conversions that fail and what there is no room
for (`Error.isFault`). Assertions about all outcomes of a computation (`Ends`, `Runs`) are carried
through its steps; single outcomes (`Gives`, `Fails`) are those of its steps one after another.
-/

namespace CollectionInterfaces.Yaml

/-- The error is one of the notation. -/
def Error.isFault : Error → Bool
  | .forbidden _ _ => true
  | .malformed _ => true
  | _ => false

variable {α β σ ε : Type} {E : ε → Prop} {Q Q' : α → Prop} {R : β → Prop} {I : σ → Prop}

/-! ## All outcomes -/

/-- A result is as `Q` says, and an error as `E` says. -/
def Ends (E : ε → Prop) : Except ε α → (α → Prop) → Prop
  | .ok a, Q => Q a
  | .error e, _ => E e

namespace Ends

theorem pure (h : Q a) : Ends E (pure a) Q := h

theorem bind {r : Except ε α} {next : α → Except ε β} (H1 : Ends E r Q)
    (H2 : ∀ a, Q a → Ends E (next a) R) : Ends E (r >>= next) R := by
  cases r with
  | ok a => exact H2 a H1
  | error e => exact H1

theorem mono {r : Except ε α} (H : Ends E r Q) (hQ : ∀ a, Q a → Q' a) : Ends E r Q' := by
  cases r with
  | ok a => exact hQ a H
  | error e => exact H

theorem weaken {E' : ε → Prop} {r : Except ε α} (H : Ends E r Q) (hE : ∀ e, E e → E' e) :
    Ends E' r Q := by
  cases r with
  | ok a => exact H
  | error e => exact hE e H

/-- The result is the one that it is. -/
theorem self {r : Except ε α} (hE : ∀ e, r = .error e → E e) : Ends E r fun a => r = .ok a := by
  cases r with
  | ok a => rfl
  | error e => exact hE e rfl

theorem trivial (r : Except ε α) : Ends (fun _ => True) r fun _ => True := by
  cases r <;> exact True.intro

theorem forget {r : Except ε α} (H : Ends E r Q) : Ends (fun _ => True) r Q :=
  H.weaken fun _ _ => True.intro

theorem ite {c : Prop} [Decidable c] {r r' : Except ε α} (H1 : c → Ends E r Q)
    (H2 : ¬c → Ends E r' Q) : Ends E (if c then r else r') Q := by
  split
  · exact H1 ‹_›
  · exact H2 ‹_›

theorem result {r : Except ε α} (H : Ends E r Q) (h : r = .ok a) : Q a := by
  subst h
  exact H

theorem error {r : Except ε α} {e : ε} (H : Ends E r Q) (h : r = .error e) : E e := by
  subst h
  exact H

end Ends

/-- A computation that starts in a state as `I` says ends in one with a result as `Q` says, unless
it fails. -/
def Runs (I : σ → Prop) (m : StateT σ (Except ε) α) (Q : α → Prop) : Prop :=
  ∀ s, I s → Ends (fun _ => True) (m.run s) fun r => Q r.1 ∧ I r.2

namespace Runs

variable {m : StateT σ (Except ε) α} {next : α → StateT σ (Except ε) β}

theorem pure (h : Q a) : Runs I (pure a : StateT σ (Except ε) α) Q := fun _ hs => ⟨h, hs⟩

theorem error {e : ε} : Runs I (throw e : StateT σ (Except ε) α) Q := fun _ _ => trivial

theorem bind (H1 : Runs I m Q) (H2 : ∀ a, Q a → Runs I (next a) R) : Runs I (m >>= next) R :=
  fun s hs => (H1 s hs).bind fun _ hr => H2 _ hr.1 _ hr.2

theorem mono (H : Runs I m Q) (hQ : ∀ a, Q a → Q' a) : Runs I m Q' :=
  fun s hs => (H s hs).mono fun _ hr => ⟨hQ _ hr.1, hr.2⟩

theorem lift {r : Except ε α} (H : Ends (fun _ => True) r Q) :
    Runs I (liftM r : StateT σ (Except ε) α) Q :=
  fun _ hs => H.bind fun _ h => ⟨h, hs⟩

theorem get : Runs I (get : StateT σ (Except ε) σ) I := fun _ hs => ⟨hs, hs⟩

theorem set (h : I s) : Runs I (set s : StateT σ (Except ε) Unit) fun _ => True :=
  fun _ _ => ⟨trivial, h⟩

theorem modifyGet {f : σ → α × σ} (h : ∀ s, I s → Q (f s).1 ∧ I (f s).2) :
    Runs I (modifyGet f : StateT σ (Except ε) α) Q := h

theorem modify {f : σ → σ} (h : ∀ s, I s → I (f s)) :
    Runs I (modify f : StateT σ (Except ε) Unit) fun _ => True :=
  fun s hs => ⟨trivial, h s hs⟩

theorem ite {c : Prop} [Decidable c] {m' : StateT σ (Except ε) α} (H1 : Runs I m Q)
    (H2 : Runs I m' Q) : Runs I (if c then m else m') Q := by
  split
  · exact H1
  · exact H2

theorem forM {f : α → StateT σ (Except ε) Unit} {xs : List α}
    (H : ∀ a, Runs I (f a) fun _ => True) : Runs I (xs.forM f) fun _ => True := by
  induction xs with
  | nil => exact .pure trivial
  | cons a xs ih => exact .bind (H a) fun _ _ => ih

theorem mapM {f : α → StateT σ (Except ε) β} {xs : List α}
    (H : ∀ a ∈ xs, Runs I (f a) R) : Runs I (xs.mapM f) fun bs => ∀ b ∈ bs, R b := by
  induction xs with
  | nil => exact .pure nofun
  | cons a xs ih =>
    rw [List.forall_mem_cons] at H
    rw [List.mapM_cons]
    exact .bind H.1 fun _ hb => .bind (ih H.2) fun _ hbs =>
      .pure (List.forall_mem_cons.mpr ⟨hb, hbs⟩)

end Runs

/-! ## Single outcomes -/

/-- A step gives a result and leaves a state. -/
def Gives (m : StateT σ (Except ε) α) (s : σ) (a : α) (s' : σ) : Prop := m.run s = .ok (a, s')

/-- A step fails. -/
def Fails (m : StateT σ (Except ε) α) (s : σ) (e : ε) : Prop := m.run s = .error e

variable {m : StateT σ (Except ε) α} {next : α → StateT σ (Except ε) β} {s s' s'' : σ} {a : α}
  {b : β} {e : ε}

namespace Gives

theorem pure : Gives (Pure.pure a : StateT σ (Except ε) α) s a s := rfl

theorem bind (h : Gives m s a s') (hnext : Gives (next a) s' b s'') :
    Gives (m >>= next) s b s'' := by
  rw [Gives, StateT.run_bind, h]
  exact hnext

theorem lift_iff {r : Except ε α} :
    Gives (liftM r : StateT σ (Except ε) α) s a s' ↔ r = .ok a ∧ s = s' := by
  cases r with
  | ok b =>
    refine ⟨fun h => ?_, fun ⟨h, hs⟩ => ?_⟩
    · cases h
      exact ⟨rfl, rfl⟩
    · cases h
      cases hs
      rfl
  | error e => exact ⟨nofun, nofun⟩

end Gives

namespace Fails

theorem bind_left (h : Fails m s e) : Fails (m >>= next) s e := by
  rw [Fails, StateT.run_bind, h]
  rfl

theorem bind_right (h : Gives m s a s') (hnext : Fails (next a) s' e) :
    Fails (m >>= next) s e := by
  rw [Fails, StateT.run_bind, h]
  exact hnext

theorem bind_iff :
    Fails (m >>= next) s e ↔ Fails m s e ∨ ∃ a s', Gives m s a s' ∧ Fails (next a) s' e := by
  constructor
  · intro h
    cases hm : m.run s with
    | error e' =>
      rw [Fails, StateT.run_bind, hm] at h
      exact .inl (hm.trans (congrArg _ (Except.error.inj h)))
    | ok r =>
      rw [Fails, StateT.run_bind, hm] at h
      exact .inr ⟨r.1, r.2, hm, h⟩
  · rintro (h | ⟨a, s', hgives, h⟩)
    · exact h.bind_left
    · exact bind_right hgives h

/-- What follows the step does not fail. -/
theorem bind_iff_left (h : ∀ a s', ¬Fails (next a) s' e) : Fails (m >>= next) s e ↔ Fails m s e :=
  ⟨fun hm => (bind_iff.mp hm).resolve_right fun ⟨a, s', _, hnext⟩ => h a s' hnext, bind_left⟩

theorem not_pure : ¬Fails (Pure.pure a : StateT σ (Except ε) α) s e := nofun

theorem not_modify {f : σ → σ} : ¬Fails (modify f : StateT σ (Except ε) Unit) s e := nofun

theorem get_bind_iff {next : σ → StateT σ (Except ε) β} :
    Fails (get >>= next) s e ↔ Fails (next s) s e := Iff.rfl

theorem set_bind_iff {next : Unit → StateT σ (Except ε) β} :
    Fails (set s' >>= next) s e ↔ Fails (next ()) s' e := Iff.rfl

theorem modify_bind_iff {f : σ → σ} {next : Unit → StateT σ (Except ε) β} :
    Fails (modify f >>= next) s e ↔ Fails (next ()) (f s) e := Iff.rfl

theorem bind_iff_of_gives (h : Gives m s a s') :
    Fails (m >>= next) s e ↔ Fails (next a) s' e := by
  rw [Fails, StateT.run_bind, h]
  rfl

theorem throw_iff {e' : ε} : Fails (throw e' : StateT σ (Except ε) α) s e ↔ e' = e :=
  ⟨fun h => Except.error.inj h, fun h => congrArg _ h⟩

theorem lift_iff {r : Except ε α} :
    Fails (liftM r : StateT σ (Except ε) α) s e ↔ r = .error e := by
  cases r with
  | ok a => exact ⟨nofun, nofun⟩
  | error e' =>
    exact ⟨fun h => congrArg _ (Except.error.inj h), fun h => congrArg _ (Except.error.inj h)⟩

end Fails

/-- Steps for the items of a list, one after another, lead from a state to another one. -/
inductive Goes (f : α → StateT σ (Except ε) β) : List α → σ → σ → Prop
  | nil {start : σ} : Goes f [] start start
  | cons {x : α} {xs : List α} {y : β} {start middle stop : σ} :
    Gives (f x) start y middle → Goes f xs middle stop → Goes f (x :: xs) start stop

theorem Gives.bind_iff :
    Gives (m >>= next) s b s'' ↔ ∃ a s', Gives m s a s' ∧ Gives (next a) s' b s'' := by
  refine ⟨fun h => ?_, fun ⟨a, s', hm, h⟩ => hm.bind h⟩
  cases hm : m.run s with
  | error e =>
    rw [Gives, StateT.run_bind, hm] at h
    cases h
  | ok r =>
    rw [Gives, StateT.run_bind, hm] at h
    exact ⟨r.1, r.2, hm, h⟩

namespace Goes

theorem gives_forM_iff {f : α → StateT σ (Except ε) Unit} {xs : List α} {u : Unit} :
    Gives (xs.forM f) s u s' ↔ Goes f xs s s' := by
  induction xs generalizing s with
  | nil =>
    refine ⟨fun h => ?_, fun h => ?_⟩
    · cases h
      exact .nil
    · cases h
      rfl
  | cons x xs ih =>
    rw [show (x :: xs).forM f = f x >>= fun _ => xs.forM f from rfl, Gives.bind_iff]
    refine ⟨fun ⟨_, _, hx, hxs⟩ => .cons hx (ih.mp hxs), fun h => ?_⟩
    cases h with
    | cons hx hxs => exact ⟨_, _, hx, ih.mpr hxs⟩

theorem gives_mapM_iff {f : α → StateT σ (Except ε) β} {xs : List α} :
    (∃ ys, Gives (xs.mapM f) s ys s') ↔ Goes f xs s s' := by
  induction xs generalizing s with
  | nil =>
    refine ⟨fun ⟨_, h⟩ => ?_, fun h => ?_⟩
    · cases h
      exact .nil
    · cases h
      exact ⟨[], rfl⟩
  | cons x xs ih =>
    rw [List.mapM_cons]
    constructor
    · rintro ⟨ys, h⟩
      obtain ⟨y, s₁, hx, h⟩ := Gives.bind_iff.mp h
      obtain ⟨ys', s₂, hxs, h⟩ := Gives.bind_iff.mp h
      cases h
      exact .cons hx (ih.mp ⟨ys', hxs⟩)
    · rintro (_ | ⟨hx, hxs⟩)
      obtain ⟨ys, hxs⟩ := ih.mpr hxs
      exact ⟨_, hx.bind (hxs.bind .pure)⟩

end Goes

namespace Fails

/-- A loop over a list fails at one of the items, after those in front of it. -/
theorem loop_iff {f : α → StateT σ (Except ε) β} {L : List α → σ → Prop}
    (hnil : ∀ s, ¬L [] s)
    (hcons : ∀ x xs s, L (x :: xs) s ↔
      Fails (f x) s e ∨ ∃ b s', Gives (f x) s b s' ∧ L xs s') {xs : List α} :
    L xs s ↔ ∃ before x after s',
      xs = before ++ x :: after ∧ Goes f before s s' ∧ Fails (f x) s' e := by
  constructor
  · intro h
    induction xs generalizing s with
    | nil => exact absurd h (hnil s)
    | cons y xs ih =>
      rcases (hcons y xs s).mp h with h | ⟨b, s₁, hy, h⟩
      · exact ⟨[], y, xs, s, rfl, .nil, h⟩
      · obtain ⟨before, x, after, s', rfl, hbefore, hx⟩ := ih h
        exact ⟨y :: before, x, after, s', rfl, .cons hy hbefore, hx⟩
  · rintro ⟨before, x, after, s', rfl, hbefore, hx⟩
    induction hbefore with
    | nil => exact (hcons _ _ _).mpr (.inl hx)
    | cons hy _ ih => exact (hcons _ _ _).mpr (.inr ⟨_, _, hy, ih hx⟩)

theorem forM_iff {f : α → StateT σ (Except ε) Unit} {xs : List α} :
    Fails (xs.forM f) s e ↔ ∃ before x after s',
      xs = before ++ x :: after ∧ Goes f before s s' ∧ Fails (f x) s' e :=
  loop_iff (L := fun xs s => Fails (xs.forM f) s e) (fun _ => not_pure) fun _ _ _ => bind_iff

theorem mapM_iff {f : α → StateT σ (Except ε) β} {xs : List α} :
    Fails (xs.mapM f) s e ↔ ∃ before x after s',
      xs = before ++ x :: after ∧ Goes f before s s' ∧ Fails (f x) s' e := by
  refine loop_iff (L := fun xs s => Fails (xs.mapM f) s e) (fun _ => not_pure) fun x xs s => ?_
  have hrest {b : β} {s : σ} : Fails (do return b :: (← xs.mapM f)) s e ↔ Fails (xs.mapM f) s e :=
    ⟨fun h => (bind_iff.mp h).resolve_right fun ⟨_, _, _, h⟩ => not_pure h, bind_left⟩
  rw [List.mapM_cons, bind_iff]
  simp only [hrest]

end Fails

end CollectionInterfaces.Yaml
