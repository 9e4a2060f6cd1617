import Mathlib

/-!
# Programs that Raise and Leave Their State Behind

A call on a mutable object either returns or raises, and in both cases the
object is left in some state. `EStateM` is exactly that: its `error` result
carries the state at the point of the raise, so nothing is rolled back unless
the program never touched it.

`after` is the state a call leaves behind whichever way it ended, and
`outcome` is the value or the exception. Splitting a result into these two is
what lets a caller catch an exception and go on.

Four judgements are stated about a program. `Atomic` says that a raise
changes nothing, and `RaisesOnly` says what can be raised. `Within R` says that
the state only ever moves along the preorder `R`, raise or no raise, and
composes along `bind`, so it is proved of a `do` block by walking it. `Raises`
says that a call does not return.

`Component` is a well behaved accessor for a component held inside a larger state,
and `Component.zoom` runs a program of the component on the whole. Programs of a
component are written once, against the component's own state, and keep their
judgements when they are run inside something larger.

## Main definitions

* `Exec.after`: The state a call leaves behind.
* `Exec.outcome`: What a call returned or raised.
* `Exec.Raises`: A call that does not return.
* `Exec.Atomic`: A raise leaves the state as it was.
* `Exec.RaisesOnly`: What a call raises meets a condition.
* `Exec.Within`: The state only moves along a relation.
* `Exec.guarded`: Change the state or refuse.
* `Exec.Keeps`: The preorder of keeping an invariant.
* `Exec.Component`: A component of a larger state.
* `Exec.Component.zoom`: A program of a component, run on the whole state.

## Theorems

* `run_bind_ok_iff`: A sequence returns exactly when both halves do.
* `run_bind_error_iff`: A sequence raises in one half or the other.
* `within_bind`: Moving along a preorder composes.
* `atomic_bind`, `atomic_bind_returns`: When a sequence is atomic.
* `zoom_run`: A zoomed program acts on its component only.
* `zoom_bind`: Zooming distributes over sequences.
-/

namespace Exec

/-- A pure computation that may raise, run where a state is at hand: the
    state is not touched. -/
instance instMonadLiftExcept {ε σ : Type} : MonadLift (Except ε) (EStateM ε σ) where
  monadLift
    | .ok a => pure a
    | .error e => throw e

variable {ε σ τ α β : Type}

/-- The state a call leaves behind, whether it returned or raised. -/
def after (m : EStateM ε σ α) (s : σ) : σ :=
  match m.run s with
  | .ok _ t => t
  | .error _ t => t

/-- The value a call returned or the exception it raised. -/
def outcome (m : EStateM ε σ α) (s : σ) : Except ε α :=
  match m.run s with
  | .ok a _ => .ok a
  | .error e _ => .error e

/-- The call does not return. -/
def Raises (m : EStateM ε σ α) (s : σ) : Prop :=
  ∃ e t, m.run s = .error e t

/-- If the call raises, the state is exactly what it was before. -/
def Atomic (m : EStateM ε σ α) (s : σ) : Prop :=
  ∀ e t, m.run s = .error e t → t = s

/-- From every state, the program moves along `R`, returning or raising. -/
def Within (R : σ → σ → Prop) (m : EStateM ε σ α) : Prop :=
  ∀ s, R s (after m s)

/-- From every state, what the program raises, if it raises, meets the
    condition. -/
def RaisesOnly (P : ε → Prop) (m : EStateM ε σ α) : Prop :=
  ∀ s e t, m.run s = .error e t → P e

/-- Change the state if it is in order, and refuse otherwise. -/
def guarded (allowed : σ → Prop) [DecidablePred allowed] (refusal : σ → ε) (move : σ → σ) :
    EStateM ε σ Unit := do
  let s ← get
  if ¬ allowed s then
    throw (refusal s)
  modify move

/-- The preorder of keeping an invariant. -/
def Keeps (I : σ → Prop) (s t : σ) : Prop :=
  I s → I t

instance (I : σ → Prop) : Std.Refl (Keeps I) :=
  ⟨fun _ h => h⟩

instance (I : σ → Prop) : IsTrans σ (Keeps I) :=
  ⟨fun _ _ _ h h' hs => h' (h hs)⟩

@[simp] theorem run_lift_ok (a : α) (s : σ) :
    (liftM (Except.ok a : Except ε α) : EStateM ε σ α).run s = .ok a s := rfl

theorem lift_ok (a : α) : (liftM (Except.ok a : Except ε α) : EStateM ε σ α) = pure a := rfl

@[simp] theorem run_lift_error (e : ε) (s : σ) :
    (liftM (Except.error e : Except ε α) : EStateM ε σ α).run s = .error e s := rfl

theorem after_of_ok {m : EStateM ε σ α} {s t : σ} {a : α} (h : m.run s = .ok a t) :
    after m s = t := by
  rw [after, h]

theorem after_of_error {m : EStateM ε σ α} {s t : σ} {e : ε} (h : m.run s = .error e t) :
    after m s = t := by
  rw [after, h]

theorem outcome_of_ok {m : EStateM ε σ α} {s t : σ} {a : α} (h : m.run s = .ok a t) :
    outcome m s = .ok a := by
  rw [outcome, h]

theorem outcome_of_error {m : EStateM ε σ α} {s t : σ} {e : ε} (h : m.run s = .error e t) :
    outcome m s = .error e := by
  rw [outcome, h]

/-- A sequence returns exactly when both halves return. -/
theorem run_bind_ok_iff {m : EStateM ε σ α} {f : α → EStateM ε σ β} {s u : σ} {b : β} :
    (m >>= f).run s = .ok b u ↔ ∃ a t, m.run s = .ok a t ∧ (f a).run t = .ok b u := by
  rw [EStateM.run_bind]
  cases h : m.run s with
  | ok a t => simp
  | error e t => simp

/-- A sequence raises in its first half, or in its second half after the
    first returned. -/
theorem run_bind_error_iff {m : EStateM ε σ α} {f : α → EStateM ε σ β} {s u : σ} {e : ε} :
    (m >>= f).run s = .error e u ↔
      m.run s = .error e u ∨ ∃ a t, m.run s = .ok a t ∧ (f a).run t = .error e u := by
  rw [EStateM.run_bind]
  cases h : m.run s with
  | ok a t => simp
  | error e' t => simp

theorem run_bind_of_ok {m : EStateM ε σ α} {f : α → EStateM ε σ β} {s t : σ} {a : α}
    (h : m.run s = .ok a t) : (m >>= f).run s = (f a).run t := by
  rw [EStateM.run_bind, h]

theorem run_bind_of_error {m : EStateM ε σ α} {f : α → EStateM ε σ β} {s t : σ} {e : ε}
    (h : m.run s = .error e t) : (m >>= f).run s = .error e t := by
  rw [EStateM.run_bind, h]

@[simp] theorem run_bind_get (f : σ → EStateM ε σ β) (s : σ) :
    ((get : EStateM ε σ σ) >>= f).run s = (f s).run s := rfl

@[simp] theorem run_bind_modify (g : σ → σ) (f : PUnit → EStateM ε σ β) (s : σ) :
    ((modify g : EStateM ε σ PUnit) >>= f).run s = (f ⟨⟩).run (g s) := rfl

/-- A sequence that starts with a pure computation returns exactly when that
    computation does and the rest does, from the same state. -/
theorem run_bind_lift_ok_iff {x : Except ε α} {f : α → EStateM ε σ β} {s u : σ} {b : β} :
    ((liftM x : EStateM ε σ α) >>= f).run s = .ok b u ↔
      ∃ a, x = .ok a ∧ (f a).run s = .ok b u := by
  rw [EStateM.run_bind]
  cases x with
  | ok a => simp only [run_lift_ok, Except.ok.injEq, exists_eq_left']
  | error e => simp only [run_lift_error, reduceCtorEq, false_and, exists_false]

theorem run_bind_lift_ok {x : Except ε α} {f : α → EStateM ε σ β} {s : σ} {a : α}
    (hx : x = .ok a) : ((liftM x : EStateM ε σ α) >>= f).run s = (f a).run s := by
  rw [hx, EStateM.run_bind, run_lift_ok]

theorem run_bind_lift_error {x : Except ε α} {f : α → EStateM ε σ β} {s : σ} {e : ε}
    (hx : x = .error e) : ((liftM x : EStateM ε σ α) >>= f).run s = .error e s := by
  rw [hx, EStateM.run_bind, run_lift_error]

section Guarded

variable {allowed : σ → Prop} [DecidablePred allowed] (refusal : σ → ε) (move : σ → σ) {s : σ}

theorem guarded_of_allowed (h : allowed s) :
    (guarded allowed refusal move).run s = .ok () (move s) := by
  rw [guarded, run_bind_get, if_neg (not_not.mpr h)]
  rfl

theorem guarded_of_refused (h : ¬ allowed s) :
    (guarded allowed refusal move).run s = .error (refusal s) s := by
  rw [guarded, run_bind_get, if_pos h]
  rfl

end Guarded

theorem after_bind_ok {m : EStateM ε σ α} {f : α → EStateM ε σ β} {s t : σ} {a : α}
    (h : m.run s = .ok a t) : after (m >>= f) s = after (f a) t := by
  simp only [after, EStateM.run_bind, h]

theorem after_bind_error {m : EStateM ε σ α} {f : α → EStateM ε σ β} {s t : σ} {e : ε}
    (h : m.run s = .error e t) : after (m >>= f) s = t := by
  simp only [after, EStateM.run_bind, h]

/-- Throwing a result away does not change the state left behind. -/
theorem after_discard (m : EStateM ε σ α) (s : σ) : after (do let _ ← m) s = after m s := by
  unfold after
  rw [EStateM.run_bind]
  cases m.run s <;> rfl

/-- A call raises what it raises, whatever is made of its result. -/
theorem outcome_bind_pure_error_iff {m : EStateM ε σ α} {f : α → β} {s : σ} {e : ε} :
    outcome (do let a ← m; return f a) s = .error e ↔ outcome m s = .error e := by
  unfold outcome
  rw [EStateM.run_bind]
  cases m.run s with
  | ok a t => exact iff_of_false (fun h => nomatch h) fun h => nomatch h
  | error e' t => simp

section RaisesOnly

variable {P : ε → Prop}

theorem raisesOnly_pure (a : α) : RaisesOnly P (pure a : EStateM ε σ α) :=
  fun _ _ _ h => nomatch h

theorem raisesOnly_get : RaisesOnly P (get : EStateM ε σ σ) :=
  fun _ _ _ h => nomatch h

theorem raisesOnly_modify (f : σ → σ) : RaisesOnly P (modify f : EStateM ε σ PUnit) :=
  fun _ _ _ h => nomatch h

theorem raisesOnly_throw {e : ε} (h : P e) : RaisesOnly P (throw e : EStateM ε σ α) := by
  intro s e' t hrun
  cases hrun
  exact h

theorem raisesOnly_lift {x : Except ε α} (h : ∀ e, x = .error e → P e) :
    RaisesOnly P (liftM x : EStateM ε σ α) := by
  intro s e t hrun
  cases x with
  | ok a => cases hrun
  | error e' =>
      cases hrun
      exact h e rfl

theorem raisesOnly_guarded {allowed : σ → Prop} [DecidablePred allowed] {refusal : σ → ε}
    {move : σ → σ} (h : ∀ s, P (refusal s)) : RaisesOnly P (guarded allowed refusal move) := by
  intro s e t hrun
  by_cases hallowed : allowed s
  · cases (guarded_of_allowed refusal move hallowed).symm.trans hrun
  · cases (guarded_of_refused refusal move hallowed).symm.trans hrun
    exact h s

/-- A sequence raises what its halves raise. -/
theorem raisesOnly_bind {m : EStateM ε σ α} {f : α → EStateM ε σ β} (hm : RaisesOnly P m)
    (hf : ∀ a, RaisesOnly P (f a)) : RaisesOnly P (m >>= f) := by
  intro s e t hrun
  rcases run_bind_error_iff.mp hrun with hfirst | ⟨a, u, -, hsecond⟩
  · exact hm s e t hfirst
  · exact hf a u e t hsecond

theorem RaisesOnly.of_outcome {m : EStateM ε σ α} (h : RaisesOnly P m) {s : σ} {e : ε}
    (hout : outcome m s = .error e) : P e := by
  unfold outcome at hout
  cases hrun : m.run s with
  | ok a t =>
      rw [hrun] at hout
      cases hout
  | error e' t =>
      rw [hrun] at hout
      cases hout
      exact h s e t hrun

/-- What the second half never raises comes from the first. -/
theorem outcome_bind_error_iff {m : EStateM ε σ α} {f : α → EStateM ε σ β}
    (hf : ∀ a, RaisesOnly P (f a)) {s : σ} {e : ε} (he : ¬ P e) :
    outcome (m >>= f) s = .error e ↔ outcome m s = .error e := by
  constructor
  · intro hout
    cases hrun : m.run s with
    | ok a t =>
        rw [outcome, run_bind_of_ok hrun] at hout
        exact absurd ((hf a).of_outcome hout) he
    | error e' t =>
        rw [outcome_of_error (run_bind_of_error hrun)] at hout
        cases hout
        exact outcome_of_error hrun
  · intro hout
    cases hrun : m.run s with
    | ok a t =>
        rw [outcome_of_ok hrun] at hout
        cases hout
    | error e' t =>
        rw [outcome_of_error hrun] at hout
        cases hout
        exact outcome_of_error (run_bind_of_error hrun)

end RaisesOnly

section Within

variable {R : σ → σ → Prop}

theorem within_of_run_eq [Std.Refl R] {m : EStateM ε σ α} (h : ∀ s, after m s = s) :
    Within R m := by
  intro s
  rw [h s]
  exact Std.Refl.refl s

theorem within_pure [Std.Refl R] (a : α) : Within R (pure a : EStateM ε σ α) :=
  within_of_run_eq fun _ => rfl

theorem within_get [Std.Refl R] : Within R (get : EStateM ε σ σ) :=
  within_of_run_eq fun _ => rfl

theorem within_lift [Std.Refl R] (x : Except ε α) : Within R (liftM x : EStateM ε σ α) :=
  within_of_run_eq fun _ => by cases x <;> rfl

theorem within_modify {f : σ → σ} (h : ∀ s, R s (f s)) :
    Within R (modify f : EStateM ε σ PUnit) :=
  h

/-- Two programs that each move along a preorder do so one after the other,
    also when the first one raises and the second never starts. -/
theorem within_bind [IsTrans σ R] {m : EStateM ε σ α} {f : α → EStateM ε σ β}
    (hm : Within R m) (hf : ∀ a, Within R (f a)) : Within R (m >>= f) := by
  intro s
  have hs := hm s
  cases h : m.run s with
  | ok a t =>
      rw [after_of_ok h] at hs
      rw [after_bind_ok h]
      exact IsTrans.trans _ _ _ hs (hf a t)
  | error e t =>
      rw [after_of_error h] at hs
      rw [after_bind_error h]
      exact hs

end Within

/-- A sequence whose first half changes nothing is atomic when its second
    half is. -/
theorem atomic_bind {m : EStateM ε σ α} {f : α → EStateM ε σ β} {s : σ}
    (hm : Within Eq m) (hf : ∀ a, m.run s = .ok a s → Atomic (f a) s) :
    Atomic (m >>= f) s := by
  intro e t h
  rcases run_bind_error_iff.mp h with hfirst | ⟨a, u, hok, hsecond⟩
  · have hs := hm s
    rw [after_of_error hfirst] at hs
    exact hs.symm
  · have hs := hm s
    rw [after_of_ok hok] at hs
    subst hs
    exact hf a hok e t hsecond

/-- A sequence whose second half never raises is atomic when its first half
    is. -/
theorem atomic_bind_returns {m : EStateM ε σ α} {f : α → EStateM ε σ β} {s : σ}
    (hm : Atomic m s) (hf : ∀ a t, m.run s = .ok a t → ¬ Raises (f a) t) :
    Atomic (m >>= f) s := by
  intro e t h
  rcases run_bind_error_iff.mp h with hfirst | ⟨a, u, hok, hsecond⟩
  · exact hm e t hfirst
  · exact absurd ⟨e, t, hsecond⟩ (hf a u hok)

theorem not_raises_pure (a : α) (s : σ) : ¬ Raises (pure a : EStateM ε σ α) s := by
  rintro ⟨e, t, h⟩
  cases h

theorem atomic_pure (a : α) (s : σ) : Atomic (pure a : EStateM ε σ α) s :=
  fun e t h => absurd ⟨e, t, h⟩ (not_raises_pure a s)

/-- A component of a state: how to read it and how to put it back, with the
    three laws that make the component independent of the rest. -/
structure Component (σ τ : Type) where
  get : σ → τ
  set : τ → σ → σ
  get_set : ∀ t s, get (set t s) = t
  set_get : ∀ s, set (get s) s = s
  set_set : ∀ t u s, set t (set u s) = set t s

namespace Component

variable {υ : Type}

/-- The whole state as a component of itself. -/
def whole : Component σ σ where
  get s := s
  set t _ := t
  get_set _ _ := rfl
  set_get _ := rfl
  set_set _ _ _ := rfl

/-- The first half of a pair. -/
def first : Component (σ × τ) σ where
  get s := s.1
  set t s := (t, s.2)
  get_set _ _ := rfl
  set_get _ := rfl
  set_set _ _ _ := rfl

/-- The second half of a pair. -/
def second : Component (σ × τ) τ where
  get s := s.2
  set t s := (s.1, t)
  get_set _ _ := rfl
  set_get _ := rfl
  set_set _ _ _ := rfl

/-- A component of a component. -/
def comp (p : Component σ τ) (q : Component τ υ) : Component σ υ where
  get s := q.get (p.get s)
  set u s := p.set (q.set u (p.get s)) s
  get_set u s := by rw [p.get_set, q.get_set]
  set_get s := by rw [q.set_get, p.set_get]
  set_set u v s := by rw [p.get_set, p.set_set, q.set_set]

/-- A component of a component is set within the component. -/
theorem get_comp_set (p : Component σ τ) (q : Component τ υ) (u : υ) (s : σ) :
    p.get ((p.comp q).set u s) = q.set u (p.get s) :=
  p.get_set _ _

/-- Run a program of the component on the whole state. The component is put
    back whether the program returned or raised. -/
def zoom (p : Component σ τ) (m : EStateM ε τ α) : EStateM ε σ α := fun s =>
  match m.run (p.get s) with
  | .ok a t => .ok a (p.set t s)
  | .error e t => .error e (p.set t s)

theorem zoom_run (p : Component σ τ) (m : EStateM ε τ α) (s : σ) :
    (p.zoom m).run s = match m.run (p.get s) with
      | .ok a t => .ok a (p.set t s)
      | .error e t => .error e (p.set t s) := rfl

theorem after_zoom (p : Component σ τ) (m : EStateM ε τ α) (s : σ) :
    after (p.zoom m) s = p.set (after m (p.get s)) s := by
  unfold after
  rw [zoom_run]
  cases m.run (p.get s) <;> rfl

theorem outcome_zoom (p : Component σ τ) (m : EStateM ε τ α) (s : σ) :
    outcome (p.zoom m) s = outcome m (p.get s) := by
  unfold outcome
  rw [zoom_run]
  cases m.run (p.get s) <;> rfl

theorem zoom_run_ok {p : Component σ τ} {m : EStateM ε τ α} {s : σ} {a : α} {t : τ}
    (h : m.run (p.get s) = .ok a t) : (p.zoom m).run s = .ok a (p.set t s) := by
  rw [zoom_run, h]

theorem zoom_run_error {p : Component σ τ} {m : EStateM ε τ α} {s : σ} {e : ε} {t : τ}
    (h : m.run (p.get s) = .error e t) : (p.zoom m).run s = .error e (p.set t s) := by
  rw [zoom_run, h]

theorem zoom_modify_run (p : Component σ τ) (f : τ → τ) (s : σ) :
    (p.zoom (modify f : EStateM ε τ PUnit)).run s = .ok ⟨⟩ (p.set (f (p.get s)) s) := rfl

/-- Reading the component is reading the whole state and projecting. -/
theorem zoom_get (p : Component σ τ) :
    p.zoom (MonadState.get : EStateM ε τ τ)
      = (do let s ← MonadState.get; return p.get s : EStateM ε σ τ) := by
  funext s
  change EStateM.Result.ok (p.get s) (p.set (p.get s) s) = _
  rw [p.set_get]
  rfl

theorem zoom_lift (p : Component σ τ) (x : Except ε α) :
    p.zoom (liftM x : EStateM ε τ α) = (liftM x : EStateM ε σ α) := by
  funext s
  cases x with
  | ok a =>
      change EStateM.Result.ok a (p.set (p.get s) s) = _
      rw [p.set_get]
      rfl
  | error e =>
      change EStateM.Result.error e (p.set (p.get s) s) = _
      rw [p.set_get]
      rfl

/-- Running a sequence on the component is running its halves on it. -/
theorem zoom_bind (p : Component σ τ) (m : EStateM ε τ α) (f : α → EStateM ε τ β) :
    p.zoom (m >>= f) = p.zoom m >>= fun a => p.zoom (f a) := by
  funext s
  change (p.zoom (m >>= f)).run s = (p.zoom m >>= fun a => p.zoom (f a)).run s
  rw [EStateM.run_bind, zoom_run, zoom_run, EStateM.run_bind]
  cases m.run (p.get s) with
  | error e t => rfl
  | ok a t =>
      simp only [zoom_run, p.get_set, p.set_set]

/-- Run on the whole state, a program raises what it raises. -/
theorem raisesOnly_zoom {P : ε → Prop} (p : Component σ τ) {m : EStateM ε τ α}
    (hm : RaisesOnly P m) : RaisesOnly P (p.zoom m) := by
  intro s e t hrun
  rw [zoom_run] at hrun
  cases hinner : m.run (p.get s) with
  | ok a u =>
      rw [hinner] at hrun
      cases hrun
  | error e' u =>
      rw [hinner] at hrun
      cases hrun
      exact hm _ _ _ hinner

/-- A program of the component moves the whole state along any relation that
    lets the component move. -/
theorem within_zoom {R : σ → σ → Prop} {S : τ → τ → Prop} (p : Component σ τ) (m : EStateM ε τ α)
    (hm : Within S m) (h : ∀ s t, S (p.get s) t → R s (p.set t s)) :
    Within R (p.zoom m) := by
  intro s
  rw [after_zoom]
  exact h s _ (hm (p.get s))

end Component

end Exec
