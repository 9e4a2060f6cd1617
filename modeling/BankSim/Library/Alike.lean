import BankSim.Library.Run

/-!
# Two Programs Side by Side

Two programs with states of their own go alike from two states if both return the
same value or both raise, and leave related states behind. There is one relation
for when they return and one for when they raise, so that a program which catches
the exception of another can be treated like any other.

The rules follow the shape of the programs. `Alike.bind` puts two sequences
together, `alike_get` and its siblings are for the steps a program is made of, and
`Alike.zoom` is for programs of components. `alike_caught` goes on after a call
that may be refused.

`related_finalState` puts steps that go alike together to runs. Where one program
takes a step for which the other needs several or none, `simulated_run` cuts the
run of the other into a piece for each step.

## Main definitions

* `Exec.Alike`: Two programs return the same or raise together.
* `Exec.caught`: A call whose exception is caught.

## Theorems

* `Alike.bind`: Sequences of programs that go alike.
* `alike_congr`: Only what the programs do to the two states matters.
* `Alike.after`: Related states are left behind.
* `alike_get`, `alike_modify`, `alike_lift`, `alike_throw`: Single steps.
* `Alike.zoom`, `alike_zoom`: Programs of components.
* `alike_caught`: Catching exceptions.
* `related_finalState`: Two runs of the same calls.
* `simulated_run`: A run cut into a piece for each step of another.
-/

namespace Exec

variable {ε σ τ υ σ' τ' α β κ κ' : Type}

/-- Both programs return the same, in states that are related, or both raise, in
    states that are related. -/
def Alike (Q : α → σ → τ → Prop) (E : σ → τ → Prop) (m : EStateM ε σ α) (n : EStateM ε τ α)
    (s : σ) (t : τ) : Prop :=
  (∃ a s' t', m.run s = .ok a s' ∧ n.run t = .ok a t' ∧ Q a s' t') ∨
    ∃ e e' s' t', m.run s = .error e s' ∧ n.run t = .error e' t' ∧ E s' t'

variable {Q Q' : α → σ → τ → Prop} {E E' : σ → τ → Prop} {m : EStateM ε σ α} {n : EStateM ε τ α}
  {s : σ} {t : τ}

theorem alike_of_ok {a : α} {s' : σ} {t' : τ} (hm : m.run s = .ok a s') (hn : n.run t = .ok a t')
    (h : Q a s' t') : Alike Q E m n s t :=
  Or.inl ⟨a, s', t', hm, hn, h⟩

theorem alike_of_error {e e' : ε} {s' : σ} {t' : τ} (hm : m.run s = .error e s')
    (hn : n.run t = .error e' t') (h : E s' t') : Alike Q E m n s t :=
  Or.inr ⟨e, e', s', t', hm, hn, h⟩

theorem alike_pure {a : α} (h : Q a s t) :
    Alike Q E (pure a : EStateM ε σ α) (pure a : EStateM ε τ α) s t :=
  alike_of_ok rfl rfl h

theorem Alike.mono (h : Alike Q E m n s t) (hQ : ∀ a s t, Q a s t → Q' a s t)
    (hE : ∀ s t, E s t → E' s t) : Alike Q' E' m n s t := by
  rcases h with ⟨a, s', t', hm, hn, hend⟩ | ⟨e, e', s', t', hm, hn, hend⟩
  · exact alike_of_ok hm hn (hQ a s' t' hend)
  · exact alike_of_error hm hn (hE s' t' hend)

/-- Sequences of programs that go alike. -/
theorem Alike.bind {Q' : β → σ → τ → Prop} {f : α → EStateM ε σ β} {g : α → EStateM ε τ β}
    (h : Alike Q E m n s t) (hrest : ∀ a s t, Q a s t → Alike Q' E (f a) (g a) s t) :
    Alike Q' E (m >>= f) (n >>= g) s t := by
  rcases h with ⟨a, s', t', hm, hn, hend⟩ | ⟨e, e', s', t', hm, hn, hend⟩
  · rcases hrest a s' t' hend with ⟨b, s'', t'', hf, hg, hlast⟩ | ⟨e, e', s'', t'', hf, hg, hlast⟩
    · exact alike_of_ok ((run_bind_of_ok hm).trans hf) ((run_bind_of_ok hn).trans hg) hlast
    · exact alike_of_error ((run_bind_of_ok hm).trans hf) ((run_bind_of_ok hn).trans hg) hlast
  · exact alike_of_error (run_bind_of_error hm) (run_bind_of_error hn) hend

/-- Only what the programs do to the two states matters. -/
theorem alike_congr {m' : EStateM ε σ α} {n' : EStateM ε τ α} {s' : σ} {t' : τ}
    (hm : m.run s = m'.run s') (hn : n.run t = n'.run t') (h : Alike Q E m' n' s' t') :
    Alike Q E m n s t := by
  unfold Alike
  rw [hm, hn]
  exact h

/-- Whatever happened, related states are left behind. -/
theorem Alike.after {R : σ → τ → Prop} (h : Alike (fun _ => R) R m n s t) :
    R (after m s) (after n t) := by
  rcases h with ⟨a, s', t', hm, hn, hend⟩ | ⟨e, e', s', t', hm, hn, hend⟩
  · rw [after_of_ok hm, after_of_ok hn]
    exact hend
  · rw [after_of_error hm, after_of_error hn]
    exact hend

/-! ### Single steps -/

theorem alike_get {f : σ → EStateM ε σ α} {g : τ → EStateM ε τ α}
    (h : Alike Q E (f s) (g t) s t) : Alike Q E (get >>= f) (get >>= g) s t :=
  alike_congr (run_bind_get f s) (run_bind_get g t) h

theorem alike_modify {Q : PUnit → σ → τ → Prop} {f : σ → σ} {g : τ → τ}
    (h : Q ⟨⟩ (f s) (g t)) :
    Alike Q E (modify f : EStateM ε σ PUnit) (modify g : EStateM ε τ PUnit) s t :=
  alike_of_ok rfl rfl h

theorem alike_throw (e e' : ε) (h : E s t) :
    Alike Q E (throw e : EStateM ε σ α) (throw e' : EStateM ε τ α) s t :=
  alike_of_error rfl rfl h

/-- A computation that touches no state gives both the same. -/
theorem alike_lift (x : Except ε α) (hQ : ∀ a, Q a s t) (hE : E s t) :
    Alike Q E (liftM x : EStateM ε σ α) (liftM x : EStateM ε τ α) s t := by
  cases x with
  | ok a => exact alike_of_ok rfl rfl (hQ a)
  | error e => exact alike_of_error rfl rfl hE

section Zoom

variable {p : Component σ σ'} {q : Component τ τ'}

/-- Programs of components that go alike. -/
theorem Alike.zoom {Q' : α → σ' → τ' → Prop} {E' : σ' → τ' → Prop} {m : EStateM ε σ' α}
    {n : EStateM ε τ' α} (h : Alike Q' E' m n (p.get s) (q.get t))
    (hQ : ∀ a x y, Q' a x y → Q a (p.set x s) (q.set y t))
    (hE : ∀ x y, E' x y → E (p.set x s) (q.set y t)) :
    Alike Q E (p.zoom m) (q.zoom n) s t := by
  rcases h with ⟨a, x, y, hm, hn, hend⟩ | ⟨e, e', x, y, hm, hn, hend⟩
  · exact alike_of_ok (Component.zoom_run_ok hm) (Component.zoom_run_ok hn) (hQ a x y hend)
  · exact alike_of_error (Component.zoom_run_error hm) (Component.zoom_run_error hn) (hE x y hend)

/-- The same program of a component that both have. -/
theorem alike_zoom {q : Component τ σ'} {R : σ → τ → Prop} (m : EStateM ε σ' α)
    (hget : p.get s = q.get t) (h : ∀ x, R (p.set x s) (q.set x t)) :
    Alike (fun _ => R) R (p.zoom m) (q.zoom m) s t := by
  cases hm : m.run (p.get s) with
  | ok a x =>
      exact alike_of_ok (Component.zoom_run_ok hm) (Component.zoom_run_ok (hget ▸ hm)) (h x)
  | error e x =>
      exact alike_of_error (Component.zoom_run_error hm) (Component.zoom_run_error (hget ▸ hm))
        (h x)

end Zoom

/-! ### Caught exceptions, and runs -/

/-- A call whose exception is caught, and whether it returned. -/
def caught (m : EStateM ε σ α) : EStateM ε σ Bool := fun s =>
  match m.run s with
  | .ok _ t => .ok true t
  | .error _ t => .ok false t

theorem caught_run_ok {a : α} {s' : σ} (h : m.run s = .ok a s') :
    (caught m).run s = .ok true s' := by
  change (match m.run s with
    | .ok _ t => EStateM.Result.ok true t
    | .error _ t => .ok false t) = _
  rw [h]

theorem caught_run_error {e : ε} {s' : σ} (h : m.run s = .error e s') :
    (caught m).run s = .ok false s' := by
  change (match m.run s with
    | .ok _ t => EStateM.Result.ok true t
    | .error _ t => .ok false t) = _
  rw [h]

/-- It always returns. -/
theorem caught_run (m : EStateM ε σ α) (s : σ) :
    ∃ granted, (caught m).run s = .ok granted (after m s) := by
  cases hm : m.run s with
  | ok a s' =>
      rw [after_of_ok hm]
      exact ⟨true, caught_run_ok hm⟩
  | error e s' =>
      rw [after_of_error hm]
      exact ⟨false, caught_run_error hm⟩

/-- Calls that go alike, with their exceptions caught. -/
theorem alike_caught {R : σ → τ → Prop} (h : Alike (fun _ => R) R m n s t) :
    Alike (fun _ => R) E (caught m) (caught n) s t := by
  rcases h with ⟨a, s', t', hm, hn, hend⟩ | ⟨e, e', s', t', hm, hn, hend⟩
  · exact alike_of_ok (caught_run_ok hm) (caught_run_ok hn) hend
  · exact alike_of_ok (caught_run_error hm) (caught_run_error hn) hend

/-- A relation that each call keeps is kept by two runs of the same calls. -/
theorem related_finalState {exec : κ → EStateM ε σ α} {exec' : κ → EStateM ε τ α}
    {R : σ → τ → Prop}
    (hstep : ∀ s t call, R s t → R (after (exec call) s) (after (exec' call) t))
    (h : R s t) (calls : List κ) : R (finalState exec s calls) (finalState exec' t calls) := by
  induction calls generalizing s t with
  | nil => exact h
  | cons call calls ih => exact ih (hstep s t call h)

/-- A relation that each allowed call keeps, if the other program makes some calls
    of a kind meanwhile, is kept by a run and a run of the other that is cut into a
    piece for each call. -/
theorem simulated_run {exec : κ → EStateM ε σ α} {exec' : κ' → EStateM ε τ β}
    {R : σ → τ → Prop} {allowed : κ → Prop} {may : κ' → Prop}
    (hstep : ∀ s t call, R s t → allowed call → ∃ piece : List κ',
      (∀ other ∈ piece, may other) ∧ R (Exec.after (exec call) s) (finalState exec' t piece))
    (h : R s t) {calls : List κ} (hcalls : ∀ call ∈ calls, allowed call) :
    ∃ pieces : List (List κ'), pieces.length = calls.length ∧
      (∀ piece ∈ pieces, ∀ other ∈ piece, may other) ∧
      ∀ n, R (finalState exec s (calls.take n)) (finalState exec' t (pieces.take n).flatten) := by
  induction calls generalizing s t with
  | nil =>
      refine ⟨[], rfl, fun _ hmem => absurd hmem List.not_mem_nil, fun n => ?_⟩
      rw [List.take_nil, List.take_nil]
      exact h
  | cons call calls ih =>
      rcases hstep s t call h (hcalls call List.mem_cons_self) with ⟨piece, hpiece, hnext⟩
      rcases ih hnext (fun other hmem => hcalls other (List.mem_cons_of_mem call hmem)) with
        ⟨pieces, hlength, hpieces, hrest⟩
      refine ⟨piece :: pieces, by rw [List.length_cons, List.length_cons, hlength],
        List.forall_mem_cons.mpr ⟨hpiece, hpieces⟩, fun n => ?_⟩
      cases n with
      | zero => exact h
      | succ n =>
          rw [List.take_succ_cons, List.take_succ_cons, List.flatten_cons, finalState_append]
          exact hrest n

end Exec
