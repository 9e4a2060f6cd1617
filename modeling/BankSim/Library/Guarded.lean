import BankSim.Library.Run

/-!
# Guarded Logs

A log that only grows, and only by items it accepts. `refuse s a` is the
reason the log in state `s` turns item `a` away, if it has one, and `push`
adds an accepted item.

There are two ways to add several items. `each` adds them one at a time and
stops at the first refusal, keeping what it added before. `together` looks
for the first refusal along the states the items would produce and adds
either all of them or none.

`together_ok_iff` and `together_error_iff` say that the second refines the
first: they succeed on the same lists with the same result, and fail with the
same reason, the difference being the state a failure leaves. So a batch
operation that is shown to be `together` needs no argument of its own.

## Main definitions

* `Guarded.step`: Add one item or refuse it.
* `Guarded.each`: Add items one at a time.
* `Guarded.firstRefusal`: Why adding a list would stop, if it would.
* `Guarded.together`: Add all items of a list or none.

## Theorems

* `firstRefusal_cons_eq_none_iff`: A list is accepted head first.
* `step_ok_iff`, `together_run_ok_iff`: When adding returns.
* `each_run`: Adding one at a time, in terms of the first refusal.
* `together_ok_iff`: A batch succeeds exactly when each item does.
* `together_error_iff`: A batch fails for the first item's reason.
* `atomic_together`: A failing batch changes nothing.
* `firstRefusal_none_invariant`: An invariant of accepted items survives a
  batch.
-/

namespace Exec.Guarded

variable {ε σ α : Type} (refuse : σ → α → Option ε) (push : σ → α → σ)

/-- Add one item, or raise the reason for refusing it. -/
def step (a : α) : EStateM ε σ Unit := fun s =>
  match refuse s a with
  | some e => .error e s
  | none => .ok () (push s a)

/-- Add the items one at a time; the first refusal stops the loop. -/
def each : List α → EStateM ε σ Unit
  | [] => pure ()
  | a :: as => do
      step refuse push a
      each as

/-- The first refusal met when the items are added in order. -/
def firstRefusal : σ → List α → Option ε
  | _, [] => none
  | s, a :: as =>
      match refuse s a with
      | some e => some e
      | none => firstRefusal (push s a) as

/-- Add all the items, or raise the first refusal and add none. -/
def together (as : List α) : EStateM ε σ Unit := fun s =>
  match firstRefusal refuse push s as with
  | some e => .error e s
  | none => .ok () (as.foldl push s)

theorem step_run (a : α) (s : σ) : (step refuse push a).run s =
    match refuse s a with
    | some e => .error e s
    | none => .ok () (push s a) := rfl

theorem together_run (as : List α) (s : σ) : (together refuse push as).run s =
    match firstRefusal refuse push s as with
    | some e => .error e s
    | none => .ok () (as.foldl push s) := rfl

theorem firstRefusal_cons_eq_none_iff (s : σ) (a : α) (as : List α) :
    firstRefusal refuse push s (a :: as) = none ↔
      refuse s a = none ∧ firstRefusal refuse push (push s a) as = none := by
  rw [firstRefusal]
  cases refuse s a with
  | some e => simp only [reduceCtorEq, false_and]
  | none => simp only [true_and]

theorem step_ok_iff (a : α) (s t : σ) :
    (step refuse push a).run s = .ok () t ↔ refuse s a = none ∧ t = push s a := by
  rw [step_run]
  cases refuse s a with
  | some e => simp only [reduceCtorEq, false_and]
  | none => simp only [EStateM.Result.ok.injEq, true_and, eq_comm]

theorem together_run_ok_iff (as : List α) (s t : σ) :
    (together refuse push as).run s = .ok () t ↔
      firstRefusal refuse push s as = none ∧ t = as.foldl push s := by
  rw [together_run]
  cases firstRefusal refuse push s as with
  | some e => simp only [reduceCtorEq, false_and]
  | none => simp only [EStateM.Result.ok.injEq, true_and, eq_comm]

theorem atomic_step (a : α) (s : σ) : Atomic (step refuse push a) s := by
  intro e t h
  rw [step_run] at h
  cases hr : refuse s a <;> rw [hr] at h <;> cases h
  rfl

/-- Adding one at a time succeeds exactly when nothing is refused on the way,
    and otherwise raises the first refusal. -/
theorem each_run (as : List α) (s : σ) :
    (firstRefusal refuse push s as = none ∧
        (each refuse push as).run s = .ok () (as.foldl push s)) ∨
      ∃ e t, firstRefusal refuse push s as = some e ∧
        (each refuse push as).run s = .error e t := by
  induction as generalizing s with
  | nil => exact Or.inl ⟨rfl, rfl⟩
  | cons a as ih =>
      cases hr : refuse s a with
      | some e =>
          refine Or.inr ⟨e, s, ?_, ?_⟩
          · simp only [firstRefusal, hr]
          · simp only [each, EStateM.run_bind, step_run, hr]
      | none =>
          -- Past an accepted head both sides go on from the same state.
          have hfirst : firstRefusal refuse push s (a :: as)
              = firstRefusal refuse push (push s a) as := by
            simp only [firstRefusal, hr]
          have heach : (each refuse push (a :: as)).run s
              = (each refuse push as).run (push s a) := by
            simp only [each, EStateM.run_bind, step_run, hr]
          rw [hfirst, heach]
          exact ih (push s a)

/-- A batch succeeds exactly when its items succeed one by one, and then the
    final states agree. -/
theorem together_ok_iff (as : List α) (s t : σ) :
    (together refuse push as).run s = .ok () t ↔ (each refuse push as).run s = .ok () t := by
  rw [together_run]
  rcases each_run refuse push as s with ⟨hnone, heach⟩ | ⟨e, u, hsome, heach⟩
  · rw [hnone, heach]
  · rw [hsome, heach]
    simp only [reduceCtorEq]

/-- A batch fails exactly when some item fails, with the reason of the first
    one, and leaves the log as it was. -/
theorem together_error_iff (as : List α) (s t : σ) (e : ε) :
    (together refuse push as).run s = .error e t ↔
      t = s ∧ ∃ u, (each refuse push as).run s = .error e u := by
  rw [together_run]
  rcases each_run refuse push as s with ⟨hnone, heach⟩ | ⟨e', u, hsome, heach⟩
  · rw [hnone, heach]
    simp only [reduceCtorEq, exists_false, and_false]
  · rw [hsome, heach]
    simp only [EStateM.Result.error.injEq]
    constructor
    · rintro ⟨rfl, rfl⟩
      exact ⟨rfl, u, rfl, rfl⟩
    · rintro ⟨rfl, -, rfl, -⟩
      exact ⟨rfl, rfl⟩

theorem atomic_together (as : List α) (s : σ) : Atomic (together refuse push as) s :=
  fun e t h => ((together_error_iff refuse push as s t e).mp h).1

/-- What accepting each item of a list preserves, accepting the list
    preserves. -/
theorem firstRefusal_none_invariant {I : σ → Prop} {as : List α}
    (hpush : ∀ s, ∀ a ∈ as, I s → refuse s a = none → I (push s a)) {s : σ} (hs : I s)
    (h : firstRefusal refuse push s as = none) : I (as.foldl push s) := by
  induction as generalizing s with
  | nil => exact hs
  | cons a as ih =>
      have hpush' : ∀ s, ∀ b ∈ as, I s → refuse s b = none → I (push s b) :=
        fun s b hb => hpush s b (List.mem_cons_of_mem a hb)
      rcases (firstRefusal_cons_eq_none_iff refuse push s a as).mp h with ⟨haccept, hrest⟩
      exact ih hpush' (hpush s a List.mem_cons_self hs haccept) hrest

end Exec.Guarded
