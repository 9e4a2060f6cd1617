import BankSim.Library.Exec

/-!
# Runs of Caught Calls

A run is a list of calls made one after the other on the same state, each
call free to raise and each exception caught by the caller. What a call
leaves behind is `Exec.after`, so a run is a fold, and every state a program
can reach is the final state of some run.

`AllStates P` says that a property holds in every state a run passes through,
the initial one included. `AllSteps C` says that every call of a run is made
in a state where `C` allows it. The two are related by induction along the
run, and this is the only place that induction is carried out: a safety
theorem needs an invariant, a proof that one call keeps it and a proof that
it implies the property.

`allSteps_congr` is the rule for a property that holds only under a
condition. If an invariant is kept by every step that meets the condition,
and under the invariant a step meets the condition exactly when it behaves,
then a whole run behaves exactly when all its steps meet the condition. The
first bad step is enough to spoil the run, and before it the invariant is
still there to recognise it.

## Main definitions

* `finalState`: The state after a run.
* `outcomes`: What the calls of a run returned or raised.
* `AllStates`: A property of every state a run passes through.
* `AllSteps`: A property of every call in the state it is made in.
* `OnlyMakes`: A program that makes calls on a component, and no more.

## Theorems

* `finalState_append`: A run continues where its first part stopped.
* `allStates_iff`: Every state of a run is the end of one of its prefixes.
* `allStates_iff_after`: Every state of a run is its first or follows a step.
* `invariant_finalState`: An invariant kept by each call holds after a run.
* `allStates_of_allSteps`: The same, for calls that meet a condition.
* `allSteps_congr_of`, `allSteps_congr`: A condition that recognises a bad step
  recognises a bad run.
* `OnlyMakes.keeps`: What every call keeps, such a program keeps.
-/

namespace Exec

variable {ε σ κ α : Type}

/-- The state after making the calls one by one, exceptions caught. -/
def finalState (exec : κ → EStateM ε σ α) (s : σ) (calls : List κ) : σ :=
  calls.foldl (fun t c => after (exec c) t) s

/-- What the calls returned or raised, in order. -/
def outcomes (exec : κ → EStateM ε σ α) : σ → List κ → List (Except ε α)
  | _, [] => []
  | s, c :: cs => outcome (exec c) s :: outcomes exec (after (exec c) s) cs

/-- `P` holds in every state the run passes through. -/
def AllStates (exec : κ → EStateM ε σ α) (P : σ → Prop) : σ → List κ → Prop
  | s, [] => P s
  | s, c :: cs => P s ∧ AllStates exec P (after (exec c) s) cs

/-- `C` holds of every call of the run, in the state the call is made in. -/
def AllSteps (exec : κ → EStateM ε σ α) (C : σ → κ → Prop) : σ → List κ → Prop
  | _, [] => True
  | s, c :: cs => C s c ∧ AllSteps exec C (after (exec c) s) cs

instance decidableAllSteps (exec : κ → EStateM ε σ α) (C : σ → κ → Prop)
    [∀ s c, Decidable (C s c)] : ∀ (s : σ) (calls : List κ), Decidable (AllSteps exec C s calls)
  | _, [] => isTrue trivial
  | s, c :: cs =>
      have := decidableAllSteps exec C (after (exec c) s) cs
      inferInstanceAs (Decidable (C s c ∧ AllSteps exec C (after (exec c) s) cs))

@[simp] theorem finalState_nil (exec : κ → EStateM ε σ α) (s : σ) :
    finalState exec s [] = s := rfl

@[simp] theorem finalState_cons (exec : κ → EStateM ε σ α) (s : σ) (c : κ) (cs : List κ) :
    finalState exec s (c :: cs) = finalState exec (after (exec c) s) cs := rfl

theorem finalState_append (exec : κ → EStateM ε σ α) (s : σ) (cs ds : List κ) :
    finalState exec s (cs ++ ds) = finalState exec (finalState exec s cs) ds :=
  List.foldl_append

/-- Every state of a run is the final state of one of its prefixes. -/
theorem allStates_iff (exec : κ → EStateM ε σ α) (P : σ → Prop) (s : σ) (calls : List κ) :
    AllStates exec P s calls ↔ ∀ cs, cs <+: calls → P (finalState exec s cs) := by
  induction calls generalizing s with
  | nil =>
      simp only [AllStates, List.prefix_nil, forall_eq, finalState_nil]
  | cons c calls ih =>
      simp only [AllStates, ih]
      constructor
      · rintro ⟨hs, hrest⟩ cs hcs
        cases cs with
        | nil => exact hs
        | cons d ds =>
            rcases List.cons_prefix_cons.mp hcs with ⟨rfl, hds⟩
            exact hrest ds hds
      · intro h
        refine ⟨h [] List.nil_prefix, fun cs hcs => ?_⟩
        exact h (c :: cs) (List.cons_prefix_cons.mpr ⟨rfl, hcs⟩)

theorem allStates_mono {exec : κ → EStateM ε σ α} {P Q : σ → Prop} (h : ∀ s, P s → Q s)
    {s : σ} {calls : List κ} (hP : AllStates exec P s calls) : AllStates exec Q s calls := by
  rw [allStates_iff] at hP ⊢
  exact fun cs hcs => h _ (hP cs hcs)

/-- A property of states holds throughout a run exactly when it holds at the
    start and after every step. -/
theorem allStates_iff_after (exec : κ → EStateM ε σ α) (P : σ → Prop) (s : σ)
    (calls : List κ) : AllStates exec P s calls ↔
      P s ∧ AllSteps exec (fun t c => P (after (exec c) t)) s calls := by
  induction calls generalizing s with
  | nil => simp only [AllStates, AllSteps, and_true]
  | cons c calls ih => simp only [AllStates, AllSteps, ih]

/-- What holds in every state of a run holds in its last one. -/
theorem allStates_finalState {exec : κ → EStateM ε σ α} {P : σ → Prop} {s : σ}
    {calls : List κ} (h : AllStates exec P s calls) : P (finalState exec s calls) :=
  (allStates_iff exec P s calls).mp h calls List.prefix_rfl

section Invariant

variable {exec : κ → EStateM ε σ α} {I : σ → Prop}

/-- An invariant kept by every call that meets the condition holds in every
    state of a run whose calls all meet it. -/
theorem allStates_of_allSteps {C : σ → κ → Prop}
    (hstep : ∀ s c, I s → C s c → I (after (exec c) s)) {s : σ} (hs : I s) {calls : List κ}
    (hC : AllSteps exec C s calls) : AllStates exec I s calls := by
  induction calls generalizing s with
  | nil => exact hs
  | cons c calls ih => exact ⟨hs, ih (hstep s c hs hC.1) hC.2⟩

theorem allSteps_of_forall {C : σ → κ → Prop} {s : σ} {calls : List κ}
    (h : ∀ t, ∀ c ∈ calls, C t c) : AllSteps exec C s calls := by
  induction calls generalizing s with
  | nil => trivial
  | cons c calls ih =>
      exact ⟨h s c List.mem_cons_self, ih fun t d hd => h t d (List.mem_cons_of_mem c hd)⟩

/-- What an invariant of all calls says about a call, it says about every step
    of a run. -/
theorem allSteps_of_invariant {C : σ → κ → Prop}
    (hstep : ∀ s c, I s → I (after (exec c) s)) (hC : ∀ s c, I s → C s c) {s : σ} (hs : I s)
    (calls : List κ) : AllSteps exec C s calls := by
  induction calls generalizing s with
  | nil => trivial
  | cons c calls ih => exact ⟨hC s c hs, ih (hstep s c hs)⟩

/-- An invariant kept by every call holds after every run. -/
theorem invariant_finalState (hstep : ∀ s c, I s → I (after (exec c) s)) {s : σ} (hs : I s)
    (calls : List κ) : I (finalState exec s calls) :=
  allStates_finalState (allStates_of_allSteps (C := fun _ _ => True)
    (fun t c ht _ => hstep t c ht) hs (allSteps_of_forall fun _ _ _ => trivial))

/-- A run of calls of some kind behaves exactly when all its steps meet the
    condition, provided the condition keeps an invariant under which it
    recognises a bad step. -/
theorem allSteps_congr_of {C G : σ → κ → Prop} {D : κ → Prop}
    (hstep : ∀ s c, I s → D c → C s c → I (after (exec c) s))
    (hiff : ∀ s c, I s → D c → (G s c ↔ C s c)) {s : σ} (hs : I s) {calls : List κ}
    (hcalls : ∀ c ∈ calls, D c) : AllSteps exec G s calls ↔ AllSteps exec C s calls := by
  induction calls generalizing s with
  | nil => exact Iff.rfl
  | cons c calls ih =>
      have hc := hcalls c List.mem_cons_self
      have hrest := fun t ht => ih (s := t) ht fun d hd => hcalls d (List.mem_cons_of_mem c hd)
      simp only [AllSteps]
      constructor
      · rintro ⟨hG, hsteps⟩
        have hC := (hiff s c hs hc).mp hG
        exact ⟨hC, (hrest _ (hstep s c hs hc hC)).mp hsteps⟩
      · rintro ⟨hC, hsteps⟩
        exact ⟨(hiff s c hs hc).mpr hC, (hrest _ (hstep s c hs hc hC)).mpr hsteps⟩

/-- The same, for calls of any kind. -/
theorem allSteps_congr {C G : σ → κ → Prop}
    (hstep : ∀ s c, I s → C s c → I (after (exec c) s))
    (hiff : ∀ s c, I s → (G s c ↔ C s c)) {s : σ} (hs : I s) (calls : List κ) :
    AllSteps exec G s calls ↔ AllSteps exec C s calls :=
  allSteps_congr_of (D := fun _ => True) (fun t c ht _ => hstep t c ht)
    (fun t c ht _ => hiff t c ht)
    hs fun _ _ => trivial

end Invariant

section OnlyMakes

variable {τ β : Type}

/-- Whatever the whole state, all that the program does to a component of it is
    to make allowed calls, in any number, the refused ones included. -/
def OnlyMakes (component : Component σ τ) (exec : κ → EStateM ε τ α) (allowed : κ → Prop)
    (m : EStateM ε σ β) : Prop :=
  ∀ s, ∃ calls : List κ, (∀ c ∈ calls, allowed c) ∧
    component.get (after m s) = finalState exec (component.get s) calls

theorem OnlyMakes.mono {component : Component σ τ} {exec : κ → EStateM ε τ α}
    {allowed allowed' : κ → Prop} {m : EStateM ε σ β}
    (h : OnlyMakes component exec allowed m) (hallowed : ∀ c, allowed c → allowed' c) :
    OnlyMakes component exec allowed' m := by
  intro s
  rcases h s with ⟨calls, hcalls, hget⟩
  exact ⟨calls, fun c hmem => hallowed c (hcalls c hmem), hget⟩

/-- What every allowed call keeps, a program that only makes such calls keeps. -/
theorem OnlyMakes.keeps {component : Component σ τ} {exec : κ → EStateM ε τ α}
    {allowed : κ → Prop} {m : EStateM ε σ β} (h : OnlyMakes component exec allowed m)
    {I : τ → Prop} (hstep : ∀ t c, I t → allowed c → I (after (exec c) t)) {s : σ}
    (hs : I (component.get s)) : I (component.get (after m s)) := by
  rcases h s with ⟨calls, hallowed, hget⟩
  rw [hget]
  exact allStates_finalState (allStates_of_allSteps (C := fun _ c => allowed c) hstep hs
    (allSteps_of_forall fun _ c hmem => hallowed c hmem))

end OnlyMakes

end Exec
