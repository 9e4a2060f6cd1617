import BankSim.Theory.Engines

/-!
# Works with an Effect

An engine that retries, and something behind it that its works act on: a
ledger, or whatever else shares the world with the engine. `serve` is a work
that acts on it at the current time and does nothing to the engine.

`Serves` is what is to be shown of what lies behind. It has an invariant that
knows the works that were done and when, and as long as these are allowed
works, each of them done once, the next one returns and keeps the invariant. A
lawful engine gives it no more than that: it calls works of different payments,
at times that do not decrease. So `Lawful.run_serving` says for any engine and
anything behind it that a run does not raise and comes to an end, and what is
behind is then what the works make of it that were called.

The works here may raise, in states other than those that runs come to. This is
why runs are followed again: the results of `Lawful` itself are about works that
never raise.

## Main definitions

* `serve`: A work that acts on what is behind the engine.
* `Serves`: Works in any order that the engine may call them in.
* `Serving`: The law of an engine together with what is behind it.

## Theorems

* `Paid.subperm`: The works called are works of different payments.
* `Lawful.run_serving`, `Lawful.run_serving_given`: Runs of an engine with something behind it.
-/

namespace BankSim

open Exec PaymentQueue Places

section Paid

variable {row ω : Type} {work : row → ω} {recovers : row → Bool} {left : Nat → Nat}
  {submitted : List row} {invoked : List (ω × Int)}

/-- The works that were called are works of different payments. -/
theorem Paid.subperm (h : Paid work recovers left submitted invoked) :
    (invoked.map Prod.fst).Subperm (submitted.map work) := by
  rcases h with ⟨done, hnodup, hworks, -⟩
  rw [hworks, show (fun i => submitted[i]?.map work) = fun i => (submitted.map work)[i]? from
    funext fun i => List.getElem?_map.symm]
  exact filterMap_subperm hnodup

end Paid

section Serving

variable {δ row ω γ θ ξ τ : Type} {queueOf : Component δ (AttemptQueue γ θ ξ)}

/-- A work that acts on what is behind the engine, at the current time. -/
def serve (queueOf : Component δ (AttemptQueue γ θ ξ)) (perform : ω → Int → Action τ Unit)
    (work : ω) : Action (Watched δ row ω × τ) Unit := do
  let s ← get
  Component.second.zoom (perform work (s.1.now queueOf))

/-- What is behind an engine keeps an invariant that knows the works done and
    when. It does not mind that time passes, and an allowed work returns. -/
structure Serves (perform : ω → Int → Action τ Unit) (Allowed : List ω → Prop)
    (Good : List (ω × Int) → Int → τ → Prop) : Prop where
  subperm : ∀ {works all}, works.Subperm all → Allowed all → Allowed works
  later : ∀ {done now soon t}, Good done now t → now ≤ soon → Good done soon t
  performs : ∀ {done now t work}, Good done now t → Allowed (done.map Prod.fst ++ [work]) →
    ∃ t', (perform work now).run t = .ok () t' ∧ Good (done ++ [(work, now)]) now t'

/-- The law of an engine and what is behind it, and how much there is left to
    do. Nothing is submitted any more. -/
def Serving (queueOf : Component δ (AttemptQueue γ θ ξ)) [Attempting γ θ]
    (Fits : List row → γ → Prop) (Law : Hand → (Nat → Nat) → Watched δ row ω → Prop)
    (Good : List (ω × Int) → Int → τ → Prop) (submitted : List row) (held : Option γ)
    (load : Nat) (s : Watched δ row ω × τ) : Prop :=
  ∃ left, Law (held.elim .free fun task => .taken (place task)) left s.1 ∧
    (∀ task ∈ held, Fits s.1.submitted task) ∧ s.1.submitted = submitted ∧
    load = PaymentQueue.load left s.1.submitted.length (s.1.queue queueOf) ∧
    Good s.1.invoked (s.1.now queueOf) s.2

variable [Attempting γ θ] {terms : Terms row ω} {delay : Int} {submit : row → Action δ Unit}
  {perform : ω → Int → Action τ Unit} {attempt : γ → Action (Watched δ row ω × τ) Unit}
  {retry : θ → Action δ Unit} {Fits : List row → γ → Prop}
  {Law : Hand → (Nat → Nat) → Watched δ row ω → Prop} {Allowed : List ω → Prop}
  {Good : List (ω × Int) → Int → τ → Prop} {submitted : List row} {held : Option γ} {load : Nat}
  {left : Nat → Nat} {s : Watched δ row ω × τ}

/-- It is carried over to another queue that the law allows, no earlier than
    before. -/
theorem serving_set (hserves : Serves perform Allowed Good) {queue : AttemptQueue γ θ ξ}
    (hlaw : Law (held.elim .free fun task => .taken (place task)) left
      (s.1.withQueue queueOf queue))
    (hfits : ∀ task ∈ held, Fits s.1.submitted task) (hsubmitted : s.1.submitted = submitted)
    (hload : load = PaymentQueue.load left s.1.submitted.length queue)
    (hgood : Good s.1.invoked (s.1.now queueOf) s.2)
    (hclock : (s.1.queue queueOf).scheduler.clock.time ≤ queue.scheduler.clock.time) :
    Serving queueOf Fits Law Good submitted held load
      ((Component.first.comp (Watched.engineOf.comp queueOf)).set queue s) := by
  refine ⟨left, hlaw, hfits, hsubmitted, hload.trans ?_, ?_⟩
  · change _ = PaymentQueue.load left _ (queueOf.get (queueOf.set queue _))
    rw [queueOf.get_set]
    rfl
  · refine hserves.later hgood ?_
    change _ ≤ (queueOf.get (queueOf.set queue _)).scheduler.clock.time
    rw [queueOf.get_set]
    exact hclock

namespace Lawful

variable (h : Lawful terms delay submit queueOf Component.first (serve queueOf perform) attempt
    retry Fits Law)
  (hpaid : ∀ {hand left self}, Law hand left self →
    Paid terms.work terms.recovers left self.submitted self.invoked)
  (hserves : Serves perform Allowed Good)

include h hpaid hserves

/-- An attempt that comes to the work returns: the work acts on what is behind
    the engine, and the payment is closed. -/
theorem run_serve {task : γ} (hlaw : Law (.taken (place task)) left s.1)
    (hfits : Fits s.1.submitted task) (hlast : left (place task) = 1) {row : row}
    (hrow : s.1.submitted[place task]? = some row) (hrecovers : terms.recovers row = true)
    (hgood : Good s.1.invoked (s.1.now queueOf) s.2)
    (hallowed : Allowed (s.1.submitted.map terms.work)) :
    ∃ t, (attempt task).run s = .ok () t ∧ Law .free (spend left (place task)) t.1 ∧
      t.1.submitted = s.1.submitted ∧ t.1.queue queueOf = s.1.queue queueOf ∧
      Good t.1.invoked (t.1.now queueOf) t.2 := by
  obtain ⟨engine, finish, hrun, hworking, hsame, hfinish⟩ := h.work hlaw hfits hlast hrow hrecovers
  have hnow : ({ s.1 with engine } : Watched δ _ ω).now queueOf = s.1.now queueOf :=
    congrArg (fun queue : AttemptQueue γ θ ξ => queue.scheduler.clock.time) hsame
  -- The work is allowed, since it is a work of another payment than those before.
  have hworks : Allowed (s.1.invoked.map Prod.fst ++ [terms.work row]) := by
    refine hserves.subperm ?_ hallowed
    have hsub := (hpaid hworking).subperm
    change List.Subperm ((s.1.invoked ++ [_]).map Prod.fst) _ at hsub
    rw [List.map_append] at hsub
    exact hsub
  obtain ⟨behind, hperform, hdone⟩ := hserves.performs hgood hworks
  obtain ⟨engine', hclose, hfree, hqueue⟩ := hfinish (spend left (place task)) _ hworking hrow
  have hcall : (Component.first.zoom (modify fun self => self.calling queueOf (terms.work row)) :
      Action (Watched δ _ ω × τ) Unit).run ({ s.1 with engine }, s.2)
        = .ok () (({ s.1 with engine } : Watched δ _ ω).calling queueOf (terms.work row), s.2) := rfl
  have hserve : (serve queueOf perform (terms.work row)).run
      (({ s.1 with engine } : Watched δ _ ω).calling queueOf (terms.work row), s.2)
        = .ok () (({ s.1 with engine } : Watched δ _ ω).calling queueOf (terms.work row),
            behind) := by
    unfold serve
    rw [run_bind_get]
    refine Component.zoom_run_ok (p := Component.second) ?_
    change (perform (terms.work row) (Watched.now queueOf { s.1 with engine })).run s.2 = _
    rw [hnow]
    exact hperform
  refine ⟨({ ({ s.1 with engine } : Watched δ _ ω).calling queueOf (terms.work row) with
    engine := engine' }, behind), ?_, hfree, rfl, hqueue.trans hsame, ?_⟩
  · rw [hrun]
    unfold Watched.perform
    rw [bind_assoc]
    refine (run_bind_of_ok hcall).trans ((run_bind_of_ok hserve).trans ?_)
    exact Component.zoom_run_ok (p := Component.first.comp Watched.engineOf) hclose
  · have hlater : Watched.now queueOf ({ ({ s.1 with engine } : Watched δ _ ω).calling queueOf
        (terms.work row) with engine := engine' } : Watched δ _ ω) = s.1.now queueOf :=
      congrArg (fun queue : AttemptQueue γ θ ξ => queue.scheduler.clock.time)
        (hqueue.trans hsame)
    rw [hlater]
    change Good (s.1.invoked ++ [(terms.work row, Watched.now queueOf { s.1 with engine })]) _ _
    rw [hnow]
    exact hdone

/-- An attempt returns, and leaves less to do. -/
theorem run_attempt_serving {task : γ}
    (hserving : Serving queueOf Fits Law Good submitted (some task) load s)
    (hallowed : Allowed (submitted.map terms.work)) :
    ∃ t less, (attempt task).run s = .ok () t ∧
      Serving queueOf Fits Law Good submitted none less t ∧
      Used (s.1.queue queueOf) (t.1.queue queueOf) ∧ less < load := by
  obtain ⟨left, hlaw, hfits, rfl, rfl, hgood⟩ := hserving
  replace hfits : Fits s.1.submitted task := hfits task rfl
  have htokens := h.tokens hlaw
  have hpos := htokens.held_pos.1
  have hcount := htokens.lt_count hpos
  obtain ⟨row, hrow⟩ := h.fits hfits
  by_cases hmore : 1 < left (place task)
  · -- The next attempt is scheduled.
    obtain ⟨engine, timer, hrun, hfree, hplace, hqueue⟩ := h.again hlaw hfits hmore
    have hdelay := h.delay_pos
    have hsame : queueOf.get engine = { s.1.queue queueOf with
        scheduler := (s.1.queue queueOf).scheduler.scheduled
          ((s.1.queue queueOf).scheduler.clock.time + delay) (.other (.retry timer)) } := hqueue
    refine ⟨({ s.1 with engine }, s.2), _, hrun,
      ⟨_, hfree, fun other hother => absurd hother (Option.not_mem_none other), rfl, rfl, ?_⟩,
      ?_, ?_⟩
    · have hnow : ({ s.1 with engine } : Watched δ _ ω).now queueOf = s.1.now queueOf := by
        change (queueOf.get engine).scheduler.clock.time = _
        rw [hsame]
        rfl
      rw [hnow]
      exact hgood
    · change Used _ (queueOf.get engine)
      rw [hsame]
      exact used_scheduled _ (by omega) rfl
    · refine load_spend_lt hpos hcount ?_
      change (queueOf.get engine).pendingTimers ≤ _
      rw [hsame]
      exact (pendingTimers_scheduled _ _ _).le
  · have hlast : left (place task) = 1 := by omega
    cases hrecovers : terms.recovers row with
    | false =>
        -- Nothing is called.
        obtain ⟨engine, hrun, hfree, hqueue⟩ := h.giveUp hlaw hfits hlast hrow hrecovers
        have hsame : queueOf.get engine = s.1.queue queueOf := hqueue
        refine ⟨({ s.1 with engine }, s.2), _, hrun,
          ⟨_, hfree, fun other hother => absurd hother (Option.not_mem_none other), rfl, rfl, ?_⟩,
          ?_, ?_⟩
        · have hnow : ({ s.1 with engine } : Watched δ _ ω).now queueOf = s.1.now queueOf :=
            congrArg (fun queue : AttemptQueue γ θ ξ => queue.scheduler.clock.time) hsame
          rw [hnow]
          exact hgood
        · change Used _ (queueOf.get engine)
          rw [hsame]
          exact .refl
        · refine load_spend_lt hpos hcount ?_
          change (queueOf.get engine).pendingTimers ≤ _
          rw [hsame]
          exact Nat.le_succ _
    | true =>
        obtain ⟨t, hrun, hfree, hsubmitted, hqueue, hdone⟩ :=
          h.run_serve hpaid hserves hlaw hfits hlast hrow hrecovers hgood hallowed
        refine ⟨t, _, hrun,
          ⟨_, hfree, fun other hother => absurd hother (Option.not_mem_none other), hsubmitted,
            rfl, hdone⟩, ?_, ?_⟩
        · rw [hqueue]
          exact .refl
        · rw [hsubmitted, hqueue]
          exact load_spend_lt hpos hcount (Nat.le_succ _)

/-- What an engine has to show of attempts and events it still does. -/
theorem carries_serving (hallowed : Allowed (submitted.map terms.work))
    (other : ξ → Action (Watched δ row ω × τ) Unit) [IsEmpty ξ] :
    Carries (Component.first.comp (Watched.engineOf.comp queueOf)) attempt
      (RetryCallback.call
        (fun timer => (Component.first.comp Watched.engineOf).zoom (retry timer)) other)
      True (Serving queueOf Fits Law Good submitted) := by
  constructor
  · rintro held load s later ⟨left, hlaw, hfits, hsubmitted, rfl, hgood⟩ hpass
    exact serving_set hserves (h.pass hlaw hpass) hfits hsubmitted
      (congrArg (2 * _ + ·) hpass.pendingTimers.symm) hgood hpass.clock
  · rintro load s item waiting ⟨left, hlaw, -, hsubmitted, rfl, hgood⟩ hwaiting
    obtain ⟨htaken, hfits⟩ := h.take hlaw hwaiting
    refine serving_set hserves htaken ?_ hsubmitted rfl hgood (le_refl _)
    rintro task htask
    cases htask
    exact hfits
  · intro task load s hserving
    obtain ⟨t, less, hrun, hserved, hused, hless⟩ :=
      h.run_attempt_serving hpaid hserves hserving hallowed
    exact ⟨t, less, hrun, hserved, hused, fun _ => hless⟩
  · rintro load s event rest clock ⟨left, hlaw, -, hsubmitted, rfl, hgood⟩ hqueue hkind hdue hclock
    have hqueue' : (s.1.queue queueOf).scheduler.queue = event :: rest := hqueue
    have hevent : event ∈ (s.1.queue queueOf).scheduler.queue := by
      rw [hqueue']
      exact List.mem_cons_self
    cases hcallback : event.callback with
    | tick =>
        rw [hcallback] at hkind
        cases hkind
    | enqueue paymentId paymentType work =>
        -- No engine schedules such an event.
        have hown := (h.tokens hlaw).own event hevent
        rw [hcallback] at hown
        cases hown
    | other callback =>
        cases callback with
        | retry timer =>
            -- A timer that fires enqueues the next attempt, and there is one timer less.
            obtain ⟨row, hrow⟩ := h.fits ((h.tokens hlaw).timers event hevent timer hcallback)
            have hvisible := terms.visible row (h.accepted hlaw row (List.mem_of_getElem? hrow))
            obtain ⟨engine, hrun, hfree, hsame⟩ := h.fire hlaw hqueue' hcallback hdue hclock hrow
            refine ⟨({ s.1 with engine }, s.2), _,
              Component.zoom_run_ok (p := Component.first.comp Watched.engineOf) hrun,
              ⟨left, hfree, fun task htask => absurd htask (Option.not_mem_none task),
                hsubmitted, rfl, hserves.later hgood ?_⟩, ?_, fun _ => load_lt_of_pending ?_⟩
            · change _ ≤ (queueOf.get engine).scheduler.clock.time
              rw [hsame, awoken_clock]
              exact hdue.trans hclock.ge
            · change Used _ (queueOf.get engine)
              rw [hsame]
              exact used_arrived _ hvisible _ _
            · have hcount := pendingTimers_popped hqueue' clock
              rw [hcallback, isTimer, if_pos rfl] at hcount
              change (queueOf.get engine).pendingTimers < _
              rw [hsame, pendingTimers_arrived, hcount]
              exact Nat.lt_succ_self _
        | other callback => exact isEmptyElim callback

omit hpaid hserves in
/-- An engine with nothing on its scheduler has nothing left to do. -/
theorem drained {self : Watched δ row ω} (hbetween : Between True (self.queue queueOf))
    (hlaw : Law .free left self) (hnil : (self.queue queueOf).scheduler.queue = []) :
    (self.queue queueOf).waiting = [] ∧ ∀ i, left i = 0 := by
  -- Whatever waits, a tick is pending for it.
  have htick := Between.tick hbetween
  unfold pendingTicks at htick
  rw [hnil, List.countP_nil] at htick
  have hwaiting : (self.queue queueOf).waiting = [] := by
    cases hwaits : (self.queue queueOf).waiting with
    | nil => rfl
    | cons item rest =>
        rw [hwaits] at htick
        cases htick
  refine ⟨hwaiting, fun i => ?_⟩
  have hone := (h.tokens hlaw).one i
  unfold waitingFor timersFor at hone
  rw [hwaiting, hnil] at hone
  by_contra hpos
  rw [if_pos (Nat.pos_of_ne_zero hpos)] at hone
  cases hone

/-- A run does not raise and comes to an end. Then there are no attempts left,
    and what is behind the engine is what the works called have made of it. -/
theorem run_serving [IsEmpty ξ] (other : ξ → Action (Watched δ row ω × τ) Unit)
    (hbetween : Between True (s.1.queue queueOf)) (hlaw : Law .free left s.1)
    (hgood : Good s.1.invoked (s.1.now queueOf) s.2)
    (hallowed : Allowed (s.1.submitted.map terms.work)) :
    (∀ rounds, ∃ ended t, (Watched.run queueOf Component.first attempt retry other rounds).run s
        = .ok ended t ∧ Good t.1.invoked (t.1.now queueOf) t.2) ∧
    ∃ t enough left', (∀ rounds, enough ≤ rounds →
        (Watched.run queueOf Component.first attempt retry other rounds).run s = .ok true t) ∧
      Law .free left' t.1 ∧ (∀ i, left' i = 0) ∧ t.1.submitted = s.1.submitted ∧
      (t.1.queue queueOf).waiting = [] ∧ (t.1.queue queueOf).scheduler.queue = [] ∧
      Good t.1.invoked (t.1.now queueOf) t.2 := by
  have hserving : Serving queueOf Fits Law Good s.1.submitted none _ s :=
    ⟨left, hlaw, fun task htask => absurd htask (Option.not_mem_none task), rfl, rfl, hgood⟩
  obtain ⟨hruns, hends⟩ := run_of_carried
    (h.carries_serving hpaid hserves hallowed other) hbetween hserving
  constructor
  · intro rounds
    obtain ⟨ended, t, hrun, ⟨-, load, left', -, -, -, -, hdone⟩, -⟩ := hruns rounds
    exact ⟨ended, t, hrun, hdone⟩
  · obtain ⟨t, enough, henough⟩ := hends trivial
    obtain ⟨ended, u, hrun, ⟨ht, load, left', hlaw', -, hsubmitted, -, hdone⟩, hended⟩ :=
      hruns enough
    cases (henough enough (le_refl _)).symm.trans hrun
    obtain ⟨hwaiting, hnone⟩ := h.drained ht hlaw' (hended rfl)
    exact ⟨t, enough, left', henough, hlaw', hnone, hsubmitted, hwaiting, hended rfl, hdone⟩

omit hpaid hserves in
/-- Submissions call nothing and take no time. -/
theorem submits_unseen {self : Watched δ row ω} (hbetween : Between True (self.queue queueOf))
    (hlaw : Law .free left self) (rows : List row) :
    (finalState (Watched.exec submit queueOf) self (rows.map Watched.Use.submit)).invoked
        = self.invoked ∧
      (finalState (Watched.exec submit queueOf) self (rows.map Watched.Use.submit)).now queueOf
        = self.now queueOf := by
  induction rows generalizing left self with
  | nil => exact ⟨rfl, rfl⟩
  | cons row rows ih =>
      obtain ⟨left', hlaw', hused, -⟩ :=
        h.use hlaw rfl (show (Watched.Use.submit row : Watched.Use _ ξ).KeepsTime from trivial)
      obtain ⟨hinvoked, hnow⟩ := ih (hbetween.used hused) hlaw'
      have hone : (after (Watched.exec submit queueOf (.submit row)) self).invoked = self.invoked ∧
          (after (Watched.exec submit queueOf (.submit row)) self).now queueOf
            = self.now queueOf := by
        cases haccepted : terms.accepted row with
        | false =>
            obtain ⟨e, hrun⟩ := h.refuse haccepted self.engine
            rw [Watched.exec, after_bind_error (Component.zoom_run_error (p := Watched.engineOf)
              hrun)]
            exact ⟨rfl, rfl⟩
        | true =>
            obtain ⟨engine, task, hrun, -, -, hqueue⟩ := h.accept hlaw rfl haccepted
            rw [Watched.exec, after_bind_ok (Component.zoom_run_ok (p := Watched.engineOf) hrun)]
            refine ⟨rfl, ?_⟩
            change (queueOf.get engine).scheduler.clock.time = _
            rw [hqueue, awoken_clock]
            rfl
      exact ⟨hinvoked.trans hone.1, hnow.trans hone.2⟩

/-- A run of a fresh engine that was given submissions before. -/
theorem run_serving_given [IsEmpty ξ] (other : ξ → Action (Watched δ row ω × τ) Unit) {engine : δ}
    (hbetween : Between True (queueOf.get engine)) (hlaw : Law .free left (Watched.new engine))
    (rows : List row) (behind : τ)
    (hgood : Good [] ((Watched.new engine : Watched δ row ω).now queueOf) behind)
    (hallowed : Allowed ((rows.filter terms.accepted).map terms.work)) :
    (∀ rounds, ∃ ended t, (Watched.run queueOf Component.first attempt retry other rounds).run
          (Watched.given submit queueOf engine rows, behind) = .ok ended t ∧
        Good t.1.invoked (t.1.now queueOf) t.2) ∧
    ∃ t enough left', (∀ rounds, enough ≤ rounds →
        (Watched.run queueOf Component.first attempt retry other rounds).run
          (Watched.given submit queueOf engine rows, behind) = .ok true t) ∧
      Law .free left' t.1 ∧ (∀ i, left' i = 0) ∧
      t.1.submitted = rows.filter terms.accepted ∧
      (t.1.queue queueOf).waiting = [] ∧ (t.1.queue queueOf).scheduler.queue = [] ∧
      Good t.1.invoked (t.1.now queueOf) t.2 := by
  obtain ⟨left', hgiven, hstart, hsubmitted⟩ := h.submits hbetween hlaw rows
  obtain ⟨hinvoked, hnow⟩ := h.submits_unseen hbetween hlaw rows
  have hrows : (Watched.given submit queueOf engine rows : Watched δ _ ω).submitted
      = rows.filter terms.accepted :=
    hsubmitted.trans (List.nil_append _)
  have hruns := h.run_serving hpaid hserves other
    (s := (Watched.given submit queueOf engine rows, behind)) hstart hgiven
  rw [hrows] at hruns
  refine hruns ?_ hallowed
  rw [← hnow] at hgood
  exact hinvoked ▸ hgood

end Lawful

end Serving

end BankSim
