import BankSim.Library.Places
import BankSim.Theory.Attempts

/-!
# Engines that Retry

The retry scheduler and the dead-letter processor are two engines of one kind.
`Watched` is an engine together with the submissions it accepted and the works it
called. The works, and the other callbacks on the scheduler, are any programs
that do no more to the engine than `Use` it.

`Lawful` is what an engine has to show: an invariant with so many attempts left
for each payment, and what a submission, a timer and an attempt do to it and to
the queue. An attempt has three ends. It schedules the next one, it fails for
good, or it comes to the work and closes the payment when the work has returned.
Which one it is depends on how many attempts are left and on the `Terms`.

From this alone follows what runs do. They do not raise, every work is called at
most once, and when a run has ended nothing is left to be done. It does end if
no one submits or schedules anything else.

## Main definitions

* `Watched`, `Watched.Use`: An engine under observation, and what is done with it.
* `Paid`: Which works were called.
* `Hand`: What the engine is doing.
* `Terms`, `Lawful`: What an engine makes of submissions, and its law.
* `Carried`: The law of an engine in a world.

## Theorems

* `Watched.exec_cases`: What a use does.
* `Lawful.use`, `Lawful.run_program`: Uses and programs keep the law.
* `Lawful.run_work`, `Lawful.run_attempt`: An attempt returns.
* `Lawful.run`, `Lawful.run_given`: Runs, of any engine and of a fresh one.
-/

namespace BankSim

open Exec PaymentQueue Places

/-! ### An engine under observation -/

/-- An engine, the submissions it has accepted, and the works it has called,
    with the times of the calls. -/
structure Watched (δ row ω : Type) where
  engine : δ
  submitted : List row
  invoked : List (ω × Int)

namespace Watched

variable {δ row ω γ θ ξ σ : Type}

/-- What can be done with an engine between two events, or from inside a work. -/
inductive Use (row ξ : Type)
  | submit (row : row)
  | scheduleAt (time : Int) (callback : ξ)
  | scheduleAfter (delay : Int) (callback : ξ)
  | advanceTo (newTime : Int)
  | advanceBy (amount : Int)

/-- The use leaves the clock alone. -/
def Use.KeepsTime : Use row ξ → Prop
  | .submit _ | .scheduleAt _ _ | .scheduleAfter _ _ => True
  | .advanceTo _ | .advanceBy _ => False

/-- The use submits nothing either. -/
def Use.Quiet : Use row ξ → Prop
  | .scheduleAt _ _ | .scheduleAfter _ _ => True
  | .submit _ | .advanceTo _ | .advanceBy _ => False

theorem Use.Quiet.keepsTime {how : Use row ξ} (h : how.Quiet) : how.KeepsTime := by
  cases how <;> trivial

/-- One step of a run. -/
inductive Step (row ξ : Type)
  | use (how : Use row ξ)
  | runNext

def new (engine : δ) : Watched δ row ω :=
  ⟨engine, [], []⟩

def engineOf : Component (Watched δ row ω) δ where
  get self := self.engine
  set engine self := { self with engine }
  get_set _ _ := rfl
  set_get _ := rfl
  set_set _ _ _ := rfl

/-- A use of the engine. A submission that is refused is not recorded. -/
def exec (submit : row → Action δ Unit) (queueOf : Component δ (AttemptQueue γ θ ξ)) :
    Use row ξ → Action (Watched δ row ω) Unit
  | .submit row => do
      engineOf.zoom (submit row)
      modify fun self => { self with submitted := self.submitted ++ [row] }
  | .scheduleAt time callback =>
      (engineOf.comp queueOf).zoom (PaymentQueue.Use.scheduleAt time (.other (.other callback))).exec
  | .scheduleAfter delay callback =>
      (engineOf.comp queueOf).zoom
        (PaymentQueue.Use.scheduleAfter delay (.other (.other callback))).exec
  | .advanceTo newTime =>
      (engineOf.comp queueOf).zoom (PaymentQueue.Use.advanceTo newTime).exec
  | .advanceBy amount =>
      (engineOf.comp queueOf).zoom (PaymentQueue.Use.advanceBy amount).exec

/-- A fresh engine that was given submissions. -/
def given (submit : row → Action δ Unit) (queueOf : Component δ (AttemptQueue γ θ ξ)) (engine : δ)
    (rows : List row) : Watched δ row ω :=
  finalState (exec submit queueOf) (new engine) (rows.map Use.submit)

/-- The time it is for an engine. -/
def now (queueOf : Component δ (AttemptQueue γ θ ξ)) (self : Watched δ row ω) : Int :=
  (queueOf.get self.engine).scheduler.clock.time

/-- The record of a call. -/
def calling (queueOf : Component δ (AttemptQueue γ θ ξ)) (self : Watched δ row ω) (work : ω) :
    Watched δ row ω :=
  { self with invoked := self.invoked ++ [(work, self.now queueOf)] }

/-- Calling a work, with a record of the call. -/
def perform (queueOf : Component δ (AttemptQueue γ θ ξ))
    (watched : Component σ (Watched δ row ω)) (program : ω → Action σ Unit) (work : ω) :
    Action σ Unit := do
  watched.zoom (modify fun self => self.calling queueOf work)
  program work

/-- A step of a run, where `call` runs what is on the scheduler. -/
def Step.exec (submit : row → Action δ Unit) (queueOf : Component δ (AttemptQueue γ θ ξ))
    (watched : Component σ (Watched δ row ω))
    (call : QueueCallback γ (RetryCallback θ ξ) → Action σ Unit) : Step row ξ → Action σ Unit
  | .use how => watched.zoom (Watched.exec submit queueOf how)
  | .runNext => do
      let _ ← EventScheduler.runNext
        ((watched.comp (engineOf.comp queueOf)).comp PaymentQueue.schedulerOf) call

end Watched

/-! ### Which works were called -/

section Paid

variable {row ω : Type} {work : row → ω} {recovers : row → Bool} {left : Nat → Nat}
  {submitted : List row} {invoked : List (ω × Int)} {i : Nat} {a : row}

/-- The works that were called are those of the payments that have no attempts left
    and recover, once each. -/
def Paid (work : row → ω) (recovers : row → Bool) (left : Nat → Nat) (submitted : List row)
    (invoked : List (ω × Int)) : Prop :=
  ∃ done : List Nat, done.Nodup ∧
    invoked.map Prod.fst = done.filterMap (fun i => submitted[i]?.map work) ∧
    ∀ i, i ∈ done ↔ left i = 0 ∧ ∃ a, submitted[i]? = some a ∧ recovers a = true

theorem paid_nil (work : row → ω) (recovers : row → Bool) (left : Nat → Nat) :
    Paid work recovers left [] [] :=
  ⟨[], List.nodup_nil, rfl, fun i => by simp⟩

/-- A payment that is submitted has as many attempts left as it has in total, and
    the others keep theirs. -/
theorem le_total_accept {total : row → Nat} (h : ∀ i b, submitted[i]? = some b → left i ≤ total b)
    (a : row) : ∀ i b, (submitted ++ [a])[i]? = some b →
      Function.update left submitted.length (total a) i ≤ total b := by
  refine forall_snoc (fun i b hi hb => ?_) ?_
  · rw [Function.update_of_ne hi]
    exact h i b hb
  · rw [Function.update_self]

/-- A payment that has no attempts left is not the one that is submitted. -/
theorem spent_accept {P : row → Prop} (h : left i = 0 ∧ ∃ b, submitted[i]? = some b ∧ P b)
    (a : row) (attempts : Nat) :
    Function.update left submitted.length attempts i = 0 ∧
      ∃ b, (submitted ++ [a])[i]? = some b ∧ P b := by
  rcases h with ⟨hdone, b, hb, hP⟩
  rw [Function.update_of_ne (ne_length_of_some hb)]
  exact ⟨hdone, b, getElem?_append_of_some hb _, hP⟩

/-- A payment is submitted that has attempts to make. -/
theorem Paid.accept (h : Paid work recovers left submitted invoked) (a : row) {attempts : Nat}
    (hpos : 0 < attempts) :
    Paid work recovers (Function.update left submitted.length attempts) (submitted ++ [a])
      invoked := by
  rcases h with ⟨done, hnodup, hworks, hdone⟩
  refine ⟨done, hnodup, ?_, fun i => ?_⟩
  · rw [hworks]
    refine List.filterMap_congr fun i hi => ?_
    rcases ((hdone i).mp hi).2 with ⟨b, hb, -⟩
    rw [hb, getElem?_append_of_some hb]
  · rw [hdone i, getElem?_snoc]
    by_cases hi : i = submitted.length
    · subst hi
      rw [Function.update_self, List.getElem?_eq_none (le_refl _)]
      simp
      omega
    · rw [if_neg hi, Function.update_of_ne hi]

/-- An attempt that is not the last, or fails for good, calls no work. -/
theorem Paid.keep (h : Paid work recovers left submitted invoked) (ha : submitted[i]? = some a)
    (hpos : 0 < left i) (hfails : 1 < left i ∨ recovers a = false) :
    Paid work recovers (spend left i) submitted invoked := by
  rcases h with ⟨done, hnodup, hworks, hdone⟩
  refine ⟨done, hnodup, hworks, fun j => (hdone j).trans ?_⟩
  by_cases hj : j = i
  · subst hj
    rw [spend_self]
    constructor
    · rintro ⟨hzero, -⟩
      omega
    · rintro ⟨hzero, b, hb, hrecovers⟩
      cases ha.symm.trans hb
      rcases hfails with hmore | hfails
      · omega
      · rw [hfails] at hrecovers
        cases hrecovers
  · rw [spend_of_ne left hj]

/-- The last attempt at a payment that recovers calls its work. -/
theorem Paid.call (h : Paid work recovers left submitted invoked) (ha : submitted[i]? = some a)
    (hlast : left i = 1) (hrecovers : recovers a = true) (time : Int) :
    Paid work recovers (spend left i) submitted (invoked ++ [(work a, time)]) := by
  rcases h with ⟨done, hnodup, hworks, hdone⟩
  have hnew : i ∉ done := by
    intro hmem
    have := ((hdone i).mp hmem).1
    omega
  refine ⟨done ++ [i], List.Nodup.append hnodup (List.nodup_singleton i)
    (List.disjoint_singleton.mpr hnew), ?_, fun j => ?_⟩
  · rw [List.map_append, hworks, List.filterMap_append, List.filterMap_cons_some (b := work a)
      (by rw [ha]; rfl)]
    rfl
  · rw [List.mem_append, List.mem_singleton, hdone j]
    by_cases hj : j = i
    · subst hj
      rw [spend_self, hlast]
      exact ⟨fun _ => ⟨rfl, a, ha, hrecovers⟩, fun _ => Or.inr rfl⟩
    · rw [spend_of_ne left hj]
      simp [hj]

/-- When no attempts are left at all, these are the works of all payments that
    recover. -/
theorem Paid.all (h : Paid work recovers left submitted invoked) (hnone : ∀ i, left i = 0) :
    (invoked.map Prod.fst).Perm ((submitted.filter recovers).map work) := by
  rcases h with ⟨done, hnodup, hworks, hdone⟩
  have hplaces : ∀ i, i ∈ done ↔ ∃ a, submitted[i]? = some a ∧ recovers a = true := fun i =>
    (hdone i).trans (and_iff_right (hnone i))
  have hall : invoked.map Prod.fst = (done.filterMap (submitted[·]?)).map work := by
    rw [hworks, List.map_filterMap]
  rw [hall]
  exact (perm_filter hnodup hplaces).map work

end Paid

/-! ### What is at hand -/

/-- What an engine is doing: nothing, or an attempt was taken out of the queue,
    or the work of a payment is being done in its last attempt. -/
inductive Hand
  | free
  | taken (i : Nat)
  | working (i : Nat)

namespace Hand

/-- The payment that was taken out of the queue. -/
@[simp] def held : Hand → Option Nat
  | .taken i => some i
  | .free | .working _ => none

/-- The payment whose work is being done. -/
@[simp] def busy : Hand → Option Nat
  | .working i => some i
  | .free | .taken _ => none

/-- The payment at hand. -/
@[simp] def payment : Hand → Option Nat
  | .taken i | .working i => some i
  | .free => none

end Hand

/-! ### What is done with an engine -/

namespace Watched

variable {δ row ω γ θ ξ σ : Type} {submit : row → Action δ Unit}
  {queueOf : Component δ (AttemptQueue γ θ ξ)}

/-- The engine with one more event on its scheduler. -/
def scheduling (queueOf : Component δ (AttemptQueue γ θ ξ)) (self : Watched δ row ω) (time : Int)
    (callback : ξ) : Watched δ row ω :=
  { self with
    engine := queueOf.set { queueOf.get self.engine with
      scheduler := (queueOf.get self.engine).scheduler.scheduled time (.other (.other callback)) }
      self.engine }

/-- The engine with its clock moved. -/
def moving (queueOf : Component δ (AttemptQueue γ θ ξ)) (self : Watched δ row ω)
    (clock : VirtualClock) : Watched δ row ω :=
  { self with
    engine := queueOf.set { queueOf.get self.engine with
      scheduler := { (queueOf.get self.engine).scheduler with clock } } self.engine }

/-- Something else is put on the scheduler, if the scheduler accepts it. -/
theorem scheduling_run (self : Watched δ row ω) {time : Int} {callback : ξ}
    {m : Action (EventScheduler (QueueCallback γ (RetryCallback θ ξ))) Unit}
    (h : m.run (queueOf.get self.engine).scheduler = .ok ()
      ((queueOf.get self.engine).scheduler.scheduled time (.other (.other callback)))) :
    ((engineOf.comp queueOf).zoom (PaymentQueue.schedulerOf.zoom m)).run self
      = .ok () (self.scheduling queueOf time callback) :=
  Component.zoom_run_ok (p := engineOf.comp queueOf)
    (Component.zoom_run_ok (p := PaymentQueue.schedulerOf) h)

/-- A refusal of the scheduler changes nothing. -/
theorem refused_run (self : Watched δ row ω)
    {m : Action (EventScheduler (QueueCallback γ (RetryCallback θ ξ))) Unit} {e : Raised}
    (h : m.run (queueOf.get self.engine).scheduler
      = .error e (queueOf.get self.engine).scheduler) :
    ((engineOf.comp queueOf).zoom (PaymentQueue.schedulerOf.zoom m)).run self = .error e self := by
  rw [Component.zoom_run_error (p := engineOf.comp queueOf)
    (Component.zoom_run_error (p := PaymentQueue.schedulerOf) h)]
  exact congrArg (EStateM.Result.error e) (congrArg (engineOf.set · self)
    (queueOf.set_get self.engine))

/-- A use is refused and does nothing, or it queues an event that is not past, or it
    is a submission that is accepted, or it moves the clock. -/
theorem exec_cases {self : Watched δ row ω} (hatomic : ∀ row, Atomic (submit row) self.engine)
    (how : Use row ξ) :
    after (exec submit queueOf how) self = self ∨
      (∃ time callback, (queueOf.get self.engine).scheduler.clock.time ≤ time ∧
        after (exec submit queueOf how) self = self.scheduling queueOf time callback) ∨
      (∃ row engine, how = .submit row ∧ (submit row).run self.engine = .ok () engine ∧
        after (exec submit queueOf how) self
          = { self with engine, submitted := self.submitted ++ [row] }) ∨
      (¬ how.KeepsTime ∧ ∃ clock,
        after (exec submit queueOf how) self = self.moving queueOf clock) := by
  cases how with
  | submit row =>
      rw [exec]
      cases hrun : (submit row).run self.engine with
      | ok _ engine =>
          refine Or.inr (Or.inr (Or.inl ⟨row, engine, rfl, hrun, ?_⟩))
          exact after_bind_ok (Component.zoom_run_ok (p := engineOf) hrun)
      | error e engine =>
          refine Or.inl ?_
          rw [after_bind_error (Component.zoom_run_error (p := engineOf) hrun),
            hatomic row e engine hrun]
          rfl
  | scheduleAt time callback =>
      by_cases htime : (queueOf.get self.engine).scheduler.clock.time ≤ time
      · exact Or.inr (Or.inl ⟨time, callback, htime, after_of_ok
          (self.scheduling_run (EventScheduler.scheduleAt_of_le _ htime))⟩)
      · rcases @EventScheduler.scheduleAt_of_lt _ (queueOf.get self.engine).scheduler time
          (.other (.other callback)) (not_le.mp htime) with ⟨e, -, he⟩
        exact Or.inl (after_of_error (self.refused_run he))
  | scheduleAfter delay callback =>
      by_cases hdelay : 0 ≤ delay
      · exact Or.inr (Or.inl ⟨(queueOf.get self.engine).scheduler.clock.time + delay, callback,
          by omega, after_of_ok
            (self.scheduling_run (EventScheduler.scheduleAfter_of_nonneg _ hdelay))⟩)
      · rcases @EventScheduler.scheduleAfter_of_neg _ (queueOf.get self.engine).scheduler delay
          (.other (.other callback)) (not_le.mp hdelay) with ⟨e, he⟩
        exact Or.inl (after_of_error (self.refused_run he))
  | advanceTo newTime =>
      refine Or.inr (Or.inr (Or.inr ⟨id, after (VirtualClock.advanceTo newTime)
        (queueOf.get self.engine).scheduler.clock, ?_⟩))
      rw [exec, PaymentQueue.Use.exec, Component.after_zoom, after_discard, Component.after_zoom]
      rfl
  | advanceBy amount =>
      refine Or.inr (Or.inr (Or.inr ⟨id, after (VirtualClock.advanceBy amount)
        (queueOf.get self.engine).scheduler.clock, ?_⟩))
      rw [exec, PaymentQueue.Use.exec, Component.after_zoom, after_discard, Component.after_zoom]
      rfl

end Watched

/-! ### Lawful engines -/

/-- What an engine makes of a submission: whether it accepts it, how many
    attempts the payment takes, and whether the last of them calls the work. -/
structure Terms (row ω : Type) where
  accepted : row → Bool
  paymentId : row → String
  work : row → ω
  total : row → Nat
  recovers : row → Bool
  total_pos : ∀ row, 0 < total row
  visible : ∀ row, accepted row = true → isBlank (paymentId row) = false

section Lawful

variable {δ row ω γ θ ξ σ : Type} [Attempting γ θ] {terms : Terms row ω} {delay : Int}
  {submit : row → Action δ Unit} {queueOf : Component δ (AttemptQueue γ θ ξ)}
  {watched : Component σ (Watched δ row ω)} {program : ω → Action σ Unit}
  {attempt : γ → Action σ Unit} {retry : θ → Action δ Unit}
  {Fits : List row → γ → Prop} {Law : Hand → (Nat → Nat) → Watched δ row ω → Prop}

/-- The queue of an engine under observation. -/
abbrev Watched.queue (queueOf : Component δ (AttemptQueue γ θ ξ)) (self : Watched δ row ω) :
    AttemptQueue γ θ ξ :=
  queueOf.get self.engine

/-- An engine under observation with another queue. -/
abbrev Watched.withQueue (queueOf : Component δ (AttemptQueue γ θ ξ)) (self : Watched δ row ω)
    (queue : AttemptQueue γ θ ξ) : Watched δ row ω :=
  { self with engine := queueOf.set queue self.engine }

/-- What holds of an engine at any moment, with so many attempts left for each
    payment, and what the engine has to show for it: the tokens are where they
    should be, what happens to the queue alone does no harm, and submissions,
    timers and attempts move the tokens as they should. -/
structure Lawful (terms : Terms row ω) (delay : Int) (submit : row → Action δ Unit)
    (queueOf : Component δ (AttemptQueue γ θ ξ)) (watched : Component σ (Watched δ row ω))
    (program : ω → Action σ Unit) (attempt : γ → Action σ Unit) (retry : θ → Action δ Unit)
    (Fits : List row → γ → Prop) (Law : Hand → (Nat → Nat) → Watched δ row ω → Prop) :
    Prop where
  delay_pos : 0 < delay
  fits : ∀ {submitted task}, Fits submitted task → ∃ row, submitted[place task]? = some row
  accepted : ∀ {hand left self}, Law hand left self →
    ∀ row ∈ self.submitted, terms.accepted row = true
  tokens : ∀ {hand left self}, Law hand left self →
    Tokens (Fits self.submitted) hand.held left self.submitted.length (self.queue queueOf)
  requeue : ∀ {hand hand' left self queue}, Law hand left self → hand'.busy = hand.busy →
    Tokens (Fits self.submitted) hand'.held left self.submitted.length queue →
    queue.pendingTimers = (self.queue queueOf).pendingTimers →
    (self.queue queueOf).scheduler.clock.time ≤ queue.scheduler.clock.time →
    (∀ i time, NotBefore hand.payment i time (self.queue queueOf) →
      NotBefore hand'.payment i time queue) → Law hand' left (self.withQueue queueOf queue)
  refuse : ∀ {row}, terms.accepted row = false → ∀ engine, ∃ e,
    (submit row).run engine = .error e engine
  accept : ∀ {hand left self row}, Law hand left self → hand.held = none →
    terms.accepted row = true → ∃ engine task, (submit row).run self.engine = .ok () engine ∧
      Law hand (Function.update left self.submitted.length (terms.total row))
        { self with engine, submitted := self.submitted ++ [row] } ∧
      place task = self.submitted.length ∧
      queueOf.get engine
        = ((self.queue queueOf).arrived (terms.paymentId row) .achTransfer task).awoken .tick
  /-- A timer that fires puts the next attempt into the queue. -/
  fire : ∀ {left self event rest timer clock row}, Law .free left self →
    (self.queue queueOf).scheduler.queue = event :: rest →
    event.callback = .other (.retry timer) →
    (self.queue queueOf).scheduler.clock.time ≤ event.time → clock.time = event.time →
    self.submitted[place (closure (γ := γ) timer)]? = some row →
    ∃ engine, (retry timer).run (queueOf.set { self.queue queueOf with
          scheduler := (self.queue queueOf).scheduler.ready clock rest } self.engine)
        = .ok () engine ∧
      Law .free left { self with engine } ∧
      queueOf.get engine = (({ self.queue queueOf with
        scheduler := (self.queue queueOf).scheduler.ready clock rest } :
          AttemptQueue γ θ ξ).arrived (terms.paymentId row) .achTransfer
            (closure timer)).awoken .tick
  /-- An attempt that is not the last schedules a timer. -/
  again : ∀ {task left s}, Law (.taken (place task)) left (watched.get s) →
    Fits (watched.get s).submitted task → 1 < left (place task) → ∃ engine timer,
      (attempt task).run s = .ok () (watched.set { watched.get s with engine } s) ∧
      Law .free (spend left (place task)) { watched.get s with engine } ∧
      place (closure (γ := γ) timer) = place task ∧
      queueOf.get engine = { (watched.get s).queue queueOf with
        scheduler := ((watched.get s).queue queueOf).scheduler.scheduled
          (((watched.get s).queue queueOf).scheduler.clock.time + delay)
          (.other (.retry timer)) }
  /-- The last one fails for good, -/
  giveUp : ∀ {task left s row}, Law (.taken (place task)) left (watched.get s) →
    Fits (watched.get s).submitted task → left (place task) = 1 →
    (watched.get s).submitted[place task]? = some row → terms.recovers row = false →
    ∃ engine, (attempt task).run s = .ok () (watched.set { watched.get s with engine } s) ∧
      Law .free (spend left (place task)) { watched.get s with engine } ∧
      queueOf.get engine = (watched.get s).queue queueOf
  /-- or it comes to the work, and once that has returned the payment is done with. -/
  work : ∀ {task left s row}, Law (.taken (place task)) left (watched.get s) →
    Fits (watched.get s).submitted task → left (place task) = 1 →
    (watched.get s).submitted[place task]? = some row → terms.recovers row = true →
    ∃ engine finish, (attempt task).run s = (do
          Watched.perform queueOf watched program (terms.work row)
          (watched.comp Watched.engineOf).zoom finish).run
            (watched.set { watched.get s with engine } s) ∧
      Law (.working (place task)) (spend left (place task))
        ({ watched.get s with engine }.calling queueOf (terms.work row)) ∧
      queueOf.get engine = (watched.get s).queue queueOf ∧
      ∀ left' self, Law (.working (place task)) left' self →
        self.submitted[place task]? = some row → ∃ engine,
        finish.run self.engine = .ok () engine ∧ Law .free left' { self with engine } ∧
          queueOf.get engine = self.queue queueOf

namespace Lawful

variable {hand : Hand} {left : Nat → Nat} {self : Watched δ row ω} {s : σ}
  (h : Lawful terms delay submit queueOf watched program attempt retry Fits Law)

include h

/-- Changes of the queue that do not matter. -/
theorem pass (hlaw : Law hand left self) {queue : AttemptQueue γ θ ξ}
    (hpass : Passes (self.queue queueOf) queue) : Law hand left (self.withQueue queueOf queue) :=
  h.requeue hlaw rfl ((h.tokens hlaw).passes hpass) hpass.pendingTimers hpass.clock
    fun _ _ hbefore => hbefore.pass hpass

/-- An attempt is taken out of the queue. -/
theorem take (hlaw : Law .free left self) {item : QueuedPayment γ}
    {waiting : List (QueuedPayment γ)}
    (hwaiting : (self.queue queueOf).waiting = item :: waiting) :
    Law (.taken (place item.work)) left
        (self.withQueue queueOf { self.queue queueOf with waiting }) ∧
      Fits self.submitted item.work := by
  rcases (h.tokens hlaw).take hwaiting with ⟨htokens, hfits⟩
  exact ⟨h.requeue hlaw rfl htokens rfl (le_refl _) fun _ _ hbefore => hbefore.take hwaiting, hfits⟩

/-- An event that is neither a tick nor a timer leaves the scheduler. -/
theorem popped (hlaw : Law .free left self) {event : Event _} {rest : List (Event _)}
    (hqueue : (self.queue queueOf).scheduler.queue = event :: rest)
    (hother : isTimer event.callback = false) {clock : VirtualClock}
    (hdue : (self.queue queueOf).scheduler.clock.time ≤ event.time)
    (hclock : clock.time = event.time) :
    Law .free left (self.withQueue queueOf { self.queue queueOf with
      scheduler := (self.queue queueOf).scheduler.ready clock rest }) := by
  have hcount := pendingTimers_popped hqueue clock
  rw [hother] at hcount
  exact h.requeue hlaw rfl ((h.tokens hlaw).popped hqueue hother clock) hcount.symm
    (hdue.trans hclock.ge) fun _ _ hbefore =>
      hbefore.popped hqueue hdue hclock fun hnone => nomatch hnone

/-- Something else is scheduled. -/
theorem scheduling (hlaw : Law hand left self) (time : Int) (callback : ξ) :
    Law hand left (self.scheduling queueOf time callback) :=
  h.requeue hlaw rfl ((h.tokens hlaw).scheduled rfl rfl time)
    (pendingTimers_scheduled_other _ time rfl) (le_refl _)
    fun _ _ hbefore => hbefore.scheduled (by simp [timerOf]) _

/-- A submission that is refused changes nothing. -/
theorem atomic (hlaw : Law hand left self) (hheld : hand.held = none) (row : row) :
    Atomic (submit row) self.engine := by
  intro e t herror
  cases haccepted : terms.accepted row with
  | false =>
      rcases h.refuse haccepted self.engine with ⟨e', hrun⟩
      rw [hrun] at herror
      cases herror
      rfl
  | true =>
      rcases h.accept hlaw hheld haccepted with ⟨engine, task, hrun, -⟩
      rw [hrun] at herror
      cases herror

/-- A use keeps the law. One that submits nothing leaves as much to do. -/
theorem use (hlaw : Law hand left self) (hheld : hand.held = none) {how : Watched.Use row ξ}
    (hkeeps : how.KeepsTime) :
    ∃ left', Law hand left' (after (Watched.exec submit queueOf how) self) ∧
      Used (self.queue queueOf) ((after (Watched.exec submit queueOf how) self).queue queueOf) ∧
      self.submitted <+: (after (Watched.exec submit queueOf how) self).submitted ∧
      (how.Quiet → (after (Watched.exec submit queueOf how) self).submitted = self.submitted ∧
        left' = left ∧
        ((after (Watched.exec submit queueOf how) self).queue queueOf).pendingTimers
          = (self.queue queueOf).pendingTimers) := by
  rcases @Watched.exec_cases _ _ _ _ _ _ submit queueOf _ (h.atomic hlaw hheld) how with
    hsame | ⟨time, callback, htime, hafter⟩ | ⟨row, engine, rfl, hrun, hafter⟩ |
      ⟨hmoves, -⟩
  · rw [hsame]
    exact ⟨left, hlaw, .refl, List.prefix_rfl, fun _ => ⟨rfl, rfl, rfl⟩⟩
  · have hqueue : (self.scheduling queueOf time callback).queue queueOf
        = { self.queue queueOf with
            scheduler := (self.queue queueOf).scheduler.scheduled time (.other (.other callback)) } :=
      queueOf.get_set _ _
    have hscheduling := h.scheduling hlaw time callback
    rw [hafter]
    refine ⟨left, hscheduling, ?_, List.prefix_rfl, fun _ => ⟨rfl, rfl, ?_⟩⟩
    · rw [hqueue]
      exact used_scheduled _ htime rfl
    · rw [hqueue]
      exact pendingTimers_scheduled_other _ time rfl
  · -- A submission that returned was accepted.
    cases haccepted : terms.accepted row with
    | false =>
        rcases h.refuse haccepted self.engine with ⟨e, hrefuse⟩
        rw [hrefuse] at hrun
        cases hrun
    | true =>
        rcases h.accept hlaw hheld haccepted with ⟨engine', task, haccept, hadmitted, -, hqueue⟩
        cases haccept.symm.trans hrun
        rw [hafter]
        refine ⟨_, hadmitted, ?_, List.prefix_append _ _, fun hquiet => hquiet.elim⟩
        change Used _ (queueOf.get engine)
        rw [hqueue]
        exact used_arrived _ (terms.visible row haccepted) _ _
  · exact absurd hkeeps hmoves

/-- Submissions keep the law, and those that are accepted are recorded in order. -/
theorem submits (hbetween : Between True (self.queue queueOf)) (hlaw : Law .free left self)
    (rows : List row) :
    ∃ left', Law .free left'
        (finalState (Watched.exec submit queueOf) self (rows.map Watched.Use.submit)) ∧
      Between True ((finalState (Watched.exec submit queueOf) self
        (rows.map Watched.Use.submit)).queue queueOf) ∧
      (finalState (Watched.exec submit queueOf) self (rows.map Watched.Use.submit)).submitted
        = self.submitted ++ rows.filter terms.accepted := by
  induction rows generalizing left self with
  | nil => exact ⟨left, hlaw, hbetween, (List.append_nil _).symm⟩
  | cons row rows ih =>
      have hkeeps : (Watched.Use.submit row : Watched.Use _ ξ).KeepsTime := trivial
      rcases h.use hlaw rfl hkeeps with ⟨left', hlaw', hused, -⟩
      rcases ih (hbetween.used hused) hlaw' with ⟨left'', hlast, hrest, hsubmitted⟩
      refine ⟨left'', hlast, hrest, hsubmitted.trans ?_⟩
      cases haccepted : terms.accepted row with
      | false =>
          rcases h.refuse haccepted self.engine with ⟨e, hrun⟩
          have hsame : after (Watched.exec submit queueOf (.submit row)) self = self := by
            rw [Watched.exec, after_bind_error (Component.zoom_run_error (p := Watched.engineOf)
              hrun), h.atomic hlaw rfl row e _ hrun]
            rfl
          rw [hsame, List.filter_cons_of_neg (by simp [haccepted])]
      | true =>
          rcases h.accept hlaw rfl haccepted with ⟨engine, task, hrun, -⟩
          have hmore : (after (Watched.exec submit queueOf (.submit row)) self).submitted
              = self.submitted ++ [row] := by
            rw [Watched.exec, after_bind_ok (Component.zoom_run_ok (p := Watched.engineOf) hrun)]
            rfl
          rw [hmore, List.filter_cons_of_pos haccepted, List.append_assoc]
          rfl

variable {allowed : Watched.Use row ξ → Prop}

/-- A program that only uses the engine, and returns, keeps the law. -/
theorem run_program {m : Action σ Unit}
    (hm : OnlyMakes watched (Watched.exec submit queueOf) allowed m)
    (hreturns : ¬ Raises m s) (hallowed : ∀ how, allowed how → how.KeepsTime)
    (hlaw : Law hand left (watched.get s)) (hheld : hand.held = none) :
    ∃ t left', m.run s = .ok () t ∧ Law hand left' (watched.get t) ∧
      Used ((watched.get s).queue queueOf) ((watched.get t).queue queueOf) ∧
      (watched.get s).submitted <+: (watched.get t).submitted ∧
      ((∀ how, allowed how → how.Quiet) →
        (watched.get t).submitted = (watched.get s).submitted ∧ left' = left ∧
        ((watched.get t).queue queueOf).pendingTimers
          = ((watched.get s).queue queueOf).pendingTimers) := by
  have hkeeps := hm.keeps (I := fun self => ∃ left', Law hand left' self ∧
      Used ((watched.get s).queue queueOf) (self.queue queueOf) ∧
      (watched.get s).submitted <+: self.submitted ∧
      ((∀ how, allowed how → how.Quiet) →
        self.submitted = (watched.get s).submitted ∧ left' = left ∧
        (self.queue queueOf).pendingTimers = ((watched.get s).queue queueOf).pendingTimers))
    (fun self how ⟨left', hself, hused, hprefix, hsame⟩ hhow => by
      rcases h.use hself hheld (hallowed how hhow) with ⟨left'', hlater, hmore, hgrown, hquiet⟩
      refine ⟨left'', hlater, hused.trans hmore, hprefix.trans hgrown, fun hall => ?_⟩
      rcases hquiet (hall how hhow) with ⟨hsubmitted, hleft, hpending⟩
      rcases hsame hall with ⟨hsubmitted', hleft', hpending'⟩
      exact ⟨hsubmitted.trans hsubmitted', hleft.trans hleft', hpending.trans hpending'⟩)
    ⟨left, hlaw, .refl, List.prefix_rfl, fun _ => ⟨rfl, rfl, rfl⟩⟩
  cases hrun : m.run s with
  | ok _ t =>
      rw [after_of_ok hrun] at hkeeps
      rcases hkeeps with ⟨left', hlater, hused, hprefix, hsame⟩
      exact ⟨t, left', rfl, hlater, hused, hprefix, hsame⟩
  | error e t => exact absurd ⟨e, t, hrun⟩ hreturns

/-- A timer that fires enqueues the next attempt, and there is one timer less. -/
theorem run_timer {event : Event _} {rest : List (Event _)} {clock : VirtualClock} {timer : θ}
    (hlaw : Law .free left (watched.get s))
    (hqueue : ((watched.get s).queue queueOf).scheduler.queue = event :: rest)
    (hcallback : event.callback = .other (.retry timer))
    (hdue : ((watched.get s).queue queueOf).scheduler.clock.time ≤ event.time)
    (hclock : clock.time = event.time) :
    ∃ t, ((watched.comp Watched.engineOf).zoom (retry timer)).run
        (watched.set ((watched.get s).withQueue queueOf { (watched.get s).queue queueOf with
          scheduler := ((watched.get s).queue queueOf).scheduler.ready clock rest }) s)
          = .ok () t ∧
      Law .free left (watched.get t) ∧
      Used { (watched.get s).queue queueOf with
          scheduler := ((watched.get s).queue queueOf).scheduler.ready clock rest }
        ((watched.get t).queue queueOf) ∧
      (watched.get t).submitted = (watched.get s).submitted ∧
      ((watched.get t).queue queueOf).pendingTimers
        < ((watched.get s).queue queueOf).pendingTimers := by
  have hevent : event ∈ ((watched.get s).queue queueOf).scheduler.queue := by
    rw [hqueue]
    exact List.mem_cons_self
  rcases h.fits ((h.tokens hlaw).timers event hevent timer hcallback) with ⟨row, hrow⟩
  have hvisible := terms.visible row (h.accepted hlaw row (List.mem_of_getElem? hrow))
  rcases h.fire hlaw hqueue hcallback hdue hclock hrow with ⟨engine, hrun, hfree, hsame⟩
  refine ⟨watched.set { watched.get s with engine } s, ?_, ?_, ?_, ?_, ?_⟩
  · rw [Component.zoom_run_ok (p := watched.comp Watched.engineOf)
      (s := watched.set ((watched.get s).withQueue queueOf _) s) (t := engine)
      (by
        change (retry timer).run (watched.get (watched.set _ s)).engine = _
        rw [watched.get_set]
        exact hrun)]
    refine congrArg (EStateM.Result.ok ()) ?_
    change watched.set { watched.get (watched.set _ s) with engine } (watched.set _ s) = _
    rw [watched.set_set, watched.get_set]
  · rw [watched.get_set]
    exact hfree
  · change Used _ (queueOf.get (watched.get (watched.set _ s)).engine)
    rw [watched.get_set, hsame]
    exact used_arrived _ hvisible _ _
  · rw [watched.get_set]
  · -- The timer is off the queue, and a payment that waits is no timer.
    have hcount := pendingTimers_popped hqueue clock
    rw [hcallback, isTimer, if_pos rfl] at hcount
    rw [watched.get_set]
    change (queueOf.get engine).pendingTimers < _
    rw [hsame, pendingTimers_arrived, hcount]
    exact Nat.lt_succ_self _

end Lawful

/-- The law of an engine in a world, and how much there is left to do. The
    submissions begin with those that there were, and if no one submits anything
    these are all. -/
def Carried (queueOf : Component δ (AttemptQueue γ θ ξ))
    (watched : Component σ (Watched δ row ω)) (Fits : List row → γ → Prop)
    (Law : Hand → (Nat → Nat) → Watched δ row ω → Prop) (quiet : Prop) (submitted : List row)
    (held : Option γ) (load : Nat) (s : σ) : Prop :=
  ∃ left, Law (held.elim .free fun task => .taken (place task)) left (watched.get s) ∧
    (∀ task ∈ held, Fits (watched.get s).submitted task) ∧
    submitted <+: (watched.get s).submitted ∧ (quiet → (watched.get s).submitted = submitted) ∧
    load = PaymentQueue.load left (watched.get s).submitted.length ((watched.get s).queue queueOf)

/-- It is carried over to another queue that the law allows. -/
theorem carried_set {quiet : Prop} {submitted : List row} {held : Option γ} {load : Nat}
    {left : Nat → Nat} {queue : AttemptQueue γ θ ξ} {s : σ}
    (hlaw : Law (held.elim .free fun task => .taken (place task)) left
      ((watched.get s).withQueue queueOf queue))
    (hfits : ∀ task ∈ held, Fits (watched.get s).submitted task)
    (hgrown : submitted <+: (watched.get s).submitted)
    (hsubmitted : quiet → (watched.get s).submitted = submitted)
    (hload : load = PaymentQueue.load left (watched.get s).submitted.length queue) :
    Carried queueOf watched Fits Law quiet submitted held load
      ((watched.comp (Watched.engineOf.comp queueOf)).set queue s) := by
  have hget : watched.get ((watched.comp (Watched.engineOf.comp queueOf)).set queue s)
      = (watched.get s).withQueue queueOf queue := watched.get_comp_set _ queue s
  unfold Carried
  rw [hget]
  refine ⟨left, hlaw, hfits, hgrown, hsubmitted, hload.trans ?_⟩
  change _ = PaymentQueue.load left _ (queueOf.get (queueOf.set queue _))
  rw [queueOf.get_set]

/-- What the scheduler of an engine runs. -/
abbrev Watched.call (queueOf : Component δ (AttemptQueue γ θ ξ))
    (watched : Component σ (Watched δ row ω)) (attempt : γ → Action σ Unit)
    (retry : θ → Action δ Unit) (other : ξ → Action σ Unit) :
    QueueCallback γ (RetryCallback θ ξ) → Action σ Unit :=
  QueueCallback.call (watched.comp (engineOf.comp queueOf)) attempt
    (RetryCallback.call (fun timer => (watched.comp engineOf).zoom (retry timer)) other)

/-- A run of what is on the scheduler of an engine. -/
abbrev Watched.run (queueOf : Component δ (AttemptQueue γ θ ξ))
    (watched : Component σ (Watched δ row ω)) (attempt : γ → Action σ Unit)
    (retry : θ → Action δ Unit) (other : ξ → Action σ Unit) : Nat → Action σ Bool :=
  EventScheduler.run ((watched.comp (engineOf.comp queueOf)).comp PaymentQueue.schedulerOf)
    (Watched.call queueOf watched attempt retry other)

namespace Lawful

variable {hand : Hand} {left : Nat → Nat} {self : Watched δ row ω} {s : σ}
  (h : Lawful terms delay submit queueOf watched program attempt retry Fits Law)
  {other : ξ → Action σ Unit} {allowed : Watched.Use row ξ → Prop}
  (hprogram : ∀ work, OnlyMakes watched (Watched.exec submit queueOf) allowed (program work))
  (hother : ∀ callback, OnlyMakes watched (Watched.exec submit queueOf) allowed (other callback))
  (hreturns : ∀ work s, ¬ Raises (program work) s)
  (hothers : ∀ callback s, ¬ Raises (other callback) s)
  (hallowed : ∀ how, allowed how → how.KeepsTime)

include h hprogram hreturns hallowed

/-- An attempt that comes to the work returns: the call is recorded, the work is
    done, and the payment is closed. -/
theorem run_work {task : γ} (hlaw : Law (.taken (place task)) left (watched.get s))
    (hfits : Fits (watched.get s).submitted task) (hlast : left (place task) = 1) {row : row}
    (hrow : (watched.get s).submitted[place task]? = some row)
    (hrecovers : terms.recovers row = true) :
    ∃ t left', (attempt task).run s = .ok () t ∧ Law .free left' (watched.get t) ∧
      Used ((watched.get s).queue queueOf) ((watched.get t).queue queueOf) ∧
      (watched.get s).submitted <+: (watched.get t).submitted ∧
      ((∀ how, allowed how → how.Quiet) →
        (watched.get t).submitted = (watched.get s).submitted ∧
        load left' (watched.get s).submitted.length ((watched.get t).queue queueOf)
          < load left (watched.get s).submitted.length ((watched.get s).queue queueOf)) := by
  have htokens := h.tokens hlaw
  have hpos := htokens.held_pos.1
  have hcount := htokens.lt_count hpos
  rcases h.work hlaw hfits hlast hrow hrecovers with
    ⟨engine, finish, hrun, hworking, hsame, hfinish⟩
  have hcall : (watched.zoom (modify fun self => self.calling queueOf (terms.work row)) :
      Action σ Unit).run (watched.set { watched.get s with engine } s) = .ok ()
        (watched.set ({ watched.get s with engine }.calling queueOf (terms.work row)) s) := by
    rw [watched.zoom_modify_run, watched.get_set, watched.set_set]
  have hstart : Law (.working (place task)) (spend left (place task)) (watched.get
      (watched.set ({ watched.get s with engine }.calling queueOf (terms.work row)) s)) := by
    rw [watched.get_set]
    exact hworking
  rcases h.run_program (hprogram _) (hreturns _ _) hallowed hstart rfl with
    ⟨t, left', hwork, hworked, hused, hgrown, hquiet⟩
  rw [watched.get_set] at hused hgrown hquiet
  -- Whatever the work has submitted came behind the row.
  have hlater : (watched.get t).submitted[place task]? = some row := by
    rcases hgrown with ⟨more, hmore⟩
    rw [← hmore]
    exact getElem?_append_of_some hrow more
  rcases hfinish left' _ hworked hlater with ⟨engine', hclose, hfree, hqueue⟩
  refine ⟨watched.set { watched.get t with engine := engine' } t, left', ?_, ?_⟩
  · rw [hrun]
    unfold Watched.perform
    rw [bind_assoc, run_bind_of_ok hcall, run_bind_of_ok hwork]
    exact Component.zoom_run_ok (p := watched.comp Watched.engineOf) hclose
  · rw [watched.get_set]
    refine ⟨hfree, ?_, hgrown, fun hall => ?_⟩
    · change Used _ (queueOf.get engine')
      rw [hqueue, ← hsame]
      exact hused
    · rcases hquiet hall with ⟨hsubmitted, rfl, hpending⟩
      refine ⟨hsubmitted, load_spend_lt hpos hcount ?_⟩
      change (queueOf.get engine').pendingTimers ≤ _
      rw [hqueue, hpending]
      change (queueOf.get engine).pendingTimers ≤ _
      rw [hsame]
      exact Nat.le_succ _

/-- An attempt returns. -/
theorem run_attempt {task : γ} (hlaw : Law (.taken (place task)) left (watched.get s))
    (hfits : Fits (watched.get s).submitted task) :
    ∃ t left', (attempt task).run s = .ok () t ∧ Law .free left' (watched.get t) ∧
      Used ((watched.get s).queue queueOf) ((watched.get t).queue queueOf) ∧
      (watched.get s).submitted <+: (watched.get t).submitted ∧
      ((∀ how, allowed how → how.Quiet) →
        (watched.get t).submitted = (watched.get s).submitted ∧
        load left' (watched.get s).submitted.length ((watched.get t).queue queueOf)
          < load left (watched.get s).submitted.length ((watched.get s).queue queueOf)) := by
  have htokens := h.tokens hlaw
  have hpos := htokens.held_pos.1
  have hcount := htokens.lt_count hpos
  rcases h.fits hfits with ⟨row, hrow⟩
  by_cases hmore : 1 < left (place task)
  · -- The next attempt is scheduled.
    rcases h.again hlaw hfits hmore with ⟨engine, timer, hrun, hfree, hplace, hqueue⟩
    have hdelay := h.delay_pos
    refine ⟨_, spend left (place task), hrun, ?_⟩
    rw [watched.get_set]
    refine ⟨hfree, ?_, List.prefix_rfl, fun _ => ⟨rfl, load_spend_lt hpos hcount ?_⟩⟩
    · change Used _ (queueOf.get engine)
      rw [hqueue]
      exact used_scheduled _ (by omega) rfl
    · change (queueOf.get engine).pendingTimers ≤ _
      rw [hqueue]
      exact (pendingTimers_scheduled _ _ _).le
  · have hlast : left (place task) = 1 := by omega
    cases hrecovers : terms.recovers row with
    | false =>
        rcases h.giveUp hlaw hfits hlast hrow hrecovers with ⟨engine, hrun, hfree, hqueue⟩
        refine ⟨_, spend left (place task), hrun, ?_⟩
        rw [watched.get_set]
        refine ⟨hfree, ?_, List.prefix_rfl, fun _ => ⟨rfl, load_spend_lt hpos hcount ?_⟩⟩
        · change Used _ (queueOf.get engine)
          rw [hqueue]
          exact .refl
        · change (queueOf.get engine).pendingTimers ≤ _
          rw [hqueue]
          exact Nat.le_succ _
    | true => exact h.run_work hprogram hreturns hallowed hlaw hfits hlast hrow hrecovers

include hother hothers

/-- What an engine has to show of attempts and events it does show. -/
theorem carries (submitted : List row) :
    Carries (watched.comp (Watched.engineOf.comp queueOf)) attempt
      (RetryCallback.call (fun timer => (watched.comp Watched.engineOf).zoom (retry timer)) other)
      ((∀ how, allowed how → how.Quiet) ∧ IsEmpty ξ)
      (Carried queueOf watched Fits Law (∀ how, allowed how → how.Quiet) submitted) := by
  constructor
  · rintro held load s later ⟨left, hlaw, hfits, hprefix, hsubmitted, rfl⟩ hpass
    exact carried_set (h.pass hlaw hpass) hfits hprefix hsubmitted
      (congrArg (2 * _ + ·) hpass.pendingTimers.symm)
  · rintro load s item waiting ⟨left, hlaw, -, hprefix, hsubmitted, rfl⟩ hwaiting
    rcases h.take hlaw hwaiting with ⟨htaken, hfits⟩
    refine carried_set htaken ?_ hprefix hsubmitted rfl
    rintro task htask
    cases htask
    exact hfits
  · rintro task load s ⟨left, hlaw, hfits, hprefix, hsubmitted, rfl⟩
    rcases h.run_attempt hprogram hreturns hallowed hlaw (hfits task rfl) with
      ⟨t, left', hrun, hfree, hused, hgrown, hquiet⟩
    refine ⟨t, _, hrun, ⟨left', hfree, fun task hnone => (nomatch hnone), hprefix.trans hgrown,
      fun hall => ?_, rfl⟩, hused, fun hcondition => ?_⟩
    · exact (hquiet hall).1.trans (hsubmitted hall)
    · rw [(hquiet hcondition.1).1]
      exact (hquiet hcondition.1).2
  · rintro load s event rest clock ⟨left, hlaw, -, hprefix, hsubmitted, rfl⟩ hqueue hkind hdue
      hclock
    have hqueue' : ((watched.get s).queue queueOf).scheduler.queue = event :: rest := hqueue
    have hevent : event ∈ ((watched.get s).queue queueOf).scheduler.queue := by
      rw [hqueue']
      exact List.mem_cons_self
    cases hcallback : event.callback with
    | tick =>
        rw [hcallback] at hkind
        cases hkind
    | enqueue paymentId paymentType work =>
        -- No engine schedules such an event.
        have hown := (h.tokens hlaw).own event hevent
        rw [hcallback] at hown
        cases hown
    | other callback =>
        cases callback with
        | retry timer =>
            rcases h.run_timer hlaw hqueue' hcallback hdue hclock with
              ⟨t, hrun, hfree, hused, hsame, hfewer⟩
            refine ⟨t, _, hrun, ⟨left, hfree, fun task hnone => (nomatch hnone), ?_, ?_, rfl⟩,
              hused, fun _ => ?_⟩
            · rw [hsame]
              exact hprefix
            · rw [hsame]
              exact hsubmitted
            · rw [hsame]
              exact load_lt_of_pending hfewer
        | other callback =>
            have hpopped := h.popped hlaw hqueue (by rw [hcallback]; rfl) hdue hclock
            rw [← watched.get_set ((watched.get s).withQueue queueOf _) s] at hpopped
            rcases h.run_program (hother callback) (hothers callback _) hallowed hpopped rfl
              with ⟨t, left', hrun, hfree, hused, hgrown, hquiet⟩
            rw [watched.get_set] at hused hgrown hquiet
            refine ⟨t, _, hrun, ⟨left', hfree, fun task hnone => (nomatch hnone),
              hprefix.trans hgrown, fun hall => ?_, rfl⟩, ?_,
              fun hcondition => (hcondition.2.false callback).elim⟩
            · exact (hquiet hall).1.trans (hsubmitted hall)
            · change Used (queueOf.get (queueOf.set _ _)) _ at hused
              rw [queueOf.get_set] at hused
              exact hused

/-- A run never raises, and in every state between two events the law holds. When
    it has ended there are no attempts left, and it does end if no one submits or
    schedules anything else. -/
theorem run (hbetween : Between True ((watched.get s).queue queueOf))
    (hlaw : Law .free left (watched.get s)) :
    (∀ rounds, ∃ ended t,
      (Watched.run queueOf watched attempt retry other rounds).run s = .ok ended t ∧
      Between True ((watched.get t).queue queueOf) ∧
      ∃ left', Law .free left' (watched.get t) ∧
        (watched.get s).submitted <+: (watched.get t).submitted ∧
        ((∀ how, allowed how → how.Quiet) →
          (watched.get t).submitted = (watched.get s).submitted) ∧
        (ended = true → ((watched.get t).queue queueOf).waiting = [] ∧
          ((watched.get t).queue queueOf).scheduler.queue = [] ∧ ∀ i, left' i = 0)) ∧
    ((∀ how, allowed how → how.Quiet) → IsEmpty ξ → ∃ t enough, ∀ rounds, enough ≤ rounds →
      (Watched.run queueOf watched attempt retry other rounds).run s = .ok true t) := by
  have hcarried : Carried queueOf watched Fits Law (∀ how, allowed how → how.Quiet)
      (watched.get s).submitted none _ s :=
    ⟨left, hlaw, fun task hnone => (nomatch hnone), List.prefix_rfl, fun _ => rfl, rfl⟩
  rcases run_of_carried (h.carries hprogram hother hreturns hothers hallowed _) hbetween hcarried
    with ⟨hruns, hends⟩
  refine ⟨fun rounds => ?_, fun hall hempty => hends ⟨hall, hempty⟩⟩
  rcases hruns rounds with ⟨ended, t, hrun, ⟨ht, _, left', hlawt, -, hprefix, hsame, -⟩, hended⟩
  refine ⟨ended, t, hrun, ht, left', hlawt, hprefix, hsame, fun hdone => ?_⟩
  have hnil : ((watched.get t).queue queueOf).scheduler.queue = [] := hended hdone
  -- Whatever waits, a tick is pending for it.
  have hwaiting : ((watched.get t).queue queueOf).waiting = [] := by
    have htick := Between.tick ht
    unfold pendingTicks at htick
    change List.countP _ ((watched.get t).queue queueOf).scheduler.queue
      = (if ((watched.get t).queue queueOf).waiting.isEmpty then 0 else 1) at htick
    rw [hnil, List.countP_nil] at htick
    cases hwaits : ((watched.get t).queue queueOf).waiting with
    | nil => rfl
    | cons item rest =>
        rw [hwaits] at htick
        cases htick
  refine ⟨hwaiting, hnil, fun i => ?_⟩
  have hone := (h.tokens hlawt).one i
  unfold waitingFor timersFor at hone
  rw [hwaiting, hnil] at hone
  by_contra hpos
  rw [if_pos (Nat.pos_of_ne_zero hpos)] at hone
  cases hone

/-- A run of a fresh engine that was given submissions before. -/
theorem run_given {engine : δ} (hbetween : Between True (queueOf.get engine))
    (hlaw : Law .free left (Watched.new engine)) (rows : List row) (s : σ) :
    (∀ rounds, ∃ ended t, (Watched.run queueOf watched attempt retry other rounds).run
          (watched.set (Watched.given submit queueOf engine rows) s) = .ok ended t ∧
      ∃ left', Law .free left' (watched.get t) ∧
        rows.filter terms.accepted <+: (watched.get t).submitted ∧
        ((∀ how, allowed how → how.Quiet) →
          (watched.get t).submitted = rows.filter terms.accepted) ∧
        (ended = true → ((watched.get t).queue queueOf).waiting = [] ∧
          ((watched.get t).queue queueOf).scheduler.queue = [] ∧ ∀ i, left' i = 0)) ∧
    ((∀ how, allowed how → how.Quiet) → IsEmpty ξ → ∃ t enough, ∀ rounds, enough ≤ rounds →
      (Watched.run queueOf watched attempt retry other rounds).run
        (watched.set (Watched.given submit queueOf engine rows) s) = .ok true t) := by
  rcases h.submits hbetween hlaw rows with ⟨left', hgiven, hstart, hsubmitted⟩
  have hrows : (Watched.given submit queueOf engine rows : Watched δ row ω).submitted
      = rows.filter terms.accepted :=
    hsubmitted.trans (List.nil_append _)
  have hget := watched.get_set (Watched.given submit queueOf engine rows) s
  have hruns := h.run hprogram hother hreturns hothers hallowed
    (s := watched.set (Watched.given submit queueOf engine rows) s) (by rw [hget]; exact hstart)
    (by rw [hget]; exact hgiven)
  rw [hget, hrows] at hruns
  refine ⟨fun rounds => ?_, hruns.2⟩
  rcases hruns.1 rounds with ⟨ended, t, hrun, -, hrest⟩
  exact ⟨ended, t, hrun, hrest⟩

end Lawful

end Lawful

end BankSim
