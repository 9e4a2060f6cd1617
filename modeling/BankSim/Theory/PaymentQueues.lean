import BankSim.Theory.Dispatch

/-!
# Runs of a Payment Queue

Payments that are scheduled up front arrive in the order of their times. They
wait in that order, a tick takes some from the front, and their work is done in
that order.

A tick is pending exactly when something waits. An arrival schedules one if
nothing waited, and a tick that leaves something behind schedules the next. So
the world between two events is known from two numbers, how many payments
arrived and how many are completed. An arrival moves the first along, and a
tick the second.

## Main definitions

* `PaymentQueue.taken`, `PaymentQueue.finished`, `PaymentQueue.ticking`: The
  queue in the course of a tick.
* `PaymentQueue.Books`: The queue after so many arrivals and completions.
* `PaymentQueue.Calendar`: What the scheduler holds.
* `PaymentQueue.Progress`: The world between two events.

## Theorems

* `wake_asleep`, `wake_awake`, `enqueue_run`: What the methods do.
* `processItem_taken`, `processTick_start`: One round of the loop, and what is
  settled before the first one.
* `processItem_run`, `processItems_run`, `processTick_run`: What a tick does.
* `progress_step`: One event of a run.
* `queue_run`: A run does not raise, and when it ends, everything is done.
-/

namespace BankSim

open Exec

namespace PaymentQueue

variable {ω κ σ : Type}

/-! ### What the methods of a queue do -/

/-- The queue with the next tick scheduled. -/
def woken (self : PaymentQueue ω κ) (tick : κ) : PaymentQueue ω κ :=
  { self with
    worker := { self.worker with tickScheduled := true }
    scheduler := self.scheduler.scheduled (self.scheduler.clock.time + 1) tick }

theorem wake_awake (tick : κ) {self : PaymentQueue ω κ} (h : self.worker.tickScheduled = true) :
    (QueueWorker.wake tick).run self = .ok () self := by
  unfold QueueWorker.wake
  rw [run_bind_get, if_pos h]
  rfl

theorem wake_asleep (tick : κ) {self : PaymentQueue ω κ} (h : self.worker.tickScheduled = false) :
    (QueueWorker.wake tick).run self = .ok () (self.woken tick) := by
  unfold QueueWorker.wake
  rw [run_bind_get, if_neg (by simp [h])]
  exact Component.zoom_run_ok (p := schedulerOf)
    (EventScheduler.scheduleAfter_of_nonneg tick (by decide))

/-- What a payment that arrives now is queued as. -/
def accepted (self : PaymentQueue ω κ) (paymentId : String) (paymentType : PaymentType)
    (work : ω) : QueuedPayment ω :=
  { paymentId, paymentType, queuedAt := self.scheduler.clock.time
    queuePosition := self.waiting.length + 1, arrivalOrder := self.nextOrder, work }

/-- The queue with one more payment, before the worker is woken. -/
def arrived (self : PaymentQueue ω κ) (paymentId : String) (paymentType : PaymentType)
    (work : ω) : PaymentQueue ω κ :=
  let joined : PaymentQueue ω κ :=
    { self with
      nextOrder := self.nextOrder + 1
      waiting := self.waiting ++ [self.accepted paymentId paymentType work]
      maximumDepth := max self.maximumDepth (self.waiting.length + 1) }
  { joined with
    events := joined.events ++
      [⟨self.scheduler.clock.time, .arrived, paymentId, joined.waiting.length⟩] }

theorem enqueue_run (tick : κ) {paymentId : String} (hid : isBlank paymentId = false)
    (paymentType : PaymentType) (work : ω) (self : PaymentQueue ω κ) :
    (enqueue tick paymentId paymentType work).run self
      = (do QueueWorker.wake tick; return some (self.accepted paymentId paymentType work)).run
        (self.arrived paymentId paymentType work) := by
  unfold enqueue
  rw [if_neg (by decide), if_neg (by simp [hid])]
  rfl

/-- The payment that has waited longest, and the queue without it when its work
    begins. -/
def taken (self : PaymentQueue ω κ) : Option (QueuedPayment ω × PaymentQueue ω κ) :=
  match self.waiting with
  | [] => none
  | item :: waiting =>
      some (item, { self with
        waiting
        events := self.events ++
          [⟨self.scheduler.clock.time, .processing, item.paymentId, waiting.length⟩] })

/-- The first payment that waits, and what follows it. -/
theorem taken_some {self begun : PaymentQueue ω κ} {item : QueuedPayment ω}
    (h : self.taken = some (item, begun)) : ∃ waiting, self.waiting = item :: waiting ∧
      begun = { self with
        waiting
        events := self.events ++
          [⟨self.scheduler.clock.time, .processing, item.paymentId, waiting.length⟩] } := by
  unfold taken at h
  cases hwaiting : self.waiting with
  | nil =>
      rw [hwaiting] at h
      cases h
  | cons first waiting =>
      rw [hwaiting] at h
      cases h
      exact ⟨waiting, rfl, rfl⟩

theorem taken_none {self : PaymentQueue ω κ} (h : self.taken = none) : self.waiting = [] := by
  unfold taken at h
  cases hwaiting : self.waiting with
  | nil => rfl
  | cons first waiting =>
      rw [hwaiting] at h
      cases h

/-- The queue after the work of a payment returned. -/
def finished (self : PaymentQueue ω κ) (item : QueuedPayment ω) (now : Int) : PaymentQueue ω κ :=
  { self with
    completed := self.completed ++
      [{ item with processingStartedAt := some now, completedAt := some now }]
    events := self.events ++ [⟨now, .completed, item.paymentId, self.waiting.length⟩] }

/-- The queue when a tick begins, with what is left on the scheduler. -/
def ticking (self : PaymentQueue ω κ) (scheduler : EventScheduler κ) : PaymentQueue ω κ :=
  { self with scheduler, worker := { self.worker with tickScheduled := false } }

section Loop

variable {queue : Component σ (PaymentQueue ω κ)} {perform : ω → Action σ Unit} {s : σ}

/-- What follows the work of a payment does not raise. -/
theorem finish_run (item : QueuedPayment ω) (now : Int) (t : σ) :
    (do
      queue.zoom (modify fun self =>
        { self with
          completed := self.completed ++
            [{ item with processingStartedAt := some now, completedAt := some now }] })
      queue.zoom (log now .completed item.paymentId) : Action σ Unit).run t
        = .ok () (queue.set ((queue.get t).finished item now) t) := by
  rw [run_bind_of_ok (queue.zoom_modify_run _ t), log, queue.zoom_modify_run, queue.set_set,
    queue.get_set]
  rfl

/-- One round of the loop is the work of the payment, and what follows if it
    returns. -/
theorem processItem_taken {item : QueuedPayment ω} {begun : PaymentQueue ω κ}
    (htaken : (queue.get s).taken = some (item, begun)) :
    (QueueWorker.processItem queue perform).run s =
      match (perform item.work).run (queue.set begun s) with
      | .ok _ t => .ok () (queue.set
          ((queue.get t).finished item (queue.get s).scheduler.clock.time) t)
      | .error e t => .error e t := by
  rcases taken_some htaken with ⟨waiting, hwaiting, rfl⟩
  have hpop : (queue.zoom popleft).run s = .ok item (queue.set { queue.get s with waiting } s) := by
    refine Component.zoom_run_ok ?_
    unfold popleft
    rw [run_bind_get, hwaiting]
    rfl
  unfold QueueWorker.processItem
  rw [run_bind_of_ok hpop, run_bind_get, queue.get_set]
  -- Logging the start leaves the queue as the work will find it.
  have hlog := Component.zoom_run_ok (p := queue) (s := queue.set { queue.get s with waiting } s)
    (m := log (queue.get s).scheduler.clock.time .processing item.paymentId) rfl
  rw [queue.set_set, queue.get_set] at hlog
  refine (run_bind_of_ok hlog).trans ?_
  rw [EStateM.run_bind]
  cases (perform item.work).run (queue.set { queue.get s with
      waiting
      events := (queue.get s).events ++ [⟨(queue.get s).scheduler.clock.time, .processing,
        item.paymentId, waiting.length⟩] } s) with
  | error e t => rfl
  | ok _ t => exact finish_run item (queue.get s).scheduler.clock.time t

/-- A round of the loop on an empty queue raises, and changes nothing. -/
theorem processItem_empty (hwaiting : (queue.get s).waiting = []) :
    (QueueWorker.processItem queue perform).run s
      = .error ⟨.indexError, "pop from an empty deque"⟩ s := by
  have hpop : (popleft : Action (PaymentQueue ω κ) _).run (queue.get s)
      = .error ⟨.indexError, "pop from an empty deque"⟩ (queue.get s) := by
    unfold popleft
    rw [run_bind_get, hwaiting]
    rfl
  unfold QueueWorker.processItem
  refine run_bind_of_error ?_
  rw [Component.zoom_run_error hpop, queue.set_get]

/-- The tick forgets itself, and settles the number of its rounds. -/
theorem processTick_start {tick : κ} {begun : PaymentQueue ω κ}
    (hbegun : begun = (queue.get s).ticking (queue.get s).scheduler) :
    (QueueWorker.processTick queue perform tick).run s = (do
      QueueWorker.processItems queue perform (min begun.worker.capacity begun.waiting.length)
      let self := queue.get (← get)
      if ¬ self.waiting.isEmpty then
        queue.zoom (QueueWorker.wake tick) : Action σ Unit).run (queue.set begun s) := by
  unfold QueueWorker.processTick
  rw [run_bind_of_ok (queue.zoom_modify_run _ s), run_bind_get, queue.get_set, hbegun]
  rfl

end Loop

/-! ### The books and the calendar of a queue -/

/-- The queue when `k` payments arrived and `c` are completed. -/
structure Books (arrivals : List (Arrival ω)) (k c : Nat) (awake : Bool)
    (queue : PaymentQueue ω κ) : Prop where
  completed_le : c ≤ k
  order : queue.nextOrder = k
  awake : queue.worker.tickScheduled = awake
  waiting : List.Forall₂ (Records arrivals) (List.range' c (k - c)) queue.waiting
  completed : List.Forall₂ (Records arrivals) (List.range c) queue.completed

variable {arrivals : List (Arrival ω)} {k c : Nat} {awake : Bool} {self : PaymentQueue ω κ}

namespace Books

theorem withScheduler (h : Books arrivals k c awake self) (scheduler : EventScheduler κ) :
    Books arrivals k c awake { self with scheduler } :=
  { h with }

theorem withWorker (h : Books arrivals k c awake self) (worker : QueueWorker) :
    Books arrivals k c worker.tickScheduled { self with worker } :=
  { h with awake := rfl }

theorem waiting_length (h : Books arrivals k c awake self) : self.waiting.length = k - c := by
  rw [← h.waiting.length_eq, List.length_range']

/-- One more payment arrives. -/
theorem arrive (h : Books arrivals k c awake self) {arrival : Arrival ω}
    (hget : arrivals[k]? = some arrival) (htime : self.scheduler.clock.time = arrival.time) :
    Books arrivals (k + 1) c awake
      (self.arrived arrival.paymentId arrival.paymentType arrival.work) where
  completed_le := Nat.le_succ_of_le h.completed_le
  order := congrArg (· + 1) h.order
  awake := h.awake
  waiting := by
    have hle := h.completed_le
    have hlength : k + 1 - c = (k - c) + 1 := by omega
    have hplace : c + (k - c) = k := by omega
    rw [hlength, List.range'_1_concat, hplace]
    refine List.rel_append h.waiting (List.Forall₂.cons ?_ .nil)
    exact ⟨arrival, hget, rfl, rfl, rfl, htime, h.order⟩
  completed := h.completed

/-- The payment that has waited longest is completed. -/
theorem complete (h : Books arrivals k c awake self) {item : QueuedPayment ω}
    {waiting : List (QueuedPayment ω)} (hwaiting : self.waiting = item :: waiting) (now : Int)
    (events : List QueueEvent) :
    Records arrivals c item ∧ Books arrivals k (c + 1) awake
      { self with
        waiting, events
        completed := self.completed ++
          [{ item with processingStartedAt := some now, completedAt := some now }] } := by
  have hlength := h.waiting_length
  rw [hwaiting, List.length_cons] at hlength
  have hrange : k - c = (k - (c + 1)) + 1 := by omega
  have hwait := h.waiting
  rw [hwaiting, hrange, List.range'_succ, List.forall₂_cons] at hwait
  refine ⟨hwait.1, by omega, h.order, h.awake, hwait.2, ?_⟩
  rw [List.range_succ]
  exact List.rel_append h.completed (List.Forall₂.cons hwait.1 .nil)

end Books

variable {ξ : Type}

/-- The callbacks that a queue and its arrivals schedule. -/
def ownCallback : QueueCallback ω ξ → Bool
  | .enqueue _ _ _ | .tick => true
  | .other _ => false

def arrivalCallback (arrival : Arrival ω) : QueueCallback ω ξ :=
  .enqueue arrival.paymentId arrival.paymentType arrival.work

/-- The scheduler holds the arrivals from a place on and the pending ticks, and
    arrivals go first among equals. -/
structure Calendar (arrivals : List (Arrival ω)) (j : Nat) (ticks : List Int)
    (scheduler : EventScheduler (QueueCallback ω ξ)) : Prop where
  orderly : scheduler.Orderly
  agenda : scheduler.agendaOf ownCallback = Timeline.merged Prod.fst
    (coming arrivalCallback arrivals j) (ticks.map fun time => (time, QueueCallback.tick))

/-- The first tick is the only one. -/
theorem Calendar.wake {j : Nat} {scheduler : EventScheduler (QueueCallback ω ξ)}
    (h : Calendar arrivals j [] scheduler) {time : Int} (htime : scheduler.clock.time ≤ time) :
    Calendar arrivals j [time] (scheduler.scheduled time .tick) where
  orderly := h.orderly.scheduled _ htime
  agenda := by
    rw [EventScheduler.agendaOf_scheduled h.orderly rfl, h.agenda]
    exact Timeline.orderedInsert_merged Prod.fst _ [] fun _ hmem =>
      absurd hmem List.not_mem_nil

/-! ### What a tick does -/

section Ticks

variable {queue : Component σ (PaymentQueue ω (QueueCallback ω ξ))} {perform : ω → Action σ Unit}
  {other : ξ → Action σ Unit} {I : Nat → Int → σ → Prop}

variable (arrivals queue I) in
/-- The world with `k` payments arrived and `c` completed, the worker awake or
    asleep, and with the given calendar. -/
structure Stands (j k c : Nat) (awake : Bool) (ticks : List Int) (s : σ) : Prop where
  books : Books arrivals k c awake (queue.get s)
  calendar : Calendar arrivals j ticks (queue.get s).scheduler
  arrivals_le : k ≤ arrivals.length
  rest : ∃ time, time ≤ timeOf queue schedulerOf s ∧ I c time s

variable {j : Nat} {ticks : List Int} {s : σ}

/-- Another queue in the same world. -/
theorem Stands.set (hI : Undisturbed queue schedulerOf ownCallback perform other arrivals I)
    (h : Stands arrivals queue I j k c awake ticks s) {j' k' : Nat} {awake' : Bool}
    {ticks' : List Int} {later : PaymentQueue ω (QueueCallback ω ξ)}
    (hbooks : Books arrivals k' c awake' later)
    (hcalendar : Calendar arrivals j' ticks' later.scheduler)
    (hk : k' ≤ arrivals.length) (htime : timeOf queue schedulerOf s ≤ later.scheduler.clock.time) :
    Stands arrivals queue I j' k' c awake' ticks' (queue.set later s) := by
  rcases h.rest with ⟨time, hle, hrest⟩
  refine ⟨?_, ?_, hk, time, ?_, hI.frame _ _ _ _ hrest⟩
  · rw [queue.get_set]
    exact hbooks
  · rw [queue.get_set]
    exact hcalendar
  · rw [timeOf_set]
    exact le_trans hle htime

/-- One round of the loop takes the payment that has waited longest through
    its work. -/
theorem processItem_run
    (hI : Undisturbed queue schedulerOf ownCallback perform other arrivals I)
    (h : Stands arrivals queue I j k c awake ticks s) (hlt : c < k) :
    ∃ t, (QueueWorker.processItem queue perform).run s = .ok () t ∧
      Stands arrivals queue I j k (c + 1) awake ticks t ∧
      timeOf queue schedulerOf t = timeOf queue schedulerOf s := by
  have hlength := h.books.waiting_length
  rcases List.exists_cons_of_length_pos (l := (queue.get s).waiting) (by omega) with
    ⟨item, waiting, hwaiting⟩
  rcases h.rest with ⟨time, htime, hrest⟩
  obtain ⟨now, hnow⟩ : ∃ now, now = (queue.get s).scheduler.clock.time := ⟨_, rfl⟩
  obtain ⟨begun, htaken⟩ : ∃ begun, (queue.get s).taken = some (item, begun) := by
    unfold taken
    rw [hwaiting]
    exact ⟨_, rfl⟩
  rcases taken_some htaken with ⟨waiting', hwaiting', hbegun⟩
  cases hwaiting.symm.trans hwaiting'
  -- It is the next of the arrivals, so its work is the next to be done.
  rcases h.books.complete hwaiting now begun.events with ⟨⟨arrival, hget, -, -, hwork, -⟩, -⟩
  have hclock : begun.scheduler = (queue.get s).scheduler := by rw [hbegun]
  have htime' : time ≤ timeOf queue schedulerOf (queue.set begun s) := by
    rw [timeOf_set]
    change time ≤ begun.scheduler.clock.time
    rw [hclock]
    exact htime
  rcases hI.work c arrival time (queue.set begun s) hget (hI.frame _ _ _ _ hrest) htime' with
    ⟨t, hperform, hdone, scheduler, hjoined, hsame⟩
  have hrun : (QueueWorker.processItem queue perform).run s = _ := processItem_taken htaken
  rw [hwork, hperform] at hrun
  rw [queue.get_set] at hjoined hsame
  change EventScheduler.Joined ownCallback begun.scheduler scheduler at hjoined
  rw [hclock] at hjoined
  rcases hjoined.keeps h.calendar.orderly with ⟨horderly, hsameclock, hagenda⟩
  have hlater : (queue.get t).scheduler = scheduler := by
    rw [hsame]
    rfl
  have hsametime : (queue.get t).scheduler.clock.time = timeOf queue schedulerOf s := by
    rw [hlater]
    exact congrArg VirtualClock.time hsameclock
  -- The work spared the queue, and the payment is completed at the same time.
  refine ⟨_, hrun, ⟨?_, ?_, h.arrivals_le, _, ?_, hI.frame _ _ _ _ hdone⟩, ?_⟩
  · rw [queue.get_set, ← hnow, hsame, hbegun]
    exact (h.books.complete hwaiting now _).2.withScheduler scheduler
  · rw [queue.get_set]
    change Calendar arrivals j ticks (queue.get t).scheduler
    rw [hlater]
    exact ⟨horderly, hagenda.trans h.calendar.agenda⟩
  · rw [timeOf_set, timeOf_set]
    change begun.scheduler.clock.time ≤ (queue.get t).scheduler.clock.time
    rw [hclock]
    exact hsametime.ge
  · rw [timeOf_set]
    exact hsametime

/-- So many rounds, if so many payments wait. -/
theorem processItems_run
    (hI : Undisturbed queue schedulerOf ownCallback perform other arrivals I) (rounds : Nat) :
    ∀ {c : Nat} {s : σ}, Stands arrivals queue I j k c awake ticks s → c + rounds ≤ k →
      ∃ t, (QueueWorker.processItems queue perform rounds).run s = .ok () t ∧
        Stands arrivals queue I j k (c + rounds) awake ticks t ∧
        timeOf queue schedulerOf t = timeOf queue schedulerOf s := by
  induction rounds with
  | zero => exact fun {c s} h _ => ⟨s, rfl, h, rfl⟩
  | succ rounds ih =>
      intro c s h hle
      rcases processItem_run hI h (by omega) with ⟨t, hfirst, ht, htime⟩
      rcases ih ht (by omega) with ⟨u, hrest, hu, htime'⟩
      refine ⟨u, (run_bind_of_ok hfirst).trans hrest, ?_, htime'.trans htime⟩
      rw [show c + (rounds + 1) = c + 1 + rounds by omega]
      exact hu

/-- A tick that has left the calendar completes some of what waits, and schedules
    the next tick if that was not all. -/
theorem processTick_run (hI : Undisturbed queue schedulerOf ownCallback perform other arrivals I)
    (h : Stands arrivals queue I j k c awake [] s) (hlt : c < k) :
    ∃ t done later, (QueueWorker.processTick queue perform .tick).run s = .ok () t ∧
      c < done ∧ Stands arrivals queue I j k done (decide (done < k)) later t ∧
      later.length = if done < k then 1 else 0 := by
  -- The worker first forgets its tick, which has just left the calendar.
  obtain ⟨asleep, hforgot⟩ : ∃ asleep,
      asleep = (queue.get s).ticking (queue.get s).scheduler := ⟨_, rfl⟩
  have hasleep : Stands arrivals queue I j k c false [] (queue.set asleep s) := by
    rw [hforgot]
    exact h.set hI (h.books.withWorker { (queue.get s).worker with tickScheduled := false })
      h.calendar h.arrivals_le (le_refl _)
  have hlength := hasleep.books.waiting_length
  rw [queue.get_set] at hlength
  have hcapacity := asleep.worker.capacity_pos
  have hstart : (QueueWorker.processTick queue perform .tick).run s = _ :=
    processTick_start hforgot
  -- The loop goes around at least once, and not more often than something waits.
  obtain ⟨rounds, hrounds⟩ : ∃ rounds,
      rounds = min asleep.worker.capacity asleep.waiting.length := ⟨_, rfl⟩
  rcases processItems_run hI rounds hasleep (by omega) with ⟨t, hloop, ht, -⟩
  rw [← hrounds, run_bind_of_ok hloop] at hstart
  have hwaits := ht.books.waiting_length
  rw [run_bind_get] at hstart
  by_cases hall : c + rounds < k
  · -- Something still waits, so the worker is woken again.
    have hsome : ¬ (queue.get t).waiting.isEmpty = true := by
      rw [List.isEmpty_iff_length_eq_zero]
      omega
    have hwake := Component.zoom_run_ok (p := queue) (s := t)
      (wake_asleep QueueCallback.tick ht.books.awake)
    rw [if_pos hsome] at hstart
    refine ⟨_, c + rounds, [(queue.get t).scheduler.clock.time + 1], hstart.trans hwake, by omega,
      ?_, by rw [if_pos hall]; rfl⟩
    rw [decide_eq_true hall]
    exact ht.set hI { ht.books with awake := rfl } (ht.calendar.wake (by omega)) ht.arrivals_le
      (le_refl _)
  · -- Everything that waited is completed, and no tick is pending.
    have hnone : (queue.get t).waiting.isEmpty = true := by
      rw [List.isEmpty_iff_length_eq_zero]
      omega
    rw [if_neg (not_not.mpr hnone)] at hstart
    refine ⟨t, c + rounds, [], hstart, by omega, ?_, by rw [if_neg hall]; rfl⟩
    rw [decide_eq_false hall]
    exact ht

end Ticks

/-! ### Runs of a queue -/

section Runs

variable {queue : Component σ (PaymentQueue ω (QueueCallback ω ξ))} {perform : ω → Action σ Unit}
  {other : ξ → Action σ Unit} {I : Nat → Int → σ → Prop}

variable (arrivals queue I) in
/-- The world between two events, when `k` payments arrived and `c` are
    completed. A tick is pending exactly if something waits. -/
def Progress (k c : Nat) (s : σ) : Prop :=
  ∃ ticks, Stands arrivals queue I k k c (decide (c < k)) ticks s ∧
    ticks.length = if c < k then 1 else 0

/-- Writing down that an event was executed changes nothing here. -/
theorem Progress.record {t : σ}
    (hI : Undisturbed queue schedulerOf ownCallback perform other arrivals I)
    (h : Progress arrivals queue I k c t) (history : List Execution) :
    Progress arrivals queue I k c ((queue.comp schedulerOf).set
      (((queue.comp schedulerOf).get t).withHistory history) t) := by
  rcases h with ⟨ticks, hstands, hticks⟩
  exact ⟨ticks, hstands.set hI (hstands.books.withScheduler _)
    ⟨hstands.calendar.orderly.withHistory history, hstands.calendar.agenda⟩ hstands.arrivals_le
    (le_refl _), hticks⟩

theorem call_other {ticks : List Int} {s : σ}
    (hI : Undisturbed queue schedulerOf ownCallback perform other arrivals I)
    (hstands : Stands arrivals queue I k k c (decide (c < k)) ticks s)
    (hticks : ticks.length = if c < k then 1 else 0) (callback : ξ) :
    ∃ t, (QueueCallback.call queue perform other (.other callback)).run s = .ok () t ∧
      Progress arrivals queue I k c t := by
  rcases hstands.rest with ⟨time, htime, hrest⟩
  rcases hI.other callback c time s hrest with ⟨t, hrun, hrest', scheduler, hjoined, hsame⟩
  rcases hjoined.keeps hstands.calendar.orderly with ⟨horderly, hclock, hagenda⟩
  refine ⟨t, hrun, ticks, ⟨?_, ?_, hstands.arrivals_le, time, ?_, hrest'⟩, hticks⟩
  · rw [hsame]
    exact hstands.books.withScheduler scheduler
  · rw [hsame]
    exact ⟨horderly, hagenda.trans hstands.calendar.agenda⟩
  · rw [timeOf_of_joined queue schedulerOf ownCallback hstands.calendar.orderly hjoined hsame]
    exact htime

theorem call_enqueue {ticks : List Int} {s : σ}
    (hI : Undisturbed queue schedulerOf ownCallback perform other arrivals I)
    (hstands : Stands arrivals queue I (k + 1) k c (decide (c < k)) ticks s)
    (hticks : ticks.length = if c < k then 1 else 0) {arrival : Arrival ω}
    (hget : arrivals[k]? = some arrival) (hid : isBlank arrival.paymentId = false)
    (hnow : timeOf queue schedulerOf s = arrival.time) :
    ∃ t, (QueueCallback.call queue perform other (arrivalCallback arrival)).run s = .ok () t ∧
      Progress arrivals queue I (k + 1) c t := by
  have hk := (List.getElem?_eq_some_iff.mp hget).1
  have hle := hstands.books.completed_le
  have hbooks := hstands.books.arrive hget hnow
  have hwaits : c < k + 1 := by omega
  by_cases hlt : c < k
  · -- Something waited, so a tick is pending already.
    have hrun : (PaymentQueue.enqueue QueueCallback.tick arrival.paymentId arrival.paymentType
        arrival.work).run (queue.get s) = .ok _ _ :=
      (enqueue_run _ hid _ _ _).trans (run_bind_of_ok (wake_awake QueueCallback.tick
        (hbooks.awake.trans (decide_eq_true hlt))))
    refine ⟨_, run_bind_of_ok (Component.zoom_run_ok hrun), ticks, ?_, ?_⟩
    · rw [decide_eq_true hlt] at hbooks
      rw [decide_eq_true hwaits]
      exact hstands.set hI hbooks hstands.calendar hk (le_refl _)
    · rw [hticks, if_pos hlt, if_pos hwaits]
  · -- Nothing waited, so the payment wakes the worker.
    have hasleep := hbooks.awake.trans (decide_eq_false hlt)
    have hrun : (PaymentQueue.enqueue QueueCallback.tick arrival.paymentId arrival.paymentType
        arrival.work).run (queue.get s) = .ok _ _ :=
      (enqueue_run _ hid _ _ _).trans (run_bind_of_ok (wake_asleep QueueCallback.tick hasleep))
    rw [if_neg hlt] at hticks
    rw [List.length_eq_zero_iff.mp hticks] at hstands
    refine ⟨_, run_bind_of_ok (Component.zoom_run_ok hrun),
      [(queue.get s).scheduler.clock.time + 1], ?_, by rw [if_pos hwaits]; rfl⟩
    rw [decide_eq_true hwaits]
    exact hstands.set hI { hbooks with awake := rfl } (hstands.calendar.wake (by omega)) hk
      (le_refl _)

/-- One event of a run: something else, an arrival or a tick. -/
theorem progress_step (hI : Undisturbed queue schedulerOf ownCallback perform other arrivals I)
    (hids : ∀ arrival ∈ arrivals, isBlank arrival.paymentId = false) {s : σ}
    (h : Progress arrivals queue I k c s) :
    ((queue.comp schedulerOf).get s).queue = [] ∨
      ∃ t, (EventScheduler.runNext (queue.comp schedulerOf)
          (QueueCallback.call queue perform other)).run s = .ok true t ∧
        ((Nonempty ξ ∧ Progress arrivals queue I k c t) ∨
          (k < arrivals.length ∧ Progress arrivals queue I (k + 1) c t) ∨
          ∃ done, c < done ∧ c < arrivals.length ∧ Progress arrivals queue I k done t) := by
  rcases h with ⟨ticks, hstands, hticks⟩
  rcases next_event (queue.comp schedulerOf) (QueueCallback.call queue perform other) ownCallback
    arrivalCallback (s := s) hstands.calendar.orderly hstands.calendar.agenda with
    hnil | ⟨head, ready, horderly, hdue, hrun, hevent⟩
  · exact Or.inl hnil
  · refine Or.inr ?_
    -- Taking an event off the calendar leaves the books as they were.
    have hready : ∀ j ticks', ready.agendaOf ownCallback = Timeline.merged Prod.fst
          (coming arrivalCallback arrivals j) (ticks'.map fun time => (time, QueueCallback.tick)) →
        Stands arrivals queue I j k c (decide (c < k)) ticks'
          ((queue.comp schedulerOf).set ready s) :=
      fun j ticks' hagenda => hstands.set hI (hstands.books.withScheduler ready)
        ⟨horderly, hagenda⟩ hstands.arrivals_le hdue
    rcases hevent with ⟨hkind, hagenda⟩ | ⟨arrival, hplace, hnow, rfl, hagenda⟩ |
      ⟨rest, hfirst, hagenda⟩
    · cases head with
      | enqueue paymentId paymentType work => cases hkind
      | tick => cases hkind
      | other callback =>
          rcases call_other hI (hready k ticks hagenda) hticks callback with ⟨t, hcall, hprogress⟩
          rcases hrun t hcall with ⟨history, hnext⟩
          exact ⟨_, hnext, Or.inl ⟨⟨callback⟩, hprogress.record hI history⟩⟩
    · rcases call_enqueue hI (hready (k + 1) ticks hagenda) hticks hplace
        (hids arrival (List.mem_of_getElem? hplace))
        ((timeOf_comp_set queue schedulerOf ready s).trans hnow) with ⟨t, hcall, hprogress⟩
      rcases hrun t hcall with ⟨history, hnext⟩
      exact ⟨_, hnext, Or.inr (Or.inl ⟨(List.getElem?_eq_some_iff.mp hplace).1,
        hprogress.record hI history⟩)⟩
    · rcases List.map_eq_cons_iff.mp hfirst with ⟨time, times, rfl, hitem, rfl⟩
      rw [Prod.mk.injEq] at hitem
      rcases hitem with ⟨-, rfl⟩
      have hwaits : c < k := by
        by_contra hnone
        rw [if_neg hnone] at hticks
        cases hticks
      rw [if_pos hwaits, List.length_cons] at hticks
      -- A tick is pending, and it is the only one.
      have hlast : times = [] := List.length_eq_zero_iff.mp (by omega)
      rw [hlast] at hagenda
      rcases processTick_run hI (hready k [] hagenda) hwaits with
        ⟨t, done, later, hcall, hdone, hlater, hticks'⟩
      rcases hrun t hcall with ⟨history, hnext⟩
      have harrivals := hstands.arrivals_le
      have hprogress : Progress arrivals queue I k done t := ⟨later, hlater, hticks'⟩
      exact ⟨_, hnext, Or.inr (Or.inr ⟨done, hdone, by omega, hprogress.record hI history⟩)⟩

theorem new_ok {scheduler : EventScheduler κ} {capacity : Int} {self : PaymentQueue ω κ}
    (h : PaymentQueue.new scheduler capacity = .ok self) :
    ∃ worker : QueueWorker, worker.tickScheduled = false ∧
      self = ⟨scheduler, [], [], [], 0, 0, worker⟩ := by
  unfold PaymentQueue.new QueueWorker.new at h
  by_cases hcapacity : capacity ≤ 0
  · rw [dif_pos hcapacity] at h
    cases h
  · rw [dif_neg hcapacity] at h
    cases h
    exact ⟨_, rfl, rfl⟩

theorem new_of_pos (ω κ : Type) (scheduler : EventScheduler κ) {capacity : Int}
    (h : 0 < capacity) :
    ∃ self : PaymentQueue ω κ, PaymentQueue.new scheduler capacity = .ok self := by
  unfold PaymentQueue.new QueueWorker.new
  rw [dif_neg (by omega)]
  exact ⟨_, rfl⟩

/-- A fresh queue with its arrivals scheduled. -/
theorem progress_new (clock : VirtualClock) {rows : List (Arrival ω)}
    (hI : Undisturbed queue schedulerOf ownCallback perform other (sortedBy (·.time) rows) I)
    (htimes : ∀ row ∈ rows, clock.time ≤ row.time) {capacity : Int} {s : σ}
    (hqueue : PaymentQueue.new (EventScheduler.new clock) capacity = .ok (queue.get s))
    (hrest : I 0 clock.time s) :
    ∃ received, ((queue.comp schedulerOf).zoom (scheduleArrivals arrivalCallback rows)).run s
        = .ok () received ∧
      Progress (sortedBy (·.time) rows) queue I 0 0 received := by
  rcases scheduleArrivals_run (arrivalCallback : Arrival ω → QueueCallback ω ξ) ownCallback
    (fun _ => rfl) clock htimes with ⟨later, hrun, horderly, hclock, hagenda⟩
  rcases new_ok hqueue with ⟨worker, hasleep, hnew⟩
  have hget : (queue.comp schedulerOf).get s = EventScheduler.new clock := by
    change (queue.get s).scheduler = _
    rw [hnew]
  refine ⟨(queue.comp schedulerOf).set later s, Component.zoom_run_ok (by rw [hget]; exact hrun),
    [], ⟨?_, ?_, Nat.zero_le _, clock.time, ?_, hI.frame _ _ _ _ hrest⟩, rfl⟩
  · rw [queue.get_comp_set, hnew]
    exact ⟨le_refl 0, rfl, hasleep, .nil, .nil⟩
  · rw [queue.get_comp_set]
    exact ⟨horderly, hagenda.trans (Timeline.merged_nil Prod.fst _).symm⟩
  · rw [timeOf_comp_set]
    exact (congrArg VirtualClock.time hclock).ge

variable (arrivals queue I) in
/-- The world when every payment is completed, in the order of arrival. -/
def Done (s : σ) : Prop :=
  List.Forall₂ (Records arrivals) (List.range arrivals.length) (queue.get s).completed ∧
    ∃ time, I arrivals.length time s

/-- When nothing is left to do, everything is done. -/
theorem Progress.done {s : σ} (h : Progress arrivals queue I k c s)
    (hqueue : ((queue.comp schedulerOf).get s).queue = []) : Done arrivals queue I s := by
  rcases h with ⟨ticks, hstands, hticks⟩
  have hempty : (queue.get s).scheduler.agendaOf ownCallback = [] :=
    EventScheduler.agendaOf_nil hqueue ownCallback
  rcases Timeline.merged_eq_nil Prod.fst (hstands.calendar.agenda.symm.trans hempty) with
    ⟨hcoming, hnone⟩
  have harrived := coming_eq_nil hcoming
  have harrivals := hstands.arrivals_le
  have hle := hstands.books.completed_le
  -- No tick is pending, so nothing waits.
  have hwaits : ¬ c < k := by
    intro hlt
    rw [if_pos hlt, List.map_eq_nil_iff.mp hnone] at hticks
    cases hticks
  have hall : c = arrivals.length := by omega
  rcases hstands.rest with ⟨time, -, hrest⟩
  refine ⟨?_, time, ?_⟩
  · rw [← hall]
    exact hstands.books.completed
  · rw [← hall]
    exact hrest

/-- A run does not raise, and when it ends, everything is done. Where nothing
    else is ever scheduled, it does end. -/
theorem queue_run (hI : Undisturbed queue schedulerOf ownCallback perform other arrivals I)
    (hids : ∀ arrival ∈ arrivals, isBlank arrival.paymentId = false) {s : σ}
    (h : Progress arrivals queue I 0 0 s) :
    RunsTo (queue.comp schedulerOf) (QueueCallback.call queue perform other) (IsEmpty ξ)
      (Done arrivals queue I) s :=
  runsTo_of_events _ _ (P := Progress arrivals queue I) arrivals.length
    (fun _ _ _ hs => progress_step hI hids hs)
    (fun _ _ _ hs => hs.done) h

end Runs

end PaymentQueue

end BankSim
