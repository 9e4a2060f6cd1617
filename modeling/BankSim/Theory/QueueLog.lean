import BankSim.Library.Desk
import BankSim.Theory.QueueCapacity

/-!
# What the Log of a Payment Queue Tells

The queue writes down every arrival, every start and every completion. Read as the
log of a desk, these events are enough to know the queue: who waits and in which
place, who was completed and when, how many arrived and how deep the queue was, and
with that the statistics.

This holds in every run, also where works raise, where they enqueue payments in the
middle of a tick, and where they move the clock. A work that raises takes its
payment out of the queue for good, and nothing but the log knows of it afterwards:
it is the one that was called and not served.

## Main definitions

* `QueuedPayment.ticket`, `QueueEvent.note`: A payment and an event of a desk.
* `PaymentQueue.Told`: A book tells what the queue is.
* `queueStatistics`: The statistics, from a book.

## Theorems

* `Told.arrived`, `Told.taken`, `Told.finished`: What is written is what happens.
* `logged_processItem`, `logged_processTick`: A round and a tick, whatever the works do.
* `logged_step`: A step of a run.
* `queueLog_tells`: The log of every run tells the queue.
-/

namespace BankSim

open Exec

/-- A payment as a customer of the queue. -/
def QueuedPayment.ticket {ω : Type} (item : QueuedPayment ω) : Desk.Ticket String where
  name := item.paymentId
  position := item.queuePosition
  order := item.arrivalOrder
  arrivedAt := item.queuedAt
  calledAt := item.processingStartedAt
  servedAt := item.completedAt

/-- There is one worker, and it takes one payment after the other. -/
def QueueEvent.note (event : QueueEvent) : Desk.Note String Unit :=
  match event.action with
  | .arrived => .arrived event.time event.paymentId event.queueSize
  | .processing => .called event.time event.paymentId () event.queueSize
  | .completed => .served event.time event.paymentId () event.queueSize

/-- The statistics of a queue, from what its log tells. -/
def queueStatistics (book : Desk.Book String Unit) : QueueStatistics :=
  let waits := book.served.filterMap (·.2.wait)
  { totalProcessed := waits.length
    averageWait := if waits.length ≠ 0 then waits.sum.fdiv waits.length else 0
    longestWait := waits.max?.getD 0
    maximumQueueDepth := book.deepest
    remainingQueuedItems := book.waiting.length }

namespace PaymentQueue

variable {ω ξ κ σ : Type}

/-- The events of the queue were read, and the book tells what the queue is. -/
structure Told (start : Int) (book : Desk.Book String Unit) (queue : PaymentQueue ω κ) : Prop where
  events : Desk.read (Desk.Book.empty start) (queue.events.map QueueEvent.note) = some book
  waiting : book.waiting = queue.waiting.map QueuedPayment.ticket
  completed : book.served.map (·.2) = queue.completed.map QueuedPayment.ticket
  arrivals : book.arrivals = queue.nextOrder
  deepest : book.deepest = queue.maximumDepth

variable {start : Int} {book : Desk.Book String Unit} {self : PaymentQueue ω κ}

/-- The scheduler and the worker are not written about. -/
theorem Told.withScheduler (h : Told start book self) (scheduler : EventScheduler κ) :
    Told start book { self with scheduler } :=
  ⟨h.events, h.waiting, h.completed, h.arrivals, h.deepest⟩

theorem Told.withWorker (h : Told start book self) (worker : QueueWorker) :
    Told start book { self with worker } :=
  ⟨h.events, h.waiting, h.completed, h.arrivals, h.deepest⟩

theorem Told.awoken (h : Told start book self) (tick : κ) : Told start book (self.awoken tick) := by
  unfold PaymentQueue.awoken
  by_cases hawake : self.worker.tickScheduled = true
  · rw [if_pos hawake]
    exact h
  · rw [if_neg hawake]
    exact (h.withWorker { self.worker with tickScheduled := true }).withScheduler _

theorem told_new (clock : VirtualClock) {capacity : Int} {self : PaymentQueue ω κ}
    (hnew : PaymentQueue.new (EventScheduler.new clock) capacity = .ok self) :
    Told start (Desk.Book.empty start) self := by
  rcases new_ok hnew with ⟨worker, -, rfl⟩
  exact ⟨rfl, rfl, rfl, rfl, rfl⟩

theorem Told.length_waiting (h : Told start book self) :
    book.waiting.length = self.waiting.length := by
  rw [h.waiting, List.length_map]

/-! ### What is written is what happens -/

/-- A payment arrives. -/
theorem Told.arrived (h : Told start book self) (paymentId : String) (paymentType : PaymentType)
    (work : ω) : Told start (book.arrive self.scheduler.clock.time paymentId)
      (self.arrived paymentId paymentType work) where
  events := by
    have hnote := Desk.read_concat _ h.events
      (QueueEvent.note ⟨self.scheduler.clock.time, .arrived, paymentId, self.waiting.length + 1⟩)
    rw [← h.length_waiting] at hnote
    simp only [PaymentQueue.arrived, List.map_append, List.map_cons, List.map_nil,
      List.length_append, List.length_singleton, ← h.length_waiting]
    exact hnote.trans (Desk.Book.note_arrived _ _)
  waiting := by
    simp only [PaymentQueue.arrived, Desk.Book.arrive, List.map_append, h.waiting, h.arrivals,
      List.length_map]
    rfl
  completed := h.completed
  arrivals := congrArg (· + 1) h.arrivals
  deepest := by
    simp only [PaymentQueue.arrived, Desk.Book.arrive, h.length_waiting, h.deepest]

/-- The payment that waited longest is taken out of the queue. -/
theorem Told.taken (h : Told start book self) {item : QueuedPayment ω}
    {begun : PaymentQueue ω κ} (htaken : self.taken = some (item, begun)) :
    Told start (book.call self.scheduler.clock.time item.ticket ()
      (begun.waiting.map QueuedPayment.ticket)) begun := by
  rcases taken_some htaken with ⟨waiting, hwaiting, rfl⟩
  have hline : book.waiting = item.ticket :: waiting.map QueuedPayment.ticket := by
    rw [h.waiting, hwaiting, List.map_cons]
  refine ⟨?_, rfl, h.completed, h.arrivals, h.deepest⟩
  have hnote := Desk.read_concat _ h.events
    (QueueEvent.note ⟨self.scheduler.clock.time, .processing, item.paymentId, waiting.length⟩)
  simp only [List.map_append, List.map_cons, List.map_nil]
  refine hnote.trans ?_
  have hcalled := Desk.Book.note_called hline self.scheduler.clock.time ()
  rw [List.length_map] at hcalled
  exact hcalled

/-- Its work returned, and it is completed at the time at which it was taken. -/
theorem Told.finished (h : Told start book self) {item : QueuedPayment ω} {now : Int}
    (hdesk : book.atDesk () = [{ item.ticket with calledAt := some now }]) :
    Told start (book.serve now { item.ticket with calledAt := some now } ())
      (self.finished item now) where
  events := by
    have hnote := Desk.read_concat _ h.events
      (QueueEvent.note ⟨now, .completed, item.paymentId, self.waiting.length⟩)
    simp only [PaymentQueue.finished, List.map_append, List.map_cons, List.map_nil]
    refine hnote.trans ?_
    rw [← h.length_waiting]
    exact Desk.Book.note_served hdesk now
  waiting := h.waiting
  completed := by
    simp only [PaymentQueue.finished, Desk.Book.serve, List.map_append, h.completed]
    rfl
  arrivals := h.arrivals
  deepest := h.deepest

/-- The statistics are what the book says. -/
theorem Told.statistics (h : Told start book self) : self.statistics = queueStatistics book := by
  have hwaits : (self.completed.map (·.waitDuration)).filterMap id
      = book.served.filterMap (·.2.wait) := by
    rw [List.filterMap_map]
    calc self.completed.filterMap (id ∘ (·.waitDuration))
        = (self.completed.map QueuedPayment.ticket).filterMap Desk.Ticket.wait := by
          rw [List.filterMap_map]
          rfl
      _ = book.served.filterMap (·.2.wait) := by
          rw [← h.completed, List.filterMap_map]
          rfl
  unfold PaymentQueue.statistics queueStatistics
  simp only [hwaits, h.deepest, h.length_waiting]

/-! ### Runs -/

/-- A use writes of an arrival or of nothing, and calls nobody. -/
theorem Told.use {self : PaymentQueue ω (QueueCallback ω ξ)} (h : Told start book self)
    (how : Use ω ξ) :
    ∃ later, Told start later (after how.exec self) ∧ later.called = book.called := by
  cases how with
  | enqueue paymentId paymentType work accepted =>
      rw [Use.exec, after_discard]
      cases accepted with
      | false =>
          have hrejected : after (PaymentQueue.enqueue QueueCallback.tick paymentId paymentType work
            false) self = self := after_of_ok rfl
          rw [hrejected]
          exact ⟨book, h, rfl⟩
      | true =>
          by_cases hid : isBlank paymentId = true
          · rw [after_of_error (enqueue_of_blank _ hid paymentType work self)]
            exact ⟨book, h, rfl⟩
          · rw [after_of_ok (enqueue_of_nonblank _ (by simpa using hid) paymentType work self)]
            -- The tick that an arrival asks for is not written about.
            exact ⟨_, (h.arrived paymentId paymentType work).awoken _, rfl⟩
  | scheduleAt time callback =>
      rw [Use.exec, Component.after_zoom]
      exact ⟨book, h.withScheduler _, rfl⟩
  | scheduleAfter delay callback =>
      rw [Use.exec, Component.after_zoom]
      exact ⟨book, h.withScheduler _, rfl⟩
  | advanceTo newTime =>
      rw [Use.exec, after_discard, Component.after_zoom]
      exact ⟨book, h.withScheduler _, rfl⟩
  | advanceBy amount =>
      rw [Use.exec, after_discard, Component.after_zoom]
      exact ⟨book, h.withScheduler _, rfl⟩

section Runs

variable {queue : Component σ (PaymentQueue ω (QueueCallback ω ξ))} {perform : ω → Action σ Unit}
  {other : ξ → Action σ Unit}

variable (queue start) in
/-- Some book tells what the queue is. -/
def Logged (s : σ) : Prop :=
  ∃ book, Told start book (queue.get s)

theorem Logged.set {s : σ} {self : PaymentQueue ω (QueueCallback ω ξ)}
    (h : Told start book self) : Logged start queue (queue.set self s) :=
  ⟨book, by rw [queue.get_set]; exact h⟩

theorem logged_scheduler (scheduler : EventScheduler (QueueCallback ω ξ)) (s : σ) :
    Keeps (Logged start queue) s ((queue.comp schedulerOf).set scheduler s) := by
  rintro ⟨book, h⟩
  exact Logged.set (h.withScheduler scheduler)

theorem logged_use {m : Action σ Unit} (hm : OnlyMakes queue Use.exec (fun _ => True) m) :
    Within (Keeps (Logged start queue)) m := by
  intro s hs
  exact hm.keeps (I := fun self => ∃ book, Told start book self) (fun self how hself _ => by
    rcases hself with ⟨book, h⟩
    rcases h.use how with ⟨later, hlater, -⟩
    exact ⟨later, hlater⟩) hs

theorem logged_wake :
    Within (Keeps (Logged start queue)) (queue.zoom (QueueWorker.wake .tick)) := by
  rintro s ⟨book, h⟩
  rw [Component.after_zoom, after_of_ok (wake_run _ _)]
  exact Logged.set (h.awoken _)

variable (hperform : ∀ work, OnlyMakes queue Use.exec (fun _ => True) (perform work))

include hperform

/-- One round of the loop: nothing waits, or the payment is completed, or its work
    raises. -/
theorem logged_processItem :
    Within (Keeps (Logged start queue)) (QueueWorker.processItem queue perform) := by
  rintro s ⟨book, h⟩
  cases htaken : (queue.get s).taken with
  | none =>
      have hempty := taken_none htaken
      have hpop : (queue.zoom popleft).run s
          = .error ⟨.indexError, "pop from an empty deque"⟩ s := by
        rw [Component.zoom_run, popleft, run_bind_get, hempty]
        exact congrArg (EStateM.Result.error _) (queue.set_get s)
      rw [QueueWorker.processItem, after_bind_error hpop]
      exact ⟨book, h⟩
  | some taking =>
      rcases taking with ⟨item, begun⟩
      have hrun : (QueueWorker.processItem queue perform).run s = _ := processItem_taken htaken
      have hbegun := h.taken htaken
      -- Whatever the work enqueues, its payment stays where it was called to.
      have hworked := (hperform item.work).keeps
        (I := fun self => ∃ later, Told start later self ∧
          later.atDesk () = [{ item.ticket with
            calledAt := some (queue.get s).scheduler.clock.time }])
        (fun self how hself _ => by
          rcases hself with ⟨later, hlater, hdesk⟩
          rcases hlater.use how with ⟨next, hnext, hcalled⟩
          refine ⟨next, hnext, ?_⟩
          unfold Desk.Book.atDesk at hdesk ⊢
          rw [hcalled]
          exact hdesk)
        (s := queue.set begun s)
        (by
          rw [queue.get_set]
          exact ⟨_, hbegun, by rw [Desk.Book.atDesk_call, if_pos rfl]⟩)
      cases hwork : (perform item.work).run (queue.set begun s) with
      | ok value t =>
          rw [hwork] at hrun
          rw [after_of_ok hwork] at hworked
          rcases hworked with ⟨later, hlater, hdesk⟩
          rw [after_of_ok hrun]
          exact Logged.set (hlater.finished hdesk)
      | error e t =>
          rw [hwork] at hrun
          rw [after_of_error hwork] at hworked
          rcases hworked with ⟨later, hlater, -⟩
          rw [after_of_error hrun]
          exact ⟨later, hlater⟩

theorem logged_processItems (rounds : Nat) :
    Within (Keeps (Logged start queue)) (QueueWorker.processItems queue perform rounds) := by
  induction rounds with
  | zero => exact within_pure ()
  | succ rounds ih => exact within_bind (logged_processItem hperform) fun _ => ih

theorem logged_processTick :
    Within (Keeps (Logged start queue)) (QueueWorker.processTick queue perform .tick) := by
  unfold QueueWorker.processTick
  refine within_bind ?_ fun _ => within_bind within_get fun s => ?_
  · rintro s ⟨book, h⟩
    rw [Component.after_zoom]
    exact Logged.set (h.withWorker _)
  refine within_bind (logged_processItems hperform _) fun _ => within_bind within_get fun s => ?_
  by_cases hempty : (queue.get s).waiting.isEmpty = true
  · rw [if_neg (by simp [hempty])]
    exact within_pure ()
  · rw [if_pos hempty]
    exact logged_wake

variable (hother : ∀ callback, OnlyMakes queue Use.exec (fun _ => True) (other callback))

include hother

/-- A step of a run. -/
theorem logged_step (step : Step ω ξ) :
    Within (Keeps (Logged start queue)) (step.exec queue perform other) := by
  cases step with
  | use how =>
      rintro s ⟨book, h⟩
      rcases h.use how with ⟨later, hlater, -⟩
      rw [Step.exec, Component.after_zoom]
      exact Logged.set hlater
  | runNext =>
      intro s
      rw [Step.exec, after_discard]
      refine EventScheduler.runNext_related _ _ (R := Keeps (Logged start queue))
        logged_scheduler fun event rest clock _ _ _ => ?_
      cases hkind : event.callback.isTick with
      | true =>
          rw [QueueCallback.eq_tick hkind]
          exact logged_processTick hperform _
      | false =>
          exact logged_use (onlyMakes_call hother (fun _ _ _ => trivial) hkind) _

end Runs

/-- In every state of every run, whatever the works do, reading the events of the
    queue gives who waits, who was completed and when, how many arrived, the depth
    and the statistics. Everyone who arrived is told of once: as completed, as
    waiting, or as gone without being completed. -/
theorem queueLog_tells (queue : Component σ (PaymentQueue ω (QueueCallback ω ξ)))
    (perform : ω → Action σ Unit) (other : ξ → Action σ Unit)
    (hperform : ∀ work, OnlyMakes queue Use.exec (fun _ => True) (perform work))
    (hother : ∀ callback, OnlyMakes queue Use.exec (fun _ => True) (other callback))
    (clock : VirtualClock) (capacity : Int) (s : σ)
    (hnew : PaymentQueue.new (EventScheduler.new clock) capacity = .ok (queue.get s))
    (steps : List (Step ω ξ)) :
    AllStates (Step.exec queue perform other)
      (fun t => ∃ book, Told clock.time book (queue.get t) ∧
        (queue.get t).statistics = queueStatistics book ∧ book.Accounted) s steps := by
  have hlogged : AllStates (Step.exec queue perform other) (Logged clock.time queue) s steps :=
    allStates_of_allSteps (C := fun _ _ => True)
      (fun t step ht _ => logged_step hperform hother step t ht) ⟨_, told_new clock hnew⟩
      (allSteps_of_forall fun _ _ _ => trivial)
  refine allStates_mono ?_ hlogged
  rintro t ⟨book, h⟩
  exact ⟨book, h, h.statistics,
    Desk.read_accounted (Desk.Book.accounted_empty clock.time) h.events⟩

/-- The work of the first payment raises. -/
theorem queueLog_tells_faulty :
    AllStates (Step.exec Component.whole faultyWork Empty.elim)
      (fun t => ∃ book, Told 0 book t ∧ t.statistics = queueStatistics book ∧ book.Accounted)
      (oneAMinute Bool Empty) faultyRun :=
  queueLog_tells Component.whole faultyWork Empty.elim
    (fun work _ => ⟨[], fun how hmem => absurd hmem List.not_mem_nil, by cases work <;> rfl⟩)
    (fun callback => callback.elim) ⟨0, by decide⟩ 1 (oneAMinute Bool Empty) rfl faultyRun

/-- The log knows of it, though the queue does not. -/
example : ((Desk.read (Desk.Book.empty 0)
      ((finalState (Step.exec Component.whole faultyWork Empty.elim) (oneAMinute Bool Empty)
        faultyRun).events.map QueueEvent.note)).map fun book =>
          (book.called.map (·.2.name), book.waiting.map (·.name)))
    = some (["PAY-1"], ["PAY-2"]) := by
  decide

end PaymentQueue

end BankSim
