import BankSim.Theory.PoolLaw
import BankSim.Theory.QueueLog

/-!
# What the Log of a Worker Pool Tells

The pool writes down every arrival, every assignment with the name of the worker,
and every completion. Read as the log of a service with a desk for each worker,
these events are enough to know the pool: who waits, which payment each worker is
busy with, who was completed and when, and what is measured on the way, which is the
area under the depth of the queue and how many payments each worker completed. With
these the log gives the metrics and the statistics of the workers.

A pool loses nothing. A work that raises leaves its payment with its worker, and so
does the log.

## Main definitions

* `CapacityEvent.note`: An event as a note, where the workers are the desks.
* `WorkerPool.Told`: A book tells what the pool is.
* `poolMetrics`, `poolStatistics`: What is measured, from a book.

## Theorems

* `Told.arrived`, `Told.assigned`, `Told.freed`: What is written is what happens.
* `told_dispatch`: A dispatch, whoever is idle.
* `logged_complete`: A completion, whatever its work does.
* `logged_step`: A step of a run.
* `poolLog_tells`: The log of every run tells the pool.
-/

namespace BankSim

open Exec

/-- An arrival is of no worker, and all else is of the one that is named. -/
def CapacityEvent.note (event : CapacityEvent) : Desk.Note String (Option String) :=
  match event.action with
  | .arrived => .arrived event.time event.paymentId event.queueDepth
  | .assigned => .called event.time event.paymentId event.workerId event.queueDepth
  | .completed => .served event.time event.paymentId event.workerId event.queueDepth

/-- The metrics of a pool, from what its log tells. -/
def poolMetrics (book : Desk.Book String (Option String)) : ThroughputMetrics :=
  let finish := WorkerPool.largest (book.served.map fun entry => entry.2.servedAt.getD 0)
  let elapsed := finish - book.opened.getD 0
  let waits := book.served.map fun entry => entry.2.wait.getD 0
  let count := book.served.length
  { totalCompletionTime := elapsed
    averageWait := if count ≠ 0 then waits.sum.fdiv count else 0
    maximumWait := WorkerPool.largest waits
    averageQueueDepthHundredths := if elapsed ≠ 0 then (book.waited * 100).fdiv elapsed else 0
    maximumQueueDepth := book.deepest
    paymentsProcessed := count
    throughputHundredths := if elapsed ≠ 0 then (count * 100 : Int).fdiv elapsed else 0 }

/-- The name of the worker in a place. -/
def workerName (number : Nat) : String :=
  s!"worker-{number + 1}"

/-- The statistics of the workers, from the book and the configuration. -/
def poolStatistics (configuration : CapacityConfiguration)
    (book : Desk.Book String (Option String)) : List WorkerStatistics :=
  let elapsed := (poolMetrics book).totalCompletionTime
  (List.range configuration.workerCount).map fun number =>
    let completed := book.servings (some (workerName number))
    let busy := completed * configuration.processingTime
    { workerId := workerName number
      paymentsCompleted := completed
      totalBusyTime := busy
      utilizationPercentage := if elapsed ≠ 0 then (busy * 100).fdiv elapsed else 0 }

theorem workerName_injective {number other : Nat} (h : workerName number = workerName other) :
    number = other := by
  have hlists := congrArg String.toList h
  simp only [workerName, toString, String.toList_append] at hlists
  have hdigits : Nat.toDigits 10 (number + 1) = Nat.toDigits 10 (other + 1) := by
    simpa using hlists
  have hvalues := congrArg (fun digits => Nat.ofDigitChars 10 digits 0) hdigits
  simp only [Nat.ofDigitChars_ten_toDigits] at hvalues
  omega

namespace WorkerPool

variable {ω ξ κ σ : Type}

/-- The events of the pool were read, and the book tells what the pool is. -/
structure Told (configuration : CapacityConfiguration) (start : Int)
    (book : Desk.Book String (Option String)) (pool : WorkerPool ω κ) : Prop where
  events : Desk.read (Desk.Book.empty start) (pool.events.map CapacityEvent.note) = some book
  waiting : book.waiting = pool.waiting.map QueuedPayment.ticket
  completed : book.served.map (·.2) = pool.completed.map QueuedPayment.ticket
  busy : ∀ number, book.atDesk (some (workerName number))
    = ((pool.currentPayment number).map QueuedPayment.ticket).toList
  lost : book.lost = []
  arrivals : book.arrivals = pool.arrivalOrder
  deepest : book.deepest = pool.maximumDepth
  area : book.waited = pool.depthArea ∧ book.since = pool.depthLastChanged
  opened : book.opened = pool.firstArrival
  configured : pool.configuration = configuration
  size : pool.workers.length = configuration.workerCount
  staff : ∀ number worker, pool.workers[number]? = some worker →
    worker.workerId = workerName number ∧
      worker.paymentsCompleted = book.servings (some (workerName number)) ∧
      worker.totalBusyTime = worker.paymentsCompleted * configuration.processingTime

variable {configuration : CapacityConfiguration} {start : Int}
  {book : Desk.Book String (Option String)} {self : WorkerPool ω κ}

/-- The scheduler is not written about. -/
theorem Told.withScheduler (h : Told configuration start book self)
    (scheduler : EventScheduler κ) : Told configuration start book { self with scheduler } :=
  ⟨h.events, h.waiting, h.completed, h.busy, h.lost, h.arrivals, h.deepest, h.area, h.opened,
    h.configured, h.size, h.staff⟩

theorem told_new (configuration : CapacityConfiguration) (clock : VirtualClock) :
    Told configuration clock.time (Desk.Book.empty clock.time)
      (WorkerPool.new (EventScheduler.new clock) configuration : WorkerPool ω κ) := by
  have hworker : ∀ number worker, (WorkerPool.new (EventScheduler.new clock) configuration
      : WorkerPool ω κ).workers[number]? = some worker →
        worker = ({ workerId := workerName number } : PaymentWorker ω) := by
    intro number worker hget
    simp only [WorkerPool.new, List.getElem?_map] at hget
    rcases Option.map_eq_some_iff.mp hget with ⟨place, hplace, rfl⟩
    rw [(List.getElem?_eq_some_iff.mp hplace).2.symm.trans (List.getElem_range _)]
    rfl
  refine ⟨rfl, rfl, rfl, fun number => ?_, rfl, rfl, rfl, ⟨rfl, rfl⟩, rfl, rfl, ?_, ?_⟩
  · unfold currentPayment
    cases hget : (WorkerPool.new (EventScheduler.new clock) configuration
      : WorkerPool ω κ).workers[number]? with
    | none => rfl
    | some worker =>
        rw [hworker number worker hget]
        rfl
  · simp [WorkerPool.new]
  · intro number worker hget
    rw [hworker number worker hget]
    exact ⟨rfl, rfl, by simp⟩

theorem Told.length_waiting (h : Told configuration start book self) :
    book.waiting.length = self.waiting.length := by
  rw [h.waiting, List.length_map]

/-- The worker in a place is named after it. -/
theorem Told.workerId (h : Told configuration start book self) {number : Nat}
    (hnumber : number < self.workers.length) : self.workerId number = some (workerName number) := by
  unfold WorkerPool.workerId
  rw [List.getElem?_eq_getElem hnumber, Option.map_some]
  exact congrArg some (h.staff number _ (List.getElem?_eq_getElem hnumber)).1

/-- A change of a worker that keeps its name keeps all names. -/
theorem workerId_onWorker (self : WorkerPool ω κ) (number : Nat)
    {change : PaymentWorker ω → PaymentWorker ω}
    (hchange : ∀ worker, (change worker).workerId = worker.workerId) (other : Nat) :
    (self.onWorker number change).workerId other = self.workerId other := by
  unfold WorkerPool.workerId onWorker
  simp only [List.getElem?_modify, Option.map_eq_map, Option.map_map]
  refine congrArg (fun name => self.workers[other]?.map name) (funext fun worker => ?_)
  by_cases hsame : number = other
  · simp [hsame, hchange]
  · simp [hsame]

/-! ### What is written is what happens -/

/-- A payment arrives. -/
theorem Told.arrived (h : Told configuration start book self) (paymentId : String)
    (paymentType : PaymentType) (work : ω) :
    Told configuration start (book.arrive self.scheduler.clock.time paymentId)
      (self.arrived paymentId paymentType work) where
  events := by
    have hnote := Desk.read_concat _ h.events (CapacityEvent.note
      ⟨self.scheduler.clock.time, .arrived, paymentId, none, self.waiting.length + 1⟩)
    rw [← h.length_waiting] at hnote
    simp only [WorkerPool.arrived, logged, recorded, List.map_append, List.map_cons, List.map_nil,
      List.length_append, List.length_singleton, ← h.length_waiting]
    exact hnote.trans (Desk.Book.note_arrived _ _)
  waiting := by
    simp only [WorkerPool.arrived, logged, Desk.Book.arrive, List.map_append, h.waiting,
      h.arrivals, List.length_map]
    rfl
  completed := h.completed
  busy := h.busy
  lost := h.lost
  arrivals := congrArg (· + 1) h.arrivals
  deepest := by
    simp only [WorkerPool.arrived, logged, Desk.Book.arrive, h.length_waiting, h.deepest]
  area := by
    simp only [WorkerPool.arrived, logged, recorded, Desk.Book.arrive, Desk.Book.passed,
      h.length_waiting, h.area.1, h.area.2, and_self]
  opened := by
    change some (book.opened.getD _) = some (self.firstArrival.getD _)
    rw [h.opened]
  configured := h.configured
  size := h.size
  staff := h.staff

/-- An idle worker takes the payment that waited longest. -/
theorem Told.assigned (h : Told configuration start book self) (finish : Nat → κ) {number : Nat}
    (hnumber : number < self.workers.length) (hidle : self.isBusy number = false)
    {item : QueuedPayment ω} {waiting : List (QueuedPayment ω)}
    (hwaiting : self.waiting = item :: waiting) :
    Told configuration start (book.call self.scheduler.clock.time item.ticket
      (some (workerName number)) (waiting.map QueuedPayment.ticket))
      (self.assigned finish number item waiting) := by
  have hline : book.waiting = item.ticket :: waiting.map QueuedPayment.ticket := by
    rw [h.waiting, hwaiting, List.map_cons]
  have hcurrent : self.currentPayment number = none := by
    simpa [isBusy] using hidle
  -- The desk is empty, so the log loses nobody when the payment is called to it.
  have hdesk : book.atDesk (some (workerName number)) = [] := by
    rw [h.busy number, hcurrent]
    rfl
  have hworkers : ∀ other, (self.assigned finish number item waiting).workers[other]?
      = (self.workers[other]?).map fun worker => if number = other then
          { worker with currentPayment := some (self.started item) } else worker := by
    intro other
    exact List.getElem?_modify ..
  have hname : (({ self.recorded with waiting } : WorkerPool ω κ).onWorker number fun worker =>
      { worker with currentPayment := some (self.started item) }).workerId number
        = some (workerName number) := by
    rw [workerId_onWorker]
    · exact h.workerId hnumber
    · exact fun _ => rfl
  refine ⟨?_, rfl, h.completed, fun other => ?_, ?_, h.arrivals, h.deepest, ?_, h.opened,
    h.configured, ?_, fun other worker hget => ?_⟩
  · have hnote := Desk.read_concat _ h.events (CapacityEvent.note
      ⟨self.scheduler.clock.time, .assigned, item.paymentId, some (workerName number),
        waiting.length⟩)
    have hcalled := Desk.Book.note_called hline self.scheduler.clock.time
      (some (workerName number))
    rw [List.length_map] at hcalled
    unfold WorkerPool.assigned
    simp only [logged, hname, List.map_append, List.map_cons, List.map_nil]
    exact hnote.trans hcalled
  · rw [Desk.Book.atDesk_call, currentPayment_assigned self finish item waiting hnumber other]
    by_cases hsame : number = other
    · subst hsame
      rw [if_pos rfl, if_pos rfl]
      rfl
    · rw [if_neg hsame, if_neg fun hname => hsame (workerName_injective
        (Option.some.inj hname)).symm]
      exact h.busy other
  · change book.lost ++ book.atDesk (some (workerName number)) = []
    rw [h.lost, hdesk]
    rfl
  · have hlength := h.length_waiting
    simp only [WorkerPool.assigned, onWorker, logged, recorded, Desk.Book.call, Desk.Book.passed,
      hlength, h.area.1, h.area.2, and_self]
  · rw [assigned_workers_length]
    exact h.size
  · rw [hworkers other] at hget
    rcases Option.map_eq_some_iff.mp hget with ⟨before, hbefore, rfl⟩
    have hstaff := h.staff other before hbefore
    by_cases hsame : number = other
    · rw [if_pos hsame]
      exact hstaff
    · rw [if_neg hsame]
      exact hstaff

/-- A worker has completed its payment. -/
theorem Told.freed (h : Told configuration start book self) {number : Nat}
    {item : QueuedPayment ω} (hitem : self.currentPayment number = some item) :
    Told configuration start (book.serve self.scheduler.clock.time item.ticket
      (some (workerName number))) (self.freed number item) := by
  have hdesk : book.atDesk (some (workerName number)) = [item.ticket] := by
    rw [h.busy number, hitem]
    rfl
  -- Only a worker that is there can have a payment.
  have hnumber : number < self.workers.length := by
    unfold currentPayment at hitem
    rcases Option.bind_eq_some_iff.mp hitem with ⟨worker, hget, -⟩
    exact (List.getElem?_eq_some_iff.mp hget).1
  have hworkers : ∀ other, (self.freed number item).workers[other]?
      = (self.workers[other]?).map fun worker => if number = other then
          { worker with
            currentPayment := none
            paymentsCompleted := worker.paymentsCompleted + 1
            totalBusyTime := worker.totalBusyTime + self.configuration.processingTime }
          else worker := by
    intro other
    exact List.getElem?_modify ..
  have hname : (({ self with
      completed := self.completed ++
        [{ item with completedAt := some self.scheduler.clock.time }] } : WorkerPool ω κ).onWorker
      number fun worker =>
        { worker with
          currentPayment := none
          paymentsCompleted := worker.paymentsCompleted + 1
          totalBusyTime := worker.totalBusyTime + self.configuration.processingTime }).workerId
        number = some (workerName number) := by
    rw [workerId_onWorker]
    · exact h.workerId hnumber
    · exact fun _ => rfl
  refine ⟨?_, h.waiting, ?_, fun other => ?_, h.lost, h.arrivals, h.deepest, h.area, h.opened,
    h.configured, ?_, fun other worker hget => ?_⟩
  · have hnote := Desk.read_concat _ h.events (CapacityEvent.note
      ⟨self.scheduler.clock.time, .completed, item.paymentId, some (workerName number),
        self.waiting.length⟩)
    unfold WorkerPool.freed
    simp only [logged, hname, List.map_append, List.map_cons, List.map_nil]
    refine hnote.trans ?_
    rw [← h.length_waiting]
    exact Desk.Book.note_served hdesk self.scheduler.clock.time
  · simp only [WorkerPool.freed, onWorker, logged, Desk.Book.serve, List.map_append, h.completed]
    rfl
  · rw [Desk.Book.atDesk_serve, currentPayment_freed self number item other]
    by_cases hsame : number = other
    · subst hsame
      rw [if_pos rfl, if_pos rfl]
      rfl
    · rw [if_neg hsame, if_neg fun hname => hsame (workerName_injective
        (Option.some.inj hname)).symm]
      exact h.busy other
  · rw [freed_workers_length]
    exact h.size
  · rw [hworkers other] at hget
    rcases Option.map_eq_some_iff.mp hget with ⟨before, hbefore, rfl⟩
    have hstaff := h.staff other before hbefore
    rw [Desk.Book.servings_serve]
    by_cases hsame : number = other
    · subst hsame
      rw [if_pos rfl, if_pos rfl]
      -- It has one completion more, which is a processing time more that it was busy.
      refine ⟨hstaff.1, congrArg (· + 1) hstaff.2.1, ?_⟩
      simp only [hstaff.2.2, h.configured]
      push_cast
      ring
    · rw [if_neg hsame, if_neg fun hname => hsame (workerName_injective
        (Option.some.inj hname)), Nat.add_zero]
      exact hstaff

/-! ### What is measured -/

/-- The metrics are what the book says, -/
theorem Told.metrics (h : Told configuration start book self) :
    self.metrics = poolMetrics book := by
  have hlength : book.served.length = self.completed.length := by
    have hlengths := congrArg List.length h.completed
    rwa [List.length_map, List.length_map] at hlengths
  have hfinish : (self.completed.map fun item => item.completedAt.getD 0)
      = book.served.map fun entry => entry.2.servedAt.getD 0 := by
    have hmapped := congrArg (List.map fun ticket => ticket.servedAt.getD 0) h.completed
    rw [List.map_map, List.map_map] at hmapped
    exact hmapped.symm
  have hwaits : (self.completed.map fun item => item.waitDuration.getD 0)
      = book.served.map fun entry => entry.2.wait.getD 0 := by
    have hmapped := congrArg (List.map fun ticket => ticket.wait.getD 0) h.completed
    rw [List.map_map, List.map_map] at hmapped
    exact hmapped.symm
  unfold WorkerPool.metrics poolMetrics
  simp only [hfinish, hwaits, hlength, h.opened, h.area.1, h.deepest]

/-- and so are the statistics of the workers. -/
theorem Told.workerStatistics (h : Told configuration start book self) :
    self.workerStatistics = poolStatistics configuration book := by
  unfold WorkerPool.workerStatistics poolStatistics
  rw [h.metrics]
  refine List.ext_getElem? fun number => ?_
  simp only [List.getElem?_map]
  by_cases hnumber : number < self.workers.length
  · have hget := List.getElem?_eq_getElem hnumber
    rcases h.staff number _ hget with ⟨hname, hcompleted, hbusy⟩
    rw [hget, List.getElem?_range (h.size ▸ hnumber)]
    simp only [Option.map_some, hname, hbusy, hcompleted]
  · have hnone : (List.range configuration.workerCount)[number]? = none := by
      rw [List.getElem?_eq_none_iff, List.length_range, ← h.size]
      exact not_lt.mp hnumber
    rw [List.getElem?_eq_none_iff.mpr (not_lt.mp hnumber), hnone]
    rfl

/-! ### Runs -/

/-- The loop of a dispatch gives payments to some of the idle workers. Whoever is
    busy keeps the payment. -/
theorem told_dispatchOver (finish : Nat → κ) (numbers : List Nat) :
    ∀ {self : WorkerPool ω κ} {book : Desk.Book String (Option String)},
      Told configuration start book self → (∀ number ∈ numbers, number < self.workers.length) →
      ∃ later told, (dispatchOver finish numbers).run self = .ok () later ∧
        Told configuration start told later ∧
        ∀ number item, self.currentPayment number = some item →
          later.currentPayment number = some item := by
  induction numbers with
  | nil => exact fun {self book} h _ => ⟨self, book, rfl, h, fun _ _ hitem => hitem⟩
  | cons number numbers ih =>
      intro self book h hnumbers
      have hnumber := hnumbers number List.mem_cons_self
      have hrest : ∀ other ∈ numbers, other < self.workers.length :=
        fun other hmem => hnumbers other (List.mem_cons_of_mem number hmem)
      unfold dispatchOver
      rw [run_bind_get]
      cases hwaiting : self.waiting with
      | nil => exact ⟨self, book, rfl, h, fun _ _ hitem => hitem⟩
      | cons item waiting =>
          cases hbusy : self.isBusy number with
          | true =>
              rcases ih h hrest with ⟨later, told, hrun, hlater, hkeeps⟩
              refine ⟨later, told, ?_, hlater, hkeeps⟩
              simp only [if_true]
              exact hrun
          | false =>
              have hassigned := h.assigned finish hnumber hbusy hwaiting
              rcases ih hassigned (by rw [assigned_workers_length]; exact hrest) with
                ⟨later, told, hrun, hlater, hkeeps⟩
              refine ⟨later, told, ?_, hlater, fun other current hcurrent => ?_⟩
              · simp only [Bool.false_eq_true, if_false]
                rw [run_bind_of_ok (assign_run finish number item waiting self)]
                exact hrun
              · refine hkeeps other current ?_
                rw [currentPayment_assigned self finish item waiting hnumber other]
                -- The worker that was idle had no payment.
                have hother : number ≠ other := by
                  rintro rfl
                  unfold isBusy at hbusy
                  rw [hcurrent] at hbusy
                  cases hbusy
                rw [if_neg hother]
                exact hcurrent

theorem told_dispatch (finish : Nat → κ) (h : Told configuration start book self) :
    ∃ later told, (dispatch finish).run self = .ok () later ∧
      Told configuration start told later ∧
      ∀ number item, self.currentPayment number = some item →
        later.currentPayment number = some item := by
  unfold dispatch
  rw [run_bind_get]
  exact told_dispatchOver finish _ h fun number hmem => List.mem_range.mp hmem

/-- A use writes of an arrival and of those who are given payments, or of nothing. -/
theorem Told.use {self : WorkerPool ω (PoolCallback ω ξ)}
    (h : Told configuration start book self) (how : Use ω ξ) :
    ∃ told, Told configuration start told (after how.exec self) ∧
      ∀ number item, self.currentPayment number = some item →
        (after how.exec self).currentPayment number = some item := by
  cases how with
  | enqueue paymentId paymentType work =>
      rw [Use.exec, after_discard]
      by_cases hid : isBlank paymentId = true
      · -- A blank identifier is refused before anything is written.
        have hrefused : (WorkerPool.enqueue PoolCallback.complete paymentId paymentType work).run
            self = .error (valueError "payment identifier cannot be blank") self := by
          unfold WorkerPool.enqueue
          rw [if_pos hid]
          rfl
        rw [after_of_error hrefused]
        exact ⟨book, h, fun _ _ hitem => hitem⟩
      · have henqueue := enqueue_run PoolCallback.complete (by simpa using hid) paymentType work
          self
        rcases told_dispatch PoolCallback.complete (h.arrived paymentId paymentType work) with
          ⟨later, told, hrun, hlater, hkeeps⟩
        rw [run_bind_of_ok hrun] at henqueue
        rw [after_of_ok henqueue]
        exact ⟨told, hlater, fun number item hitem => hkeeps number item hitem⟩
  | scheduleAt time callback =>
      rw [Use.exec, Component.after_zoom]
      exact ⟨book, h.withScheduler _, fun _ _ hitem => hitem⟩
  | scheduleAfter delay callback =>
      rw [Use.exec, Component.after_zoom]
      exact ⟨book, h.withScheduler _, fun _ _ hitem => hitem⟩
  | advanceTo newTime =>
      rw [Use.exec, after_discard, Component.after_zoom]
      exact ⟨book, h.withScheduler _, fun _ _ hitem => hitem⟩
  | advanceBy amount =>
      rw [Use.exec, after_discard, Component.after_zoom]
      exact ⟨book, h.withScheduler _, fun _ _ hitem => hitem⟩

section Runs

variable {pool : Component σ (WorkerPool ω (PoolCallback ω ξ))} {perform : ω → Action σ Unit}
  {other : ξ → Action σ Unit}

variable (configuration start pool) in
/-- Some book tells what the pool is. -/
def Logged (s : σ) : Prop :=
  ∃ book, Told configuration start book (pool.get s)

theorem Logged.set {s : σ} {self : WorkerPool ω (PoolCallback ω ξ)}
    (h : Told configuration start book self) : Logged configuration start pool (pool.set self s) :=
  ⟨book, by rw [pool.get_set]; exact h⟩

theorem logged_use {m : Action σ Unit} (hm : OnlyMakes pool Use.exec (fun _ => True) m) :
    Within (Keeps (Logged configuration start pool)) m := by
  intro s hs
  exact hm.keeps (I := fun self => ∃ book, Told configuration start book self)
    (fun self how hself _ => by
      rcases hself with ⟨book, h⟩
      rcases h.use how with ⟨told, htold, -⟩
      exact ⟨told, htold⟩) hs

variable (hperform : ∀ work, OnlyMakes pool Use.exec (fun _ => True) (perform work))

include hperform

/-- A completion: its worker is idle, or the payment is completed, or its work
    raises. -/
theorem logged_complete (number : Nat) :
    Within (Keeps (Logged configuration start pool))
      (complete .complete pool perform number) := by
  rintro s ⟨book, h⟩
  cases hitem : (pool.get s).currentPayment number with
  | none =>
      rw [after_of_error (complete_idle hitem)]
      exact ⟨book, h⟩
  | some item =>
      have hrun : (complete .complete pool perform number).run s = _ := complete_busy hitem
      -- What the work enqueues is written, and the worker keeps its payment meanwhile.
      have hworked := (hperform item.work).keeps
        (I := fun self => (∃ told, Told configuration start told self) ∧
          self.currentPayment number = some item)
        (fun self how hself _ => by
          rcases hself with ⟨⟨told, htold⟩, hcurrent⟩
          rcases htold.use how with ⟨next, hnext, hkeeps⟩
          exact ⟨⟨next, hnext⟩, hkeeps number item hcurrent⟩)
        (s := s) ⟨⟨book, h⟩, hitem⟩
      cases hwork : (perform item.work).run s with
      | ok value t =>
          rw [after_of_ok hwork] at hworked
          rw [run_bind_of_ok hwork] at hrun
          rcases hworked with ⟨⟨told, htold⟩, hcurrent⟩
          rcases told_dispatch PoolCallback.complete (htold.freed hcurrent) with
            ⟨later, next, hdispatch, hlater, -⟩
          rw [← finished_run] at hdispatch
          rw [after_of_ok (hrun.trans (Component.zoom_run_ok hdispatch))]
          exact Logged.set hlater
      | error e t =>
          rw [after_of_error hwork] at hworked
          rw [run_bind_of_error hwork] at hrun
          rw [after_of_error hrun]
          exact hworked.1

variable (hother : ∀ callback, OnlyMakes pool Use.exec (fun _ => True) (other callback))

include hother

/-- A step of a run. -/
theorem logged_step (step : Step ω ξ) :
    Within (Keeps (Logged configuration start pool)) (step.exec pool perform other) := by
  cases step with
  | use how =>
      rintro s ⟨book, h⟩
      rcases h.use how with ⟨told, htold, -⟩
      rw [Step.exec, Component.after_zoom]
      exact Logged.set htold
  | runNext =>
      intro s
      rw [Step.exec, after_discard]
      refine EventScheduler.runNext_related _ _
        (R := Keeps (Logged configuration start pool)) (fun scheduler t => ?_)
        fun event rest clock _ _ _ => ?_
      · rintro ⟨book, h⟩
        exact Logged.set (h.withScheduler scheduler)
      · cases hfrees : event.callback.frees with
        | some number =>
            rw [PoolCallback.eq_complete hfrees]
            exact logged_complete hperform number _
        | none => exact logged_use (onlyMakes_call hother (fun _ _ _ => trivial) hfrees) _

end Runs

/-- In every state of every run, whatever the works do, reading the events of the
    pool gives who waits, what each worker is busy with, who was completed and
    when, the metrics and the statistics of the workers. Everyone who arrived is
    told of once, and nobody is lost. -/
theorem poolLog_tells (pool : Component σ (WorkerPool ω (PoolCallback ω ξ)))
    (perform : ω → Action σ Unit) (other : ξ → Action σ Unit)
    (hperform : ∀ work, OnlyMakes pool Use.exec (fun _ => True) (perform work))
    (hother : ∀ callback, OnlyMakes pool Use.exec (fun _ => True) (other callback))
    (clock : VirtualClock) (configuration : CapacityConfiguration) (s : σ)
    (hnew : pool.get s = WorkerPool.new (EventScheduler.new clock) configuration)
    (steps : List (Step ω ξ)) :
    AllStates (Step.exec pool perform other)
      (fun t => ∃ book, Told configuration clock.time book (pool.get t) ∧
        (pool.get t).metrics = poolMetrics book ∧
        (pool.get t).workerStatistics = poolStatistics configuration book ∧ book.Accounted)
      s steps := by
  have hlogged : AllStates (Step.exec pool perform other)
      (Logged configuration clock.time pool) s steps :=
    allStates_of_allSteps (C := fun _ _ => True)
      (fun t step ht _ => logged_step hperform hother step t ht)
      ⟨_, hnew ▸ told_new configuration clock⟩ (allSteps_of_forall fun _ _ _ => trivial)
  refine allStates_mono ?_ hlogged
  rintro t ⟨book, h⟩
  exact ⟨book, h, h.metrics, h.workerStatistics,
    Desk.read_accounted (Desk.Book.accounted_empty clock.time) h.events⟩

/-- The work of the first payment raises, and the second waits behind it. -/
theorem poolLog_tells_faulty :
    AllStates (Step.exec Component.whole faultyWork Empty.elim)
      (fun t => ∃ book, Told oneWorker 0 book t ∧ t.metrics = poolMetrics book ∧
        t.workerStatistics = poolStatistics oneWorker book ∧ book.Accounted)
      (WorkerPool.new EventScheduler.new oneWorker) faultyRun :=
  poolLog_tells Component.whole faultyWork Empty.elim
    (fun work _ => ⟨[], fun how hmem => absurd hmem List.not_mem_nil, by cases work <;> rfl⟩)
    (fun callback => callback.elim) ⟨0, by decide⟩ oneWorker
    (WorkerPool.new EventScheduler.new oneWorker) rfl faultyRun

end WorkerPool

end BankSim
