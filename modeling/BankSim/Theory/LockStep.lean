import BankSim.Library.Alike
import BankSim.Theory.Attempts

/-!
# Queues in Lock Step

Two queues with closures of their own kinds have the same outline if nothing but
the closures tells them apart, and closures in the same position refer to the same
payment. What a queue does commutes with taking its outline.

`Paces` is what two worlds with such queues have to show of one attempt and one
timer, and of the changes that do not matter. Then a whole event goes alike in
both worlds, the tick with its loop included. Works may raise, if they do so in
both.

## Main definitions

* `QueueCallback.outline`, `PaymentQueue.outline`: Places instead of closures.
* `PaymentQueue.Paces`: A relation that attempts and timers keep.

## Theorems

* `outline_scheduled`, `outline_awoken`, `outline_arrived`, `outline_finished`,
  `outline_taken`: Outlines of what queues become.
* `Paces.processItem`, `Paces.processTick`: The tick.
* `Paces.runNext`: One event of the two schedulers.
-/

namespace BankSim

open Exec

/-! ### Outlines -/

section Mapped

variable {κ κ' : Type} (f : κ → κ')

/-- An event with another callback. -/
def Event.mapped (event : Event κ) : Event κ' :=
  ⟨event.time, event.order, f event.callback⟩

namespace EventScheduler

/-- A scheduler with other callbacks. The order of events does not depend on
    them. -/
def mapped (self : EventScheduler κ) : EventScheduler κ' :=
  ⟨self.clock, self.queue.map (Event.mapped f), self.nextOrder, self.history⟩

theorem mapped_scheduled (self : EventScheduler κ) (time : Int) (callback : κ) :
    (self.scheduled time callback).mapped f = (self.mapped f).scheduled time (f callback) := by
  unfold scheduled mapped
  congr 1
  exact List.map_orderedInsert Event.le Event.le (Event.mapped f) self.queue _
    (fun _ _ => Iff.rfl) (fun _ _ => Iff.rfl)

end EventScheduler

end Mapped

/-- The callback with places for closures. -/
def QueueCallback.outline {γ θ ξ : Type} [Attempting γ θ] :
    QueueCallback γ (RetryCallback θ ξ) → QueueCallback Nat (RetryCallback Nat ξ)
  | .enqueue paymentId paymentType work => .enqueue paymentId paymentType (place work)
  | .tick => .tick
  | .other (.retry timer) => .other (.retry (place (closure (γ := γ) timer)))
  | .other (.other callback) => .other (.other callback)

/-- The payment with a place for its closure. -/
def QueuedPayment.outline {γ θ : Type} [Attempting γ θ] (item : QueuedPayment γ) :
    QueuedPayment Nat :=
  { item with work := place item.work }

namespace PaymentQueue

variable {γ θ ξ : Type} [Attempting γ θ]

/-- The queue with places for closures. -/
def outline (self : AttemptQueue γ θ ξ) :
    PaymentQueue Nat (QueueCallback Nat (RetryCallback Nat ξ)) where
  scheduler := self.scheduler.mapped QueueCallback.outline
  waiting := self.waiting.map QueuedPayment.outline
  completed := self.completed.map QueuedPayment.outline
  events := self.events
  nextOrder := self.nextOrder
  maximumDepth := self.maximumDepth
  worker := self.worker

theorem outline_scheduled (self : AttemptQueue γ θ ξ) (time : Int)
    (callback : QueueCallback γ (RetryCallback θ ξ)) :
    outline { self with scheduler := self.scheduler.scheduled time callback }
      = { self.outline with
          scheduler := self.outline.scheduler.scheduled time callback.outline } := by
  unfold outline
  rw [EventScheduler.mapped_scheduled]

theorem outline_awoken (self : AttemptQueue γ θ ξ) :
    (self.awoken .tick).outline = self.outline.awoken .tick := by
  unfold awoken
  by_cases hawake : self.worker.tickScheduled = true
  · rw [if_pos hawake, if_pos (show self.outline.worker.tickScheduled = true from hawake)]
  · rw [if_neg hawake, if_neg (show ¬ self.outline.worker.tickScheduled = true from hawake)]
    unfold woken outline
    rw [EventScheduler.mapped_scheduled]
    rfl

theorem outline_arrived (self : AttemptQueue γ θ ξ) (paymentId : String)
    (paymentType : PaymentType) (work : γ) :
    (self.arrived paymentId paymentType work).outline
      = self.outline.arrived paymentId paymentType (place work) := by
  simp [outline, arrived, accepted, QueuedPayment.outline, EventScheduler.mapped]

theorem outline_executed (self : AttemptQueue γ θ ξ)
    (event : Event (QueueCallback γ (RetryCallback θ ξ))) :
    outline { self with scheduler := self.scheduler.executed event }
      = { self.outline with
          scheduler := self.outline.scheduler.withHistory
            (self.outline.scheduler.history ++ [⟨event.time, event.order⟩]) } :=
  rfl

theorem outline_eq_tick {callback : QueueCallback γ (RetryCallback θ ξ)}
    (h : callback.outline = .tick) : callback = .tick := by
  cases callback with
  | tick => rfl
  | enqueue _ _ _ => cases h
  | other callback => cases callback <;> cases h

theorem outline_eq_retry {callback : QueueCallback γ (RetryCallback θ ξ)} {i : Nat}
    (h : callback.outline = .other (.retry i)) :
    ∃ timer, callback = .other (.retry timer) ∧ place (closure (γ := γ) timer) = i := by
  cases callback with
  | tick => cases h
  | enqueue _ _ _ => cases h
  | other callback =>
      cases callback with
      | retry timer =>
          cases h
          exact ⟨timer, rfl, rfl⟩
      | other callback => cases h

theorem outline_eq_other {callback : QueueCallback γ (RetryCallback θ ξ)} {other : ξ}
    (h : callback.outline = .other (.other other)) : callback = .other (.other other) := by
  cases callback with
  | tick => cases h
  | enqueue _ _ _ => cases h
  | other callback =>
      cases callback with
      | retry timer => cases h
      | other callback =>
          cases h
          rfl

theorem outline_finished (self : AttemptQueue γ θ ξ) (item : QueuedPayment γ) (now : Int) :
    (self.finished item now).outline = self.outline.finished item.outline now := by
  simp [outline, finished, QueuedPayment.outline]

theorem outline_taken (self : AttemptQueue γ θ ξ) :
    self.outline.taken = self.taken.map fun first => (first.1.outline, first.2.outline) := by
  unfold taken
  cases hwaiting : self.waiting with
  | nil => simp [outline, hwaiting]
  | cons item waiting =>
      simp [outline, hwaiting, QueuedPayment.outline, EventScheduler.mapped]

/-- Fresh queues of one capacity have the same outline. -/
theorem outline_new {γ' θ' : Type} [Attempting γ' θ'] {clock : VirtualClock} {capacity : Int}
    {self : AttemptQueue γ θ ξ} {other : AttemptQueue γ' θ' ξ}
    (h : PaymentQueue.new (EventScheduler.new clock) capacity = .ok self)
    (h' : PaymentQueue.new (EventScheduler.new clock) capacity = .ok other) :
    self.outline = other.outline := by
  unfold PaymentQueue.new QueueWorker.new at h h'
  by_cases hcapacity : capacity ≤ 0
  · rw [dif_pos hcapacity] at h
    cases h
  · rw [dif_neg hcapacity] at h h'
    cases h
    cases h'
    rfl

end PaymentQueue

namespace PaymentQueue

variable {γ γ' θ θ' ξ σ τ : Type} [Attempting γ θ] [Attempting γ' θ']

/-! ### Two worlds -/

/-- A relation between two worlds with a queue each, and the closures of the
    attempts that were just taken out of them, if any. The queues have the same
    outline. Changes that do not matter and do not tell them apart leave the
    relation alone, and attempts and events other than ticks go alike. -/
structure Paces (queue : Component σ (AttemptQueue γ θ ξ))
    (queue' : Component τ (AttemptQueue γ' θ' ξ)) (perform : γ → Action σ Unit)
    (perform' : γ' → Action τ Unit) (other : RetryCallback θ ξ → Action σ Unit)
    (other' : RetryCallback θ' ξ → Action τ Unit) (K : Option (γ × γ') → σ → τ → Prop) :
    Prop where
  outline : ∀ {held s t}, K held s t → (queue.get s).outline = (queue'.get t).outline
  pass : ∀ {held s t} later later', K held s t → Passes (queue.get s) later →
    Passes (queue'.get t) later' → later.outline = later'.outline →
      K held (queue.set later s) (queue'.set later' t)
  take : ∀ {s t item item' waiting waiting'}, K none s t →
    (queue.get s).waiting = item :: waiting → (queue'.get t).waiting = item' :: waiting' →
      item.outline = item'.outline → waiting.map QueuedPayment.outline
        = waiting'.map QueuedPayment.outline →
      K (some (item.work, item'.work)) (queue.set { queue.get s with waiting } s)
        (queue'.set { queue'.get t with waiting := waiting' } t)
  attempt : ∀ {task task' s t}, K (some (task, task')) s t →
    Alike (fun _ => K none) (K none) (perform task) (perform' task') s t
  event : ∀ {s t event event' rest rest' clock}, K none s t →
    (queue.get s).scheduler.queue = event :: rest →
    (queue'.get t).scheduler.queue = event' :: rest' →
    event.mapped QueueCallback.outline = event'.mapped QueueCallback.outline →
    rest.map (Event.mapped QueueCallback.outline)
      = rest'.map (Event.mapped QueueCallback.outline) →
    event.callback.isTick = false → (queue.get s).scheduler.clock.time ≤ event.time →
    clock.time = event.time →
      Alike (fun _ => K none) (K none) (QueueCallback.call queue perform other event.callback)
        (QueueCallback.call queue' perform' other' event'.callback)
        (queue.set { queue.get s with
          scheduler := (queue.get s).scheduler.ready clock rest } s)
        (queue'.set { queue'.get t with
          scheduler := (queue'.get t).scheduler.ready clock rest' } t)

section Outlines

variable {self : AttemptQueue γ θ ξ} {other : AttemptQueue γ' θ' ξ}
  (h : self.outline = other.outline)

include h

theorem clock_of_outline : self.scheduler.clock = other.scheduler.clock :=
  congrArg (fun queue => queue.scheduler.clock) h

theorem worker_of_outline : self.worker = other.worker :=
  congrArg (fun queue => queue.worker) h

theorem length_of_outline : self.waiting.length = other.waiting.length := by
  have hwaiting := congrArg (fun queue => queue.waiting.length) h
  simpa [outline] using hwaiting

theorem isEmpty_of_outline : self.waiting.isEmpty = other.waiting.isEmpty := by
  have hlength := length_of_outline h
  cases hself : self.waiting <;> cases hother : other.waiting <;> simp_all

end Outlines

namespace Paces

variable {queue : Component σ (AttemptQueue γ θ ξ)} {queue' : Component τ (AttemptQueue γ' θ' ξ)}
  {perform : γ → Action σ Unit} {perform' : γ' → Action τ Unit}
  {other : RetryCallback θ ξ → Action σ Unit} {other' : RetryCallback θ' ξ → Action τ Unit}
  {K : Option (γ × γ') → σ → τ → Prop}
  (h : Paces queue queue' perform perform' other other' K) {s : σ} {t : τ}

include h

/-- One round of the loop. -/
theorem processItem (hK : K none s t) :
    Alike (fun _ => K none) (K none) (QueueWorker.processItem queue perform)
      (QueueWorker.processItem queue' perform') s t := by
  have houtline := h.outline hK
  have htakes := congrArg taken houtline
  rw [outline_taken, outline_taken] at htakes
  cases htaken : (queue.get s).taken with
  | none =>
      rw [htaken, Option.map_none, eq_comm, Option.map_eq_none_iff] at htakes
      exact alike_of_error (processItem_empty (taken_none htaken))
        (processItem_empty (taken_none htakes)) hK
  | some first =>
      rcases first with ⟨item, begun⟩
      rw [htaken, Option.map_some, eq_comm, Option.map_eq_some_iff] at htakes
      rcases htakes with ⟨⟨item', begun'⟩, htaken', hsame⟩
      rw [Prod.mk.injEq] at hsame
      rcases hsame with ⟨hitem, hbegun⟩
      -- Both take the first payment out, and log its start.
      have hheld : K (some (item.work, item'.work)) (queue.set begun s) (queue'.set begun' t) := by
        rcases taken_some htaken with ⟨waiting, hwaiting, rfl⟩
        rcases taken_some htaken' with ⟨waiting', hwaiting', rfl⟩
        have hrest := congrArg PaymentQueue.waiting hbegun
        have hpass := h.pass
          { queue.get s with
            waiting
            events := (queue.get s).events ++ [⟨(queue.get s).scheduler.clock.time, .processing,
              item.paymentId, waiting.length⟩] }
          { queue'.get t with
            waiting := waiting'
            events := (queue'.get t).events ++ [⟨(queue'.get t).scheduler.clock.time, .processing,
              item'.paymentId, waiting'.length⟩] }
          (h.take hK hwaiting hwaiting' hitem.symm hrest.symm)
          (by rw [queue.get_set]; exact ⟨rfl, .refl _, le_refl _⟩)
          (by rw [queue'.get_set]; exact ⟨rfl, .refl _, le_refl _⟩) hbegun.symm
        rwa [queue.set_set, queue'.set_set] at hpass
      have hround : (QueueWorker.processItem queue perform).run s = _ := processItem_taken htaken
      have hround' : (QueueWorker.processItem queue' perform').run t = _ :=
        processItem_taken htaken'
      rcases h.attempt hheld with
        ⟨_, s', t', hrun, hrun', hend⟩ | ⟨e, e', s', t', hrun, hrun', hend⟩
      · -- Both works returned, and the payments are completed.
        rw [hrun] at hround
        rw [hrun'] at hround'
        refine alike_of_ok hround hround' (h.pass _ _ hend ⟨rfl, .refl _, le_refl _⟩
          ⟨rfl, .refl _, le_refl _⟩ ?_)
        rw [outline_finished, outline_finished, h.outline hend, clock_of_outline houtline, hitem]
      · rw [hrun] at hround
        rw [hrun'] at hround'
        exact alike_of_error hround hround' hend

/-- So many rounds of the loop. -/
theorem processItems (rounds : Nat) : ∀ {s t}, K none s t →
    Alike (fun _ => K none) (K none) (QueueWorker.processItems queue perform rounds)
      (QueueWorker.processItems queue' perform' rounds) s t := by
  induction rounds with
  | zero => exact fun {s t} hK => alike_pure hK
  | succ rounds ih => exact fun {s t} hK => (h.processItem hK).bind fun _ _ _ hnext => ih hnext

/-- A tick. -/
theorem processTick (hK : K none s t) :
    Alike (fun _ => K none) (K none) (QueueWorker.processTick queue perform .tick)
      (QueueWorker.processTick queue' perform' .tick) s t := by
  have houtline := h.outline hK
  -- The tick is forgotten, and the number of rounds is settled.
  have hbegun : K none (queue.set { queue.get s with
        worker := { (queue.get s).worker with tickScheduled := false } } s)
      (queue'.set { queue'.get t with
        worker := { (queue'.get t).worker with tickScheduled := false } } t) := by
    refine h.pass _ _ hK ⟨rfl, .refl _, le_refl _⟩ ⟨rfl, .refl _, le_refl _⟩ ?_
    exact congrArg (fun queue : PaymentQueue Nat _ => { queue with
      worker := { queue.worker with tickScheduled := false } }) houtline
  unfold QueueWorker.processTick
  refine alike_congr (run_bind_of_ok (queue.zoom_modify_run _ s))
    (run_bind_of_ok (queue'.zoom_modify_run _ t)) ?_
  refine alike_congr (run_bind_get _ _) (run_bind_get _ _) ?_
  rw [queue.get_set, queue'.get_set]
  have hrounds : min (queue.get s).worker.capacity (queue.get s).waiting.length
      = min (queue'.get t).worker.capacity (queue'.get t).waiting.length := by
    rw [worker_of_outline houtline, length_of_outline houtline]
  change Alike _ _ (do
    QueueWorker.processItems queue perform
      (min (queue.get s).worker.capacity (queue.get s).waiting.length)
    _) (do
    QueueWorker.processItems queue' perform'
      (min (queue'.get t).worker.capacity (queue'.get t).waiting.length)
    _) _ _
  rw [hrounds]
  refine (h.processItems _ hbegun).bind fun _ s' t' hend => ?_
  refine alike_congr (run_bind_get _ _) (run_bind_get _ _) ?_
  have hempty := isEmpty_of_outline (h.outline hend)
  cases hrest : (queue.get s').waiting.isEmpty with
  | true =>
      rw [if_neg (by simp [hrest]), if_neg (by simp [← hempty, hrest])]
      exact alike_pure hend
  | false =>
      -- Another tick is due.
      rw [if_pos (by simp [hrest]), if_pos (by simp [← hempty, hrest])]
      refine alike_of_ok (Component.zoom_run_ok (wake_run _ _))
        (Component.zoom_run_ok (wake_run _ _))
        (h.pass _ _ hend (passes_awoken _) (passes_awoken _) ?_)
      rw [outline_awoken, outline_awoken, h.outline hend]

/-- The callbacks of two events that correspond to each other, which leave the
    schedulers before they begin. -/
theorem call {event : Event (QueueCallback γ (RetryCallback θ ξ))}
    {event' : Event (QueueCallback γ' (RetryCallback θ' ξ))}
    {rest : List (Event (QueueCallback γ (RetryCallback θ ξ)))}
    {rest' : List (Event (QueueCallback γ' (RetryCallback θ' ξ)))} {clock : VirtualClock}
    (hK : K none s t) (hqueue : (queue.get s).scheduler.queue = event :: rest)
    (hqueue' : (queue'.get t).scheduler.queue = event' :: rest')
    (hevent : event.mapped QueueCallback.outline = event'.mapped QueueCallback.outline)
    (hrest : rest.map (Event.mapped QueueCallback.outline)
      = rest'.map (Event.mapped QueueCallback.outline))
    (hnow : (queue.get s).scheduler.clock.time ≤ event.time) (hclock : clock.time = event.time) :
    Alike (fun _ => K none) (K none) (QueueCallback.call queue perform other event.callback)
      (QueueCallback.call queue' perform' other' event'.callback)
      ((queue.comp schedulerOf).set (((queue.comp schedulerOf).get s).ready clock rest) s)
      ((queue'.comp schedulerOf).set (((queue'.comp schedulerOf).get t).ready clock rest') t) := by
  have houtline := h.outline hK
  cases hkind : event.callback.isTick with
  | false => exact h.event hK hqueue hqueue' hevent hrest hkind hnow hclock
  | true =>
      -- If one is a tick, then both are.
      have htick := QueueCallback.eq_tick hkind
      have htick' : event'.callback = .tick := by
        have hsame : event.callback.outline = event'.callback.outline :=
          congrArg Event.callback hevent
        rw [htick] at hsame
        exact outline_eq_tick hsame.symm
      have hkind' : event'.callback.isTick = true := by rw [htick']; rfl
      rw [htick, htick']
      refine h.processTick (h.pass _ _ hK ⟨rfl, ?_, hnow.trans hclock.ge⟩ ⟨rfl, ?_, ?_⟩ ?_)
      · rw [hqueue, List.filter_cons_of_neg (by simp [hkind])]
        exact .refl _
      · rw [hqueue', List.filter_cons_of_neg (by simp [hkind'])]
        exact .refl _
      · rw [← clock_of_outline houtline]
        exact hnow.trans hclock.ge
      · exact congrArg₂ (fun (queue : PaymentQueue Nat _) rest => { queue with
          scheduler := queue.scheduler.ready clock rest }) houtline hrest

/-- One event of the two schedulers, if it is not late. -/
theorem runNext (hK : K none s t)
    (hdue : ∀ event ∈ (queue.get s).scheduler.queue,
      (queue.get s).scheduler.clock.time ≤ event.time) :
    Alike (fun _ => K none) (K none)
      (EventScheduler.runNext (queue.comp schedulerOf) (QueueCallback.call queue perform other))
      (EventScheduler.runNext (queue'.comp schedulerOf)
        (QueueCallback.call queue' perform' other')) s t := by
  have houtline := h.outline hK
  have hqueues : (queue.get s).scheduler.queue.map (Event.mapped QueueCallback.outline)
      = (queue'.get t).scheduler.queue.map (Event.mapped QueueCallback.outline) :=
    congrArg (fun queue => queue.scheduler.queue) houtline
  cases hqueue : (queue.get s).scheduler.queue with
  | nil =>
      rw [hqueue, List.map_nil, eq_comm, List.map_eq_nil_iff] at hqueues
      exact alike_of_ok (EventScheduler.runNext_nil (queue.comp schedulerOf) _ hqueue)
        (EventScheduler.runNext_nil (queue'.comp schedulerOf) _ hqueues) hK
  | cons event rest =>
      rw [hqueue, List.map_cons, eq_comm, List.map_eq_cons_iff] at hqueues
      rcases hqueues with ⟨event', rest', hqueue', hevent, hrest⟩
      have htime : event'.time = event.time := congrArg Event.time hevent
      have hnow := hdue event (by rw [hqueue]; exact List.mem_cons_self)
      rcases EventScheduler.runNext_due (queue.comp schedulerOf)
        (QueueCallback.call queue perform other) hqueue hnow with ⟨clock, hclock, hrun⟩
      rcases EventScheduler.runNext_due (queue'.comp schedulerOf)
        (QueueCallback.call queue' perform' other') hqueue'
        (by rw [htime]; exact (clock_of_outline houtline) ▸ hnow) with ⟨clock', hclock', hrun'⟩
      -- The clocks show the same time.
      obtain rfl : clock' = clock := by
        cases clock
        cases clock'
        simp only at hclock hclock'
        subst hclock hclock'
        simp only [htime]
      have hcalls := h.call hK hqueue hqueue' hevent.symm hrest.symm hnow hclock
      rcases hcalls with ⟨_, s', t', hcall, hcall', hend⟩ | ⟨e, e', s', t', hcall, hcall', hend⟩
      · -- Both callbacks returned, and the event is recorded.
        rw [hcall] at hrun
        rw [hcall'] at hrun'
        refine alike_of_ok hrun hrun' (h.pass
          { queue.get s' with scheduler := (queue.get s').scheduler.executed event }
          { queue'.get t' with scheduler := (queue'.get t').scheduler.executed event' } hend
          ⟨rfl, .refl _, le_refl _⟩ ⟨rfl, .refl _, le_refl _⟩ ?_)
        have horder : event'.order = event.order := congrArg Event.order hevent
        rw [outline_executed, outline_executed, h.outline hend, htime, horder]
      · rw [hcall] at hrun
        rw [hcall'] at hrun'
        exact alike_of_error hrun hrun' hend

end Paces

end PaymentQueue

end BankSim
