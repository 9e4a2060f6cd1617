import BankSim.Theory.Sharing
import BankSim.Theory.AchEffects

/-!
# The ACH Components among Others

The network and the return processor are given a ledger and a scheduler, and
neither has to be theirs alone. Others may run callbacks of their own on the
scheduler, move its clock, write to the ledger and call the two components, also
from inside those callbacks.

None of this is new to the components. What they do is written without regard to
what else a scheduler runs, so a method goes alike on a scheduler that is shared
and on one that is not, `alike_call`. What others do to the components comes down
to calls that can be made of them anyway. So whatever happens to them in such a
world also happens to them alone, in a run of calls that is cut into a piece for
each step of the world: a callback of theirs is a step of their own scheduler, and
a callback of others is a move of the clock and what it does to the components.

## Main definitions

* `AchNetwork.Shows`, `AchReturnProcessor.Shows`: What a component on a shared
  scheduler shows of the same one alone.
* `SharedUse`: What others can do.
* `SharedStep`: One step of the world.

## Theorems

* `AchNetwork.alike_call`, `AchReturnProcessor.alike_call`: The stages.
* `shows_use`: What others do is a run of calls.
* `shows_step`: A step of the world is a run of calls.
* `shared_runs_refine`: A run of the world is a run of the components alone.
* `shared_effects_once`: Nothing is posted twice, whatever others do.
-/

namespace BankSim

open Exec

/-! ### The network -/

namespace AchNetwork

variable {κ ξ : Type}

/-- What a network on a shared scheduler shows of the same one alone. -/
structure Shows (shared : AchNetwork (κ ⊕ ξ)) (alone : AchNetwork κ) : Prop where
  scheduler : shared.scheduler.Shows alone.scheduler
  ledger : shared.ledger = alone.ledger
  pending : shared.pending = alone.pending
  submissions : shared.submissions = alone.submissions
  transfers : shared.transfers = alone.transfers

variable {shared : AchNetwork (κ ⊕ ξ)} {alone : AchNetwork κ}

theorem alike_onTransfer {α : Type} (h : Shows shared alone) (transferId : String)
    (method : Action AchTransfer α) :
    Alike (fun _ => Shows) Shows (onTransfer transferId method) (onTransfer transferId method)
      shared alone :=
  alike_zoom _ h.transfers fun _ => { h with transfers := rfl }

theorem alike_schedule (h : Shows shared alone) (time : Int) (callback : κ) :
    Alike (fun _ => Shows) Shows
      (schedulerOf.zoom (EventScheduler.scheduleAt time (Sum.inl callback : κ ⊕ ξ)))
      (schedulerOf.zoom (EventScheduler.scheduleAt time callback)) shared alone :=
  (EventScheduler.alike_scheduleAt h.scheduler time callback).zoom
    (fun _ _ _ hend => { h with scheduler := hend }) fun _ _ hend => { h with scheduler := hend }

theorem alike_append (h : Shows shared alone) (entry : LedgerEntry) :
    Alike (fun _ => Shows) Shows (ledgerOf.zoom (Ledger.append entry))
      (ledgerOf.zoom (Ledger.append entry)) shared alone :=
  alike_zoom _ h.ledger fun _ => { h with ledger := rfl }

theorem rejectionReason_eq (h : Shows shared alone) (request : AchTransferRequest) :
    shared.rejectionReason request = alone.rejectionReason request := by
  unfold rejectionReason availableBalance
  rw [h.pending, h.ledger]

variable (lift : AchCallback → κ)

theorem alike_receive (h : Shows shared alone) (request : AchTransferRequest) :
    Alike (fun _ => Shows) Shows
      (receive (fun callback => (Sum.inl (lift callback) : κ ⊕ ξ)) request)
      (receive lift request) shared alone := by
  unfold receive
  refine alike_get ?_
  rw [h.transfers]
  by_cases hknown : request.transferId ∈ alone.transfers
  · rw [if_pos hknown, if_pos hknown]
    exact alike_throw _ _ h
  · rw [if_neg hknown, if_neg hknown]
    refine Alike.bind (Q := fun _ => Shows)
      (alike_modify { h with transfers := by rw [h.transfers] }) fun _ s t hst => ?_
    exact (alike_schedule hst 1 _).bind fun _ s t hst => alike_pure hst

theorem alike_validate (h : Shows shared alone) (transferId : String) :
    Alike (fun _ => Shows) Shows
      (validate (fun callback => (Sum.inl (lift callback) : κ ⊕ ξ)) transferId)
      (validate lift transferId) shared alone := by
  unfold validate
  refine (alike_onTransfer h transferId _).bind fun request s t hst => alike_get ?_
  rw [rejectionReason_eq hst]
  cases t.rejectionReason request with
  | some reason =>
      rw [hst.scheduler.clock]
      exact alike_onTransfer hst transferId _
  | none =>
      refine (alike_onTransfer hst transferId _).bind fun _ s t hst => ?_
      exact alike_schedule hst 2 _

theorem alike_markPending (h : Shows shared alone) (transferId : String) :
    Alike (fun _ => Shows) Shows
      (markPending (fun callback => (Sum.inl (lift callback) : κ ⊕ ξ)) transferId)
      (markPending lift transferId) shared alone := by
  unfold markPending
  refine (alike_onTransfer h transferId _).bind fun _ s t hst => ?_
  refine (alike_onTransfer hst transferId _).bind fun request s t hst => alike_get ?_
  rw [hst.pending]
  refine Alike.bind (Q := fun _ => Shows) (alike_lift _ (fun _ => hst) hst) ?_
  intro amount s t hst
  refine Alike.bind (Q := fun _ => Shows) (alike_lift _ (fun _ => hst) hst) ?_
  intro item s t hst
  refine Alike.bind (Q := fun _ => Shows)
    (alike_modify { hst with pending := by rw [hst.pending] }) fun _ s t hst => ?_
  exact alike_schedule hst 3 _

theorem alike_submit (h : Shows shared alone) (transferId : String) :
    Alike (fun _ => Shows) Shows
      (submit (fun callback => (Sum.inl (lift callback) : κ ⊕ ξ)) transferId)
      (submit lift transferId) shared alone := by
  unfold submit
  refine (alike_onTransfer h transferId _).bind fun _ s t hst => ?_
  refine (alike_onTransfer hst transferId _).bind fun request s t hst => ?_
  refine Alike.bind (Q := fun _ => Shows)
    (alike_modify { hst with submissions := by rw [hst.submissions] }) fun _ s t hst => ?_
  exact alike_schedule hst 5 _

theorem alike_process (h : Shows shared alone) (transferId : String) :
    Alike (fun _ => Shows) Shows
      (process (fun callback => (Sum.inl (lift callback) : κ ⊕ ξ)) transferId)
      (process lift transferId) shared alone := by
  unfold process
  refine (alike_onTransfer h transferId _).bind fun _ s t hst => ?_
  exact alike_schedule hst 10 _

theorem alike_complete (h : Shows shared alone) (transferId : String) :
    Alike (fun _ => Shows) Shows (complete transferId) (complete transferId) shared alone := by
  unfold complete
  refine (alike_onTransfer h transferId _).bind fun _ s t hst => ?_
  refine (alike_onTransfer hst transferId _).bind fun request s t hst => ?_
  refine Alike.bind (Q := fun _ => Shows)
    (alike_modify { hst with pending := by rw [hst.pending] }) fun _ s t hst => alike_get ?_
  rw [hst.ledger]
  refine Alike.bind (Q := fun _ => Shows) (alike_lift _ (fun _ => hst) hst) ?_
  intro amount s t hst
  refine Alike.bind (Q := fun _ => Shows) (alike_lift _ (fun _ => hst) hst) ?_
  intro entry s t hst
  refine (alike_append hst entry).bind fun _ s t hst => ?_
  exact alike_onTransfer hst transferId _

/-- A stage goes alike on a shared scheduler and alone. -/
theorem alike_call (h : Shows shared alone) (callback : AchCallback) :
    Alike (fun _ => Shows) Shows
      (call (fun callback => (Sum.inl (lift callback) : κ ⊕ ξ)) callback) (call lift callback)
      shared alone := by
  cases callback with
  | validate transferId => exact alike_validate lift h transferId
  | markPending transferId => exact alike_markPending lift h transferId
  | submit transferId => exact alike_submit lift h transferId
  | process transferId => exact alike_process lift h transferId
  | complete transferId => exact alike_complete h transferId

end AchNetwork

/-! ### The return processor -/

namespace AchReturnProcessor

variable {κ ξ : Type}

/-- What a processor on a shared scheduler shows of the same one alone. -/
structure Shows (shared : AchReturnProcessor (κ ⊕ ξ)) (alone : AchReturnProcessor κ) : Prop where
  network : shared.network.Shows alone.network
  returns : shared.returns = alone.returns
  returnsByTransfer : shared.returnsByTransfer = alone.returnsByTransfer

variable {shared : AchReturnProcessor (κ ⊕ ξ)} {alone : AchReturnProcessor κ}

theorem Shows.now (h : Shows shared alone) :
    shared.network.scheduler.clock.time = alone.network.scheduler.clock.time := by
  rw [h.network.scheduler.clock]

theorem Shows.withScheduler (h : Shows shared alone) {scheduler : EventScheduler (κ ⊕ ξ)}
    {scheduler' : EventScheduler κ} (hscheduler : scheduler.Shows scheduler') :
    Shows (schedulerOf.set scheduler shared) (schedulerOf.set scheduler' alone) :=
  { h with network := { h.network with scheduler := hscheduler } }

/-- What the network does goes alike for the processor that holds it. -/
theorem alike_network {α : Type} {m : Action (AchNetwork (κ ⊕ ξ)) α} {n : Action (AchNetwork κ) α}
    (h : Shows shared alone)
    (hmn : Alike (fun _ => AchNetwork.Shows) AchNetwork.Shows m n shared.network alone.network) :
    Alike (fun _ => Shows) Shows (networkOf.zoom m) (networkOf.zoom n) shared alone :=
  hmn.zoom (fun _ _ _ hend => { h with network := hend }) fun _ _ hend => { h with network := hend }

theorem alike_onReturn {α : Type} (h : Shows shared alone) (returnId : String)
    (method : Action AchReturn α) :
    Alike (fun _ => Shows) Shows (onReturn returnId method) (onReturn returnId method)
      shared alone :=
  alike_zoom _ h.returns fun _ => { h with returns := rfl }

theorem alike_schedule (h : Shows shared alone) (delay : Int) (callback : κ) :
    Alike (fun _ => Shows) Shows
      (schedulerOf.zoom (EventScheduler.scheduleAfter delay (Sum.inl callback : κ ⊕ ξ)))
      (schedulerOf.zoom (EventScheduler.scheduleAfter delay callback)) shared alone :=
  (EventScheduler.alike_scheduleAfter h.network.scheduler delay callback).zoom
    (fun _ _ _ hend => h.withScheduler hend) fun _ _ hend => h.withScheduler hend

theorem alike_ledger {α : Type} (h : Shows shared alone) (m : Action Ledger α) :
    Alike (fun _ => Shows) Shows (ledgerOf.zoom m) (ledgerOf.zoom m) shared alone :=
  alike_zoom _ h.network.ledger fun _ => { h with network := { h.network with ledger := rfl } }

theorem invalidReason_eq (h : Shows shared alone) (request : AchReturnRequest) :
    shared.invalidReason request = alone.invalidReason request := by
  unfold invalidReason
  rw [h.network.transfers, h.returnsByTransfer]

variable (lift : AchReturnCallback → κ)

theorem alike_receive (h : Shows shared alone) (request : AchReturnRequest) :
    Alike (fun _ => Shows) Shows
      (receive (fun callback => (Sum.inl (lift callback) : κ ⊕ ξ)) request)
      (receive lift request) shared alone := by
  unfold receive
  refine alike_get ?_
  rw [h.returns]
  by_cases hknown : request.returnId ∈ alone.returns
  · rw [if_pos hknown, if_pos hknown]
    exact alike_pure h
  · rw [if_neg hknown, if_neg hknown]
    refine Alike.bind (Q := fun _ => Shows)
      (alike_modify { h with returns := by rw [h.returns, h.now] }) fun _ s t hst => ?_
    exact (alike_schedule hst 1 _).bind fun _ s t hst => alike_pure hst

theorem alike_validate (h : Shows shared alone) (returnId : String) :
    Alike (fun _ => Shows) Shows
      (validate (fun callback => (Sum.inl (lift callback) : κ ⊕ ξ)) returnId)
      (validate lift returnId) shared alone := by
  unfold validate
  refine (alike_onReturn h returnId _).bind fun request s t hst => alike_get ?_
  rw [invalidReason_eq hst]
  cases t.invalidReason request with
  | some reason =>
      rw [hst.now]
      exact alike_onReturn hst returnId _
  | none =>
      rw [hst.now]
      refine (alike_onReturn hst returnId _).bind fun _ s t hst => ?_
      refine Alike.bind (Q := fun _ => Shows)
        (alike_modify { hst with returnsByTransfer := by rw [hst.returnsByTransfer] })
        fun _ s t hst => ?_
      exact alike_schedule hst 1 _

theorem alike_process (h : Shows shared alone) (returnId : String) :
    Alike (fun _ => Shows) Shows
      (process (fun callback => (Sum.inl (lift callback) : κ ⊕ ξ)) returnId)
      (process lift returnId) shared alone := by
  unfold process
  refine alike_get ?_
  rw [h.now]
  refine (alike_onReturn h returnId _).bind fun _ s t hst => ?_
  exact alike_schedule hst 3 _

theorem alike_complete (h : Shows shared alone) (returnId : String) :
    Alike (fun _ => Shows) Shows (complete returnId) (complete returnId) shared alone := by
  unfold complete
  refine alike_get ?_
  rw [h.now]
  refine (alike_onReturn h returnId _).bind fun _ s t hst => ?_
  refine (alike_onReturn hst returnId _).bind fun request s t hst => ?_
  refine (alike_network hst (AchNetwork.alike_onTransfer hst.network _ _)).bind
    fun original s t hst => alike_get ?_
  rw [hst.network.ledger]
  refine Alike.bind (Q := fun _ => Shows) (alike_lift _ (fun _ => hst) hst) ?_
  intro amount s t hst
  refine Alike.bind (Q := fun _ => Shows) (alike_lift _ (fun _ => hst) hst) ?_
  intro entry s t hst
  refine (alike_ledger hst _).bind fun _ s t hst => ?_
  exact alike_onReturn hst returnId _

/-- A stage goes alike on a shared scheduler and alone. -/
theorem alike_call (h : Shows shared alone) (callback : AchReturnCallback) :
    Alike (fun _ => Shows) Shows
      (call (fun callback => (Sum.inl (lift callback) : κ ⊕ ξ)) callback) (call lift callback)
      shared alone := by
  cases callback with
  | validate returnId => exact alike_validate lift h returnId
  | process returnId => exact alike_process lift h returnId
  | complete returnId => exact alike_complete h returnId

end AchReturnProcessor

/-! ### The world -/

/-- The two components on a scheduler that others use as well. -/
abbrev SharedAch (ξ : Type) :=
  AchReturnProcessor ((AchCallback ⊕ AchReturnCallback) ⊕ ξ)

variable {ξ σ : Type}

/-- Run a closure of either component. -/
def SharedAch.callEither : AchCallback ⊕ AchReturnCallback → Action (SharedAch ξ) Unit
  | .inl callback => AchReturnProcessor.networkOf.zoom
      (AchNetwork.call (fun callback => Sum.inl (Sum.inl callback)) callback)
  | .inr callback => AchReturnProcessor.call (fun callback => Sum.inl (Sum.inr callback)) callback

/-- What others can do with the components, their ledger, their clock and their
    scheduler. -/
inductive SharedUse (ξ : Type)
  | receive (request : AchTransferRequest)
  | receiveReturn (request : AchReturnRequest)
  | call (callback : AchCallback ⊕ AchReturnCallback)
  | scheduleAt (time : Int) (callback : ξ)
  | scheduleAfter (delay : Int) (callback : ξ)
  | advanceTo (newTime : Int)
  | advanceBy (amount : Int)
  | append (entry : LedgerEntry)
  | appendBatch (entries : List LedgerEntry)

namespace SharedUse

def exec : SharedUse ξ → Action (SharedAch ξ) Unit
  | .receive request => do
      let _ ← AchReturnProcessor.networkOf.zoom
        (AchNetwork.receive (fun callback => Sum.inl (Sum.inl callback)) request)
  | .receiveReturn request => do
      let _ ← AchReturnProcessor.receive (fun callback => Sum.inl (Sum.inr callback)) request
  | .call callback => SharedAch.callEither callback
  | .scheduleAt time callback =>
      AchReturnProcessor.schedulerOf.zoom (EventScheduler.scheduleAt time (Sum.inr callback))
  | .scheduleAfter delay callback =>
      AchReturnProcessor.schedulerOf.zoom (EventScheduler.scheduleAfter delay (Sum.inr callback))
  | .advanceTo newTime => do
      let _ ← (AchReturnProcessor.schedulerOf.comp EventScheduler.clockOf).zoom
        (VirtualClock.advanceTo newTime)
  | .advanceBy amount => do
      let _ ← (AchReturnProcessor.schedulerOf.comp EventScheduler.clockOf).zoom
        (VirtualClock.advanceBy amount)
  | .append entry => AchReturnProcessor.ledgerOf.zoom (Ledger.append entry)
  | .appendBatch entries => AchReturnProcessor.ledgerOf.zoom (Ledger.appendBatch entries)

/-- The calls of the components that this is. What others schedule is none. -/
def calls : SharedUse ξ → List AchSystemCall
  | .receive request => [.receive request]
  | .receiveReturn request => [.receiveReturn request]
  | .call callback => [.call callback]
  | .scheduleAt _ _ => []
  | .scheduleAfter _ _ => []
  | .advanceTo newTime => [.advanceTo newTime]
  | .advanceBy amount => [.advanceBy amount]
  | .append entry => [.append entry]
  | .appendBatch entries => [.appendBatch entries]

end SharedUse

namespace SharedAch

open AchReturnProcessor

variable {shared : SharedAch ξ} {alone : AchSystem}

/-- A closure goes alike on the shared scheduler and alone. -/
theorem alike_callEither (h : Shows shared alone)
    (callback : AchCallback ⊕ AchReturnCallback) :
    Alike (fun _ => Shows) Shows (callEither (ξ := ξ) callback)
      (AchReturnProcessor.callEither callback) shared alone := by
  cases callback with
  | inl callback => exact alike_network h (AchNetwork.alike_call Sum.inl h.network callback)
  | inr callback => exact AchReturnProcessor.alike_call Sum.inr h callback

/-- A program of the clock goes alike. -/
theorem alike_clock {α : Type} (h : Shows shared alone) (m : Action VirtualClock α) :
    Alike (fun _ => Shows) Shows ((schedulerOf.comp EventScheduler.clockOf).zoom m)
      (AchSystem.clockOf.zoom m) shared alone :=
  alike_zoom _ h.network.scheduler.clock fun clock =>
    h.withScheduler (h.network.scheduler.withClock clock)

/-- What others schedule does not show. -/
theorem shows_scheduled (h : Shows shared alone) (time : Int) (callback : ξ) :
    Shows (schedulerOf.set (shared.network.scheduler.offered time (.inr callback)) shared)
      alone := by
  refine h.withScheduler
    (?_ : (shared.network.scheduler.offered time (.inr callback)).Shows alone.network.scheduler)
  unfold EventScheduler.offered
  by_cases htime : shared.network.scheduler.clock.time ≤ time
  · rw [if_pos htime]
    exact h.network.scheduler.foreign time callback
  · rw [if_neg htime]
    exact h.network.scheduler

/-- What others do to the components is a run of calls. -/
theorem shows_use (h : Shows shared alone) (how : SharedUse ξ) :
    Shows (after how.exec shared) (finalState AchSystemCall.exec alone how.calls) := by
  cases how with
  | receive request =>
      have halike := alike_network h (AchNetwork.alike_receive Sum.inl h.network request)
      change Shows _ (after (AchSystemCall.receive request).exec alone)
      rw [SharedUse.exec, AchSystemCall.exec, after_discard, after_discard]
      exact halike.after
  | receiveReturn request =>
      have halike := AchReturnProcessor.alike_receive Sum.inr h request
      change Shows _ (after (AchSystemCall.receiveReturn request).exec alone)
      rw [SharedUse.exec, AchSystemCall.exec, after_discard, after_discard]
      exact halike.after
  | call callback => exact (alike_callEither h callback).after
  | scheduleAt time callback =>
      rw [SharedUse.exec, Component.after_zoom, EventScheduler.after_scheduleAt]
      exact shows_scheduled h time callback
  | scheduleAfter delay callback =>
      rw [SharedUse.exec, Component.after_zoom]
      -- A negative delay is refused, and any other puts a callback of others on the queue.
      by_cases hdelay : delay < 0
      · rcases @EventScheduler.scheduleAfter_of_neg _ (schedulerOf.get shared) delay
          (Sum.inr callback : (AchCallback ⊕ AchReturnCallback) ⊕ ξ) hdelay with ⟨e, he⟩
        rw [after_of_error he, schedulerOf.set_get]
        exact h
      · have hscheduled := shows_scheduled h (shared.network.scheduler.clock.time + delay) callback
        rw [after_of_ok (EventScheduler.scheduleAfter_of_nonneg _ (not_lt.mp hdelay))]
        unfold EventScheduler.offered at hscheduled
        rw [if_pos (by omega)] at hscheduled
        exact hscheduled
  | advanceTo newTime =>
      change Shows _ (after (AchSystemCall.advanceTo newTime).exec alone)
      rw [SharedUse.exec, AchSystemCall.exec, after_discard, after_discard]
      exact (alike_clock h _).after
  | advanceBy amount =>
      change Shows _ (after (AchSystemCall.advanceBy amount).exec alone)
      rw [SharedUse.exec, AchSystemCall.exec, after_discard, after_discard]
      exact (alike_clock h _).after
  | append entry => exact (alike_ledger h _).after
  | appendBatch entries => exact (alike_ledger h _).after

theorem shows_uses (uses : List (SharedUse ξ)) {shared : SharedAch ξ} {alone : AchSystem}
    (h : Shows shared alone) : Shows (finalState SharedUse.exec shared uses)
      (finalState AchSystemCall.exec alone (uses.flatMap SharedUse.calls)) := by
  induction uses generalizing shared alone with
  | nil => exact h
  | cons how uses ih =>
      rw [List.flatMap_cons, finalState_append]
      exact ih (shows_use h how)

end SharedAch

/-- One step of the world. -/
inductive SharedStep (ξ : Type)
  | use (how : SharedUse ξ)
  | runNext

namespace SharedStep

variable (ach : Component σ (SharedAch ξ)) (other : ξ → Action σ Unit)

/-- Run a callback of the scheduler. -/
def call : (AchCallback ⊕ AchReturnCallback) ⊕ ξ → Action σ Unit
  | .inl callback => ach.zoom (SharedAch.callEither callback)
  | .inr callback => other callback

def exec : SharedStep ξ → Action σ Unit
  | .use how => ach.zoom how.exec
  | .runNext => do
      let _ ← EventScheduler.runNext (ach.comp AchReturnProcessor.schedulerOf) (call ach other)

/-- If the step is a use, it is of this kind. -/
def Uses (kind : SharedUse ξ → Prop) : SharedStep ξ → Prop
  | .use how => kind how
  | .runNext => True

end SharedStep

/-! ### Steps and runs -/

namespace SharedAch

open AchReturnProcessor

section Steps

variable {ach : Component σ (SharedAch ξ)} {other : ξ → Action σ Unit}
  {kind : SharedUse ξ → Prop} {may : AchSystemCall → Prop} {s : σ} {alone : AchSystem}

/-- The clock of the components is moved on to the time of an event. -/
theorem advanceTo_exec (alone : AchSystem) {clock : VirtualClock}
    (hclock : alone.network.scheduler.clock.time ≤ clock.time) :
    after (AchSystemCall.advanceTo clock.time).exec alone
      = schedulerOf.set { alone.network.scheduler with clock } alone := by
  rw [AchSystemCall.exec, after_discard, Component.after_zoom]
  rcases EventScheduler.advanceTo_of_le hclock with ⟨moved, hmoved, hrun⟩
  have hget : (AchSystem.clockOf).get alone = alone.network.scheduler.clock := rfl
  rw [hget, after_of_ok hrun, VirtualClock.ext hmoved]
  rfl

variable (hother : ∀ callback, OnlyMakes ach SharedUse.exec kind (other callback))
  (hkind : ∀ how, kind how → ∀ call ∈ how.calls, may call)

include hother hkind in
/-- A callback of others is a run of calls. -/
theorem shows_other (h : (ach.get s).Shows alone) (callback : ξ) :
    ∃ calls : List AchSystemCall, (∀ call ∈ calls, may call) ∧
      (ach.get (after (other callback) s)).Shows (finalState AchSystemCall.exec alone calls) := by
  rcases hother callback s with ⟨uses, huses, hget⟩
  refine ⟨uses.flatMap SharedUse.calls, fun call hmem => ?_, ?_⟩
  · rcases List.mem_flatMap.mp hmem with ⟨how, hhow, hcall⟩
    exact hkind how (huses how hhow) call hcall
  · rw [hget]
    exact shows_uses uses h

/-- A closure of the components is run by both schedulers, or is late on both. -/
theorem shows_own (h : (ach.get s).Shows alone)
    {event : Event ((AchCallback ⊕ AchReturnCallback) ⊕ ξ)}
    {rest : List (Event ((AchCallback ⊕ AchReturnCallback) ⊕ ξ))}
    {callback : AchCallback ⊕ AchReturnCallback}
    (hqueue : (ach.get s).network.scheduler.queue = event :: rest)
    (hcallback : event.callback = .inl callback) :
    (ach.get (after (SharedStep.exec ach other .runNext) s)).Shows
      (after AchSystemCall.runNext.exec alone) := by
  rcases h.network.scheduler.popped_own hqueue hcallback with
    ⟨event', rest', hqueue', htime, hcallback', hready⟩
  have hnow : alone.network.scheduler.clock = (ach.get s).network.scheduler.clock :=
    h.network.scheduler.clock.symm
  rw [SharedStep.exec, AchSystemCall.exec, after_discard, after_discard, AchReturnProcessor.runNext]
  by_cases hdue : (ach.get s).network.scheduler.clock.time ≤ event.time
  · rcases EventScheduler.advanceTo_of_le hdue with ⟨clock, hclock, -⟩
    have hdue' : (schedulerOf.get alone).clock.time ≤ event'.time := by
      change alone.network.scheduler.clock.time ≤ event'.time
      rw [hnow, htime]
      exact hdue
    rcases EventScheduler.after_runNext_due (ach.comp schedulerOf) (SharedStep.call ach other)
      hqueue hdue hclock rfl with ⟨history, hafter⟩
    rcases EventScheduler.after_runNext_due schedulerOf AchReturnProcessor.callEither hqueue' hdue'
      (hclock.trans htime.symm) rfl with ⟨history', hafter'⟩
    -- On the worlds in which the event is gone the closure goes alike.
    have hcall := (alike_callEither (h.withScheduler (hready clock)) callback).after
    rw [hafter, hafter', hcallback, hcallback', ach.get_comp_set]
    have hworld : ach.get (after (SharedStep.call ach other (.inl callback))
          ((ach.comp schedulerOf).set (((ach.comp schedulerOf).get s).ready clock rest) s))
        = after (callEither callback)
          (schedulerOf.set ((schedulerOf.get (ach.get s)).ready clock rest) (ach.get s)) := by
      rw [SharedStep.call, Component.after_zoom, ach.get_set, ach.get_comp_set]
      rfl
    have hscheduler : ((ach.comp schedulerOf).get (after (SharedStep.call ach other (.inl callback))
          ((ach.comp schedulerOf).set (((ach.comp schedulerOf).get s).ready clock rest) s)))
        = schedulerOf.get (after (callEither callback)
          (schedulerOf.set ((schedulerOf.get (ach.get s)).ready clock rest) (ach.get s))) :=
      congrArg schedulerOf.get hworld
    rw [hscheduler, hworld]
    exact hcall.withScheduler (hcall.network.scheduler.withHistory history history')
  · have hlate := not_le.mp hdue
    have hlate' : event'.time < (schedulerOf.get alone).clock.time := by
      change event'.time < alone.network.scheduler.clock.time
      rw [hnow, htime]
      exact hlate
    rw [EventScheduler.after_runNext_late (ach.comp schedulerOf) (SharedStep.call ach other) hqueue
      hlate, EventScheduler.after_runNext_late schedulerOf AchReturnProcessor.callEither hqueue'
      hlate', ach.get_comp_set]
    -- The event is dropped by both, and their clocks stay as they were.
    have hpopped := hready (ach.get s).network.scheduler.clock
    exact h.withScheduler ⟨h.network.scheduler.clock, hpopped.inOrder, hpopped.numbered,
      hpopped.agenda⟩

include hother hkind in
/-- A callback of others leaves the components' scheduler idle, whose clock moves
    on to its time unless it is late. -/
theorem shows_foreign (hadvance : ∀ time, may (.advanceTo time)) (h : (ach.get s).Shows alone)
    {event : Event ((AchCallback ⊕ AchReturnCallback) ⊕ ξ)}
    {rest : List (Event ((AchCallback ⊕ AchReturnCallback) ⊕ ξ))} {callback : ξ}
    (hqueue : (ach.get s).network.scheduler.queue = event :: rest)
    (hcallback : event.callback = .inr callback) :
    ∃ piece : List AchSystemCall, (∀ call ∈ piece, may call) ∧
      (ach.get (after (SharedStep.exec ach other .runNext) s)).Shows
        (finalState AchSystemCall.exec alone piece) := by
  have hpopped := h.network.scheduler.popped_foreign hqueue hcallback
  rw [SharedStep.exec, after_discard]
  by_cases hdue : (ach.get s).network.scheduler.clock.time ≤ event.time
  · rcases EventScheduler.advanceTo_of_le hdue with ⟨clock, hclock, -⟩
    rcases EventScheduler.after_runNext_due (ach.comp schedulerOf) (SharedStep.call ach other)
      hqueue hdue hclock rfl with ⟨history, hafter⟩
    -- The clock of the components alone has to be moved by a call of its own.
    have hready : (ach.get ((ach.comp schedulerOf).set
          (((ach.comp schedulerOf).get s).ready clock rest) s)).Shows
        (after (AchSystemCall.advanceTo clock.time).exec alone) := by
      rw [ach.get_comp_set, advanceTo_exec alone (by rw [← h.now, hclock]; exact hdue)]
      exact h.withScheduler (hpopped clock)
    rcases shows_other hother hkind hready callback with ⟨calls, hcalls, hend⟩
    refine ⟨.advanceTo clock.time :: calls, fun call hmem => ?_, ?_⟩
    · rcases List.mem_cons.mp hmem with rfl | hmem
      · exact hadvance clock.time
      · exact hcalls call hmem
    · rw [hafter, hcallback, ach.get_comp_set]
      have hrecorded := hend.withScheduler (hend.network.scheduler.withHistory history
        (finalState AchSystemCall.exec (after (AchSystemCall.advanceTo clock.time).exec alone)
          calls).network.scheduler.history)
      exact hrecorded
  · refine ⟨[], fun _ hmem => absurd hmem List.not_mem_nil, ?_⟩
    -- A late callback is dropped, and the components alone do nothing.
    rw [EventScheduler.after_runNext_late (ach.comp schedulerOf) (SharedStep.call ach other) hqueue
      (not_le.mp hdue), ach.get_comp_set]
    have hdropped := hpopped (ach.get s).network.scheduler.clock
    exact h.withScheduler ⟨h.network.scheduler.clock, hdropped.inOrder, hdropped.numbered,
      hdropped.agenda⟩

include hother hkind in
/-- A step of the world is a run of calls of the components alone. -/
theorem shows_step (hnext : may .runNext) (hadvance : ∀ time, may (.advanceTo time))
    (h : (ach.get s).Shows alone) {step : SharedStep ξ} (hstep : step.Uses kind) :
    ∃ piece : List AchSystemCall, (∀ call ∈ piece, may call) ∧
      (ach.get (after (step.exec ach other) s)).Shows
        (finalState AchSystemCall.exec alone piece) := by
  cases step with
  | use how =>
      refine ⟨how.calls, hkind how hstep, ?_⟩
      rw [SharedStep.exec, Component.after_zoom, ach.get_set]
      exact shows_use h how
  | runNext =>
      cases hqueue : (ach.get s).network.scheduler.queue with
      | nil =>
          refine ⟨[], fun _ hmem => absurd hmem List.not_mem_nil, ?_⟩
          rw [SharedStep.exec, after_discard,
            after_of_ok (EventScheduler.runNext_nil (ach.comp schedulerOf) _ hqueue)]
          exact h
      | cons event rest =>
          cases hcallback : event.callback with
          | inl callback =>
              refine ⟨[.runNext], fun call hmem => ?_, shows_own h hqueue hcallback⟩
              rw [List.mem_singleton.mp hmem]
              exact hnext
          | inr callback => exact shows_foreign hother hkind hadvance h hqueue hcallback

end Steps

/-- The components before anybody has used them. -/
def new (ledger : Ledger) (clock : VirtualClock) : SharedAch ξ :=
  AchReturnProcessor.new (AchNetwork.new ledger (EventScheduler.new clock))

theorem shows_new (ledger : Ledger) (clock : VirtualClock) :
    Shows (new ledger clock : SharedAch ξ)
      (AchReturnProcessor.new (AchNetwork.new ledger (EventScheduler.new clock))) where
  network :=
    { scheduler := EventScheduler.shows_new clock
      ledger := rfl
      pending := rfl
      submissions := rfl
      transfers := rfl }
  returns := rfl
  returnsByTransfer := rfl

/-- What the components come to alone, as far as others may go. -/
def Known (kind : SharedUse ξ → Prop) (call : AchSystemCall) : Prop :=
  call = .runNext ∨ (∃ time, call = .advanceTo time) ∨ ∃ how, kind how ∧ call ∈ how.calls

/-- A run of the world is a run of the components alone, cut into a piece for each
    step: after every step the two agree in the workflows, the holds, the ledger and
    the clock, and the same closures are due in the same order. The calls it consists
    of are steps of the scheduler, moves of the clock, and what others do. -/
theorem shared_runs_refine (ach : Component σ (SharedAch ξ)) (other : ξ → Action σ Unit)
    (kind : SharedUse ξ → Prop)
    (hother : ∀ callback, OnlyMakes ach SharedUse.exec kind (other callback)) (ledger : Ledger)
    (clock : VirtualClock) (s : σ) (hstart : ach.get s = new ledger clock)
    (steps : List (SharedStep ξ)) (hsteps : ∀ step ∈ steps, step.Uses kind) :
    ∃ pieces : List (List AchSystemCall), pieces.length = steps.length ∧
      (∀ piece ∈ pieces, ∀ call ∈ piece, Known kind call) ∧
      ∀ n, (ach.get (finalState (SharedStep.exec ach other) s (steps.take n))).Shows
        (finalState AchSystemCall.exec
          (AchReturnProcessor.new (AchNetwork.new ledger (EventScheduler.new clock)))
          (pieces.take n).flatten) := by
  refine simulated_run (R := fun t alone => (ach.get t).Shows alone) ?_ ?_ hsteps
  · intro t alone step h hstep
    refine shows_step hother (fun how hhow call hmem => ?_) (Or.inl rfl) (fun time => ?_) h hstep
    · exact Or.inr (Or.inr ⟨how, hhow, hmem⟩)
    · exact Or.inr (Or.inl ⟨time, rfl⟩)
  · rw [hstart]
    exact shows_new ledger clock

/-- Others leave the ledger to the components. -/
def Spares (how : SharedUse ξ) : Prop :=
  ∀ call ∈ how.calls, call.Internal

/-- Code that sends a transfer back when its time has come. -/
def sendBack (request : AchReturnRequest) : Action (SharedAch AchReturnRequest) Unit :=
  (SharedUse.receiveReturn request).exec

theorem onlyMakes_sendBack (request : AchReturnRequest) :
    OnlyMakes Component.whole SharedUse.exec Spares (sendBack request) := by
  intro s
  refine ⟨[.receiveReturn request], fun how hmem call hcall => ?_, rfl⟩
  rw [List.mem_singleton.mp hmem] at hcall
  rw [List.mem_singleton.mp hcall]
  rfl

/-- A transfer that is sent back on the day after its completion. -/
def sentBack : List (SharedStep AchReturnRequest) :=
  [ .use (.receive
      { transferId := "ACH-0001", sourceAccountId := "HCCU-DEMO-001"
        destinationInstitution := "Blue Ridge National Bank"
        destinationReference := "EXTERNAL-ACCOUNT-001", amountCents := 25000
        description := "External transfer" }),
    .use (.scheduleAt 11 ⟨"RETURN-0001", "ACH-0001", .accountClosed, 25000⟩),
    .runNext, .runNext, .runNext, .runNext, .runNext, .runNext, .runNext, .runNext, .runNext ]

theorem uses_sentBack : ∀ step ∈ sentBack, step.Uses Spares := by
  simp [sentBack, SharedStep.Uses, Spares, SharedUse.calls, AchSystemCall.Internal]

theorem shared_runs_refine_sentBack :
    ∃ pieces : List (List AchSystemCall), pieces.length = sentBack.length ∧
      (∀ piece ∈ pieces, ∀ call ∈ piece, Known (Spares (ξ := AchReturnRequest)) call) ∧
      ∀ n, (finalState (SharedStep.exec Component.whole sendBack)
          (new lateEntryStart.network.ledger ⟨0, numeral_nonneg⟩) (sentBack.take n)).Shows
        (finalState AchSystemCall.exec
          (AchReturnProcessor.new (AchNetwork.new lateEntryStart.network.ledger
            (EventScheduler.new ⟨0, numeral_nonneg⟩)))
          (pieces.take n).flatten) :=
  shared_runs_refine Component.whole sendBack Spares onlyMakes_sendBack
    lateEntryStart.network.ledger ⟨0, numeral_nonneg⟩ _ rfl sentBack uses_sentBack

/-- Others that leave the ledger to the components cannot make them post anything
    twice: in every state of the world the entries since the opening are one debit
    for each debited transfer and one credit of the full amount for each refunded
    one, which is the only one to carry it. -/
theorem shared_effects_once (ach : Component σ (SharedAch ξ)) (other : ξ → Action σ Unit)
    (hother : ∀ callback, OnlyMakes ach SharedUse.exec Spares (other callback)) (ledger : Ledger)
    (clock : VirtualClock) (s : σ) (hstart : ach.get s = new ledger clock)
    (steps : List (SharedStep ξ)) (hsteps : ∀ step ∈ steps, step.Uses Spares) :
    AllStates (SharedStep.exec ach other)
      (fun t => ∃ entries, (ach.get t).network.ledger.entries = ledger.entries ++ entries ∧
        (ach.get t).work.EffectsOnce entries ∧ ∀ transferId, (entries.filter fun entry =>
          entry.originalTransferId = some transferId).length ≤ 1) s steps := by
  have hsound : AllStates (SharedStep.exec ach other)
      (fun t => ∃ alone : AchSystem, (ach.get t).Shows alone ∧ alone.work.Sound ledger.entries)
      s steps := by
    refine allStates_of_allSteps (C := fun _ step => step.Uses Spares) ?_ ?_
      (allSteps_of_forall fun _ => hsteps)
    · -- The components alone stay sound in the calls that a step comes to.
      rintro t step ⟨alone, hshows, hsound⟩ hstep
      have hpieces : ∃ piece : List AchSystemCall, (∀ call ∈ piece, call.Internal) ∧
          (ach.get (after (step.exec ach other) t)).Shows
            (finalState AchSystemCall.exec alone piece) :=
        shows_step hother (fun how hhow => hhow) rfl (fun _ => rfl) hshows hstep
      rcases hpieces with ⟨piece, hpiece, hnext⟩
      refine ⟨_, hnext, ?_⟩
      exact allStates_finalState (allStates_of_allSteps
        (C := fun _ call => call.Internal) (fun system call hsystem hcall =>
          (step_exec system call hcall).sound hsystem) hsound
        (allSteps_of_forall fun _ call hmem => hpiece call hmem))
    · refine ⟨_, hstart ▸ shows_new ledger clock, fun _ item hget => ?_, [], ?_,
        Keyed.oneEach_nil _, Keyed.oneEach_nil _⟩
      · cases hget
      · exact (List.append_nil _).symm
  refine allStates_mono ?_ hsound
  rintro t ⟨alone, hshows, hsound⟩
  -- The world shows the work of the components alone, and its ledger.
  have hwork : (ach.get t).work = alone.work := by
    unfold AchReturnProcessor.work
    rw [hshows.network.transfers, hshows.network.ledger, hshows.returns, hshows.returnsByTransfer]
  rcases hsound.effects with ⟨entries, hentries, heffects⟩
  refine ⟨entries, ?_, ?_, heffects.carried_once⟩
  · rw [hshows.network.ledger]
    exact hentries
  · rw [hwork]
    exact heffects

theorem shared_effects_once_sentBack :
    AllStates (SharedStep.exec Component.whole sendBack)
      (fun t => ∃ entries,
        t.network.ledger.entries = lateEntryStart.network.ledger.entries ++ entries ∧
        t.work.EffectsOnce entries ∧ ∀ transferId, (entries.filter fun entry =>
          entry.originalTransferId = some transferId).length ≤ 1)
      (new lateEntryStart.network.ledger ⟨0, numeral_nonneg⟩) sentBack :=
  shared_effects_once Component.whole sendBack onlyMakes_sendBack lateEntryStart.network.ledger
    ⟨0, numeral_nonneg⟩ _ rfl sentBack uses_sentBack

end SharedAch

end BankSim
