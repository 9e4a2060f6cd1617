import BankSim.Theory.AchHolds
import BankSim.Theory.AchSettlement
import BankSim.Theory.Workflows

/-!
# ACH Runs Come to an End

A network and a return processor are left to their drivers: the two receive
methods, scheduler steps, and moves of the clock that overtake nothing. Then
whatever has been received and wherever the run is, `scheduler.run()` from
there does not raise and comes to an end, and every workflow has come to its
end with it. No funds are held any more, and what was posted is what the
settlement expectations say.

The reason is that the queue and the statuses agree. The status of a transfer
says which stage it waits for, the stage is on the queue for the time that
stages of its kind have, and at that time nothing refuses it: a hold can be
built if the text is not blank, and a posting fits as the settlement invariant
says. Running the stage moves the transfer on and queues the next one.

One thing can go wrong on the way in. A request that is received after time 1
is stored, and then its validation is refused as past. Nothing will ever run
for it, and so it is still received in the end. That is the only exception.

## Main definitions

* `AchTransferStatus.awaits`, `AchReturnStatus.awaits`: The next stage.
* `AchSystem.Underway`: The invariant of the driven runs.
* `AchSystem.Drained`: What a run leaves.
* `AchSystemCall.Regular`: A driving call that overtakes nothing.

## Theorems

* `AchNetwork.call_due`, `AchReturnProcessor.call_due`: Stages return.
* `Underway.runNext`: A step keeps the invariant and leaves less to do.
* `underway_exec`: So do the other driving calls, as far as they keep it.
* `driven_runs_drain`: Every state of a driven run drains.
-/

namespace BankSim

open Exec

/-! ### Which stage is next -/

/-- The stage that a transfer with this status waits for. -/
def AchTransferStatus.awaits (transferId : String) : AchTransferStatus → Option AchCallback
  | .received => some (.validate transferId)
  | .validated => some (.markPending transferId)
  | .pending => some (.submit transferId)
  | .submitted => some (.process transferId)
  | .processing => some (.complete transferId)
  | .completed | .rejected => none

/-- The stage that a return with this status waits for. -/
def AchReturnStatus.awaits (returnId : String) : AchReturnStatus → Option AchReturnCallback
  | .received => some (.validate returnId)
  | .validated => some (.process returnId)
  | .processing => some (.complete returnId)
  | .completed | .rejected => none

/-- The time that a stage is scheduled for. -/
def AchCallback.dueAt : AchCallback → Int
  | .validate _ => 1
  | .markPending _ => 2
  | .submit _ => 3
  | .process _ => 5
  | .complete _ => 10

/-- How many stages come after a stage. -/
def AchCallback.rank : AchCallback → Nat
  | .validate _ => 4
  | .markPending _ => 3
  | .submit _ => 2
  | .process _ => 1
  | .complete _ => 0

/-- How long after the stage before it a stage of a return is scheduled. -/
def AchReturnCallback.delay : AchReturnCallback → Int
  | .validate _ => 1
  | .process _ => 1
  | .complete _ => 3

def AchReturnCallback.rank : AchReturnCallback → Nat
  | .validate _ => 2
  | .process _ => 1
  | .complete _ => 0

theorem AchTransferStatus.awaits_eq_some {transferId : String} {status : AchTransferStatus}
    {callback : AchCallback} (h : status.awaits transferId = some callback) :
    status = callback.source ∧ callback.transferId = transferId := by
  cases status <;> cases h <;> exact ⟨rfl, rfl⟩

theorem AchReturnStatus.awaits_eq_some {returnId : String} {status : AchReturnStatus}
    {callback : AchReturnCallback} (h : status.awaits returnId = some callback) :
    status = callback.source ∧ callback.returnId = returnId := by
  cases status <;> cases h <;> exact ⟨rfl, rfl⟩

theorem AchTransferStatus.awaits_eq_none_iff (transferId : String)
    (status : AchTransferStatus) :
    status.awaits transferId = none ↔ status = .completed ∨ status = .rejected := by
  cases status <;> simp [awaits]

theorem AchReturnStatus.awaits_eq_none_iff (returnId : String) (status : AchReturnStatus) :
    status.awaits returnId = none ↔ status = .completed ∨ status = .rejected := by
  cases status <;> simp [awaits]

/-- A stage leads to a status with a later stage, or with none. -/
theorem AchCallback.next_lt {callback next : AchCallback} {status : AchTransferStatus}
    {transferId : String} (hallowed : status ∈ callback.source.allowedTransitions)
    (hnext : status.awaits transferId = some next) :
    next.rank < callback.rank ∧ callback.dueAt ≤ next.dueAt := by
  cases callback <;> cases status <;>
    simp [source, AchTransferStatus.allowedTransitions, AchTransferStatus.awaits]
      at hallowed hnext <;>
    subst hnext <;> simp [rank, dueAt]

theorem AchReturnCallback.next_lt {callback next : AchReturnCallback} {status : AchReturnStatus}
    {returnId : String} (hallowed : status ∈ callback.source.allowedTransitions)
    (hnext : status.awaits returnId = some next) : next.rank < callback.rank := by
  cases callback <;> cases status <;>
    simp [source, AchReturnStatus.allowedTransitions, AchReturnStatus.awaits]
      at hallowed hnext <;>
    subst hnext <;> simp [rank]

/-! ### A stage that is due returns -/

namespace AchNetwork

variable {κ : Type}

/-- At its own time, the stage that a transfer waits for returns, if its hold
    can be built and its debit fits where that is what it is about. It moves
    the transfer on and schedules what that waits for then. -/
theorem call_due (lift : AchCallback → κ) {network : AchNetwork κ} {callback : AchCallback}
    {transfer : AchTransfer} (htime : network.scheduler.clock.time = callback.dueAt)
    (hget : network.transfers.get? callback.transferId = some transfer)
    (hstatus : transfer.status = callback.source)
    (hhold : transfer.status = .validated → transfer.request.Holdable)
    (hfits : transfer.status = .processing →
      transfer.request.debitPosting.Fits network.ledger) :
    ∃ (transfer' : AchTransfer) (later : AchNetwork κ),
      (call lift callback).run network = .ok () later ∧
      later.transfers = network.transfers.set callback.transferId transfer' ∧
      transfer'.request = transfer.request ∧
      transfer'.status ∈ callback.source.allowedTransitions ∧
      later.scheduler = (transfer'.status.awaits callback.transferId).elim network.scheduler
        fun next => network.scheduler.scheduled next.dueAt (lift next) := by
  -- The next stage is scheduled for a time that is not past.
  have hschedule : ∀ {stage : Action (AchNetwork κ) Unit} {moved : AchNetwork κ}
      {next : AchCallback}, stage.run network
        = (schedulerOf.zoom (EventScheduler.scheduleAt next.dueAt (lift next))).run moved →
      moved.scheduler = network.scheduler → callback.dueAt ≤ next.dueAt → stage.run network
        = .ok () { moved with scheduler := moved.scheduler.scheduled next.dueAt (lift next) } := by
    intro stage moved next hrun hsame hle
    refine hrun.trans (Component.zoom_run_ok (p := schedulerOf)
      (EventScheduler.scheduleAt_of_le _ ?_))
    change moved.scheduler.clock.time ≤ next.dueAt
    rw [hsame, htime]
    exact hle
  cases callback with
  | validate transferId =>
      have hrun := validate_of_received lift hget hstatus
      cases hreason : network.rejectionReason transfer.request with
      | some reason =>
          rw [hreason] at hrun
          exact ⟨_, _, hrun, rfl, rfl, (AchTransfer.rejected_allowed_iff .received).mpr rfl, rfl⟩
      | none =>
          rw [hreason] at hrun
          have hnext := @hschedule _ _ (.markPending transferId) hrun rfl
            (by decide : (1 : Int) ≤ 2)
          exact ⟨_, _, hnext, rfl, rfl, (AchTransfer.validated_allowed_iff .received).mpr rfl, rfl⟩
  | markPending transferId =>
      have hrun := markPending_of_holdable lift hget hstatus (hhold hstatus)
      have hnext := @hschedule _ _ (.submit transferId) hrun rfl (by decide : (2 : Int) ≤ 3)
      exact ⟨_, _, hnext, rfl, rfl, (AchTransfer.pending_allowed_iff .validated).mpr rfl, rfl⟩
  | submit transferId =>
      have hrun := submit_of_pending lift hget hstatus
      have hnext := @hschedule _ _ (.process transferId) hrun rfl (by decide : (3 : Int) ≤ 5)
      exact ⟨_, _, hnext, rfl, rfl, (AchTransfer.submitted_allowed_iff .pending).mpr rfl, rfl⟩
  | process transferId =>
      have hrun := process_of_submitted lift hget hstatus
      have hnext := @hschedule _ _ (.complete transferId) hrun rfl (by decide : (5 : Int) ≤ 10)
      exact ⟨_, _, hnext, rfl, rfl, (AchTransfer.processing_allowed_iff .submitted).mpr rfl, rfl⟩
  | complete transferId =>
      exact ⟨_, _, complete_of_fits hget hstatus (hfits hstatus), rfl, rfl,
        (AchTransfer.completed_allowed_iff .processing).mpr rfl, rfl⟩

/-- With no transfer in flight there are no holds. -/
theorem Mirrored.pending_nil {network : AchNetwork κ} (h : network.Mirrored)
    (hdone : ∀ transferId transfer, network.transfers.get? transferId = some transfer →
      transfer.status.Held = false) : network.pending = [] := by
  refine List.eq_nil_iff_forall_not_mem.mpr fun item hitem => ?_
  have hheld : network.heldFor item.transactionId = [] := by
    cases hget : network.transfers.get? item.transactionId with
    | none =>
        rw [h.mirror, hget]
        rfl
    | some transfer => exact h.heldFor_of_not_held hget (hdone _ transfer hget)
  unfold heldFor at hheld
  rw [List.map_eq_nil_iff, List.filter_eq_nil_iff] at hheld
  exact hheld item hitem (decide_eq_true rfl)

end AchNetwork

namespace AchReturnProcessor

variable {κ : Type}

/-- The same for a return. Its stages can be run at any time. -/
theorem call_due (lift : AchReturnCallback → κ) {self : AchReturnProcessor κ}
    {callback : AchReturnCallback} {item : AchReturn}
    (hget : self.returns.get? callback.returnId = some item)
    (hstatus : item.status = callback.source)
    (hfits : item.status = .processing →
      self.CreditFits item.request self.network.scheduler.clock.time) :
    ∃ (item' : AchReturn) (later : AchReturnProcessor κ),
      (call lift callback).run self = .ok () later ∧
      later.returns = self.returns.set callback.returnId item' ∧
      item'.request = item.request ∧ item'.status ∈ callback.source.allowedTransitions ∧
      later.network.transfers = self.network.transfers ∧
      later.network.pending = self.network.pending ∧
      later.network.scheduler = (item'.status.awaits callback.returnId).elim
        self.network.scheduler fun next => self.network.scheduler.scheduled
          (self.network.scheduler.clock.time + next.delay) (lift next) := by
  cases callback with
  | validate returnId =>
      have hrun := validate_of_received lift hget hstatus
      cases hreason : self.invalidReason item.request with
      | some reason =>
          have hallowed := (AchReturn.rejected_allowed_iff .received).mpr rfl
          rw [hreason] at hrun
          exact ⟨_, _, hrun, rfl, rfl, hallowed, rfl, rfl, rfl⟩
      | none =>
          have hallowed := (AchReturn.validated_allowed_iff .received).mpr rfl
          rw [hreason] at hrun
          exact ⟨_, _, hrun, rfl, rfl, hallowed, rfl, rfl, rfl⟩
  | process returnId =>
      exact ⟨_, _, process_of_validated lift hget hstatus, rfl, rfl,
        (AchReturn.processing_allowed_iff .validated).mpr rfl, rfl, rfl, rfl⟩
  | complete returnId =>
      -- Only the completion needs something of the ledger: that the credit fits.
      rcases hfits hstatus with ⟨original, horiginal, hfits⟩
      exact ⟨_, _, complete_of_fits hget hstatus rfl horiginal hfits, rfl, rfl,
        (AchReturn.completed_allowed_iff .processing).mpr rfl, rfl, rfl, rfl⟩

end AchReturnProcessor

/-! ### The invariant -/

namespace AchSystem

/-- The workflow that a callback is a stage of. -/
def workflow : AchCallback ⊕ AchReturnCallback → String ⊕ String :=
  Sum.map AchCallback.transferId AchReturnCallback.returnId

def rank : AchCallback ⊕ AchReturnCallback → Nat :=
  Sum.elim AchCallback.rank AchReturnCallback.rank

/-- Stages of transfers are queued for their own times. -/
def Timed : AchCallback ⊕ AchReturnCallback → Int → Prop
  | .inl callback, time => time = callback.dueAt
  | .inr _, _ => True

/-- The callback that a workflow waits for. -/
def awaits (self : AchSystem) : String ⊕ String → Option (AchCallback ⊕ AchReturnCallback)
  | .inl transferId => ((self.network.transfers.get? transferId).bind fun transfer =>
      transfer.status.awaits transferId).map .inl
  | .inr returnId => ((self.returns.get? returnId).bind fun item =>
      item.status.awaits returnId).map .inr

/-- The transfer waits for its validation and was received too late for it. -/
def Excused (late : String → Prop) (self : AchSystem) : String ⊕ String → Prop
  | .inl transferId => late transferId ∧
      self.awaits (.inl transferId) = some (.inl (.validate transferId))
  | .inr _ => False

/-- The invariant of the driven runs. Queue and statuses agree, and the holds
    and the ledger are such that nothing that is due is refused. -/
structure Underway (opening : Ledger) (late : String → Prop) (system : AchSystem) : Prop where
  inOrder : system.InOrder opening
  mirrored : system.network.Mirrored
  described : ∀ transferId transfer, system.network.transfers.get? transferId = some transfer →
    transfer.request.Described
  awaiting : system.network.scheduler.Awaiting workflow Timed system.awaits (system.Excused late)

/-- There are the same workflows, for the same requests. -/
structure SameRequests (system later : AchSystem) : Prop where
  transfers : ∀ transferId, (later.network.transfers.get? transferId).map (·.request)
    = (system.network.transfers.get? transferId).map (·.request)
  returns : ∀ returnId, (later.returns.get? returnId).map (·.request)
    = (system.returns.get? returnId).map (·.request)

theorem SameRequests.refl (self : AchSystem) : self.SameRequests self :=
  ⟨fun _ => rfl, fun _ => rfl⟩

theorem SameRequests.trans {self middle later : AchSystem} (h : self.SameRequests middle)
    (hlater : middle.SameRequests later) : self.SameRequests later :=
  ⟨fun transferId => (hlater.transfers transferId).trans (h.transfers transferId),
    fun returnId => (hlater.returns returnId).trans (h.returns returnId)⟩

/-- What a stage that is due leaves. -/
structure Handled (system : AchSystem) (callback : AchCallback ⊕ AchReturnCallback)
    (later : AchSystem) : Prop where
  mirrored : later.network.Mirrored
  requests : system.SameRequests later
  others : ∀ item, item ≠ workflow callback → later.awaits item = system.awaits item
  continues : EventScheduler.Continues workflow Timed (workflow callback) system.network.scheduler
    (later.awaits (workflow callback)) later.network.scheduler
  rank : ∀ next ∈ later.awaits (workflow callback), rank next < rank callback

variable {opening : Ledger} {self : AchSystem}

/-- What the workflows wait for once a transfer is assigned. -/
theorem awaits_setTransfer {later : AchSystem} {transferId : String} {transfer : AchTransfer}
    (htransfers : later.network.transfers = self.network.transfers.set transferId transfer)
    (hreturns : later.returns = self.returns) :
    later.awaits (.inl transferId) = (transfer.status.awaits transferId).map .inl ∧
      ∀ item, item ≠ .inl transferId → later.awaits item = self.awaits item := by
  constructor
  · simp only [awaits, htransfers, Dict.get?_set_self, Option.bind_some]
  · intro item hitem
    cases item with
    | inl other =>
        have hne : other ≠ transferId := fun hsame => hitem (congrArg Sum.inl hsame)
        simp only [awaits, htransfers, Dict.get?_set_ne _ _ hne]
    | inr returnId => simp only [awaits, hreturns]

theorem awaits_setReturn {later : AchSystem} {returnId : String} {item : AchReturn}
    (hreturns : later.returns = self.returns.set returnId item)
    (htransfers : later.network.transfers = self.network.transfers) :
    later.awaits (.inr returnId) = (item.status.awaits returnId).map .inr ∧
      ∀ other, other ≠ .inr returnId → later.awaits other = self.awaits other := by
  constructor
  · simp only [awaits, hreturns, Dict.get?_set_self, Option.bind_some]
  · intro other hother
    cases other with
    | inl transferId => simp only [awaits, htransfers]
    | inr otherId =>
        have hne : otherId ≠ returnId := fun hsame => hother (congrArg Sum.inr hsame)
        simp only [awaits, hreturns, Dict.get?_set_ne _ _ hne]

/-- At its own time, a transfer's stage returns. -/
theorem handle_transfer {callback : AchCallback} (hmirrored : self.network.Mirrored)
    (hdescribed : ∀ transferId transfer,
      self.network.transfers.get? transferId = some transfer → transfer.request.Described)
    (hsettling : self.work.Settling opening self.now) (htime : self.now = callback.dueAt)
    (hawaits : self.awaits (.inl callback.transferId) = some (.inl callback)) :
    ∃ later, (AchReturnProcessor.callEither (.inl callback)).run self = .ok () later ∧
      self.Handled (.inl callback) later := by
  unfold awaits at hawaits
  simp only [Option.map_eq_some_iff, Option.bind_eq_some_iff, Sum.inl.injEq, exists_eq_right]
    at hawaits
  rcases hawaits with ⟨transfer, hget, hstage⟩
  have hstatus := (AchTransferStatus.awaits_eq_some hstage).1
  -- Nothing that the stage asks for is refused.
  have hhold : transfer.status = .validated → transfer.request.Holdable := fun hvalidated =>
    (hmirrored.holdable_iff hget hvalidated).mpr (hdescribed _ transfer hget)
  have hfits : transfer.status = .processing →
      transfer.request.debitPosting.Fits self.network.ledger := by
    intro hprocessing
    refine hsettling.debit_fits hget hprocessing ?_
    rw [hprocessing] at hstatus
    rw [htime]
    cases callback <;> cases hstatus
    exact le_refl _
  rcases AchNetwork.call_due Sum.inl htime hget hstatus hhold hfits with
    ⟨transfer', network', hrun, htransfers, hrequest, hallowed, hscheduler⟩
  have hstep := AchNetwork.stage_call Sum.inl self.network callback
  rw [after_of_ok hrun] at hstep
  have hdescribes : self.network.Describes callback :=
    fun _ _ found hfound _ => hdescribed _ found hfound
  have hself := @awaits_setTransfer self (AchReturnProcessor.networkOf.set network' self)
    callback.transferId transfer' htransfers rfl
  refine ⟨AchReturnProcessor.networkOf.set network' self, Component.zoom_run_ok hrun,
    { mirrored := AchNetwork.mirrored_stage hmirrored hstep hdescribes
      requests := ⟨fun transferId => ?_, fun _ => rfl⟩
      others := hself.2
      continues := ?_
      rank := fun next hnext => ?_ }⟩
  · change (network'.transfers.get? transferId).map (·.request) = _
    rw [htransfers, Dict.get?_set]
    split_ifs with hsame
    · rw [hsame, hget, Option.map_some, Option.map_some, hrequest]
    · rfl
  · change EventScheduler.Continues _ _ _ _ _ network'.scheduler
    rw [workflow, Sum.map_inl, hself.1, hscheduler]
    cases hnext : transfer'.status.awaits callback.transferId with
    | none => exact .ended
    | some next =>
        have hlater := (AchCallback.next_lt hallowed hnext).2
        refine .next (congrArg Sum.inl (AchTransferStatus.awaits_eq_some hnext).2) ?_ rfl
        rw [← htime] at hlater
        exact hlater
  · rw [workflow, Sum.map_inl, hself.1] at hnext
    rcases Option.map_eq_some_iff.mp hnext with ⟨stage, hstage', rfl⟩
    exact (AchCallback.next_lt hallowed hstage').1

/-- At any time, so does a return's. -/
theorem handle_return {callback : AchReturnCallback} (hmirrored : self.network.Mirrored)
    (hsettling : self.work.Settling opening self.now)
    (hawaits : self.awaits (.inr callback.returnId) = some (.inr callback)) :
    ∃ later, (AchReturnProcessor.callEither (.inr callback)).run self = .ok () later ∧
      self.Handled (.inr callback) later := by
  unfold awaits at hawaits
  simp only [Option.map_eq_some_iff, Option.bind_eq_some_iff, Sum.inr.injEq, exists_eq_right]
    at hawaits
  rcases hawaits with ⟨item, hget, hstage⟩
  have hstatus := (AchReturnStatus.awaits_eq_some hstage).1
  -- A settling system has room for the credits of all returns on the way.
  have hfits : item.status = .processing → self.CreditFits item.request self.now :=
    hsettling.credit_fits self.network.scheduler.clock.time_nonneg hget
  rcases AchReturnProcessor.call_due Sum.inr hget hstatus hfits with
    ⟨item', later, hrun, hreturns, hrequest, hallowed, htransfers, hpending, hscheduler⟩
  have hself := @awaits_setReturn self later callback.returnId item' hreturns htransfers
  refine ⟨later, hrun,
    { mirrored := hmirrored.of_eq hpending htransfers
      requests := ⟨fun transferId => by rw [htransfers], fun returnId => ?_⟩
      others := hself.2
      continues := ?_
      rank := fun next hnext => ?_ }⟩
  · rw [hreturns, Dict.get?_set]
    split_ifs with hsame
    · rw [hsame, hget, Option.map_some, Option.map_some, hrequest]
    · rfl
  · rw [workflow, Sum.map_inr, hself.1, hscheduler]
    cases hnext : item'.status.awaits callback.returnId with
    | none => exact .ended
    | some next =>
        -- The next stage is put on the queue at its delay, which is not in the past.
        have hdelay : 0 ≤ next.delay := by cases next <;> simp [AchReturnCallback.delay]
        exact .next (congrArg Sum.inr (AchReturnStatus.awaits_eq_some hnext).2)
          (Int.le_add_of_nonneg_right hdelay) trivial
  · rw [workflow, Sum.map_inr, hself.1] at hnext
    rcases Option.map_eq_some_iff.mp hnext with ⟨stage, hstage', rfl⟩
    exact AchReturnCallback.next_lt hallowed hstage'

/-- A scheduler step finds nothing to do, or it returns, keeps the invariant
    and leaves less to do. -/
theorem Underway.runNext {late : String → Prop} (h : self.Underway opening late) :
    self.network.scheduler.queue = [] ∨
      ∃ later, AchReturnProcessor.runNext.run self = .ok true later ∧
        Underway opening late later ∧ self.SameRequests later ∧
        later.network.scheduler.workload rank < self.network.scheduler.workload rank := by
  cases hqueue : self.network.scheduler.queue with
  | nil => exact Or.inl rfl
  | cons event queue =>
      have hmem : event ∈ self.network.scheduler.queue := by
        rw [hqueue]
        exact List.mem_cons_self
      have hdue := h.awaiting.orderly.le_queued event hmem
      rcases EventScheduler.runNext_due AchReturnProcessor.schedulerOf
        AchReturnProcessor.callEither hqueue hdue with ⟨clock, hclock, hrun⟩
      -- The callback finds everything as it was, at the time it is queued for.
      have hsettling : AchWork.Settling opening (self.atEvent clock queue).now
          (AchReturnProcessor.work (self.atEvent clock queue)) := by
        refine h.inOrder.settling.later ?_
        rw [now_atEvent, hclock]
        exact hdue
      have hmirrored : (self.atEvent clock queue).network.Mirrored := h.mirrored.of_eq rfl rfl
      have hawaits := h.awaiting.due event hmem
      have htimed := h.awaiting.onTime event hmem
      have hreturns : ∃ later, (AchReturnProcessor.callEither event.callback).run
          (self.atEvent clock queue) = .ok () later ∧
            (self.atEvent clock queue).Handled event.callback later := by
        cases hcallback : event.callback with
        | inl callback =>
            rw [hcallback] at hawaits htimed
            exact handle_transfer hmirrored h.described hsettling (hclock.trans htimed) hawaits
        | inr callback =>
            rw [hcallback] at hawaits
            exact handle_return hmirrored hsettling hawaits
      rcases hreturns with ⟨t, hcall, hhandled⟩
      unfold atEvent at hcall
      rw [hcall] at hrun
      have horder := inOrder_exec self .runNext h.inOrder trivial
      rw [AchSystemCall.exec, after_discard, AchReturnProcessor.runNext, after_of_ok hrun] at horder
      have hless := EventScheduler.workload_lt rank hqueue clock hhandled.continues hhandled.rank
      refine Or.inr ⟨_, hrun, ⟨horder, hhandled.mirrored.of_eq rfl rfl, ?_, ?_⟩,
        ⟨hhandled.requests.transfers, hhandled.requests.returns⟩, hless⟩
      · intro transferId transfer hget
        have hsame := hhandled.requests.transfers transferId
        change t.network.transfers.get? transferId = some transfer at hget
        rw [hget, Option.map_some, eq_comm, Option.map_eq_some_iff] at hsame
        rcases hsame with ⟨found, hfound, hrequest⟩
        exact hrequest ▸ h.described transferId found hfound
      · -- What the others wait for is where it was.
        refine ((h.awaiting.ready hqueue hclock).continued (Function.update_self _ _ _)
          (fun other hother => ?_) (fun other hother hexcused => ?_)
          hhandled.continues).withHistory _
        · rw [Function.update_of_ne hother]
          exact hhandled.others other hother
        · cases other with
          | inl transferId => exact ⟨hexcused.1, (hhandled.others _ hother).trans hexcused.2⟩
          | inr returnId => exact hexcused

end AchSystem

/-! ### The driving calls -/

namespace AchNetwork

/-- Receiving a request keeps the mirror. -/
theorem Mirrored.receive {κ : Type} (lift : AchCallback → κ) {network : AchNetwork κ}
    (h : network.Mirrored) (request : AchTransferRequest) :
    (after (AchNetwork.receive lift request) network).Mirrored := by
  rcases after_receive lift network request with hsame | ⟨hnew, hstored⟩
  · rwa [hsame]
  · -- A new transfer holds nothing, and nothing was held before it came.
    have hnone := (Dict.not_mem_iff network.transfers request.transferId).mp hnew
    rw [hstored]
    refine h.replace rfl rfl (fun hvalidated => by cases hvalidated) ?_ fun _ _ => rfl
    change network.heldFor request.transferId = _
    rw [h.mirror, hnone]
    rfl

end AchNetwork

/-- A move of the clock does not overtake anything that is queued. -/
def AchSystemCall.Punctual (system : AchSystem) : AchSystemCall → Prop
  | .advanceTo newTime => ∀ event ∈ system.network.scheduler.queue, newTime ≤ event.time
  | .advanceBy amount =>
      ∀ event ∈ system.network.scheduler.queue, system.now + amount ≤ event.time
  | _ => True

/-- A request that is received has a text for its hold. -/
def AchSystemCall.Described : AchSystemCall → Prop
  | .receive request => request.Described
  | _ => True

/-- A call that the drivers of the two components may make. -/
def AchSystemCall.Regular (opening : Ledger) (system : AchSystem) (call : AchSystemCall) : Prop :=
  call.Driven opening ∧ call.Described ∧ call.Punctual system

instance : ∀ call : AchSystemCall, Decidable call.Described
  | .receive request => inferInstanceAs (Decidable request.Described)
  | .receiveReturn _ | .call _ | .runNext | .advanceTo _ | .advanceBy _ | .append _
  | .appendBatch _ => isTrue trivial

instance (system : AchSystem) : ∀ call : AchSystemCall, Decidable (call.Punctual system)
  | .advanceTo newTime => @List.decidableBAll (Event _) (fun event => newTime ≤ event.time) _
      system.network.scheduler.queue
  | .advanceBy amount => @List.decidableBAll (Event _)
      (fun event => system.now + amount ≤ event.time) _ system.network.scheduler.queue
  | .receive _ | .receiveReturn _ | .call _ | .runNext | .append _ | .appendBatch _ =>
      isTrue trivial

instance (opening : Ledger) (system : AchSystem) (call : AchSystemCall) :
    Decidable (call.Regular opening system) :=
  inferInstanceAs (Decidable (_ ∧ _ ∧ _))

namespace AchSystem

variable {opening : Ledger} {self : AchSystem}

/-- A move of the clock that overtakes nothing. -/
theorem Underway.clocked {late : String → Prop} (h : self.Underway opening late)
    {α : Type} {m : Action VirtualClock α} (hm : ∀ clock, clock.time ≤ (after m clock).time)
    (hpunctual : ∀ event ∈ self.network.scheduler.queue,
      (after m self.network.scheduler.clock).time ≤ event.time) :
    Underway opening late (after (clockOf.zoom m) self) := by
  have horder := inOrder_clock h.inOrder m hm
  rw [Component.after_zoom] at horder ⊢
  exact ⟨horder, h.mirrored.of_eq rfl rfl, h.described, h.awaiting.clocked hpunctual⟩

/-- The clock shows the time it is moved to, or that of before. -/
theorem after_advanceTo_le {newTime time : Int} {clock : VirtualClock} (hnow : clock.time ≤ time)
    (hnew : newTime ≤ time) : (after (VirtualClock.advanceTo newTime) clock).time ≤ time := by
  by_cases hle : clock.time ≤ newTime
  · rcases EventScheduler.advanceTo_of_le hle with ⟨clock', htime, hrun⟩
    rw [after_of_ok hrun, htime]
    exact hnew
  · rcases EventScheduler.advanceTo_of_lt (not_le.mp hle) with ⟨e, -, he⟩
    rw [after_of_error he]
    exact hnow

theorem after_advanceBy_le {amount time : Int} {clock : VirtualClock} (hnow : clock.time ≤ time)
    (hnew : clock.time + amount ≤ time) :
    (after (VirtualClock.advanceBy amount) clock).time ≤ time := by
  unfold VirtualClock.advanceBy
  by_cases hneg : amount < 0
  · rw [if_pos hneg]
    exact hnow
  · rw [if_neg hneg]
    exact after_advanceTo_le hnow hnew

/-- Receiving a request leaves its transfer waiting for the validation. Before
    time 1 that is on the queue, and later the request is too late. -/
theorem Underway.receive (h : self.Underway opening fun _ => True) {request : AchTransferRequest}
    (hdriven : (AchSystemCall.receive request).Driven opening) (hdescribed : request.Described) :
    Underway opening (fun _ => True) (after (AchSystemCall.receive request).exec self) := by
  have horder := inOrder_exec self (.receive request) h.inOrder hdriven
  have hmirrored := h.mirrored.receive Sum.inl request
  rw [AchSystemCall.exec, after_discard, Component.after_zoom] at horder ⊢
  rcases AchNetwork.after_receive Sum.inl self.network request with hsame | ⟨hnew, hafter⟩
  · change Underway opening (fun _ => True)
      { self with network := after (AchNetwork.receive Sum.inl request) self.network }
    rw [hsame]
    exact h
  · -- A transfer that is not known awaits nothing yet.
    have hnone : self.awaits (.inl request.transferId) = none := by
      simp only [awaits, (Dict.not_mem_iff _ _).mp hnew, Option.bind_none, Option.map_none]
    have htransfers : (after (AchNetwork.receive Sum.inl request) self.network).transfers
        = self.network.transfers.set request.transferId (AchTransfer.new request) := by
      rw [hafter]
      rfl
    have hscheduler : (after (AchNetwork.receive Sum.inl request) self.network).scheduler
        = self.network.scheduler.offered 1 (.inl (.validate request.transferId)) := by
      rw [hafter]
      rfl
    change InOrder opening
      { self with network := after (AchNetwork.receive Sum.inl request) self.network } at horder
    change Underway opening (fun _ => True)
      { self with network := after (AchNetwork.receive Sum.inl request) self.network }
    generalize after (AchNetwork.receive Sum.inl request) self.network = network' at *
    have hself := @awaits_setTransfer self { self with network := network' } _ _ htransfers rfl
    have hexcused : ∀ item, item ≠ .inl request.transferId → self.Excused (fun _ => True) item →
        Excused (fun _ => True) { self with network := network' } item := by
      intro item hitem hlate
      cases item with
      | inl transferId => exact ⟨trivial, (hself.2 _ hitem).trans hlate.2⟩
      | inr returnId => exact hlate
    refine ⟨horder, hmirrored, ?_, ?_⟩
    · change ∀ transferId transfer, network'.transfers.get? transferId = some transfer → _
      rw [htransfers]
      exact Dict.forall_get?_set hdescribed h.described
    · change EventScheduler.Awaiting _ _ _ _ network'.scheduler
      rw [hscheduler]
      by_cases htime : self.network.scheduler.clock.time ≤ 1
      · rw [EventScheduler.offered, if_pos htime]
        refine h.awaiting.continued hnone hself.2 hexcused ?_
        rw [hself.1]
        exact .next rfl htime rfl
      · -- The scheduler refuses, and the transfer is there without a validation.
        rw [EventScheduler.offered, if_neg htime]
        refine h.awaiting.stranded hnone hself.2 (fun item hlate => ?_) ⟨trivial, hself.1⟩
        by_cases hitem : item = .inl request.transferId
        · rw [hitem]
          exact ⟨trivial, hself.1⟩
        · exact hexcused item hitem hlate

/-- A return that is received has its validation on the queue at once. -/
theorem Underway.receiveReturn {late : String → Prop} (h : self.Underway opening late)
    {request : AchReturnRequest} (hdriven : (AchSystemCall.receiveReturn request).Driven opening) :
    Underway opening late (after (AchSystemCall.receiveReturn request).exec self) := by
  have horder := inOrder_exec self (.receiveReturn request) h.inOrder hdriven
  rw [AchSystemCall.exec, after_discard] at horder ⊢
  by_cases hmem : request.returnId ∈ self.returns
  · rw [after_of_ok (AchReturnProcessor.receive_known Sum.inr hmem)]
    exact h
  · rw [after_of_ok (AchReturnProcessor.receive_new Sum.inr hmem)] at horder ⊢
    have hnone : self.awaits (.inr request.returnId) = none := by
      simp only [awaits, (Dict.not_mem_iff _ _).mp hmem, Option.bind_none, Option.map_none]
    have hself := @awaits_setReturn self ((self.withReturn request.returnId
      (AchReturn.new request self.network.scheduler.clock.time)).scheduling 1
        (.inr (.validate request.returnId))) _ _ rfl rfl
    refine ⟨horder, h.mirrored.of_eq rfl rfl, h.described,
      h.awaiting.continued hnone hself.2 (fun item hitem hlate => ?_) ?_⟩
    · cases item with
      | inl transferId => exact ⟨hlate.1, (hself.2 _ hitem).trans hlate.2⟩
      | inr returnId => exact hlate
    · rw [hself.1]
      exact .next rfl (Int.le_add_of_nonneg_right (by decide)) trivial

/-- Every driving call that overtakes nothing keeps the invariant. -/
theorem underway_exec (self : AchSystem) (call : AchSystemCall)
    (h : self.Underway opening fun _ => True) (hregular : call.Regular opening self) :
    Underway opening (fun _ => True) (after call.exec self) := by
  rcases hregular with ⟨hdriven, hdescribed, hpunctual⟩
  cases call with
  | receive request => exact h.receive hdriven hdescribed
  | receiveReturn request => exact h.receiveReturn hdriven
  | runNext =>
      rw [AchSystemCall.exec, after_discard]
      rcases h.runNext with hqueue | ⟨later, hrun, hlater, -⟩
      · rw [AchReturnProcessor.runNext, after_of_ok (EventScheduler.runNext_nil _ _ hqueue)]
        exact h
      · rw [after_of_ok hrun]
        exact hlater
  | advanceTo newTime =>
      rw [AchSystemCall.exec, after_discard]
      exact h.clocked (EventScheduler.le_advanceTo newTime) fun event hmem =>
        after_advanceTo_le (h.awaiting.orderly.le_queued event hmem) (hpunctual event hmem)
  | advanceBy amount =>
      rw [AchSystemCall.exec, after_discard]
      exact h.clocked (EventScheduler.le_advanceBy amount) fun event hmem =>
        after_advanceBy_le (h.awaiting.orderly.le_queued event hmem) (hpunctual event hmem)
  | call callback => exact hdriven.elim
  | append entry => exact hdriven.elim
  | appendBatch entries => exact hdriven.elim

/-! ### Draining -/

/-- What a run to the end leaves: nothing queued and nothing held, the same
    workflows, all of them at their ends except for transfers whose validation
    was not queued, and a ledger that agrees with the expectations. -/
structure Drained (opening : Ledger) (generatedAt : Int) (system later : AchSystem) : Prop where
  queue : later.network.scheduler.queue = []
  pending : later.network.pending = []
  requests : system.SameRequests later
  transfers : ∀ transferId transfer, later.network.transfers.get? transferId = some transfer →
    transfer.status = .completed ∨ transfer.status = .rejected ∨
      transfer.status = .received ∧ ∀ event ∈ system.network.scheduler.queue,
        event.callback ≠ .inl (.validate transferId)
  returns : ∀ returnId item, later.returns.get? returnId = some item →
    item.status = .completed ∨ item.status = .rejected
  settles : later.Settles opening generatedAt

/-- Running the scheduler returns after at most five steps for each event on
    the queue, and drains the system. -/
def Drains (opening : Ledger) (generatedAt : Int) (system : AchSystem) : Prop :=
  ∃ later, (∀ rounds, 5 * system.network.scheduler.queue.length < rounds →
      (EventScheduler.run AchReturnProcessor.schedulerOf AchReturnProcessor.callEither rounds).run
        system = .ok true later) ∧
    system.Drained opening generatedAt later

theorem workload_le (scheduler : EventScheduler (AchCallback ⊕ AchReturnCallback)) :
    scheduler.workload rank ≤ 5 * scheduler.queue.length := by
  have hrank : ∀ callback, rank callback + 1 ≤ 5 := by
    intro callback
    rcases callback with (_ | _ | _ | _ | _) | (_ | _ | _) <;>
      simp [rank, AchCallback.rank, AchReturnCallback.rank]
  have hsum := List.sum_le_card_nsmul
    (scheduler.queue.map fun event => rank event.callback + 1) 5 (fun load hload => by
      rcases List.mem_map.mp hload with ⟨event, -, rfl⟩
      exact hrank event.callback)
  rw [List.length_map, smul_eq_mul, Nat.mul_comm] at hsum
  exact hsum

/-- What is waited for and not on the queue stays so, and counts as late from
    now on. -/
theorem Underway.settled (h : self.Underway opening fun _ => True) :
    self.Underway opening fun transferId => ∀ event ∈ self.network.scheduler.queue,
      event.callback ≠ .inl (.validate transferId) := by
  refine ⟨h.inOrder, h.mirrored, h.described, h.awaiting.excuse fun item hitem hlate => ?_⟩
  cases item with
  | inl transferId =>
      by_cases hqueued : ∃ event ∈ self.network.scheduler.queue,
          event.callback = .inl (.validate transferId)
      · rcases hqueued with ⟨event, hmem, hcallback⟩
        refine Or.inr ⟨event, hmem, ?_⟩
        rw [hcallback]
        rfl
      · exact Or.inl ⟨fun event hmem hcallback => hqueued ⟨event, hmem, hcallback⟩, hlate.2⟩
  | inr returnId => exact hlate.elim

/-- With nothing on the queue, only what is late is still waiting. -/
theorem Underway.ended {late : String → Prop} (h : self.Underway opening late)
    (hqueue : self.network.scheduler.queue = []) :
    (∀ transferId transfer, self.network.transfers.get? transferId = some transfer →
      transfer.status = .completed ∨ transfer.status = .rejected ∨
        transfer.status = .received ∧ late transferId) ∧
    ∀ returnId item, self.returns.get? returnId = some item →
      item.status = .completed ∨ item.status = .rejected := by
  -- What awaits a callback and does not have it on the queue is excused.
  have hwaits : ∀ item, self.awaits item ≠ none → self.Excused late item := by
    intro item hitem
    refine (h.awaiting.queued item hitem).resolve_right ?_
    rintro ⟨event, hmem, -⟩
    rw [hqueue] at hmem
    exact absurd hmem List.not_mem_nil
  constructor
  · intro transferId transfer hget
    have hawaits : self.awaits (.inl transferId)
        = (transfer.status.awaits transferId).map .inl := by
      simp only [awaits, hget, Option.bind_some]
    by_cases hdone : self.awaits (.inl transferId) = none
    · rw [hawaits, Option.map_eq_none_iff, AchTransferStatus.awaits_eq_none_iff] at hdone
      exact hdone.imp_right Or.inl
    · have hexcused := hwaits _ hdone
      have hstage := hexcused.2
      rw [hawaits] at hstage
      rcases Option.map_eq_some_iff.mp hstage with ⟨callback, hcallback, hsame⟩
      have hstatus := (AchTransferStatus.awaits_eq_some hcallback).1
      cases hsame
      exact Or.inr (Or.inr ⟨hstatus, hexcused.1⟩)
  · -- No return is excused.
    intro returnId item hget
    have hdone : self.awaits (.inr returnId) = none := by
      by_contra hsome
      exact hwaits _ hsome
    have hawaits : self.awaits (.inr returnId) = (item.status.awaits returnId).map .inr := by
      simp only [awaits, hget, Option.bind_some]
    rw [hawaits, Option.map_eq_none_iff] at hdone
    exact (AchReturnStatus.awaits_eq_none_iff returnId item.status).mp hdone

/-- A system under way drains. -/
theorem Underway.drains (h : self.Underway opening fun _ => True) (generatedAt : Int) :
    self.Drains opening generatedAt := by
  rcases EventScheduler.run_of_drains AchReturnProcessor.schedulerOf AchReturnProcessor.callEither
    rank (J := fun system : AchSystem => (system.Underway opening fun transferId =>
      ∀ event ∈ self.network.scheduler.queue, event.callback ≠ .inl (.validate transferId)) ∧
        self.SameRequests system)
    (fun system hsystem => by
      rcases hsystem.1.runNext with hqueue | ⟨later, hrun, hlater, hsame, hless⟩
      · exact Or.inl hqueue
      · exact Or.inr ⟨later, hrun, ⟨hlater, hsystem.2.trans hsame⟩, hless⟩)
    ⟨h.settled, .refl self⟩ with ⟨later, hrun, ⟨hlater, hsame⟩, hqueue⟩
  have hended := hlater.ended hqueue
  refine ⟨later, fun rounds hrounds => hrun rounds (lt_of_le_of_lt (workload_le _) hrounds),
    { queue := hqueue
      pending := hlater.mirrored.pending_nil fun transferId transfer hget => ?_
      requests := hsame
      transfers := hended.1
      returns := hended.2
      settles := hlater.inOrder.settles generatedAt }⟩
  -- None of the three statuses holds funds.
  rcases hended.1 transferId transfer hget with hstatus | hstatus | ⟨hstatus, -⟩ <;>
    rw [hstatus] <;> rfl

/-- A fresh system on an opening that is posted by time 10 is in order, and
    under way. -/
theorem inOrder_new (ledger : Ledger) (hledger : ledger.Reachable)
    (hposted : ∀ entry ∈ ledger.entries, entry.postedAt ≤ 10)
    (scheduler : EventScheduler (AchCallback ⊕ AchReturnCallback))
    (hqueue : scheduler.queue = []) :
    InOrder ledger (AchReturnProcessor.new (AchNetwork.new ledger scheduler)) := by
  refine ⟨⟨fun _ transfer hget => ?_, fun _ item hget => ?_,
    Ledger.reachable_wellFormed hledger, fun entry hmem => ?_, [], ?_, ?_⟩, fun event hmem => ?_⟩
  · cases hget
  · cases hget
  · exact le_trans (hposted entry hmem) (le_max_left 10 _)
  · exact (List.append_nil _).symm
  · exact List.Perm.refl []
  · change event ∈ scheduler.queue at hmem
    rw [hqueue] at hmem
    cases hmem

theorem underway_new (ledger : Ledger) (hledger : ledger.Reachable)
    (hposted : ∀ entry ∈ ledger.entries, entry.postedAt ≤ 10)
    (scheduler : EventScheduler (AchCallback ⊕ AchReturnCallback))
    (hqueue : scheduler.queue = []) : Underway ledger (fun _ => True)
      (AchReturnProcessor.new (AchNetwork.new ledger scheduler)) where
  inOrder := inOrder_new ledger hledger hposted scheduler hqueue
  mirrored := AchNetwork.mirrored_new ledger scheduler
  described _ _ hget := by cases hget
  awaiting := EventScheduler.awaiting_nil hqueue fun item => by cases item <;> rfl

end AchSystem

/-- Driven by the two receive methods, scheduler steps and moves of the clock
    that overtake nothing, over an opening that is posted by time 10 and has
    none of the derived identifiers, every state drains. -/
theorem driven_runs_drain (ledger : Ledger) (hledger : ledger.Reachable)
    (hposted : ∀ entry ∈ ledger.entries, entry.postedAt ≤ 10)
    (scheduler : EventScheduler (AchCallback ⊕ AchReturnCallback)) (hqueue : scheduler.queue = [])
    (calls : List AchSystemCall)
    (hcalls : AllSteps AchSystemCall.exec (fun system call => call.Regular ledger system)
      (AchReturnProcessor.new (AchNetwork.new ledger scheduler)) calls) (generatedAt : Int) :
    AllStates AchSystemCall.exec (AchSystem.Drains ledger generatedAt)
      (AchReturnProcessor.new (AchNetwork.new ledger scheduler)) calls :=
  allStates_mono (fun _ h => h.drains generatedAt)
    (allStates_of_allSteps AchSystem.underway_exec
      (AchSystem.underway_new ledger hledger hposted scheduler hqueue) hcalls)

/-- A transfer is on its way when a second request comes, at time 2 and too
    late, and then a return, before there is anything to return. -/
def lateRequest : List AchSystemCall :=
  [ .receive (achRequest "ACH-0001" 25000), .runNext, .runNext,
    .receive (achRequest "ACH-0002" 5000), .advanceTo 3,
    .receiveReturn ⟨"RETURN-0001", "ACH-0001", .accountClosed, 25000⟩ ]

theorem driven_runs_drain_lateRequest :
    AllStates AchSystemCall.exec
      (AchSystem.Drains (finalState LedgerCall.exec Ledger.new settlementOpening) 40)
      (AchReturnProcessor.new (AchNetwork.new
        (finalState LedgerCall.exec Ledger.new settlementOpening) EventScheduler.new))
      lateRequest :=
  driven_runs_drain (finalState LedgerCall.exec Ledger.new settlementOpening)
    ⟨settlementOpening, rfl⟩ (by decide) EventScheduler.new rfl lateRequest (by decide) 40

end BankSim
