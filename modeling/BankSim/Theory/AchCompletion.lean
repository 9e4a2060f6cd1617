import BankSim.Theory.AchReturns

/-!
# Whether ACH Completion Is All or Nothing

Completing a transfer or a return moves its status first and asks the ledger
last. If the ledger refuses the entry, the exception leaves a completed
workflow without its entry, and for a transfer the hold is gone as well.

`Completion.Fits` is the condition on the state before the call under which
that cannot happen, and `allOrNothing_iff_fits` says that it is exact in
every state: a completion that raises leaves everything as it was exactly
when its entry would have been accepted, or its transition was refused
anyway.

A network with one return processor is driven by calls of their methods, by
steps of the shared scheduler, by its clock, and by anyone else who appends
to the ledger. Along such a run every call but a completion is `Quiet`: it
completes nothing and keeps the entries. So when all completions of a run
fit, the completed workflows of every state have their entries.

## Main definitions

* `AchSystem`: A network, a return processor and their scheduler.
* `AchSystemCall`: A call that changes the system.
* `Completion`: A completion, and the time at which it happens.
* `AchSystemCall.AllOrNothing`: A completion that raises changes nothing.
* `AchSystemCall.CompletionFits`: A completion's entry would be accepted.
* `AchSystem.Posted`: Every completed workflow has its entry.
* `AchSystem.Quiet`: Nothing is completed and no entry is lost.

## Theorems

* `allOrNothing_iff_fits`: The condition is exact in every state.
* `posted_exec`: A fitting call keeps completed workflows posted.
* `completion_all_or_nothing`: Both, along every run.
-/

namespace BankSim

open Exec

/-- A network, a return processor on it, and a scheduler that serves both. -/
abbrev AchSystem :=
  AchReturnProcessor (AchCallback ⊕ AchReturnCallback)

/-- A call that changes the system. `call` is a direct call of a stage of
    either component, and the last two are made by other writers of the
    ledger. -/
inductive AchSystemCall
  | receive (request : AchTransferRequest)
  | receiveReturn (request : AchReturnRequest)
  | call (callback : AchCallback ⊕ AchReturnCallback)
  | runNext
  | advanceTo (newTime : Int)
  | advanceBy (amount : Int)
  | append (entry : LedgerEntry)
  | appendBatch (entries : List LedgerEntry)

/-- A completion, by the entry it posts: the debit of a transfer, or the
    credit of a return at a given time. -/
inductive Completion
  | debit (transferId : String)
  | credit (returnId : String) (time : Int)

namespace AchSystem

def clockOf : Component AchSystem VirtualClock :=
  AchReturnProcessor.schedulerOf.comp EventScheduler.clockOf

/-- The current time. -/
def now (self : AchSystem) : Int :=
  self.network.scheduler.clock.time

/-- The two states agree on workflows, holds and ledger. -/
def Untouched (self later : AchSystem) : Prop :=
  later.network.transfers = self.network.transfers ∧
    later.returns = self.returns ∧
    later.network.pending = self.network.pending ∧
    later.network.ledger = self.network.ledger

/-- Every completed transfer has its debit in the ledger, and every completed
    return its credit. -/
structure Posted (system : AchSystem) : Prop where
  transfers : ∀ transferId transfer, system.network.transfers.get? transferId = some transfer →
    transfer.status = .completed →
      ∃ entry ∈ system.network.ledger.entries, transfer.request.debitPosting.Matches entry
  returns : ∀ returnId item, system.returns.get? returnId = some item → item.status = .completed →
    ∃ original time, system.network.transfers.get? item.request.originalTransferId = some original ∧
      ∃ entry ∈ system.network.ledger.entries,
        (item.request.creditPosting original.request time).Matches entry

end AchSystem

/-- The completion that a callback run at a given time makes, if it makes
    one. -/
def Completion.ofCallback : AchCallback ⊕ AchReturnCallback → Int → Option Completion
  | .inl (.complete transferId), _ => some (.debit transferId)
  | .inr (.complete returnId), time => some (.credit returnId time)
  | _, _ => none

/-- The entry of the completion can be posted, or its transition is refused
    before anything changes. -/
def Completion.Fits (self : AchSystem) : Completion → Prop
  | .debit transferId => ∀ transfer, self.network.transfers.get? transferId = some transfer →
      transfer.status = .processing → transfer.request.debitPosting.Fits self.network.ledger
  | .credit returnId time => ∀ item, self.returns.get? returnId = some item →
      item.status = .processing → self.CreditFits item.request time

namespace AchSystemCall

/-- Make the call. -/
def exec : AchSystemCall → Action AchSystem Unit
  | .receive request => do
      let _ ← AchReturnProcessor.networkOf.zoom (AchNetwork.receive Sum.inl request)
  | .receiveReturn request => do
      let _ ← AchReturnProcessor.receive Sum.inr request
  | .call callback => AchReturnProcessor.callEither callback
  | .runNext => do
      let _ ← AchReturnProcessor.runNext
  | .advanceTo newTime => do
      let _ ← AchSystem.clockOf.zoom (VirtualClock.advanceTo newTime)
  | .advanceBy amount => do
      let _ ← AchSystem.clockOf.zoom (VirtualClock.advanceBy amount)
  | .append entry => AchReturnProcessor.ledgerOf.zoom (Ledger.append entry)
  | .appendBatch entries => AchReturnProcessor.ledgerOf.zoom (Ledger.appendBatch entries)

/-- The completion a call makes. A scheduler step makes that of its event,
    unless the clock has passed the event. -/
def completion (self : AchSystem) : AchSystemCall → Option Completion
  | .call callback => Completion.ofCallback callback self.now
  | .runNext =>
      match self.network.scheduler.queue with
      | [] => none
      | event :: _ =>
          if event.time < self.now then none
          else Completion.ofCallback event.callback event.time
  | _ => none

/-- If the call makes a completion and raises, it leaves the workflows, the
    holds and the ledger exactly as they were. -/
def AllOrNothing (self : AchSystem) (call : AchSystemCall) : Prop :=
  (call.completion self).isSome → ∀ e later, call.exec.run self = .error e later →
    self.Untouched later

/-- If the call makes a completion, that completion fits. -/
def CompletionFits (self : AchSystem) (call : AchSystemCall) : Prop :=
  ∀ completion, call.completion self = some completion → completion.Fits self

end AchSystemCall

/-! ### One completion -/

namespace AchSystem

/-- The system a callback of the scheduler finds. -/
def atEvent (self : AchSystem) (clock : VirtualClock)
    (queue : List (Event (AchCallback ⊕ AchReturnCallback))) : AchSystem :=
  AchReturnProcessor.schedulerOf.set
    ((AchReturnProcessor.schedulerOf.get self).ready clock queue) self

theorem now_atEvent (self : AchSystem) (clock : VirtualClock)
    (queue : List (Event (AchCallback ⊕ AchReturnCallback))) :
    (self.atEvent clock queue).now = clock.time := rfl

theorem Untouched.refl (self : AchSystem) : self.Untouched self :=
  ⟨rfl, rfl, rfl, rfl⟩

/-- The completion of a transfer is all or nothing exactly when its debit
    fits. -/
theorem debit_untouched_iff (self : AchSystem) (transferId : String) :
    (∀ e later, (AchReturnProcessor.networkOf.zoom (AchNetwork.complete transferId)).run self
        = .error e later → self.Untouched later) ↔
      (Completion.debit transferId).Fits self := by
  rcases AchNetwork.complete_cases self.network transferId with
    ⟨⟨e, hrun⟩, hrefused⟩ | ⟨transfer, hget, hstatus, ⟨hfits, _, -, -, hrun⟩ | ⟨hunfit, e, hrun⟩⟩
  · -- Refused by the guard: nothing changes, and no debit is due.
    have hzoom := Component.zoom_run_error (p := AchReturnProcessor.networkOf) (s := self) hrun
    refine ⟨fun _ transfer hget hstatus => absurd hstatus (hrefused transfer hget), ?_⟩
    intro _ e' later hlater
    rw [hzoom, EStateM.Result.error.injEq] at hlater
    rw [← hlater.2]
    exact Untouched.refl self
  · -- Posted: the call does not raise at all.
    have hzoom := Component.zoom_run_ok (p := AchReturnProcessor.networkOf) (s := self) hrun
    refine ⟨fun _ other hother _ => ?_, fun _ e later hlater => ?_⟩
    · rw [hget, Option.some.injEq] at hother
      rwa [← hother]
    · rw [hzoom] at hlater
      cases hlater
  · have hzoom := Component.zoom_run_error (p := AchReturnProcessor.networkOf) (s := self) hrun
    refine ⟨fun huntouched => ?_, fun hfits => absurd (hfits transfer hget hstatus) hunfit⟩
    -- The transfer is completed afterwards, and was not before.
    have hsame : transfer = transfer.moved .completed 10 "Transfer completed" :=
      Dict.eq_of_set_eq_self (huntouched e _ hzoom).1 hget
    have hcompleted : transfer.status = .completed := congrArg AchTransfer.status hsame
    rw [hstatus] at hcompleted
    cases hcompleted

/-- The completion of a return is all or nothing exactly when its credit
    fits. -/
theorem credit_untouched_iff (self : AchSystem) (returnId : String) :
    (∀ e later, (AchReturnProcessor.complete returnId).run self = .error e later →
        self.Untouched later) ↔
      (Completion.credit returnId self.now).Fits self := by
  rcases AchReturnProcessor.complete_cases self returnId self.now rfl with
    ⟨⟨e, hrun⟩, hrefused⟩ |
      ⟨item, hget, hstatus, ⟨original, _, hfits, horiginal, -, -, hrun⟩ | ⟨hunfit, e, hrun⟩⟩
  · refine ⟨fun _ item hget hstatus => absurd hstatus (hrefused item hget), ?_⟩
    intro _ e' later hlater
    rw [hrun, EStateM.Result.error.injEq] at hlater
    rw [← hlater.2]
    exact Untouched.refl self
  · refine ⟨fun _ other hother _ => ?_, fun _ e later hlater => ?_⟩
    · rw [hget, Option.some.injEq] at hother
      rw [← hother]
      exact ⟨original, horiginal, hfits⟩
    · rw [hrun] at hlater
      cases hlater
  · refine ⟨fun huntouched => ?_, fun hfits => absurd (hfits item hget hstatus) hunfit⟩
    -- The return is completed afterwards, and was not before.
    have hsame : item = item.moved .completed self.now "ACH return completed" :=
      Dict.eq_of_set_eq_self (huntouched e _ hrun).2.1 hget
    have hcompleted : item.status = .completed := congrArg AchReturn.status hsame
    rw [hstatus] at hcompleted
    cases hcompleted

end AchSystem

/-- Whether a completion fits does not depend on the scheduler. -/
theorem Completion.fits_atEvent (completion : Completion) (self : AchSystem) (clock : VirtualClock)
    (queue : List (Event (AchCallback ⊕ AchReturnCallback))) :
    completion.Fits (self.atEvent clock queue) ↔ completion.Fits self := by
  cases completion <;> exact Iff.rfl

/-- A callback that completes a workflow is all or nothing exactly when its
    completion fits. -/
theorem callEither_untouched_iff (self : AchSystem)
    (callback : AchCallback ⊕ AchReturnCallback) (completion : Completion)
    (hcompletion : Completion.ofCallback callback self.now = some completion) :
    (∀ e later, (AchReturnProcessor.callEither callback).run self = .error e later →
        self.Untouched later) ↔ completion.Fits self := by
  rcases callback with (transferId | transferId | transferId | transferId | transferId) |
    (returnId | returnId | returnId) <;>
    simp only [Completion.ofCallback, reduceCtorEq, Option.some.injEq] at hcompletion
  · subst hcompletion
    exact AchSystem.debit_untouched_iff self transferId
  · subst hcompletion
    exact AchSystem.credit_untouched_iff self returnId

/-- The condition is exact: in every state, a call that completes a workflow
    is all or nothing exactly when the completion fits. -/
theorem allOrNothing_iff_fits (self : AchSystem) (call : AchSystemCall) :
    call.AllOrNothing self ↔ call.CompletionFits self := by
  unfold AchSystemCall.AllOrNothing AchSystemCall.CompletionFits
  cases hcompletion : call.completion self with
  | none => simp only [Option.isSome_none, Bool.false_eq_true, false_implies, reduceCtorEq,
      implies_true]
  | some completion =>
      simp only [Option.isSome_some, true_implies, Option.some.injEq, forall_eq']
      cases call with
      | call callback => exact callEither_untouched_iff self callback completion hcompletion
      | runNext =>
          -- A step completes a workflow only if its event is due, and then its
          -- outcome is that of the callback on the ready system.
          cases hqueue : self.network.scheduler.queue with
          | nil =>
              simp only [AchSystemCall.completion, hqueue, reduceCtorEq] at hcompletion
          | cons event queue =>
              simp only [AchSystemCall.completion, hqueue] at hcompletion
              split_ifs at hcompletion with hlate
              rcases EventScheduler.runNext_due AchReturnProcessor.schedulerOf
                  AchReturnProcessor.callEither (s := self) hqueue (not_lt.mp hlate) with
                ⟨clock, hclock, hrun⟩
              have hstep : ∀ e later, AchSystemCall.runNext.exec.run self = .error e later ↔
                  (AchReturnProcessor.callEither event.callback).run
                    (self.atEvent clock queue) = .error e later := by
                intro e later
                rw [AchSystemCall.exec, EStateM.run_bind, AchReturnProcessor.runNext, hrun]
                change _ ↔ (AchReturnProcessor.callEither event.callback).run
                  (AchReturnProcessor.schedulerOf.set
                    ((AchReturnProcessor.schedulerOf.get self).ready clock queue) self)
                      = .error e later
                cases (AchReturnProcessor.callEither event.callback).run
                    (AchReturnProcessor.schedulerOf.set
                      ((AchReturnProcessor.schedulerOf.get self).ready clock queue) self) with
                | ok _ t => simp only [EStateM.run_pure, reduceCtorEq]
                | error e t => rfl
              have hready := callEither_untouched_iff (self.atEvent clock queue) event.callback
                completion (by rw [← hcompletion, AchSystem.now_atEvent, hclock])
              simp only [hstep]
              exact hready.trans (completion.fits_atEvent self clock queue)
      | receive request => cases hcompletion
      | receiveReturn request => cases hcompletion
      | advanceTo newTime => cases hcompletion
      | advanceBy amount => cases hcompletion
      | append entry => cases hcompletion
      | appendBatch entries => cases hcompletion

/-! ### Runs -/

namespace AchNetwork

variable {κ : Type}

/-- Entries and requests stay, and no transfer is completed. -/
structure Quiet (network later : AchNetwork κ) : Prop where
  entries : network.ledger.entries <+: later.ledger.entries
  requests : ∀ transferId transfer, network.transfers.get? transferId = some transfer →
    ∃ transfer', later.transfers.get? transferId = some transfer' ∧
      transfer'.request = transfer.request
  completed : ∀ transferId transfer', later.transfers.get? transferId = some transfer' →
    transfer'.status = .completed → ∃ transfer,
      network.transfers.get? transferId = some transfer ∧ transfer.status = .completed ∧
        transfer'.request = transfer.request

instance : Std.Refl (Quiet (κ := κ)) :=
  ⟨fun _ => ⟨List.prefix_rfl, fun _ transfer hget => ⟨transfer, hget, rfl⟩,
    fun _ transfer hget hstatus => ⟨transfer, hget, hstatus, rfl⟩⟩⟩

instance : IsTrans (AchNetwork κ) Quiet where
  trans _ _ _ h h' := by
    refine ⟨h.entries.trans h'.entries, fun transferId transfer hget => ?_,
      fun transferId transfer'' hget'' hstatus'' => ?_⟩
    · rcases h.requests transferId transfer hget with ⟨transfer', hget', hrequest⟩
      rcases h'.requests transferId transfer' hget' with ⟨transfer'', hget'', hrequest'⟩
      exact ⟨transfer'', hget'', hrequest'.trans hrequest⟩
    · rcases h'.completed transferId transfer'' hget'' hstatus'' with
        ⟨transfer', hget', hstatus', hrequest'⟩
      rcases h.completed transferId transfer' hget' hstatus' with
        ⟨transfer, hget, hstatus, hrequest⟩
      exact ⟨transfer, hget, hstatus, hrequest'.trans hrequest⟩

/-- Assigning a transfer that is not completed keeps the others, and keeps the
    request if the transfer was there. -/
theorem quiet_withTransfer (network : AchNetwork κ) (transferId : String) (transfer' : AchTransfer)
    (hrequest : ∀ transfer, network.transfers.get? transferId = some transfer →
      transfer'.request = transfer.request)
    (hstatus : transfer'.status ≠ .completed) :
    Quiet network (network.withTransfer transferId transfer') := by
  refine ⟨List.prefix_rfl, fun other transfer hget => ?_, fun other transfer hget hdone => ?_⟩
  · by_cases hother : other = transferId
    · subst hother
      exact ⟨transfer', Dict.get?_set_self _ _ _, hrequest transfer hget⟩
    · exact ⟨transfer, (Dict.get?_set_ne _ _ hother).trans hget, rfl⟩
  · by_cases hother : other = transferId
    · subst hother
      have hself := Dict.get?_set_self network.transfers other transfer'
      rw [withTransfer, hself, Option.some.injEq] at hget
      rw [← hget] at hdone
      exact absurd hdone hstatus
    · exact ⟨transfer, (Dict.get?_set_ne _ _ hother).symm.trans hget, hdone, rfl⟩

theorem admits_quiet : Admits (Quiet (κ := κ)) where
  frame network later hledger htransfers := by
    refine ⟨?_, fun transferId transfer hget => ?_, fun transferId transfer hget hdone => ?_⟩
    · rw [hledger]
    · exact ⟨transfer, htransfers ▸ hget, rfl⟩
    · exact ⟨transfer, htransfers ▸ hget, hdone, rfl⟩
  received network request hnone := by
    refine quiet_withTransfer network _ _ (fun transfer hget => ?_) (fun h => by cases h)
    rw [hnone] at hget
    cases hget
  advanced network transferId transfer transfer' hget hrequest _ _ hcompleted := by
    refine quiet_withTransfer network _ _ (fun other hother => ?_) hcompleted
    rw [hget, Option.some.injEq] at hother
    rw [hrequest, hother]

end AchNetwork

namespace AchSystem

/-- Entries and requests stay, and no workflow is completed. -/
structure Quiet (system later : AchSystem) : Prop where
  network : AchNetwork.Quiet system.network later.network
  completed : ∀ returnId item', later.returns.get? returnId = some item' →
    item'.status = .completed → ∃ item, system.returns.get? returnId = some item ∧
      item.status = .completed ∧ item'.request = item.request

instance : Std.Refl Quiet :=
  ⟨fun _ => ⟨Std.Refl.refl _, fun _ item hget hstatus => ⟨item, hget, hstatus, rfl⟩⟩⟩

instance : IsTrans AchSystem Quiet where
  trans _ _ _ h h' := by
    refine ⟨IsTrans.trans _ _ _ h.network h'.network, fun returnId item'' hget'' hstatus'' => ?_⟩
    rcases h'.completed returnId item'' hget'' hstatus'' with ⟨item', hget', hstatus', hrequest'⟩
    rcases h.completed returnId item' hget' hstatus' with ⟨item, hget, hstatus, hrequest⟩
    exact ⟨item, hget, hstatus, hrequest'.trans hrequest⟩

/-- A quiet step keeps the completed workflows posted. -/
theorem Posted.of_quiet {self later : AchSystem} (h : self.Posted) (hquiet : self.Quiet later) :
    later.Posted := by
  refine ⟨fun transferId transfer hget hstatus => ?_, fun returnId item hget hstatus => ?_⟩
  · rcases hquiet.network.completed transferId transfer hget hstatus with
      ⟨transfer₀, hget₀, hstatus₀, hrequest⟩
    rcases h.transfers transferId transfer₀ hget₀ hstatus₀ with ⟨entry, hmem, hmatches⟩
    exact ⟨entry, hquiet.network.entries.subset hmem, hrequest ▸ hmatches⟩
  · rcases hquiet.completed returnId item hget hstatus with ⟨item₀, hget₀, hstatus₀, hrequest⟩
    rcases h.returns returnId item₀ hget₀ hstatus₀ with
      ⟨original, time, horiginal, entry, hmem, hmatches⟩
    rcases hquiet.network.requests _ original horiginal with ⟨original', horiginal', hsame⟩
    rw [← hrequest] at horiginal' hmatches
    rw [← hsame] at hmatches
    exact ⟨original', time, horiginal', entry, hquiet.network.entries.subset hmem, hmatches⟩

theorem within_network {α : Type} (m : Action (AchNetwork (AchCallback ⊕ AchReturnCallback)) α)
    (hm : Within AchNetwork.Quiet m) : Within Quiet (AchReturnProcessor.networkOf.zoom m) :=
  Component.within_zoom _ m hm fun _ _ hquiet =>
    ⟨hquiet, fun _ item hget hstatus => ⟨item, hget, hstatus, rfl⟩⟩

/-- Changing nothing but the scheduler is quiet. -/
theorem within_scheduler {α : Type}
    (m : Action (EventScheduler (AchCallback ⊕ AchReturnCallback)) α) :
    Within Quiet (AchReturnProcessor.schedulerOf.zoom m) := by
  intro self
  rw [Component.after_zoom]
  exact ⟨AchNetwork.admits_quiet.frame _ _ rfl rfl,
    fun _ item hget hstatus => ⟨item, hget, hstatus, rfl⟩⟩

theorem within_clock {α : Type} (m : Action VirtualClock α) :
    Within Quiet (clockOf.zoom m) := by
  intro self
  rw [Component.after_zoom]
  exact ⟨AchNetwork.admits_quiet.frame _ _ rfl rfl,
    fun _ item hget hstatus => ⟨item, hget, hstatus, rfl⟩⟩

/-- Another writer's call on the ledger is quiet. -/
theorem within_ledger (call : LedgerCall) :
    Within Quiet (AchReturnProcessor.ledgerOf.zoom call.exec) := by
  intro self
  rw [Component.after_zoom]
  refine ⟨⟨Ledger.entries_prefix_exec call _, fun _ transfer hget => ⟨transfer, hget, rfl⟩,
    fun _ transfer hget hstatus => ⟨transfer, hget, hstatus, rfl⟩⟩,
    fun _ item hget hstatus => ⟨item, hget, hstatus, rfl⟩⟩

/-- A method of a return that does not complete it is quiet. -/
theorem within_onReturn {α : Type} (returnId : String) (method : Action AchReturn α)
    (hrequest : ∀ item, (after method item).request = item.request)
    (hstatus : ∀ item, (after method item).status = .completed → item.status = .completed) :
    Within Quiet (AchReturnProcessor.onReturn returnId method) := by
  intro self
  refine ⟨?_, fun other item' hget hdone => ?_⟩
  · rw [AchReturnProcessor.onReturn, Component.after_zoom]
    exact Std.Refl.refl _
  · rw [AchReturnProcessor.onReturn, Component.after_zoom, Dict.after_atKey] at hget
    cases hitem : (AchReturnProcessor.returnsOf.get self).get? returnId with
    | none =>
        rw [hitem] at hget
        exact ⟨item', hget, hdone, rfl⟩
    | some item =>
        rw [hitem] at hget
        -- Only the entry of the return at hand can differ.
        by_cases hother : other = returnId
        · subst hother
          have hself := Dict.get?_set_self self.returns other (after method item)
          have hafter : after method item = item' := Option.some.inj (hself.symm.trans hget)
          rw [← hafter] at hdone ⊢
          exact ⟨item, hitem, hstatus item hdone, hrequest item⟩
        · exact ⟨item', (Dict.get?_set_ne self.returns _ hother).symm.trans hget, hdone, rfl⟩

theorem after_transition_cases (status : AchReturnStatus) (time : Int) (description : String)
    (item : AchReturn) :
    after (AchReturn.transition status time description) item = item ∨
      after (AchReturn.transition status time description) item
        = item.moved status time description := by
  by_cases hallowed : status ∈ item.status.allowedTransitions
  · exact Or.inr (after_of_ok (guarded_of_allowed _ _ hallowed))
  · exact Or.inl (after_of_error (guarded_of_refused _ _ hallowed))

theorem after_reject_cases (time : Int) (reason : String) (item : AchReturn) :
    after (AchReturn.reject time reason) item = item ∨
      after (AchReturn.reject time reason) item
        = { item.moved .rejected time "ACH return rejected" with
            rejectionReason := some reason } := by
  by_cases hallowed : .rejected ∈ item.status.allowedTransitions
  · have hrun : (AchReturn.reject time reason).run item = _ :=
      run_bind_of_ok (guarded_of_allowed _ _ hallowed)
    exact Or.inr (after_of_ok hrun)
  · have hrun : (AchReturn.reject time reason).run item = .error _ item :=
      run_bind_of_error (guarded_of_refused _ _ hallowed)
    exact Or.inl (after_of_error hrun)

/-- A method is quiet that either leaves a return alone or moves it to a
    status other than completed. -/
theorem within_moving (returnId : String) (method : Action AchReturn Unit)
    (moved : AchReturn → AchReturn)
    (hcases : ∀ item, after method item = item ∨ after method item = moved item)
    (hrequest : ∀ item, (moved item).request = item.request)
    (hstatus : ∀ item, (moved item).status ≠ .completed) :
    Within Quiet (AchReturnProcessor.onReturn returnId method) := by
  refine within_onReturn returnId method (fun item => ?_) (fun item hdone => ?_)
  · rcases hcases item with hafter | hafter
    · rw [hafter]
    · rw [hafter, hrequest]
  · rcases hcases item with hafter | hafter
    · rwa [hafter] at hdone
    · rw [hafter] at hdone
      exact absurd hdone (hstatus item)

theorem within_transition (returnId : String) (status : AchReturnStatus) (time : Int)
    (description : String) (hne : status ≠ .completed) :
    Within Quiet
      (AchReturnProcessor.onReturn returnId (AchReturn.transition status time description)) :=
  within_moving returnId _ _ (after_transition_cases status time description) (fun _ => rfl)
    fun _ => hne

theorem within_reject (returnId : String) (time : Int) (reason : String) :
    Within Quiet (AchReturnProcessor.onReturn returnId (AchReturn.reject time reason)) :=
  within_moving returnId _ _ (after_reject_cases time reason) (fun _ => rfl) fun _ hdone => by
    cases hdone

theorem within_readReturn (returnId : String) :
    Within Quiet (AchReturnProcessor.onReturn returnId (return (← get).request)) :=
  within_onReturn returnId _ (fun _ => rfl) fun _ hdone => hdone

theorem within_receiveReturn (request : AchReturnRequest) :
    Within Quiet (AchReturnProcessor.receive Sum.inr request) := by
  intro self
  -- A known return identifier is accepted again without effect.
  by_cases hmem : request.returnId ∈ self.returns
  · have hrun : (AchReturnProcessor.receive Sum.inr request).run self
        = .ok request.returnId self := by
      rw [AchReturnProcessor.receive, run_bind_get, if_pos hmem]
      rfl
    rw [after_of_ok hrun]
    exact Std.Refl.refl self
  · have hnone := (Dict.not_mem_iff self.returns request.returnId).mp hmem
    have hrun : after (AchReturnProcessor.receive Sum.inr request) self
        = after (do
            AchReturnProcessor.schedulerOf.zoom
              (EventScheduler.scheduleAfter 1 (Sum.inr (.validate request.returnId)))
            return request.returnId)
          (self.withReturn request.returnId (AchReturn.new request self.now)) := by
      unfold after
      rw [AchReturnProcessor.receive, run_bind_get, if_neg hmem]
      rfl
    rw [hrun]
    refine IsTrans.trans self (self.withReturn request.returnId (AchReturn.new request self.now)) _
      ⟨Std.Refl.refl _, fun other item' hget hdone => ?_⟩
      (within_bind (within_scheduler _) (fun _ => within_pure request.returnId) _)
    -- The new return starts out received, the others are as they were.
    by_cases hother : other = request.returnId
    · subst hother
      have hself := Dict.get?_set_self self.returns request.returnId
        (AchReturn.new request self.now)
      rw [← Option.some.inj (hself.symm.trans hget)] at hdone
      cases hdone
    · exact ⟨item', (Dict.get?_set_ne self.returns _ hother).symm.trans hget, hdone, rfl⟩

theorem within_validateReturn (returnId : String) :
    Within Quiet (AchReturnProcessor.validate Sum.inr returnId) := by
  refine within_bind (within_readReturn returnId) fun request =>
    within_bind within_get fun self => ?_
  cases self.invalidReason request with
  | some reason => exact within_reject returnId _ reason
  | none =>
      refine within_bind (within_transition returnId .validated _ _ (by decide)) fun _ => ?_
      refine within_bind (within_modify fun _ => ⟨Std.Refl.refl _, fun _ item hget hstatus =>
        ⟨item, hget, hstatus, rfl⟩⟩) fun _ => ?_
      exact within_scheduler _

theorem within_processReturn (returnId : String) :
    Within Quiet (AchReturnProcessor.process Sum.inr returnId) :=
  within_bind within_get fun _ =>
    within_bind (within_transition returnId .processing _ _ (by decide)) fun _ =>
      within_scheduler _

/-- A fitting completion of a transfer posts its debit. -/
theorem posted_debit (self : AchSystem) (transferId : String) (h : self.Posted)
    (hfits : (Completion.debit transferId).Fits self) :
    Posted (after (AchReturnProcessor.networkOf.zoom (AchNetwork.complete transferId)) self) := by
  rw [Component.after_zoom]
  rcases AchNetwork.complete_cases self.network transferId with
    ⟨⟨e, hrun⟩, -⟩ | ⟨transfer, hget, hstatus, ⟨hfit, transfer', hrequest, -, hrun⟩ | ⟨hunfit, -⟩⟩
  · have hafter : after (AchNetwork.complete transferId) self.network = self.network :=
      after_of_error hrun
    change Posted { self with network := after (AchNetwork.complete transferId) self.network }
    rw [hafter]
    exact h
  · change Posted { self with network := after (AchNetwork.complete transferId) self.network }
    rw [after_of_ok hrun]
    have hprefix : self.network.ledger.entries
        <+: (self.network.ledger.push (Posting.entry hfit)).entries := List.prefix_append _ _
    -- The one transfer that changes keeps its request.
    have hget' : ∀ other, (self.network.transfers.set transferId transfer').get? other
        = if other = transferId then some transfer' else self.network.transfers.get? other :=
      fun other => Dict.get?_set _ _ _ _
    refine ⟨fun other found hfound hdone => ?_, fun returnId item hitem hdone => ?_⟩
    · change (self.network.transfers.set transferId transfer').get? other = some found at hfound
      rw [hget'] at hfound
      split_ifs at hfound with hother
      · -- The transfer at hand: its entry is the one just posted.
        rw [← Option.some.inj hfound, hrequest]
        exact ⟨Posting.entry hfit, List.mem_append_right _ (List.mem_singleton_self _),
          Posting.matches_entry hfit⟩
      · rcases h.transfers other found hfound hdone with ⟨entry, hmem, hmatches⟩
        exact ⟨entry, hprefix.subset hmem, hmatches⟩
    · rcases h.returns returnId item hitem hdone with
        ⟨original, time, horiginal, entry, hmem, hmatches⟩
      -- A return of this very transfer refers to the same request as before.
      by_cases hother : item.request.originalTransferId = transferId
      · rw [hother, hget, Option.some.injEq] at horiginal
        refine ⟨transfer', time, ?_, entry, hprefix.subset hmem, ?_⟩
        · exact (hget' _).trans (if_pos hother)
        · rwa [hrequest, horiginal]
      · exact ⟨original, time, (hget' _).trans ((if_neg hother).trans horiginal), entry,
          hprefix.subset hmem, hmatches⟩
  · exact absurd (hfits transfer hget hstatus) hunfit

/-- A fitting completion of a return posts its credit. -/
theorem posted_credit (self : AchSystem) (returnId : String) (h : self.Posted)
    (hfits : (Completion.credit returnId self.now).Fits self) :
    Posted (after (AchReturnProcessor.complete returnId) self) := by
  rcases AchReturnProcessor.complete_cases self returnId self.now rfl with
    ⟨⟨e, hrun⟩, -⟩ |
      ⟨item, hget, hstatus, ⟨original, item', hfit, horiginal, hrequest, -, hrun⟩ | ⟨hunfit, -⟩⟩
  · rwa [after_of_error hrun]
  · rw [after_of_ok hrun]
    have hprefix : self.network.ledger.entries
        <+: (self.network.ledger.push (Posting.entry hfit)).entries := List.prefix_append _ _
    refine ⟨fun transferId transfer hfound hdone => ?_, fun other found hfound hdone => ?_⟩
    · rcases h.transfers transferId transfer hfound hdone with ⟨entry, hmem, hmatches⟩
      exact ⟨entry, hprefix.subset hmem, hmatches⟩
    · change (self.returns.set returnId item').get? other = some found at hfound
      rw [Dict.get?_set] at hfound
      split_ifs at hfound with hother
      · -- The return at hand: its entry is the one just posted.
        rw [← Option.some.inj hfound, hrequest]
        exact ⟨original, self.now, horiginal, Posting.entry hfit,
          List.mem_append_right _ (List.mem_singleton_self _), Posting.matches_entry hfit⟩
      · rcases h.returns other found hfound hdone with
          ⟨original', time, horiginal', entry, hmem, hmatches⟩
        exact ⟨original', time, horiginal', entry, hprefix.subset hmem, hmatches⟩
  · exact absurd (hfits item hget hstatus) hunfit

/-- A stage whose completion fits keeps the completed workflows posted. -/
theorem posted_callEither (self : AchSystem) (callback : AchCallback ⊕ AchReturnCallback)
    (h : self.Posted) (hfits : ∀ completion,
      Completion.ofCallback callback self.now = some completion → completion.Fits self) :
    Posted (after (AchReturnProcessor.callEither callback) self) := by
  rcases callback with (transferId | transferId | transferId | transferId | transferId) |
    (returnId | returnId | returnId)
  · -- Validation needs its own case: it may move the transfer to validated.
    refine h.of_quiet (within_network _ (AchNetwork.admits_quiet.within_validate Sum.inl transferId
      fun network transfer transfer' hget hrequest _ hstatus => ?_) self)
    refine AchNetwork.quiet_withTransfer network transferId transfer' (fun other hother => ?_) ?_
    · rw [hget, Option.some.injEq] at hother
      rw [hrequest, hother]
    · rw [hstatus]
      decide
  · exact h.of_quiet (within_network _
      (AchNetwork.admits_quiet.within_markPending Sum.inl transferId) self)
  · exact h.of_quiet (within_network _
      (AchNetwork.admits_quiet.within_submit Sum.inl transferId) self)
  · exact h.of_quiet (within_network _
      (AchNetwork.admits_quiet.within_process Sum.inl transferId) self)
  · exact posted_debit self transferId h (hfits _ rfl)
  · exact h.of_quiet (within_validateReturn returnId self)
  · exact h.of_quiet (within_processReturn returnId self)
  · exact posted_credit self returnId h (hfits _ rfl)

/-- A call whose completion fits keeps the completed workflows posted. -/
theorem posted_exec (self : AchSystem) (call : AchSystemCall) (h : self.Posted)
    (hfits : call.CompletionFits self) : Posted (after call.exec self) := by
  cases call with
  | receive request =>
      rw [AchSystemCall.exec, after_discard]
      exact h.of_quiet (within_network _
        (AchNetwork.admits_quiet.within_receive Sum.inl request) self)
  | receiveReturn request =>
      rw [AchSystemCall.exec, after_discard]
      exact h.of_quiet (within_receiveReturn request self)
  | call callback => exact posted_callEither self callback h hfits
  | runNext =>
      rw [AchSystemCall.exec, after_discard]
      refine EventScheduler.runNext_related AchReturnProcessor.schedulerOf
        AchReturnProcessor.callEither (R := Keeps Posted)
        (fun _ _ hposted => ⟨hposted.transfers, hposted.returns⟩) ?_ h
      intro event queue clock hqueue hdue hclock hready
      refine posted_callEither _ event.callback hready fun completion hcompletion => ?_
      -- The ready system sees the completion at the event's own time.
      have hnow : (self.atEvent clock queue).now = event.time := hclock
      refine (completion.fits_atEvent self clock queue).mpr (hfits completion ?_)
      change self.network.scheduler.queue = event :: queue at hqueue
      have hdue' : ¬ event.time < self.now := not_lt.mpr hdue
      simp only [AchSystemCall.completion, hqueue]
      rw [if_neg hdue', ← hnow]
      exact hcompletion
  | advanceTo newTime =>
      rw [AchSystemCall.exec, after_discard]
      exact h.of_quiet (within_clock _ self)
  | advanceBy amount =>
      rw [AchSystemCall.exec, after_discard]
      exact h.of_quiet (within_clock _ self)
  | append entry => exact h.of_quiet (within_ledger (.append entry) self)
  | appendBatch entries => exact h.of_quiet (within_ledger (.appendBatch entries) self)

end AchSystem

/-- Completion along a run, over any ledger and any scheduler. Every
    completion of the run is all or nothing exactly when every one fits, and
    then the completed workflows of every state have their entries. -/
theorem completion_all_or_nothing (ledger : Ledger)
    (scheduler : EventScheduler (AchCallback ⊕ AchReturnCallback)) (calls : List AchSystemCall) :
    (AllSteps AchSystemCall.exec AchSystemCall.AllOrNothing
        (AchReturnProcessor.new (AchNetwork.new ledger scheduler)) calls ↔
      AllSteps AchSystemCall.exec AchSystemCall.CompletionFits
        (AchReturnProcessor.new (AchNetwork.new ledger scheduler)) calls) ∧
    (AllSteps AchSystemCall.exec AchSystemCall.CompletionFits
        (AchReturnProcessor.new (AchNetwork.new ledger scheduler)) calls →
      AllStates AchSystemCall.exec AchSystem.Posted
        (AchReturnProcessor.new (AchNetwork.new ledger scheduler)) calls) := by
  have hstart : AchSystem.Posted (AchReturnProcessor.new (AchNetwork.new ledger scheduler)) := by
    refine ⟨fun _ transfer hget => ?_, fun _ item hget => ?_⟩ <;> cases hget
  refine ⟨?_, fun hfits => ?_⟩
  · exact allSteps_congr (I := fun _ => True) (fun _ _ _ _ => trivial)
      (fun system call _ => allOrNothing_iff_fits system call) trivial calls
  · exact allStates_of_allSteps (fun system call => AchSystem.posted_exec system call) hstart hfits

/-- A transfer of $250.00 is taken as far as processing, and then somebody
    else appends an entry posted at time 30. -/
def lateEntry : List AchSystemCall :=
  [ .receive
      { transferId := "ACH-0001", sourceAccountId := "HCCU-DEMO-001"
        destinationInstitution := "Blue Ridge National Bank"
        destinationReference := "EXTERNAL-ACCOUNT-001", amountCents := 25000
        description := "External transfer" },
    .runNext, .runNext, .runNext, .runNext,
    .append
      { entryId := "LATE", accountId := "HCCU-DEMO-001", amount := { cents := 100 }
        entryType := .credit, description := "Late credit", sequence := 2, postedAt := 30 } ]

/-- One credit of $1,000.00, posted at time zero. -/
def lateEntryStart : AchSystem :=
  AchReturnProcessor.new (AchNetwork.new (Ledger.new.push
    { entryId := "ACH-OPEN", accountId := "HCCU-DEMO-001", amount := { cents := 100000 }
      entryType := .credit, description := "Opening balance", sequence := 1, postedAt := 0 })
    EventScheduler.new)

/-- Completing the transfer then raises, and leaves it completed without its
    debit. -/
theorem lateEntry_splits_completion :
    ¬ AchSystemCall.AllOrNothing (finalState AchSystemCall.exec lateEntryStart lateEntry)
        (.call (.inl (.complete "ACH-0001"))) ∧
      ¬ AchSystem.Posted (finalState AchSystemCall.exec lateEntryStart
        (lateEntry ++ [.call (.inl (.complete "ACH-0001"))])) := by
  refine ⟨fun hall => ?_, fun hposted => ?_⟩
  · have hfits := (allOrNothing_iff_fits _ _).mp hall _ rfl _ rfl rfl
    exact absurd hfits.last_le (by decide)
  · rcases hposted.transfers "ACH-0001" _ rfl rfl with ⟨entry, hmem, hmatches⟩
    have hnone : ∀ entry ∈ (finalState AchSystemCall.exec lateEntryStart
        (lateEntry ++ [.call (.inl (.complete "ACH-0001"))])).network.ledger.entries,
        entry.entryId ≠ "ACH-0001-DEBIT" := by
      decide
    exact hnone entry hmem hmatches.1

end BankSim
