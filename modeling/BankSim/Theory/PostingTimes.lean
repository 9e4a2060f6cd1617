import BankSim.Theory.AchFunds
import BankSim.Theory.Refusals

/-!
# Posting Times on a Shared Ledger

Deposits, withdrawals and transfers post at the number of their entry, and an
ACH debit posts at time ten. A ledger whose times must not go back takes both
as long as they happen to be in order.

All that a run can do to the time of the last entry is to make it the number
of the last entry or ten. An operation is therefore too early exactly when the
last entry was posted at ten and the ledger is still short of nine entries, so
that the next number is less than ten. And a completion is too early exactly
when the last entry was posted after ten, which only an operation does. No
other step asks the ledger for anything.

## Main definitions

* `SharedCall`: A call of an operation or of a network with the same ledger.
* `SharedCall.Late`: A call comes too late for the time it posts at.
* `Ledger.Timed`: The last entry was posted at its number or at ten.

## Theorems

* `raisesOnly_call`: Only a completion asks the ledger.
* `complete_error_iff`: When a completion is refused, and why.
* `timed_exec`: A call posts at the number of the entry or at ten.
* `refused_iff_late`: When a call is refused for its time.
* `postingTimes_refused_iff`: The same, at every step of a run.
-/

namespace BankSim

open Exec

theorem not_objects_of_kind {e : Raised} (h : e.kind ≠ .ledgerValidation) : ¬ e.Objects := by
  rintro (rfl | rfl) <;> exact h rfl

/-! ### Which calls ask the ledger -/

namespace AchNetwork

variable {κ : Type}

theorem raisesOnly_transition (status : AchTransferStatus) (time : Int) (description : String) :
    RaisesOnly (fun e => ¬ e.Objects) (AchTransfer.transition status time description) :=
  raisesOnly_guarded fun _ => not_objects_of_kind (nomatch ·)

theorem raisesOnly_onTransfer {α : Type} (transferId : String) {method : Action AchTransfer α}
    (h : RaisesOnly (fun e => ¬ e.Objects) method) :
    RaisesOnly (fun e => ¬ e.Objects) (onTransfer (κ := κ) transferId method) :=
  Component.raisesOnly_zoom _ (Dict.raisesOnly_atKey _ _ _ (not_objects_of_kind (nomatch ·)) h)

theorem raisesOnly_readRequest (transferId : String) :
    RaisesOnly (fun e => ¬ e.Objects)
      (onTransfer (κ := κ) transferId (return (← get).request)) :=
  raisesOnly_onTransfer transferId (raisesOnly_bind raisesOnly_get fun _ => raisesOnly_pure _)

theorem raisesOnly_scheduleAt (time : Int) (callback : κ) :
    RaisesOnly (fun e => ¬ e.Objects)
      (schedulerOf.zoom (EventScheduler.scheduleAt time callback)) := by
  refine Component.raisesOnly_zoom _ fun self e later hrun => ?_
  by_cases htime : self.clock.time ≤ time
  · cases (EventScheduler.scheduleAt_of_le callback htime).symm.trans hrun
  · rcases EventScheduler.scheduleAt_of_lt callback (not_le.mp htime) with ⟨e', hkind, hrun'⟩
    cases hrun'.symm.trans hrun
    refine not_objects_of_kind ?_
    rw [hkind]
    decide

variable (lift : AchCallback → κ)

theorem raisesOnly_receive (request : AchTransferRequest) :
    RaisesOnly (fun e => ¬ e.Objects) (receive lift request) := by
  refine raisesOnly_bind raisesOnly_get fun self => ?_
  have hrest := raisesOnly_bind (raisesOnly_modify fun self : AchNetwork κ =>
      { self with transfers := self.transfers.set request.transferId (AchTransfer.new request) })
    fun _ => raisesOnly_bind (raisesOnly_scheduleAt 1 (lift (.validate request.transferId)))
      fun _ => raisesOnly_pure request.transferId
  split_ifs
  · exact raisesOnly_bind (raisesOnly_throw (not_objects_of_kind (nomatch ·))) fun _ => hrest
  · exact hrest

theorem raisesOnly_validate (transferId : String) :
    RaisesOnly (fun e => ¬ e.Objects) (validate lift transferId) := by
  refine raisesOnly_bind (raisesOnly_readRequest transferId) fun request =>
    raisesOnly_bind raisesOnly_get fun self => ?_
  cases self.rejectionReason request with
  | some reason =>
      exact raisesOnly_onTransfer transferId (raisesOnly_bind (raisesOnly_transition _ _ _)
        fun _ => raisesOnly_modify _)
  | none =>
      exact raisesOnly_bind (raisesOnly_onTransfer transferId (raisesOnly_transition _ _ _))
        fun _ => raisesOnly_scheduleAt _ _

theorem raisesOnly_markPending (transferId : String) :
    RaisesOnly (fun e => ¬ e.Objects) (markPending lift transferId) := by
  refine raisesOnly_bind (raisesOnly_onTransfer transferId (raisesOnly_transition _ _ _))
    fun _ => raisesOnly_bind (raisesOnly_readRequest transferId) fun request =>
      raisesOnly_bind raisesOnly_get fun self => ?_
  refine raisesOnly_bind (raisesOnly_lift fun e h => Money.not_objects h) fun amount => ?_
  -- A hold has checks of its own, with messages of its own.
  refine raisesOnly_bind (raisesOnly_lift fun e h => ?_) fun item =>
    raisesOnly_bind (raisesOnly_modify _) fun _ => raisesOnly_scheduleAt _ _
  unfold PendingTransaction.new at h
  split_ifs at h <;> cases h <;> decide

theorem raisesOnly_submit (transferId : String) :
    RaisesOnly (fun e => ¬ e.Objects) (submit lift transferId) :=
  raisesOnly_bind (raisesOnly_onTransfer transferId (raisesOnly_transition _ _ _)) fun _ =>
    raisesOnly_bind (raisesOnly_readRequest transferId) fun _ =>
      raisesOnly_bind (raisesOnly_modify _) fun _ => raisesOnly_scheduleAt _ _

theorem raisesOnly_process (transferId : String) :
    RaisesOnly (fun e => ¬ e.Objects) (process lift transferId) :=
  raisesOnly_bind (raisesOnly_onTransfer transferId (raisesOnly_transition _ _ _)) fun _ =>
    raisesOnly_scheduleAt _ _

/-- A completion is refused for its identifier or its time exactly when its
    transfer is processing and the ledger has that against its debit. -/
theorem complete_error_iff {network : AchNetwork κ} {transferId : String} {e : Raised}
    (he : e.Objects) : outcome (complete transferId) network = .error e ↔
      ∃ transfer, network.transfers.get? transferId = some transfer ∧
        transfer.status = .processing ∧ transfer.request.debitPosting.Valid ∧
        network.ledger.objection (transfer.request.transferId ++ "-DEBIT") 10 = some e := by
  have hnoted : RaisesOnly (fun e => ¬ e.Objects)
      (onTransfer (κ := κ) transferId (modify AchTransfer.noted)) :=
    raisesOnly_onTransfer transferId (raisesOnly_modify _)
  by_cases hdue : ∃ transfer, network.transfers.get? transferId = some transfer ∧
      transfer.status = .processing
  · rcases hdue with ⟨transfer, hget, hstatus⟩
    -- What is left of the completion is its posting.
    have hpost : outcome (complete transferId) network = .error e ↔
        outcome transfer.request.debitPosting.post network.ledger = .error e := by
      rw [outcome, complete_of_processing hget hstatus]
      refine (outcome_bind_error_iff (fun _ => hnoted) (not_not.mpr he)).trans ?_
      rw [Component.outcome_zoom]
      rfl
    rw [hpost, Posting.post_error_iff he]
    constructor
    · exact fun h => ⟨transfer, hget, hstatus, h⟩
    · rintro ⟨other, hother, -, h⟩
      cases hget.symm.trans hother
      exact h
  · -- The transition is refused, and not by the ledger.
    refine iff_of_false (fun hout => ?_) ?_
    · rcases advance_refused network transferId .completed (fun transfer hget hallowed =>
        hdue ⟨transfer, hget, (AchTransfer.completed_allowed_iff _).mp hallowed⟩) 10
          "Transfer completed" with ⟨e', hrun⟩
      have hraised := (raisesOnly_onTransfer transferId
        (raisesOnly_transition .completed 10 "Transfer completed")) network e' network hrun
      rw [outcome, complete_eq, run_bind_of_error hrun] at hout
      cases hout
      exact hraised he
    · rintro ⟨transfer, hget, hstatus, -⟩
      exact hdue ⟨transfer, hget, hstatus⟩

/-- A closure of the network is refused so only if it completes a transfer. -/
theorem call_error_iff {network : AchNetwork κ} {callback : AchCallback} {e : Raised}
    (he : e.Objects) : outcome (call lift callback) network = .error e ↔
      ∃ transferId transfer, callback = .complete transferId ∧
        network.transfers.get? transferId = some transfer ∧ transfer.status = .processing ∧
        transfer.request.debitPosting.Valid ∧
        network.ledger.objection (transfer.request.transferId ++ "-DEBIT") 10 = some e := by
  have hnever : ∀ {m : Action (AchNetwork κ) Unit}, RaisesOnly (fun e => ¬ e.Objects) m →
      outcome m network ≠ .error e := fun hm hout => hm.of_outcome hout he
  cases callback with
  | validate transferId =>
      refine iff_of_false (hnever (raisesOnly_validate lift transferId)) ?_
      rintro ⟨other, transfer, hcallback, -⟩
      cases hcallback
  | markPending transferId =>
      refine iff_of_false (hnever (raisesOnly_markPending lift transferId)) ?_
      rintro ⟨other, transfer, hcallback, -⟩
      cases hcallback
  | submit transferId =>
      refine iff_of_false (hnever (raisesOnly_submit lift transferId)) ?_
      rintro ⟨other, transfer, hcallback, -⟩
      cases hcallback
  | process transferId =>
      refine iff_of_false (hnever (raisesOnly_process lift transferId)) ?_
      rintro ⟨other, transfer, hcallback, -⟩
      cases hcallback
  | complete transferId =>
      refine (complete_error_iff he).trans ⟨?_, ?_⟩
      · rintro ⟨transfer, h⟩
        exact ⟨transferId, transfer, rfl, h⟩
      · rintro ⟨other, transfer, hcallback, h⟩
        cases hcallback
        exact ⟨transfer, h⟩

end AchNetwork

/-! ### Runs on one ledger -/

/-- The last entry was posted at its number or at ten. -/
def Ledger.Timed (ledger : Ledger) : Prop :=
  ledger.lastPostedAt ≤ ledger.entries.length ∨ ledger.lastPostedAt = 10

/-- Nothing but its time can be held against the operation. -/
def Operation.Arrives (ledger : Ledger) (op : Operation) : Prop :=
  op.Presents ledger ∧ ∀ entryId ∈ op.entryIds.head?, entryId ∉ ledger.entryIds

/-- Nothing but its time can be held against the debit of the transfer. -/
def AchTransfer.Arrives (ledger : Ledger) (transfer : AchTransfer) : Prop :=
  transfer.status = .processing ∧ transfer.request.debitPosting.Valid ∧
    transfer.request.transferId ++ "-DEBIT" ∉ ledger.entryIds

/-- A call of an operation on the ledger or of a network with the same ledger,
    or a step of the network's scheduler. -/
inductive SharedCall
  | operation (op : Operation)
  | receive (request : AchTransferRequest)
  | runNext

namespace SharedCall

/-- Make the call. -/
def exec : SharedCall → Action (AchNetwork AchCallback) Unit
  | .operation op => do
      let _ ← AchNetwork.ledgerOf.zoom op.exec
  | .receive request => AchNetworkCall.exec (.receive request)
  | .runNext => AchNetworkCall.exec .runNext

/-- The call comes too late for the time at which it posts: an operation to a
    short ledger with an entry of time ten, or a completion after an entry with
    a number above ten. -/
def Late (network : AchNetwork AchCallback) : SharedCall → Prop
  | .operation op => op.Arrives network.ledger ∧ network.ledger.lastPostedAt = 10 ∧
      network.ledger.entries.length < 9
  | .receive _ => False
  | .runNext => ∃ event ∈ network.scheduler.queue.head?,
      network.scheduler.clock.time ≤ event.time ∧
        ∃ transferId, event.callback = .complete transferId ∧
          ∃ transfer ∈ network.transfers.get? transferId,
            transfer.Arrives network.ledger ∧ 10 < network.ledger.lastPostedAt

end SharedCall

theorem timed_push {ledger : Ledger} {entry : LedgerEntry}
    (h : entry.postedAt = entry.sequence ∧ entry.sequence = ledger.entries.length + 1 ∨
      entry.postedAt = 10) : (ledger.push entry).Timed := by
  rw [Ledger.Timed, Ledger.push_lastPostedAt, Ledger.push_entries, List.length_append,
    List.length_singleton]
  push_cast
  rcases h with ⟨hposted, hseq⟩ | hposted
  · left
    omega
  · exact Or.inr hposted

/-- An operation posts at the numbers of its entries. -/
theorem timed_operation (op : Operation) {ledger : Ledger} (h : ledger.Timed) :
    (after op.exec ledger).Timed := by
  rcases exec_extends op ledger with ⟨entries, hnone, hafter, hposted⟩
  rw [hafter]
  refine Guarded.firstRefusal_none_invariant _ _ (fun l entry hmem _ haccept => ?_) h hnone
  have hseq := ((Ledger.refusal_eq_none_iff l entry).mp haccept).1
  exact timed_push (Or.inl ⟨hposted entry hmem, hseq⟩)

/-- A stage posts at ten, if it posts. -/
theorem timed_stage {network later : AchNetwork AchCallback} {callback : AchCallback}
    (h : network.ledger.Timed) (hstage : AchNetwork.Stage id network callback later) :
    later.ledger.Timed := by
  cases hstage with
  | debited hget hstatus hfits => exact timed_push (Or.inr rfl)
  | _ => exact h

/-- Every call leaves a ledger whose last entry was posted at its number or at
    ten. -/
theorem timed_exec (network : AchNetwork AchCallback) (call : SharedCall)
    (h : network.ledger.Timed) : (after call.exec network).ledger.Timed := by
  cases call with
  | operation op =>
      rw [SharedCall.exec, after_discard, Component.after_zoom]
      exact timed_operation op h
  | receive request =>
      rw [SharedCall.exec, AchNetworkCall.exec, after_discard]
      rcases AchNetwork.after_receive id network request with hsame | ⟨-, hstored⟩
      · rwa [hsame]
      · rwa [hstored]
  | runNext =>
      rw [SharedCall.exec, AchNetworkCall.exec, after_discard, AchNetwork.runNext]
      refine EventScheduler.runNext_related AchNetwork.schedulerOf (AchNetwork.call id)
        (R := Keeps fun network => network.ledger.Timed) (fun _ _ htimed => htimed) ?_ h
      intro event queue clock _ _ _ hready
      exact timed_stage hready (AchNetwork.stage_call id _ event.callback)

/-- An operation is too early for a ledger whose last entry was posted at ten,
    as long as its own first entry is not the tenth or a later one. -/
theorem operation_backward_iff {op : Operation} {ledger : Ledger} (h : ledger.Timed) :
    op.objection ledger = some timeBackward ↔
      (∀ entryId ∈ op.entryIds.head?, entryId ∉ ledger.entryIds) ∧
        ledger.lastPostedAt = 10 ∧ ledger.entries.length < 9 := by
  have hcons : ∃ entryId entryIds, op.entryIds = entryId :: entryIds := by
    cases op <;> exact ⟨_, _, rfl⟩
  rcases hcons with ⟨entryId, entryIds, hcons⟩
  rw [Operation.objection, hcons, Ledger.objections_backward_iff]
  simp only [List.head?_cons, Option.mem_def, Option.some.injEq, forall_eq']
  refine and_congr_right fun _ => ?_
  rcases h with hlast | hlast
  · constructor <;> omega
  · omega

/-- A call is refused for its time exactly when it comes too late. -/
theorem refused_iff_late {network : AchNetwork AchCallback} (h : network.ledger.Timed)
    (call : SharedCall) :
    outcome call.exec network = .error timeBackward ↔ call.Late network := by
  have hback : timeBackward.Objects := Or.inr rfl
  cases call with
  | operation op =>
      refine outcome_bind_pure_error_iff.trans ?_
      rw [Component.outcome_zoom]
      refine (operation_error_iff op hback).trans ?_
      change op.Presents network.ledger ∧ op.objection network.ledger = _ ↔ _
      rw [operation_backward_iff h, SharedCall.Late, Operation.Arrives, and_assoc]
  | receive request =>
      refine iff_of_false (fun hout => ?_) id
      have hraised := outcome_bind_pure_error_iff.mp hout
      exact (AchNetwork.raisesOnly_receive id request).of_outcome hraised hback
  | runNext =>
      refine outcome_bind_pure_error_iff.trans
        ((EventScheduler.outcome_runNext_error_iff _ _ (by decide)).trans ?_)
      simp only [AchNetwork.call_error_iff id hback]
      constructor
      · rintro ⟨event, queue, clock, hqueue, hdue, -, transferId, transfer, hcallback, hget,
          hstatus, hvalid, hobjection⟩
        rcases Ledger.objection_backward_iff.mp hobjection with ⟨hfresh, hlast⟩
        change network.scheduler.queue = event :: queue at hqueue
        have hhead : event ∈ network.scheduler.queue.head? := by
          rw [hqueue]
          rfl
        exact ⟨event, hhead, hdue, transferId, hcallback, transfer, hget,
          ⟨hstatus, hvalid, hfresh⟩, hlast⟩
      · rintro ⟨event, hhead, hdue, transferId, hcallback, transfer, hget,
          ⟨hstatus, hvalid, hfresh⟩, hlast⟩
        rcases List.head?_eq_some_iff.mp hhead with ⟨queue, hqueue⟩
        have hnonneg := network.scheduler.clock.time_nonneg
        exact ⟨event, queue, ⟨event.time, by omega⟩, hqueue, hdue, rfl, transferId, transfer,
          hcallback, hget, hstatus, hvalid,
          Ledger.objection_backward_iff.mpr ⟨hfresh, hlast⟩⟩

/-- In a run of operations, receive calls and scheduler steps on one new
    ledger, a call is refused because a posting time would move backward
    exactly when it comes too late. -/
theorem postingTimes_refused_iff (calls : List SharedCall) :
    AllSteps SharedCall.exec
      (fun network call => outcome call.exec network
          = .error (ledgerError "posting time cannot move backward") ↔ call.Late network)
      (AchNetwork.new Ledger.new) calls :=
  allSteps_of_invariant (I := fun network => network.ledger.Timed) timed_exec
    (fun _ call h => refused_iff_late h call) (Or.inl (le_refl _)) calls

/-- A deposit, an ACH transfer of the deposited funds, and a second deposit
    after its completion. -/
def depositAfterAch : List SharedCall :=
  [.operation (.postDeposit
      { depositId := "DEP-0001", accountId := "HCCU-DEMO-001", amountCents := 50000
        description := "Initial deposit" }),
    .receive (achRequest "ACH-0001" 25000), .runNext, .runNext, .runNext, .runNext, .runNext,
    .operation (.postDeposit
      { depositId := "DEP-0002", accountId := "HCCU-DEMO-001", amountCents := 25000
        description := "Second deposit" })]

/-- The second deposit is to be the third entry, after one that was posted at
    ten. -/
theorem depositAfterAch_refused :
    ¬ AllSteps SharedCall.exec
      (fun network call => outcome call.exec network
          ≠ .error (ledgerError "posting time cannot move backward"))
      (AchNetwork.new Ledger.new) depositAfterAch := by
  decide

end BankSim
