import BankSim.Theory.AchFunds

/-!
# Where an ACH Call Stops Halfway

Two calls of the network change one thing and then ask for a second that can
be refused. Marking a transfer as pending moves it first and then builds its
hold, and the hold has its own idea of a valid text. Receiving a request
stores the transfer first and then schedules its validation at time one, which
the scheduler refuses when that time is past.

The holds and the transfers are kept in step by everything else. `Mirrored`
says so, with the two facts about transfers it needs: a transfer is stored
under its own identifier, and a validated one has an amount and an identifier
that a hold accepts. Its text is the one thing no earlier check has looked at.
A description of nothing but white space is not empty, so it is not replaced
by the default, and it is blank, so no hold can carry it.

## Main definitions

* `AchTransferStatus.Held`: The statuses in which funds are on hold.
* `AchNetwork.HoldsMirror`: One hold for each such transfer, and no other.
* `AchNetworkCall.Describes`: A step does not meet a blank text.
* `AchNetwork.ReceiptAtomic`: A receipt happens as a whole or not at all.

## Theorems

* `mirrored_stage`: A stage keeps the mirror, if its text is not blank.
* `not_mirror_stage`: Otherwise it breaks it.
* `holds_mirror_iff`: A run keeps the mirror exactly when all its steps do.
* `receiptAtomic_iff`: When a receipt is atomic.
* `receipts_atomic_iff`: The same, in every state a network can reach.
-/

namespace BankSim

open Exec

/-- A transfer with this status has its funds on hold. -/
def AchTransferStatus.Held : AchTransferStatus → Bool
  | .pending | .submitted | .processing => true
  | .received | .validated | .completed | .rejected => false

/-- The text of the request's hold is not blank. -/
def AchTransferRequest.Described (request : AchTransferRequest) : Prop :=
  isBlank (orDefault request.description "Outbound ACH credit") = false

instance (request : AchTransferRequest) : Decidable request.Described :=
  inferInstanceAs (Decidable (_ = _))

/-- What is to be held for a transfer. -/
def AchTransfer.toHold (transfer : AchTransfer) : List (PendingTransactionType × Int) :=
  if transfer.status.Held then [(.pendingDebit, transfer.request.amountCents)] else []

namespace AchNetwork

variable {κ : Type}

/-- What is held under an identifier. -/
def heldFor (network : AchNetwork κ) (transferId : String) :
    List (PendingTransactionType × Int) :=
  (network.pending.filter fun item => item.transactionId = transferId).map
    fun item => (item.transactionType, item.amount.cents)

/-- For each transfer that is pending, submitted or processing there is one
    pending debit of its amount, and there is no other hold. -/
def HoldsMirror (network : AchNetwork κ) : Prop :=
  ∀ transferId, network.heldFor transferId
    = ((network.transfers.get? transferId).map AchTransfer.toHold).getD []

/-- The mirror, and what a hold relies on. -/
structure Mirrored (network : AchNetwork κ) : Prop where
  mirror : network.HoldsMirror
  keyed : ∀ transferId transfer, network.transfers.get? transferId = some transfer →
    transfer.request.transferId = transferId
  sound : ∀ transferId transfer, network.transfers.get? transferId = some transfer →
    transfer.status = .validated →
      isBlank transfer.request.transferId = false ∧ 0 < transfer.request.amountCents

theorem mirrored_new (ledger : Ledger) (scheduler : EventScheduler κ) :
    (AchNetwork.new ledger scheduler).Mirrored where
  mirror _ := rfl
  keyed _ _ hget := nomatch hget
  sound _ _ hget := nomatch hget

/-- The scheduler and the ledger do not matter. -/
theorem Mirrored.of_eq {network later : AchNetwork κ} (h : network.Mirrored)
    (hpending : later.pending = network.pending)
    (htransfers : later.transfers = network.transfers) : later.Mirrored where
  mirror transferId := by
    rw [htransfers, ← h.mirror transferId, heldFor, hpending, heldFor]
  keyed := by
    rw [htransfers]
    exact h.keyed
  sound := by
    rw [htransfers]
    exact h.sound

/-- A transfer takes another's place, and what is held for it follows. -/
theorem Mirrored.replace {network later : AchNetwork κ} (h : network.Mirrored)
    {transferId : String} {transfer : AchTransfer}
    (htransfers : later.transfers = network.transfers.set transferId transfer)
    (hid : transfer.request.transferId = transferId)
    (hsound : transfer.status = .validated →
      isBlank transfer.request.transferId = false ∧ 0 < transfer.request.amountCents)
    (hheld : later.heldFor transferId = transfer.toHold)
    (hothers : ∀ other, other ≠ transferId → later.heldFor other = network.heldFor other) :
    later.Mirrored where
  mirror other := by
    rw [htransfers, Dict.get?_set]
    by_cases hother : other = transferId
    · rw [if_pos hother, hother, hheld]
      rfl
    · rw [if_neg hother, hothers other hother, h.mirror other]
  keyed := by
    rw [htransfers]
    exact Dict.forall_get?_set hid h.keyed
  sound := by
    rw [htransfers]
    exact Dict.forall_get?_set hsound h.sound

/-- A transfer whose funds are not on hold has no hold. -/
theorem Mirrored.heldFor_of_not_held {network : AchNetwork κ} (h : network.Mirrored)
    {transferId : String} {transfer : AchTransfer}
    (hget : network.transfers.get? transferId = some transfer)
    (hstatus : transfer.status.Held = false) : network.heldFor transferId = [] := by
  rw [h.mirror transferId, hget, Option.map_some, Option.getD_some, AchTransfer.toHold, hstatus]
  rfl

/-- A transition between two statuses that hold the same. -/
theorem Mirrored.moved {network later : AchNetwork κ} (h : network.Mirrored)
    {transferId : String} {transfer transfer' : AchTransfer}
    (hget : network.transfers.get? transferId = some transfer)
    (htransfers : later.transfers = network.transfers.set transferId transfer')
    (hpending : later.pending = network.pending)
    (hrequest : transfer'.request = transfer.request)
    (hsame : transfer'.status.Held = transfer.status.Held)
    (hsound : transfer'.status = .validated →
      isBlank transfer.request.transferId = false ∧ 0 < transfer.request.amountCents) :
    later.Mirrored := by
  have hheld : ∀ other, later.heldFor other = network.heldFor other := by
    intro other
    rw [heldFor, hpending, heldFor]
  refine h.replace htransfers ?_ ?_ ?_ fun other _ => hheld other
  · rw [hrequest]
    exact h.keyed transferId transfer hget
  · rw [hrequest]
    exact hsound
  · rw [hheld, h.mirror transferId, hget, Option.map_some, Option.getD_some]
    unfold AchTransfer.toHold
    rw [hsame, hrequest]

/-- The hold is taken. -/
theorem Mirrored.hold {network later : AchNetwork κ} (h : network.Mirrored)
    {transferId : String} {transfer : AchTransfer}
    (hget : network.transfers.get? transferId = some transfer)
    (hstatus : transfer.status = .validated) (hhold : transfer.request.Holdable)
    (htransfers : later.transfers = network.transfers.set transferId
      (transfer.moved .pending 2 "Funds marked pending"))
    (hpending : later.pending
      = network.pending ++ [transfer.request.hold hhold network.pending.length]) :
    later.Mirrored := by
  have hid := h.keyed transferId transfer hget
  have hnone := h.heldFor_of_not_held hget (by rw [hstatus]; rfl)
  refine h.replace htransfers hid (fun hvalidated => nomatch hvalidated) ?_ fun other hother => ?_
  · -- Nothing was held under the identifier, and now the hold is.
    unfold heldFor at hnone ⊢
    have hown : (transfer.request.hold hhold network.pending.length).transactionId
        = transferId := hid
    rw [hpending, List.filter_append, List.map_append, hnone, List.nil_append,
      List.filter_cons_of_pos (by simpa using hown)]
    rfl
  · have hne : (transfer.request.hold hhold network.pending.length).transactionId ≠ other :=
      fun hsame => hother (hsame.symm.trans hid)
    unfold heldFor
    rw [hpending, List.filter_append, List.filter_cons_of_neg (by simpa using hne)]
    exact congrArg _ (List.append_nil _)

/-- The hold is given back. -/
theorem Mirrored.release {network later : AchNetwork κ} (h : network.Mirrored)
    {transferId : String} {transfer : AchTransfer}
    (hget : network.transfers.get? transferId = some transfer) (transfer' : AchTransfer)
    (hrequest : transfer'.request = transfer.request) (hstatus : transfer'.status = .completed)
    (htransfers : later.transfers = network.transfers.set transferId transfer')
    (hpending : later.pending = network.pending.filter fun item =>
      item.transactionId ≠ transfer.request.transferId) :
    later.Mirrored := by
  have hid := h.keyed transferId transfer hget
  rw [hid] at hpending
  refine h.replace htransfers ?_ ?_ ?_ fun other hother => ?_
  · rw [hrequest, hid]
  · rw [hstatus]
    exact fun hvalidated => nomatch hvalidated
  · unfold heldFor
    rw [hpending, List.filter_filter, AchTransfer.toHold, hstatus]
    -- No item both has the identifier and survives the release.
    rw [List.filter_eq_nil_iff.mpr]
    · rfl
    · intro item _
      simp
  · unfold heldFor
    rw [hpending, List.filter_filter]
    refine congrArg _ (List.filter_congr fun item _ => ?_)
    by_cases hitem : item.transactionId = other
    · simp [hitem, hother]
    · simp [hitem]

/-- The transfer whose funds a callback is going to hold. -/
def marking : AchCallback → Option String
  | .markPending transferId => some transferId
  | _ => none

/-- If the callback is going to hold funds, then the hold has a text. -/
def Describes (network : AchNetwork κ) (callback : AchCallback) : Prop :=
  ∀ transferId ∈ marking callback, ∀ transfer ∈ network.transfers.get? transferId,
    transfer.status = .validated → transfer.request.Described

instance (network : AchNetwork κ) (callback : AchCallback) :
    Decidable (network.Describes callback) :=
  inferInstanceAs (Decidable (∀ transferId ∈ marking callback, _))

/-- A validated transfer can be held exactly when its hold has a text. -/
theorem Mirrored.holdable_iff {network : AchNetwork κ} (h : network.Mirrored)
    {transferId : String} {transfer : AchTransfer}
    (hget : network.transfers.get? transferId = some transfer)
    (hstatus : transfer.status = .validated) :
    transfer.request.Holdable ↔ transfer.request.Described := by
  have hsound := h.sound transferId transfer hget hstatus
  constructor
  · exact fun hhold => hhold.description_nonblank
  · exact fun hdescribed => ⟨hsound.2, hsound.1, hdescribed⟩

variable {lift : AchCallback → κ} {network later : AchNetwork κ} {callback : AchCallback}

/-- A stage keeps the mirror, if its hold has a text. -/
theorem mirrored_stage (h : network.Mirrored) (hstage : Stage lift network callback later)
    (hdescribes : network.Describes callback) : later.Mirrored := by
  cases hstage with
  | refused => exact h
  | rejected hget hstatus =>
      exact h.moved hget rfl rfl rfl (by rw [hstatus]; rfl) fun hvalidated => nomatch hvalidated
  | validated hget hstatus hreason =>
      -- Validation passed, so the amount and the identifier are in order.
      have hsound := AchTransferRequest.sound_of_invalidReason
        (invalidReason_of_rejectionReason hreason)
      exact h.moved hget rfl rfl rfl (by rw [hstatus]; rfl) fun _ => ⟨hsound.1, hsound.2.2⟩
  | held hget hstatus hhold => exact h.hold hget hstatus hhold rfl rfl
  | unheld hget hstatus hhold =>
      have hdescribed := hdescribes _ rfl _ hget hstatus
      exact absurd ((h.holdable_iff hget hstatus).mpr hdescribed) hhold
  | submitted hget hstatus =>
      exact h.moved hget rfl rfl rfl (by rw [hstatus]; rfl) fun hvalidated => nomatch hvalidated
  | processed hget hstatus =>
      exact h.moved hget rfl rfl rfl (by rw [hstatus]; rfl) fun hvalidated => nomatch hvalidated
  | @debited transferId transfer hget =>
      exact h.release hget (transfer.moved .completed 10 "Transfer completed").noted rfl rfl rfl rfl
  | @undebited transferId transfer hget =>
      exact h.release hget (transfer.moved .completed 10 "Transfer completed") rfl rfl rfl rfl

/-- Otherwise the transfer is pending afterwards and nothing is held for it. -/
theorem not_mirror_stage (h : network.Mirrored) (hstage : Stage lift network callback later)
    (hblank : ¬ network.Describes callback) : ¬ later.HoldsMirror := by
  unfold Describes at hblank
  push Not at hblank
  rcases hblank with ⟨transferId, hmarking, transfer, hget, hstatus, hdescribed⟩
  have hcallback : callback = .markPending transferId := by
    cases callback with
    | markPending other =>
        cases hmarking
        rfl
    | _ => cases hmarking
  subst hcallback
  intro hmirror
  have hheld := hmirror transferId
  cases hstage with
  | refused hrefused => exact hrefused transfer hget hstatus
  | held hget' hstatus' hhold =>
      cases hget.symm.trans hget'
      exact hdescribed ((h.holdable_iff hget hstatus).mp hhold)
  | unheld hget' =>
      cases hget.symm.trans hget'
      have hnone := h.heldFor_of_not_held hget (by rw [hstatus]; rfl)
      rw [withTransfer, Dict.get?_set_self] at hheld
      exact absurd (hheld.symm.trans hnone) (List.cons_ne_nil _ _)

end AchNetwork

/-- A scheduler step does not come upon a blank text for a hold. -/
def AchNetworkCall.Describes (network : AchNetwork AchCallback) : AchNetworkCall → Prop
  | .receive _ => True
  | .runNext => ∀ event ∈ network.scheduler.queue.head?,
      network.scheduler.clock.time ≤ event.time → network.Describes event.callback

instance (network : AchNetwork AchCallback) :
    ∀ call : AchNetworkCall, Decidable (call.Describes network)
  | .receive _ => isTrue trivial
  | .runNext => inferInstanceAs (Decidable (∀ event ∈ network.scheduler.queue.head?, _ → _))

namespace AchNetwork

/-- What a call leaves of the mirror. -/
theorem mirrored_exec {network : AchNetwork AchCallback} (h : network.Mirrored)
    (call : AchNetworkCall) :
    (call.Describes network → (after call.exec network).Mirrored) ∧
      (¬ call.Describes network → ¬ (after call.exec network).HoldsMirror) := by
  cases call with
  | receive request =>
      refine ⟨fun _ => ?_, fun hblank => absurd trivial hblank⟩
      rw [AchNetworkCall.exec, after_discard]
      rcases after_receive id network request with hsame | ⟨hnew, hstored⟩
      · rwa [hsame]
      · -- A new transfer holds nothing, and nothing was held before it came.
        have hnone := (Dict.not_mem_iff network.transfers request.transferId).mp hnew
        rw [hstored]
        refine h.replace rfl rfl (fun hvalidated => by cases hvalidated) ?_ fun _ _ => rfl
        change network.heldFor request.transferId = _
        rw [h.mirror, hnone]
        rfl
  | runNext =>
      rw [AchNetworkCall.exec, after_discard, runNext]
      rcases EventScheduler.after_runNext schedulerOf (AchNetwork.call id) network with
        ⟨hqueue, hafter⟩ | ⟨event, queue, hqueue, hlate, hafter⟩ |
          ⟨event, queue, clock, history, hqueue, hdue, hclock, hafter⟩ <;>
        rw [hafter]
      · refine ⟨fun _ => h, fun hblank => absurd (fun event hmem => ?_) hblank⟩
        change network.scheduler.queue = [] at hqueue
        rw [hqueue] at hmem
        cases hmem
      · refine ⟨fun _ => h.of_eq rfl rfl, fun hblank => absurd (fun other hmem hdue => ?_) hblank⟩
        change network.scheduler.queue = event :: queue at hqueue
        rw [hqueue] at hmem
        cases hmem
        exact absurd hdue (not_le.mpr hlate)
      · -- The callback finds the transfers and the holds as they were.
        change network.scheduler.queue = event :: queue at hqueue
        have hready : (schedulerOf.set ((schedulerOf.get network).ready clock queue)
            network).Mirrored := h.of_eq rfl rfl
        have hstage := stage_call id
          (schedulerOf.set ((schedulerOf.get network).ready clock queue) network) event.callback
        have hdescribes : AchNetworkCall.Describes network .runNext ↔
            network.Describes event.callback := by
          simp only [AchNetworkCall.Describes, hqueue, List.head?_cons, Option.mem_def,
            Option.some.injEq, forall_eq']
          exact ⟨fun hall => hall hdue, fun hall _ => hall⟩
        rw [hdescribes]
        constructor
        · intro hall
          exact (mirrored_stage hready hstage hall).of_eq rfl rfl
        · intro hblank hmirror
          exact not_mirror_stage hready hstage hblank hmirror

/-- In a run of receive calls and scheduler steps from a new network, the
    holds mirror the transfers in every state, exactly when no step has to
    hold the funds of a validated transfer under a blank text. -/
theorem holds_mirror_iff (ledger : Ledger) (scheduler : EventScheduler AchCallback)
    (calls : List AchNetworkCall) :
    AllStates AchNetworkCall.exec HoldsMirror (AchNetwork.new ledger scheduler) calls ↔
      AllSteps AchNetworkCall.exec (fun network call => call.Describes network)
        (AchNetwork.new ledger scheduler) calls := by
  have hstart := mirrored_new ledger scheduler
  rw [allStates_iff_after]
  refine (and_iff_right hstart.mirror).trans ?_
  refine allSteps_congr (I := Mirrored) ?_ ?_ hstart calls
  · exact fun network call h hdescribes => (mirrored_exec h call).1 hdescribes
  · -- A step that meets a blank text is seen at once.
    intro network call h
    constructor
    · exact fun hmirror => by_contra fun hblank => (mirrored_exec h call).2 hblank hmirror
    · exact fun hdescribes => ((mirrored_exec h call).1 hdescribes).mirror

/-- A transfer described by a single space is validated, marked as pending, and
    never held. -/
theorem blankDescription_unheld :
    ¬ AllStates AchNetworkCall.exec HoldsMirror (AchNetwork.new achOpening)
      [.receive { achRequest "ACH-0001" 25000 with description := " " }, .runNext, .runNext] := by
  intro hall
  have hmirror := allStates_finalState hall "ACH-0001"
  revert hmirror
  decide

/-! ### Receiving a request -/

/-- A receipt that raises changes neither the transfers nor the queue of the
    scheduler, the holds, the submissions and the ledger. One that returns has
    the validation of its transfer queued. -/
def ReceiptAtomic (network : AchNetwork AchCallback) (request : AchTransferRequest) : Prop :=
  (∀ e later, (receive id request).run network = .error e later →
    later.transfers = network.transfers ∧
      later.scheduler.queue = network.scheduler.queue ∧
      later.pending = network.pending ∧ later.submissions = network.submissions ∧
      later.ledger = network.ledger) ∧
  (∀ transferId later, (receive id request).run network = .ok transferId later →
    ∃ event ∈ later.scheduler.queue, event.callback = .validate request.transferId)

/-- A receipt is atomic exactly when its identifier is refused or time one is
    not past. -/
theorem receiptAtomic_iff (network : AchNetwork AchCallback) (request : AchTransferRequest) :
    network.ReceiptAtomic request ↔
      request.transferId ∈ network.transfers ∨ network.scheduler.clock.time ≤ 1 := by
  by_cases hknown : request.transferId ∈ network.transfers
  · -- A known identifier is refused before anything changes.
    have hrun := receive_known id hknown
    refine iff_of_true ⟨?_, ?_⟩ (Or.inl hknown)
    · intro e later herror
      cases hrun.symm.trans herror
      exact ⟨rfl, rfl, rfl, rfl, rfl⟩
    · intro transferId later hok
      cases hrun.symm.trans hok
  · have hrun := receive_new id hknown
    let stored := network.withTransfer request.transferId (AchTransfer.new request)
    by_cases htime : network.scheduler.clock.time ≤ 1
    · -- The validation is still to come, and it is queued.
      have hschedule := Component.zoom_run_ok (p := schedulerOf) (s := stored)
        (@EventScheduler.scheduleAt_of_le _ network.scheduler 1
          (AchCallback.validate request.transferId) htime)
      rw [id, run_bind_of_ok hschedule] at hrun
      refine iff_of_true ⟨?_, ?_⟩ (Or.inr htime)
      · intro e later herror
        cases hrun.symm.trans herror
      · intro transferId later hok
        cases hrun.symm.trans hok
        exact ⟨_, (EventScheduler.mem_scheduled_iff network.scheduler 1 _ _).mpr (Or.inl rfl), rfl⟩
    · -- The transfer is stored, and then the scheduler refuses.
      rcases @EventScheduler.scheduleAt_of_lt _ network.scheduler 1
        (AchCallback.validate request.transferId) (not_le.mp htime) with ⟨e, -, he⟩
      have hschedule := Component.zoom_run_error (p := schedulerOf) (s := stored) he
      rw [id, run_bind_of_error hschedule] at hrun
      refine iff_of_false ?_ (not_or.mpr ⟨hknown, htime⟩)
      rintro ⟨hraise, -⟩
      have htransfers := (hraise e _ hrun).1
      refine hknown ((Dict.mem_iff _ _).mpr ⟨AchTransfer.new request, ?_⟩)
      rw [← htransfers]
      exact Dict.get?_set_self network.transfers request.transferId _

/-- A receive call, a scheduler step, or a call of the clock. -/
inductive Step
  | receive (request : AchTransferRequest)
  | runNext
  | advanceTo (newTime : Int)
  | advanceBy (amount : Int)

def Step.exec : Step → Action (AchNetwork AchCallback) Unit
  | .receive request => AchNetworkCall.exec (.receive request)
  | .runNext => AchNetworkCall.exec .runNext
  | .advanceTo newTime => do
      let _ ← (schedulerOf.comp EventScheduler.clockOf).zoom (VirtualClock.advanceTo newTime)
  | .advanceBy amount => do
      let _ ← (schedulerOf.comp EventScheduler.clockOf).zoom (VirtualClock.advanceBy amount)

/-- In every state that a network can reach, the next receipt is atomic exactly
    when its identifier is known or time one is not past. -/
theorem receipts_atomic_iff (ledger : Ledger) (scheduler : EventScheduler AchCallback)
    (steps : List Step) :
    AllStates Step.exec (fun network => ∀ request, network.ReceiptAtomic request ↔
        request.transferId ∈ network.transfers ∨ network.scheduler.clock.time ≤ 1)
      (AchNetwork.new ledger scheduler) steps := by
  rw [allStates_iff]
  intro earlier _ request
  exact receiptAtomic_iff _ request

/-- Once a first transfer is pending, at time two, a second request is stored
    without a validation to come. -/
theorem lateReceipt_stored :
    ¬ (finalState Step.exec (AchNetwork.new achOpening)
        [.receive (achRequest "ACH-0001" 25000), .runNext, .runNext]
      ).ReceiptAtomic (achRequest "ACH-0002" 25000) := by
  intro hatomic
  have hcase := (receiptAtomic_iff _ _).mp hatomic
  revert hcase
  decide

end AchNetwork

end BankSim
