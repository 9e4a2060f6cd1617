import BankSim.Core.Ach
import BankSim.Theory.Posting
import BankSim.Theory.Scheduler

/-!
# What One ACH Stage Does

Every stage starts with a guarded transition of its transfer, and the guard
decides everything before the first mutation: `advance_cases` says that a
transition either raises and leaves the network as it was, or replaces the
transfer and nothing else.

Completion is the only stage with more to it. Its last step is a posting to
the ledger, `debitPosting`, and `complete_cases` lists its three outcomes.
The third is the defect two of the results below turn on: the transition is
allowed, the hold is released, and the posting does not fit, so the network
raises with the transfer completed and no debit in the ledger.

The other stages change the network in few ways, and what those ways keep,
every stage keeps. `Admits` lists them for a relation between states, and the
lemmas under it walk each stage once, for all such relations. `Stage` lists
what a call of a stage leaves behind, whether it returned or raised, for the
arguments that need to know what the transfer was like before.

## Main definitions

* `AchNetwork.Stage`: What a call of a stage leaves behind.
* `AchNetwork.Admits`: A relation that the harmless changes move along.
* `AchNetwork.released`: The network before a completion asks the ledger.
* `AchTransferRequest.debitPosting`: The debit that completes a transfer.

## Theorems

* `advance_cases`: A transition of a transfer in the network.
* `complete_cases`: The three outcomes of a completion.
* `call_refused`: A stage that is not due changes nothing.
* `stage_call`: Every call of a stage is one of the ways of `Stage`.
* `receive_known`, `receive_new`: The outcomes of a request.
* `validate_cases`: The outcomes of a validation.
* `within_receive`, `within_validate`, `within_markPending`, `within_submit`,
  `within_process`: The stages move along every relation that admits their
  changes.
-/

namespace BankSim

open Exec

/-- A request without a defect has the texts and the amount that its hold and
    its debit need. -/
theorem AchTransferRequest.sound_of_invalidReason {request : AchTransferRequest}
    (h : request.invalidReason = none) :
    isBlank request.transferId = false ∧ isBlank request.sourceAccountId = false ∧
      0 < request.amountCents := by
  unfold invalidReason at h
  split_ifs at h with hid haccount _ _ hzero hneg
  exact ⟨by simpa using hid, by simpa using haccount, by omega⟩

/-- The debit that completes a transfer. -/
def AchTransferRequest.debitPosting (request : AchTransferRequest) : Posting where
  entryId := request.transferId ++ "-DEBIT"
  accountId := request.sourceAccountId
  cents := request.amountCents
  entryType := .debit
  description := orDefault request.description "Outbound ACH credit"
  postedAt := 10

namespace AchTransfer

/-- A completed transfer after its debit was posted. -/
def noted (self : AchTransfer) : AchTransfer :=
  { self with history := self.history ++ [⟨10, .completed, "Ledger debit posted"⟩] }

theorem rejected_allowed_iff (status : AchTransferStatus) :
    .rejected ∈ status.allowedTransitions ↔ status = .received := by
  cases status <;> decide

theorem validated_allowed_iff (status : AchTransferStatus) :
    .validated ∈ status.allowedTransitions ↔ status = .received := by
  cases status <;> decide

theorem pending_allowed_iff (status : AchTransferStatus) :
    .pending ∈ status.allowedTransitions ↔ status = .validated := by
  cases status <;> decide

theorem submitted_allowed_iff (status : AchTransferStatus) :
    .submitted ∈ status.allowedTransitions ↔ status = .pending := by
  cases status <;> decide

theorem processing_allowed_iff (status : AchTransferStatus) :
    .processing ∈ status.allowedTransitions ↔ status = .submitted := by
  cases status <;> decide

theorem completed_allowed_iff (status : AchTransferStatus) :
    .completed ∈ status.allowedTransitions ↔ status = .processing := by
  cases status <;> decide

/-- The transfer after a rejection. -/
def rejected (self : AchTransfer) (time : Int) (reason : String) : AchTransfer :=
  { self.moved .rejected time "Transfer rejected" with rejectionReason := some reason }

theorem reject_of_received {transfer : AchTransfer} (h : transfer.status = .received) (time : Int)
    (reason : String) :
    (reject time reason).run transfer = .ok () (transfer.rejected time reason) :=
  run_bind_of_ok (guarded_of_allowed _ _ ((rejected_allowed_iff _).mpr h))

end AchTransfer

namespace AchCallback

/-- The transfer the closure works on. -/
def transferId : AchCallback → String
  | .validate transferId | .markPending transferId | .submit transferId | .process transferId
  | .complete transferId => transferId

/-- The status a transfer must have for the stage to be allowed. -/
def source : AchCallback → AchTransferStatus
  | .validate _ => .received
  | .markPending _ => .validated
  | .submit _ => .pending
  | .process _ => .submitted
  | .complete _ => .processing

end AchCallback

/-- A hold can be built for the request. -/
structure AchTransferRequest.Holdable (request : AchTransferRequest) : Prop where
  cents_pos : 0 < request.amountCents
  transferId_nonblank : isBlank request.transferId = false
  description_nonblank : isBlank (orDefault request.description "Outbound ACH credit") = false

/-- The hold on a transfer's funds, after as many holds as there are. -/
def AchTransferRequest.hold (request : AchTransferRequest) (h : request.Holdable) (holds : Nat) :
    PendingTransaction where
  transactionId := request.transferId
  amount := ⟨request.amountCents, h.cents_pos⟩
  transactionType := .pendingDebit
  description := orDefault request.description "Outbound ACH credit"
  sequence := holds + 1
  transactionId_nonblank := h.transferId_nonblank
  description_nonblank := h.description_nonblank
  sequence_pos := by omega

namespace AchNetwork

variable {κ : Type}

/-- The network with one transfer replaced. -/
def withTransfer (network : AchNetwork κ) (transferId : String) (transfer : AchTransfer) :
    AchNetwork κ :=
  { network with transfers := network.transfers.set transferId transfer }

/-- The network after the transition and the release of the hold, before the
    ledger is asked. -/
def released (network : AchNetwork κ) (transferId : String) (transfer : AchTransfer) :
    AchNetwork κ :=
  { network.withTransfer transferId (transfer.moved .completed 10 "Transfer completed") with
    pending := network.pending.filter fun item =>
      item.transactionId ≠ transfer.request.transferId }

theorem complete_eq (transferId : String) : complete (κ := κ) transferId = (do
    onTransfer transferId (AchTransfer.transition .completed 10 "Transfer completed")
    let request ← onTransfer transferId (return (← get).request)
    modify fun self =>
      { self with
        pending := self.pending.filter fun item => item.transactionId ≠ request.transferId }
    ledgerOf.zoom request.debitPosting.post
    onTransfer transferId (modify AchTransfer.noted)) := by
  simp only [complete, Posting.zoom_post, bind_assoc]
  rfl

/-- A transition of a transfer in the network: the guard refuses it and
    nothing changes, or the transfer is replaced and nothing else changes. -/
theorem advance_cases (network : AchNetwork κ) (transferId : String) (status : AchTransferStatus)
    (time : Int) (description : String) :
    ((∃ e, (onTransfer transferId (AchTransfer.transition status time description)).run network
          = .error e network) ∧
        ∀ transfer, network.transfers.get? transferId = some transfer →
          status ∉ transfer.status.allowedTransitions) ∨
      ∃ transfer, network.transfers.get? transferId = some transfer ∧
        status ∈ transfer.status.allowedTransitions ∧
        (onTransfer transferId (AchTransfer.transition status time description)).run network
          = .ok () (network.withTransfer transferId (transfer.moved status time description)) :=
  Dict.zoom_atKey_guarded transfersOf (⟨.keyError, transferId⟩ : Raised) transferId _ _ _ network

theorem advance_refused (network : AchNetwork κ) (transferId : String)
    (status : AchTransferStatus)
    (h : ∀ transfer, network.transfers.get? transferId = some transfer →
      status ∉ transfer.status.allowedTransitions) (time : Int) (description : String) :
    ∃ e, (onTransfer transferId (AchTransfer.transition status time description)).run network
      = .error e network := by
  rcases advance_cases network transferId status time description with
    ⟨herror, -⟩ | ⟨transfer, hget, hallowed, -⟩
  · exact herror
  · exact absurd hallowed (h transfer hget)

theorem advance_of_allowed {network : AchNetwork κ} {transferId : String} {transfer : AchTransfer}
    {status : AchTransferStatus} (hget : network.transfers.get? transferId = some transfer)
    (hallowed : status ∈ transfer.status.allowedTransitions) (time : Int) (description : String) :
    (onTransfer transferId (AchTransfer.transition status time description)).run network
      = .ok () (network.withTransfer transferId (transfer.moved status time description)) :=
  Dict.zoom_atKey_ok hget (guarded_of_allowed _ _ hallowed)

theorem readRequest_run {network : AchNetwork κ} {transferId : String} {transfer : AchTransfer}
    (hget : network.transfers.get? transferId = some transfer) :
    (onTransfer transferId (return (← get).request)).run network
      = .ok transfer.request network :=
  Dict.zoom_atKey_read AchTransfer.request hget

/-- The request read back after a transition is the one the transfer had
    before it. -/
theorem readRequest_moved (network : AchNetwork κ) (transferId : String) (transfer : AchTransfer)
    (status : AchTransferStatus) (time : Int) (description : String) :
    (onTransfer transferId (return (← get).request)).run
        (network.withTransfer transferId (transfer.moved status time description))
      = .ok transfer.request
          (network.withTransfer transferId (transfer.moved status time description)) := by
  have hget : (network.withTransfer transferId
      (transfer.moved status time description)).transfers.get? transferId
        = some (transfer.moved status time description) :=
    Dict.get?_set_self network.transfers transferId _
  have hread := readRequest_run hget
  exact hread

/-- Up to the ledger, a completion that the guard allows changes the transfer
    and the holds. What follows is the posting. -/
theorem complete_of_processing {network : AchNetwork κ} {transferId : String}
    {transfer : AchTransfer} (hget : network.transfers.get? transferId = some transfer)
    (hstatus : transfer.status = .processing) :
    (complete transferId).run network = (do
      ledgerOf.zoom transfer.request.debitPosting.post
      onTransfer transferId (modify AchTransfer.noted)).run
        (network.released transferId transfer) := by
  have hallowed := (AchTransfer.completed_allowed_iff transfer.status).mpr hstatus
  rw [complete_eq, run_bind_of_ok (advance_of_allowed hget hallowed _ _),
    run_bind_of_ok (readRequest_moved network transferId transfer _ _ _)]
  rfl

/-- A debit that fits is posted, and the transfer notes it. -/
theorem complete_of_fits {network : AchNetwork κ} {transferId : String} {transfer : AchTransfer}
    (hget : network.transfers.get? transferId = some transfer)
    (hstatus : transfer.status = .processing)
    (hfits : transfer.request.debitPosting.Fits network.ledger) :
    (complete transferId).run network = .ok ()
      { network.released transferId transfer with
        ledger := network.ledger.push (Posting.entry hfits)
        transfers := network.transfers.set transferId
          (transfer.moved .completed 10 "Transfer completed").noted } := by
  have hpost := Component.zoom_run_ok (p := ledgerOf)
    (s := network.released transferId transfer) (Posting.post_of_fits hfits)
  have hnote := Dict.zoom_atKey_ok (p := transfersOf (κ := κ))
    (x := (⟨.keyError, transferId⟩ : Raised)) (m := modify AchTransfer.noted)
    (s := ledgerOf.set (network.ledger.push (Posting.entry hfits))
      (network.released transferId transfer))
    (Dict.get?_set_self network.transfers transferId _) rfl
  rw [complete_of_processing hget hstatus, run_bind_of_ok hpost]
  refine hnote.trans ?_
  simp only [withTransfer, released, ledgerOf, transfersOf, Dict.set_set]

/-- A debit that does not fit leaves the transition and the release of the
    hold behind. -/
theorem complete_of_not_fits {network : AchNetwork κ} {transferId : String}
    {transfer : AchTransfer} (hget : network.transfers.get? transferId = some transfer)
    (hstatus : transfer.status = .processing)
    (hunfit : ¬ transfer.request.debitPosting.Fits network.ledger) :
    ∃ e, (complete transferId).run network = .error e (network.released transferId transfer) := by
  rcases Posting.post_of_not_fits hunfit with ⟨e, he⟩
  have hpost := Component.zoom_run_error (p := ledgerOf)
    (s := network.released transferId transfer) he
  rw [complete_of_processing hget hstatus]
  exact ⟨e, run_bind_of_error hpost⟩

/-- The three outcomes of a completion. The guard refuses it and nothing
    changes; or the debit fits and is posted; or the debit does not fit, and
    the call raises with the transfer completed and the hold released. -/
theorem complete_cases (network : AchNetwork κ) (transferId : String) :
    ((∃ e, (complete transferId).run network = .error e network) ∧
        ∀ transfer, network.transfers.get? transferId = some transfer →
          transfer.status ≠ .processing) ∨
      ∃ transfer, network.transfers.get? transferId = some transfer ∧
        transfer.status = .processing ∧
        ((∃ (h : transfer.request.debitPosting.Fits network.ledger) (transfer' : AchTransfer),
            transfer'.request = transfer.request ∧ transfer'.status = .completed ∧
            (complete transferId).run network = .ok ()
              { network.released transferId transfer with
                ledger := network.ledger.push (Posting.entry h)
                transfers := network.transfers.set transferId transfer' }) ∨
          (¬ transfer.request.debitPosting.Fits network.ledger ∧
            ∃ e, (complete transferId).run network
              = .error e (network.released transferId transfer))) := by
  rcases advance_cases network transferId .completed 10 "Transfer completed" with
    ⟨⟨e, herror⟩, hrefused⟩ | ⟨transfer, hget, hallowed, -⟩
  · -- The transition is the first action that can fail.
    refine Or.inl ⟨⟨e, ?_⟩, fun transfer hget hstatus => ?_⟩
    · rw [complete_eq]
      exact run_bind_of_error herror
    · exact hrefused transfer hget ((AchTransfer.completed_allowed_iff _).mpr hstatus)
  · have hstatus := (AchTransfer.completed_allowed_iff _).mp hallowed
    refine Or.inr ⟨transfer, hget, hstatus, ?_⟩
    by_cases hfits : transfer.request.debitPosting.Fits network.ledger
    · exact Or.inl ⟨hfits, (transfer.moved .completed 10 "Transfer completed").noted,
        rfl, rfl, complete_of_fits hget hstatus hfits⟩
    · exact Or.inr ⟨hfits, complete_of_not_fits hget hstatus hfits⟩

/-! ### The other stages -/

/-- Validating a received transfer rejects it for the reason there is, or
    moves it on and schedules the next stage. -/
theorem validate_of_received (lift : AchCallback → κ) {network : AchNetwork κ}
    {transferId : String} {transfer : AchTransfer}
    (hget : network.transfers.get? transferId = some transfer)
    (hstatus : transfer.status = .received) :
    (validate lift transferId).run network =
      match network.rejectionReason transfer.request with
      | some reason => .ok () (network.withTransfer transferId
          (transfer.rejected network.scheduler.clock.time reason))
      | none => (schedulerOf.zoom (EventScheduler.scheduleAt 2 (lift (.markPending transferId)))).run
          (network.withTransfer transferId (transfer.moved .validated 1 "Transfer validated")) := by
  rw [validate, run_bind_of_ok (readRequest_run hget), run_bind_get]
  cases network.rejectionReason transfer.request with
  | some reason =>
      exact Dict.zoom_atKey_ok hget (AchTransfer.reject_of_received hstatus _ reason)
  | none =>
      have hallowed := (AchTransfer.validated_allowed_iff transfer.status).mpr hstatus
      exact run_bind_of_ok (advance_of_allowed hget hallowed 1 "Transfer validated")

/-- Holding the funds of a validated transfer, if a hold can be built. -/
theorem markPending_of_holdable (lift : AchCallback → κ) {network : AchNetwork κ}
    {transferId : String} {transfer : AchTransfer}
    (hget : network.transfers.get? transferId = some transfer)
    (hstatus : transfer.status = .validated) (hhold : transfer.request.Holdable) :
    (markPending lift transferId).run network =
      (schedulerOf.zoom (EventScheduler.scheduleAt 3 (lift (.submit transferId)))).run
        { network.withTransfer transferId (transfer.moved .pending 2 "Funds marked pending") with
          pending := network.pending
            ++ [transfer.request.hold hhold network.pending.length] } := by
  have hallowed := (AchTransfer.pending_allowed_iff transfer.status).mpr hstatus
  have hitem : PendingTransaction.new transfer.request.transferId
      ⟨transfer.request.amountCents, hhold.cents_pos⟩ .pendingDebit
      (orDefault transfer.request.description "Outbound ACH credit") (network.pending.length + 1)
        = .ok (transfer.request.hold hhold network.pending.length) := by
    rw [PendingTransaction.new, dif_neg (by simp [hhold.transferId_nonblank]),
      dif_neg (by simp [hhold.description_nonblank]), dif_neg (by omega)]
    rfl
  rw [markPending, run_bind_of_ok (advance_of_allowed hget hallowed _ _),
    run_bind_of_ok (readRequest_moved network transferId transfer _ _ _), run_bind_get,
    run_bind_lift_ok (Money.new_of_pos _ hhold.cents_pos)]
  exact run_bind_lift_ok hitem

/-- Otherwise the transition stands, without the hold and with nothing
    scheduled. -/
theorem markPending_of_not_holdable (lift : AchCallback → κ) {network : AchNetwork κ}
    {transferId : String} {transfer : AchTransfer}
    (hget : network.transfers.get? transferId = some transfer)
    (hstatus : transfer.status = .validated) (hhold : ¬ transfer.request.Holdable) :
    ∃ e, (markPending lift transferId).run network = .error e
      (network.withTransfer transferId (transfer.moved .pending 2 "Funds marked pending")) := by
  have hallowed := (AchTransfer.pending_allowed_iff transfer.status).mpr hstatus
  rw [markPending, run_bind_of_ok (advance_of_allowed hget hallowed _ _),
    run_bind_of_ok (readRequest_moved network transferId transfer _ _ _), run_bind_get]
  by_cases hcents : 0 < transfer.request.amountCents
  · rw [run_bind_lift_ok (Money.new_of_pos _ hcents)]
    -- The amount is in order, so it is the text of the hold that is not.
    have hitem : ∃ e, PendingTransaction.new transfer.request.transferId
        ⟨transfer.request.amountCents, hcents⟩ .pendingDebit
        (orDefault transfer.request.description "Outbound ACH credit")
        (network.pending.length + 1) = .error e := by
      by_cases hid : isBlank transfer.request.transferId = true
      · exact ⟨_, by rw [PendingTransaction.new, dif_pos hid]⟩
      · by_cases hde : isBlank
            (orDefault transfer.request.description "Outbound ACH credit") = true
        · exact ⟨_, by rw [PendingTransaction.new, dif_neg hid, dif_pos hde]⟩
        · exact absurd ⟨hcents, by simpa using hid, by simpa using hde⟩ hhold
    rcases hitem with ⟨e, he⟩
    exact ⟨e, run_bind_lift_error he⟩
  · have hamount : Money.new transfer.request.amountCents
        = .error (ledgerError "ledger entry amount must be greater than zero") := by
      rw [Money.new, dif_pos (by omega)]
    exact ⟨_, run_bind_lift_error hamount⟩

theorem submit_of_pending (lift : AchCallback → κ) {network : AchNetwork κ} {transferId : String}
    {transfer : AchTransfer} (hget : network.transfers.get? transferId = some transfer)
    (hstatus : transfer.status = .pending) :
    (submit lift transferId).run network =
      (schedulerOf.zoom (EventScheduler.scheduleAt 5 (lift (.process transferId)))).run
        { network.withTransfer transferId
            (transfer.moved .submitted 3 "Submitted to ACH network") with
          submissions := network.submissions ++ [transfer.request.transferId] } := by
  have hallowed := (AchTransfer.submitted_allowed_iff transfer.status).mpr hstatus
  rw [submit, run_bind_of_ok (advance_of_allowed hget hallowed _ _),
    run_bind_of_ok (readRequest_moved network transferId transfer _ _ _)]
  rfl

theorem process_of_submitted (lift : AchCallback → κ) {network : AchNetwork κ}
    {transferId : String} {transfer : AchTransfer}
    (hget : network.transfers.get? transferId = some transfer)
    (hstatus : transfer.status = .submitted) :
    (process lift transferId).run network =
      (schedulerOf.zoom (EventScheduler.scheduleAt 10 (lift (.complete transferId)))).run
        (network.withTransfer transferId
          (transfer.moved .processing 5 "Network processing")) := by
  have hallowed := (AchTransfer.processing_allowed_iff transfer.status).mpr hstatus
  exact run_bind_of_ok (advance_of_allowed hget hallowed _ _)

/-- A stage that is not due raises before anything has changed. -/
theorem call_refused (lift : AchCallback → κ) (network : AchNetwork κ) (callback : AchCallback)
    (h : ∀ transfer, network.transfers.get? callback.transferId = some transfer →
      transfer.status ≠ callback.source) :
    ∃ e, (call lift callback).run network = .error e network := by
  cases callback with
  | validate transferId =>
      cases hget : network.transfers.get? transferId with
      | none => exact ⟨_, run_bind_of_error (Dict.zoom_atKey_missing hget)⟩
      | some transfer =>
          have hstatus : transfer.status ≠ .received := h transfer hget
          rw [call, validate, run_bind_of_ok (readRequest_run hget), run_bind_get]
          cases network.rejectionReason transfer.request with
          | some reason =>
              have hreject : (AchTransfer.reject network.scheduler.clock.time reason).run transfer
                  = .error _ transfer :=
                run_bind_of_error (guarded_of_refused _ _
                  fun hallowed => hstatus ((AchTransfer.rejected_allowed_iff _).mp hallowed))
              exact ⟨_, Dict.zoom_atKey_refused hget hreject⟩
          | none =>
              rcases advance_refused network transferId .validated
                (fun found hfound hallowed => h found hfound
                  ((AchTransfer.validated_allowed_iff _).mp hallowed)) 1 "Transfer validated" with
                ⟨e, he⟩
              exact ⟨e, run_bind_of_error he⟩
  | markPending transferId =>
      rcases advance_refused network transferId .pending (fun transfer hget hallowed =>
        h transfer hget ((AchTransfer.pending_allowed_iff _).mp hallowed)) 2
          "Funds marked pending" with ⟨e, he⟩
      exact ⟨e, run_bind_of_error he⟩
  | submit transferId =>
      rcases advance_refused network transferId .submitted (fun transfer hget hallowed =>
        h transfer hget ((AchTransfer.submitted_allowed_iff _).mp hallowed)) 3
          "Submitted to ACH network" with ⟨e, he⟩
      exact ⟨e, run_bind_of_error he⟩
  | process transferId =>
      rcases advance_refused network transferId .processing (fun transfer hget hallowed =>
        h transfer hget ((AchTransfer.processing_allowed_iff _).mp hallowed)) 5
          "Network processing" with ⟨e, he⟩
      exact ⟨e, run_bind_of_error he⟩
  | complete transferId =>
      rcases advance_refused network transferId .completed (fun transfer hget hallowed =>
        h transfer hget ((AchTransfer.completed_allowed_iff _).mp hallowed)) 10
          "Transfer completed" with ⟨e, he⟩
      rw [call, complete_eq]
      exact ⟨e, run_bind_of_error he⟩

/-- A request that is not turned down has no defect. -/
theorem invalidReason_of_rejectionReason {network : AchNetwork κ} {request : AchTransferRequest}
    (h : network.rejectionReason request = none) : request.invalidReason = none := by
  unfold rejectionReason at h
  cases hreason : request.invalidReason with
  | none => rfl
  | some reason =>
      rw [hreason] at h
      cases h

/-- The network with its scheduler offered the next stage. -/
def offering (network : AchNetwork κ) (time : Int) (callback : κ) : AchNetwork κ :=
  { network with scheduler := network.scheduler.offered time callback }

theorem after_offering (time : Int) (callback : κ) (network : AchNetwork κ) :
    after (schedulerOf.zoom (EventScheduler.scheduleAt time callback)) network
      = network.offering time callback := by
  rw [Component.after_zoom, EventScheduler.after_scheduleAt]
  rfl

theorem after_of_run_eq {m m' : Action (AchNetwork κ) Unit} {network network' : AchNetwork κ}
    (h : m.run network = m'.run network') : after m network = after m' network' := by
  unfold after
  rw [h]

/-- What a stage can do to the network, one constructor for each outcome. -/
inductive Stage (lift : AchCallback → κ) (network : AchNetwork κ) :
    AchCallback → AchNetwork κ → Prop
  | refused {callback : AchCallback}
      (h : ∀ transfer, network.transfers.get? callback.transferId = some transfer →
        transfer.status ≠ callback.source) : Stage lift network callback network
  | rejected {transferId : String} {transfer : AchTransfer} {reason : String}
      (hget : network.transfers.get? transferId = some transfer)
      (hstatus : transfer.status = .received)
      (hreason : network.rejectionReason transfer.request = some reason) :
      Stage lift network (.validate transferId) (network.withTransfer transferId
        (transfer.rejected network.scheduler.clock.time reason))
  | validated {transferId : String} {transfer : AchTransfer}
      (hget : network.transfers.get? transferId = some transfer)
      (hstatus : transfer.status = .received)
      (hreason : network.rejectionReason transfer.request = none) :
      Stage lift network (.validate transferId) ((network.withTransfer transferId
        (transfer.moved .validated 1 "Transfer validated")).offering 2
          (lift (.markPending transferId)))
  | held {transferId : String} {transfer : AchTransfer}
      (hget : network.transfers.get? transferId = some transfer)
      (hstatus : transfer.status = .validated) (hhold : transfer.request.Holdable) :
      Stage lift network (.markPending transferId) (offering
        { network.withTransfer transferId (transfer.moved .pending 2 "Funds marked pending") with
          pending := network.pending ++ [transfer.request.hold hhold network.pending.length] } 3
        (lift (.submit transferId)))
  | unheld {transferId : String} {transfer : AchTransfer}
      (hget : network.transfers.get? transferId = some transfer)
      (hstatus : transfer.status = .validated) (hhold : ¬ transfer.request.Holdable) :
      Stage lift network (.markPending transferId) (network.withTransfer transferId
        (transfer.moved .pending 2 "Funds marked pending"))
  | submitted {transferId : String} {transfer : AchTransfer}
      (hget : network.transfers.get? transferId = some transfer)
      (hstatus : transfer.status = .pending) :
      Stage lift network (.submit transferId) (offering
        { network.withTransfer transferId
            (transfer.moved .submitted 3 "Submitted to ACH network") with
          submissions := network.submissions ++ [transfer.request.transferId] } 5
        (lift (.process transferId)))
  | processed {transferId : String} {transfer : AchTransfer}
      (hget : network.transfers.get? transferId = some transfer)
      (hstatus : transfer.status = .submitted) :
      Stage lift network (.process transferId) ((network.withTransfer transferId
        (transfer.moved .processing 5 "Network processing")).offering 10
          (lift (.complete transferId)))
  | debited {transferId : String} {transfer : AchTransfer}
      (hget : network.transfers.get? transferId = some transfer)
      (hstatus : transfer.status = .processing)
      (hfits : transfer.request.debitPosting.Fits network.ledger) :
      Stage lift network (.complete transferId)
        { network.released transferId transfer with
          ledger := network.ledger.push (Posting.entry hfits)
          transfers := network.transfers.set transferId
            (transfer.moved .completed 10 "Transfer completed").noted }
  | undebited {transferId : String} {transfer : AchTransfer}
      (hget : network.transfers.get? transferId = some transfer)
      (hstatus : transfer.status = .processing)
      (hunfit : ¬ transfer.request.debitPosting.Fits network.ledger) :
      Stage lift network (.complete transferId) (network.released transferId transfer)

/-- A stage ends in one of these outcomes, whether it returns or raises. -/
theorem stage_call (lift : AchCallback → κ) (network : AchNetwork κ) (callback : AchCallback) :
    Stage lift network callback (after (call lift callback) network) := by
  by_cases hdue : ∃ transfer, network.transfers.get? callback.transferId = some transfer ∧
      transfer.status = callback.source
  · rcases hdue with ⟨transfer, hget, hstatus⟩
    cases callback with
    | validate transferId =>
        dsimp only [AchCallback.transferId, AchCallback.source] at hget hstatus
        have hrun := validate_of_received lift hget hstatus
        cases hreason : network.rejectionReason transfer.request with
        | some reason =>
            rw [hreason] at hrun
            rw [call, after_of_ok hrun]
            exact .rejected hget hstatus hreason
        | none =>
            rw [hreason] at hrun
            rw [call, after_of_run_eq hrun, after_offering]
            exact .validated hget hstatus hreason
    | markPending transferId =>
        dsimp only [AchCallback.transferId, AchCallback.source] at hget hstatus
        by_cases hhold : transfer.request.Holdable
        · rw [call, after_of_run_eq (markPending_of_holdable lift hget hstatus hhold),
            after_offering]
          exact .held hget hstatus hhold
        · rcases markPending_of_not_holdable lift hget hstatus hhold with ⟨e, he⟩
          rw [call, after_of_error he]
          exact .unheld hget hstatus hhold
    | submit transferId =>
        dsimp only [AchCallback.transferId, AchCallback.source] at hget hstatus
        rw [call, after_of_run_eq (submit_of_pending lift hget hstatus), after_offering]
        exact .submitted hget hstatus
    | process transferId =>
        dsimp only [AchCallback.transferId, AchCallback.source] at hget hstatus
        rw [call, after_of_run_eq (process_of_submitted lift hget hstatus), after_offering]
        exact .processed hget hstatus
    | complete transferId =>
        dsimp only [AchCallback.transferId, AchCallback.source] at hget hstatus
        by_cases hfits : transfer.request.debitPosting.Fits network.ledger
        · rw [call, after_of_ok (complete_of_fits hget hstatus hfits)]
          exact .debited hget hstatus hfits
        · rcases complete_of_not_fits hget hstatus hfits with ⟨e, he⟩
          rw [call, after_of_error he]
          exact .undebited hget hstatus hfits
  · have hrefused : ∀ transfer, network.transfers.get? callback.transferId = some transfer →
        transfer.status ≠ callback.source :=
      fun transfer hget hstatus => hdue ⟨transfer, hget, hstatus⟩
    rcases call_refused lift network callback hrefused with ⟨e, he⟩
    rw [after_of_error he]
    exact .refused hrefused

/-- A known identifier is refused. -/
theorem receive_known (lift : AchCallback → κ) {network : AchNetwork κ}
    {request : AchTransferRequest} (h : request.transferId ∈ network.transfers) :
    (receive lift request).run network
      = .error (achError "ACH transfer identifier already exists") network := by
  rw [receive, run_bind_get, if_pos h]
  rfl

/-- Any other is stored before its validation is scheduled. -/
theorem receive_new (lift : AchCallback → κ) {network : AchNetwork κ}
    {request : AchTransferRequest} (h : request.transferId ∉ network.transfers) :
    (receive lift request).run network = (do
      schedulerOf.zoom (EventScheduler.scheduleAt 1 (lift (.validate request.transferId)))
      return request.transferId).run
        (network.withTransfer request.transferId (AchTransfer.new request)) := by
  rw [receive, run_bind_get, if_neg h]
  rfl

/-- The outcomes of receiving a request. -/
theorem after_receive (lift : AchCallback → κ) (network : AchNetwork κ)
    (request : AchTransferRequest) :
    after (receive lift request) network = network ∨
      request.transferId ∉ network.transfers ∧
        after (receive lift request) network
          = (network.withTransfer request.transferId (AchTransfer.new request)).offering 1
              (lift (.validate request.transferId)) := by
  by_cases hmem : request.transferId ∈ network.transfers
  · exact Or.inl (after_of_error (receive_known lift hmem))
  · refine Or.inr ⟨hmem, ?_⟩
    rw [← after_offering]
    unfold after
    rw [receive_new lift hmem, EStateM.run_bind]
    cases (schedulerOf.zoom (EventScheduler.scheduleAt 1 (lift (.validate request.transferId)))).run
      (network.withTransfer request.transferId (AchTransfer.new request)) <;> rfl

/-- The outcomes of a validation: nothing changes; or a received transfer is
    rejected; or it is validated, having passed both checks. Scheduling the
    next stage can still raise, but touches neither transfers nor ledger. -/
theorem validate_cases (lift : AchCallback → κ) (network : AchNetwork κ) (transferId : String) :
    after (validate lift transferId) network = network ∨
      ∃ transfer transfer', network.transfers.get? transferId = some transfer ∧
        transfer.status = .received ∧ transfer'.request = transfer.request ∧
        (after (validate lift transferId) network).ledger = network.ledger ∧
        (after (validate lift transferId) network).transfers
          = network.transfers.set transferId transfer' ∧
        (transfer'.status = .rejected ∨
          (transfer'.status = .validated ∧ network.rejectionReason transfer.request = none)) := by
  have hstage := stage_call lift network (.validate transferId)
  rw [call] at hstage
  generalize after (validate lift transferId) network = network' at hstage ⊢
  cases hstage with
  | refused => exact Or.inl rfl
  | rejected hget hstatus =>
      exact Or.inr ⟨_, _, hget, hstatus, by rfl, rfl, rfl, Or.inl rfl⟩
  | validated hget hstatus hreason =>
      exact Or.inr ⟨_, _, hget, hstatus, by rfl, rfl, rfl, Or.inr ⟨rfl, hreason⟩⟩

/-- A relation that every change of the network moves along, but a validation
    and a completion: it ignores all but the transfers and the ledger, and
    allows new transfers and the other transitions. -/
structure Admits (R : AchNetwork κ → AchNetwork κ → Prop) : Prop where
  frame : ∀ network network' : AchNetwork κ, network'.ledger = network.ledger →
    network'.transfers = network.transfers → R network network'
  received : ∀ (network : AchNetwork κ) (request : AchTransferRequest),
    network.transfers.get? request.transferId = none →
      R network (network.withTransfer request.transferId (AchTransfer.new request))
  advanced : ∀ (network : AchNetwork κ) (transferId : String) (transfer transfer' : AchTransfer),
    network.transfers.get? transferId = some transfer → transfer'.request = transfer.request →
      transfer'.status ∈ transfer.status.allowedTransitions → transfer'.status ≠ .validated →
        transfer'.status ≠ .completed → R network (network.withTransfer transferId transfer')

namespace Admits

variable {R : AchNetwork κ → AchNetwork κ → Prop} [Std.Refl R] [IsTrans (AchNetwork κ) R]
  (admits : Admits R)

include admits

omit [Std.Refl R] [IsTrans (AchNetwork κ) R] in
theorem within_scheduler {α : Type} (m : Action (EventScheduler κ) α) :
    Within R (schedulerOf.zoom m) := by
  intro network
  rw [Component.after_zoom]
  exact admits.frame _ _ rfl rfl

omit [IsTrans (AchNetwork κ) R] in
theorem within_transition (transferId : String) (status : AchTransferStatus)
    (hvalidated : status ≠ .validated) (hcompleted : status ≠ .completed) (time : Int)
    (description : String) :
    Within R (onTransfer transferId (AchTransfer.transition status time description)) := by
  intro network
  rcases advance_cases network transferId status time description with
    ⟨⟨e, herror⟩, -⟩ | ⟨transfer, hget, hallowed, hrun⟩
  · rw [after_of_error herror]
    exact Std.Refl.refl network
  · rw [after_of_ok hrun]
    exact admits.advanced network transferId transfer _ hget rfl hallowed hvalidated hcompleted

omit [IsTrans (AchNetwork κ) R] admits in
theorem within_readRequest (transferId : String) :
    Within R (onTransfer transferId (return (← get).request)) := by
  intro network
  cases hget : network.transfers.get? transferId with
  | none =>
      rw [onTransfer, after_of_error (Dict.zoom_atKey_missing hget)]
      exact Std.Refl.refl network
  | some transfer =>
      rw [onTransfer, after_of_ok (Dict.zoom_atKey_read AchTransfer.request hget)]
      exact Std.Refl.refl network

variable (lift : AchCallback → κ)

theorem within_receive (request : AchTransferRequest) : Within R (receive lift request) := by
  intro network
  -- A second receipt of an identifier is refused before anything is stored.
  by_cases hmem : request.transferId ∈ network.transfers
  · have hrun : (receive lift request).run network
        = .error (achError "ACH transfer identifier already exists") network := by
      rw [receive, run_bind_get, if_pos hmem]
      rfl
    rw [after_of_error hrun]
    exact Std.Refl.refl network
  · have hnone := (Dict.not_mem_iff network.transfers request.transferId).mp hmem
    have hrest := (within_bind (admits.within_scheduler
      (EventScheduler.scheduleAt 1 (lift (.validate request.transferId))))
      fun _ => within_pure request.transferId)
      (network.withTransfer request.transferId (AchTransfer.new request))
    have hrun : after (receive lift request) network
        = after (do
            schedulerOf.zoom
              (EventScheduler.scheduleAt 1 (lift (.validate request.transferId)))
            return request.transferId)
          (network.withTransfer request.transferId (AchTransfer.new request)) := by
      unfold after
      rw [receive, run_bind_get, if_neg hmem]
      rfl
    rw [hrun]
    exact IsTrans.trans _ _ _ (admits.received network request hnone) hrest

theorem within_markPending (transferId : String) : Within R (markPending lift transferId) :=
  within_bind (admits.within_transition transferId .pending (by decide) (by decide) _ _) fun _ =>
    within_bind (within_readRequest transferId) fun _ =>
      within_bind within_get fun _ => within_bind (within_lift _) fun _ =>
        within_bind (within_lift _) fun _ =>
          within_bind (within_modify fun _ => admits.frame _ _ rfl rfl) fun _ =>
            admits.within_scheduler _

theorem within_submit (transferId : String) : Within R (submit lift transferId) :=
  within_bind (admits.within_transition transferId .submitted (by decide) (by decide) _ _) fun _ =>
    within_bind (within_readRequest transferId) fun _ =>
      within_bind (within_modify fun _ => admits.frame _ _ rfl rfl) fun _ =>
        admits.within_scheduler _

theorem within_process (transferId : String) : Within R (process lift transferId) :=
  within_bind (admits.within_transition transferId .processing (by decide) (by decide) _ _)
    fun _ => admits.within_scheduler _

/-- A relation that also allows the transition to validated. -/
theorem within_validate (transferId : String)
    (hvalidated : ∀ (network : AchNetwork κ) (transfer transfer' : AchTransfer),
      network.transfers.get? transferId = some transfer → transfer'.request = transfer.request →
        transfer.status = .received → transfer'.status = .validated →
          R network (network.withTransfer transferId transfer')) :
    Within R (validate lift transferId) := by
  intro network
  rcases validate_cases lift network transferId with
    hsame | ⟨transfer, transfer', hget, hstatus, hrequest, hledger, htransfers, hnew⟩
  · rw [hsame]
    exact Std.Refl.refl network
  · -- One step replaces the transfer, and one touches only the scheduler.
    refine IsTrans.trans _ (network.withTransfer transferId transfer') _ ?_
      (admits.frame _ _ hledger htransfers)
    rcases hnew with hrejected | ⟨hdone, -⟩
    · refine admits.advanced network transferId transfer transfer' hget hrequest ?_ ?_ ?_ <;>
        rw [hrejected]
      · exact (AchTransfer.rejected_allowed_iff _).mpr hstatus
      · decide
      · decide
    · exact hvalidated network transfer transfer' hget hrequest hstatus hdone

end Admits

end AchNetwork

end BankSim
