import BankSim.Core.AchReturns
import BankSim.Theory.Ach

/-!
# What Completing a Return Does

The completion of a return has the shape of the completion of a transfer: a
guarded transition first, then a posting to the ledger. The posting is a
credit whose account is read from the original transfer, so a missing
transfer is one more way in which it can fail after the transition.

`Stage` lists what a call of any stage of a return leaves behind.

## Main definitions

* `AchReturnProcessor.Stage`: What a call of a stage leaves behind.
* `AchReturnRequest.creditPosting`: The credit that completes a return.
* `AchReturnProcessor.CreditFits`: The original transfer is known and the
  ledger accepts the credit.

## Theorems

* `complete_of_processing`: What follows the transition is the posting.
* `complete_cases`: The three outcomes of a completion.
* `call_refused`: A stage that is not due changes nothing.
* `stage_call`: Every call of a stage is one of the ways of `Stage`.
* `receive_known`, `receive_new`: The outcomes of a request.
-/

namespace BankSim

open Exec

/-- The credit that completes a return at a given time. -/
def AchReturnRequest.creditPosting (request : AchReturnRequest) (original : AchTransferRequest)
    (time : Int) : Posting where
  entryId := request.returnId ++ "-CREDIT"
  accountId := original.sourceAccountId
  cents := request.amountCents
  entryType := .credit
  description := "ACH return credit"
  postedAt := time
  originalTransferId := some request.originalTransferId
  achReturnId := some request.returnId

namespace AchReturn

/-- A completed return after its credit was posted. -/
def credited (self : AchReturn) (time : Int) (entryId : String) : AchReturn :=
  { self with
    completedAt := some time
    correctiveEntryId := some entryId
    history := self.history ++ [⟨time, .completed, "Corrective credit posted"⟩] }

/-- A return after a rejection. -/
def rejected (self : AchReturn) (time : Int) (reason : String) : AchReturn :=
  { self.moved .rejected time "ACH return rejected" with rejectionReason := some reason }

theorem rejected_allowed_iff (status : AchReturnStatus) :
    .rejected ∈ status.allowedTransitions ↔ status = .received := by
  cases status <;> decide

theorem validated_allowed_iff (status : AchReturnStatus) :
    .validated ∈ status.allowedTransitions ↔ status = .received := by
  cases status <;> decide

theorem processing_allowed_iff (status : AchReturnStatus) :
    .processing ∈ status.allowedTransitions ↔ status = .validated := by
  cases status <;> decide

theorem completed_allowed_iff (status : AchReturnStatus) :
    .completed ∈ status.allowedTransitions ↔ status = .processing := by
  cases status <;> decide

theorem reject_of_received {item : AchReturn} (h : item.status = .received) (time : Int)
    (reason : String) : (reject time reason).run item = .ok () (item.rejected time reason) :=
  run_bind_of_ok (guarded_of_allowed _ _ ((rejected_allowed_iff _).mpr h))

end AchReturn

namespace AchReturnCallback

/-- The return the closure works on. -/
def returnId : AchReturnCallback → String
  | .validate returnId | .process returnId | .complete returnId => returnId

/-- The status a return must have for the stage to be allowed. -/
def source : AchReturnCallback → AchReturnStatus
  | .validate _ => .received
  | .process _ => .validated
  | .complete _ => .processing

end AchReturnCallback

namespace AchReturnProcessor

variable {κ : Type}

/-- The processor with one return replaced. -/
def withReturn (self : AchReturnProcessor κ) (returnId : String) (item : AchReturn) :
    AchReturnProcessor κ :=
  { self with returns := self.returns.set returnId item }

/-- The processor with its network's ledger replaced. -/
def withLedger (self : AchReturnProcessor κ) (ledger : Ledger) : AchReturnProcessor κ :=
  { self with network := { self.network with ledger } }

/-- The credit of a return can be posted at the given time: the original
    transfer is there, and the ledger accepts the entry. -/
def CreditFits (self : AchReturnProcessor κ) (request : AchReturnRequest) (time : Int) : Prop :=
  ∃ original, self.network.transfers.get? request.originalTransferId = some original ∧
    (request.creditPosting original.request time).Fits self.network.ledger

/-- The processor with one more event on the scheduler it shares. -/
def scheduling (self : AchReturnProcessor κ) (delay : Int) (callback : κ) :
    AchReturnProcessor κ :=
  schedulerOf.set (self.network.scheduler.scheduled
    (self.network.scheduler.clock.time + delay) callback) self

theorem scheduleAfter_run (self : AchReturnProcessor κ) (delay : Int) (callback : κ)
    (h : 0 ≤ delay) :
    (schedulerOf.zoom (EventScheduler.scheduleAfter delay callback)).run self
      = .ok () (self.scheduling delay callback) :=
  Component.zoom_run_ok (EventScheduler.scheduleAfter_of_nonneg callback h)

theorem advance_of_allowed {self : AchReturnProcessor κ} {returnId : String} {item : AchReturn}
    {status : AchReturnStatus} (hget : self.returns.get? returnId = some item)
    (hallowed : status ∈ item.status.allowedTransitions) (time : Int) (description : String) :
    (onReturn returnId (AchReturn.transition status time description)).run self
      = .ok () (self.withReturn returnId (item.moved status time description)) :=
  Dict.zoom_atKey_ok hget (guarded_of_allowed _ _ hallowed)

theorem advance_refused (self : AchReturnProcessor κ) (returnId : String)
    (status : AchReturnStatus) (h : ∀ item, self.returns.get? returnId = some item →
      status ∉ item.status.allowedTransitions) (time : Int) (description : String) :
    ∃ e, (onReturn returnId (AchReturn.transition status time description)).run self
      = .error e self := by
  rcases Dict.zoom_atKey_guarded (returnsOf (κ := κ)) (⟨.keyError, returnId⟩ : Raised) returnId
      (fun item => status ∈ item.status.allowedTransitions)
      (fun item => achReturnError
        s!"cannot transition ACH return from {item.status.value} to {status.value}")
      (fun item => item.moved status time description) self with
    ⟨herror, -⟩ | ⟨item, hget, hallowed, -⟩
  · exact herror
  · exact absurd hallowed (h item hget)

theorem readRequest_run {self : AchReturnProcessor κ} {returnId : String} {item : AchReturn}
    (hget : self.returns.get? returnId = some item) :
    (onReturn returnId (return (← get).request)).run self = .ok item.request self :=
  Dict.zoom_atKey_read AchReturn.request hget

/-- The request read back after a transition is the one the return had before
    it. -/
theorem readRequest_moved (self : AchReturnProcessor κ) (returnId : String) (item : AchReturn)
    (status : AchReturnStatus) (time : Int) (description : String) :
    (onReturn returnId (return (← get).request)).run
        (self.withReturn returnId (item.moved status time description))
      = .ok item.request (self.withReturn returnId (item.moved status time description)) := by
  have hget : (self.withReturn returnId (item.moved status time description)).returns.get? returnId
      = some (item.moved status time description) :=
    Dict.get?_set_self self.returns returnId _
  have hread := readRequest_run hget
  exact hread

theorem complete_eq (returnId : String) : complete (κ := κ) returnId = (do
    let self ← get
    onReturn returnId
      (AchReturn.transition .completed self.network.scheduler.clock.time "ACH return completed")
    let request ← onReturn returnId (return (← get).request)
    let original ← networkOf.zoom
      (AchNetwork.onTransfer request.originalTransferId (return (← get).request))
    ledgerOf.zoom (request.creditPosting original self.network.scheduler.clock.time).post
    onReturn returnId (modify fun item : AchReturn =>
      item.credited self.network.scheduler.clock.time (request.returnId ++ "-CREDIT"))) := by
  simp only [complete, Posting.zoom_post, bind_assoc]
  rfl

/-- Reading the request of a transfer of the network. -/
theorem readOriginal_run (self : AchReturnProcessor κ) {transferId : String}
    {original : AchTransfer} (hget : self.network.transfers.get? transferId = some original) :
    (networkOf.zoom (AchNetwork.onTransfer transferId (return (← get).request))).run self
      = .ok original.request self :=
  Component.zoom_run_ok (p := networkOf) (Dict.zoom_atKey_read AchTransfer.request hget)

theorem readOriginal_missing {self : AchReturnProcessor κ} {transferId : String}
    (hget : self.network.transfers.get? transferId = none) :
    (networkOf.zoom (AchNetwork.onTransfer (κ := κ) transferId (return (← get).request))).run self
      = .error ⟨.keyError, transferId⟩ self :=
  Component.zoom_run_error (p := networkOf) (Dict.zoom_atKey_missing hget)

/-- Past the transition, what is left of a completion is to find the original
    transfer and to post the credit. -/
theorem complete_of_processing {self : AchReturnProcessor κ} {returnId : String} {item : AchReturn}
    {time : Int} (hget : self.returns.get? returnId = some item)
    (hstatus : item.status = .processing) (htime : self.network.scheduler.clock.time = time) :
    (complete returnId).run self = (do
      let original ← networkOf.zoom
        (AchNetwork.onTransfer item.request.originalTransferId (return (← get).request))
      ledgerOf.zoom (item.request.creditPosting original time).post
      onReturn returnId (modify fun item' : AchReturn =>
        item'.credited time (item.request.returnId ++ "-CREDIT"))).run
        (self.withReturn returnId (item.moved .completed time "ACH return completed")) := by
  have hallowed := (AchReturn.completed_allowed_iff item.status).mpr hstatus
  rw [complete_eq, run_bind_get, htime, run_bind_of_ok (advance_of_allowed hget hallowed _ _),
    run_bind_of_ok (readRequest_moved self returnId item _ _ _)]

/-- A credit that fits is posted, and the return notes the entry. -/
theorem complete_of_fits {self : AchReturnProcessor κ} {returnId : String} {item : AchReturn}
    {original : AchTransfer} {time : Int} (hget : self.returns.get? returnId = some item)
    (hstatus : item.status = .processing) (htime : self.network.scheduler.clock.time = time)
    (horiginal : self.network.transfers.get? item.request.originalTransferId = some original)
    (hfits : (item.request.creditPosting original.request time).Fits self.network.ledger) :
    (complete returnId).run self = .ok () ((self.withReturn returnId
        ((item.moved .completed time "ACH return completed").credited time
          (item.request.returnId ++ "-CREDIT"))).withLedger
      (self.network.ledger.push (Posting.entry hfits))) := by
  have hread := readOriginal_run (self.withReturn returnId
    (item.moved .completed time "ACH return completed")) horiginal
  have hpost := Component.zoom_run_ok (p := ledgerOf)
    (s := self.withReturn returnId (item.moved .completed time "ACH return completed"))
    (Posting.post_of_fits hfits)
  have hnote := Dict.zoom_atKey_ok (p := returnsOf (κ := κ))
    (x := (⟨.keyError, returnId⟩ : Raised))
    (m := modify fun item' : AchReturn =>
      item'.credited time (item.request.returnId ++ "-CREDIT"))
    (s := ledgerOf.set (self.network.ledger.push (Posting.entry hfits))
      (self.withReturn returnId (item.moved .completed time "ACH return completed")))
    (Dict.get?_set_self self.returns returnId _) rfl
  rw [complete_of_processing hget hstatus htime, run_bind_of_ok hread, run_bind_of_ok hpost]
  refine hnote.trans ?_
  simp only [withReturn, withLedger, ledgerOf, networkOf, AchNetwork.ledgerOf, returnsOf,
    Component.comp, Dict.set_set]

/-- A credit that does not fit leaves the transition behind. -/
theorem complete_of_not_fits {self : AchReturnProcessor κ} {returnId : String} {item : AchReturn}
    {time : Int} (hget : self.returns.get? returnId = some item)
    (hstatus : item.status = .processing) (htime : self.network.scheduler.clock.time = time)
    (hunfit : ¬ self.CreditFits item.request time) :
    ∃ e, (complete returnId).run self = .error e
      (self.withReturn returnId (item.moved .completed time "ACH return completed")) := by
  rw [complete_of_processing hget hstatus htime]
  cases horiginal : self.network.transfers.get? item.request.originalTransferId with
  | none =>
      -- No original transfer, so the lookup raises past the transition.
      exact ⟨_, run_bind_of_error (readOriginal_missing horiginal)⟩
  | some original =>
      have hread := readOriginal_run (self.withReturn returnId
        (item.moved .completed time "ACH return completed")) horiginal
      rcases Posting.post_of_not_fits fun hfits => hunfit ⟨original, horiginal, hfits⟩ with ⟨e, he⟩
      have hpost := Component.zoom_run_error (p := ledgerOf)
        (s := self.withReturn returnId (item.moved .completed time "ACH return completed")) he
      rw [run_bind_of_ok hread]
      exact ⟨e, run_bind_of_error hpost⟩

/-- The three outcomes of a completion. The guard refuses it and nothing
    changes; or the credit fits and is posted; or it does not fit, and the
    call raises with the return completed. -/
theorem complete_cases (self : AchReturnProcessor κ) (returnId : String) (time : Int)
    (htime : self.network.scheduler.clock.time = time) :
    ((∃ e, (complete returnId).run self = .error e self) ∧
        ∀ item, self.returns.get? returnId = some item → item.status ≠ .processing) ∨
      ∃ item, self.returns.get? returnId = some item ∧ item.status = .processing ∧
        ((∃ (original : AchTransfer) (item' : AchReturn)
            (h : (item.request.creditPosting original.request time).Fits self.network.ledger),
            self.network.transfers.get? item.request.originalTransferId = some original ∧
            item'.request = item.request ∧ item'.status = .completed ∧
            (complete returnId).run self = .ok ()
              ((self.withReturn returnId item').withLedger
                (self.network.ledger.push (Posting.entry h)))) ∨
          (¬ self.CreditFits item.request time ∧
            ∃ e, (complete returnId).run self = .error e
              (self.withReturn returnId (item.moved .completed time "ACH return completed")))) := by
  by_cases hdue : ∃ item, self.returns.get? returnId = some item ∧ item.status = .processing
  · rcases hdue with ⟨item, hget, hstatus⟩
    refine Or.inr ⟨item, hget, hstatus, ?_⟩
    by_cases hfits : self.CreditFits item.request time
    · rcases hfits with ⟨original, horiginal, hfits⟩
      exact Or.inl ⟨original, (item.moved .completed time "ACH return completed").credited time
        (item.request.returnId ++ "-CREDIT"), hfits, horiginal, rfl, rfl,
        complete_of_fits hget hstatus htime horiginal hfits⟩
    · exact Or.inr ⟨hfits, complete_of_not_fits hget hstatus htime hfits⟩
  · -- The transition is the first action that can fail.
    have hrefused : ∀ item, self.returns.get? returnId = some item → item.status ≠ .processing :=
      fun item hget hstatus => hdue ⟨item, hget, hstatus⟩
    rcases advance_refused self returnId .completed (fun item hget hallowed => hrefused item hget
      ((AchReturn.completed_allowed_iff _).mp hallowed)) time "ACH return completed" with ⟨e, he⟩
    refine Or.inl ⟨⟨e, ?_⟩, hrefused⟩
    rw [complete_eq, run_bind_get, htime]
    exact run_bind_of_error he

/-! ### The other stages -/

/-- Validating a received return rejects it for the reason there is, or moves
    it on, claims its transfer and schedules the next stage. -/
theorem validate_of_received (lift : AchReturnCallback → κ) {self : AchReturnProcessor κ}
    {returnId : String} {item : AchReturn} (hget : self.returns.get? returnId = some item)
    (hstatus : item.status = .received) :
    (validate lift returnId).run self =
      match self.invalidReason item.request with
      | some reason => .ok () (self.withReturn returnId
          (item.rejected self.network.scheduler.clock.time reason))
      | none => .ok () (scheduling
          { self.withReturn returnId (item.moved .validated self.network.scheduler.clock.time
              "ACH return validated") with
            returnsByTransfer :=
              self.returnsByTransfer.set item.request.originalTransferId returnId } 1
          (lift (.process returnId))) := by
  rw [validate, run_bind_of_ok (readRequest_run hget), run_bind_get]
  cases self.invalidReason item.request with
  | some reason =>
      exact Dict.zoom_atKey_ok hget (AchReturn.reject_of_received hstatus _ reason)
  | none =>
      have hallowed := (AchReturn.validated_allowed_iff item.status).mpr hstatus
      refine (run_bind_of_ok (advance_of_allowed hget hallowed _ _)).trans ?_
      exact scheduleAfter_run _ _ _ (by decide)

theorem process_of_validated (lift : AchReturnCallback → κ) {self : AchReturnProcessor κ}
    {returnId : String} {item : AchReturn} (hget : self.returns.get? returnId = some item)
    (hstatus : item.status = .validated) :
    (process lift returnId).run self = .ok () ((self.withReturn returnId
      (item.moved .processing self.network.scheduler.clock.time
        "ACH return processing")).scheduling 3 (lift (.complete returnId))) := by
  have hallowed := (AchReturn.processing_allowed_iff item.status).mpr hstatus
  rw [process, run_bind_get, run_bind_of_ok (advance_of_allowed hget hallowed _ _)]
  exact scheduleAfter_run _ _ _ (by decide)

/-- A stage that is not due raises before anything has changed. -/
theorem call_refused (lift : AchReturnCallback → κ) (self : AchReturnProcessor κ)
    (callback : AchReturnCallback)
    (h : ∀ item, self.returns.get? callback.returnId = some item →
      item.status ≠ callback.source) :
    ∃ e, (call lift callback).run self = .error e self := by
  cases callback with
  | validate returnId =>
      cases hget : self.returns.get? returnId with
      | none => exact ⟨_, run_bind_of_error (Dict.zoom_atKey_missing hget)⟩
      | some item =>
          have hstatus : item.status ≠ .received := h item hget
          rw [call, validate, run_bind_of_ok (readRequest_run hget), run_bind_get]
          cases self.invalidReason item.request with
          | some reason =>
              have hreject : (AchReturn.reject self.network.scheduler.clock.time reason).run item
                  = .error _ item :=
                run_bind_of_error (guarded_of_refused _ _
                  fun hallowed => hstatus ((AchReturn.rejected_allowed_iff _).mp hallowed))
              exact ⟨_, Dict.zoom_atKey_refused hget hreject⟩
          | none =>
              rcases advance_refused self returnId .validated
                (fun found hfound hallowed => h found hfound
                  ((AchReturn.validated_allowed_iff _).mp hallowed))
                self.network.scheduler.clock.time "ACH return validated" with ⟨e, he⟩
              exact ⟨e, run_bind_of_error he⟩
  | process returnId =>
      rcases advance_refused self returnId .processing (fun item hget hallowed => h item hget
        ((AchReturn.processing_allowed_iff _).mp hallowed)) self.network.scheduler.clock.time
        "ACH return processing" with ⟨e, he⟩
      rw [call, process, run_bind_get]
      exact ⟨e, run_bind_of_error he⟩
  | complete returnId =>
      rcases complete_cases self returnId _ rfl with ⟨herror, -⟩ | ⟨item, hget, hstatus, -⟩
      · exact herror
      · exact absurd hstatus (h item hget)

/-- What a stage can do to the processor, one constructor for each outcome. -/
inductive Stage (lift : AchReturnCallback → κ) (self : AchReturnProcessor κ) :
    AchReturnCallback → AchReturnProcessor κ → Prop
  | refused {callback : AchReturnCallback}
      (h : ∀ item, self.returns.get? callback.returnId = some item →
        item.status ≠ callback.source) : Stage lift self callback self
  | rejected {returnId : String} {item : AchReturn} {reason : String}
      (hget : self.returns.get? returnId = some item) (hstatus : item.status = .received)
      (hreason : self.invalidReason item.request = some reason) :
      Stage lift self (.validate returnId) (self.withReturn returnId
        (item.rejected self.network.scheduler.clock.time reason))
  | validated {returnId : String} {item : AchReturn}
      (hget : self.returns.get? returnId = some item) (hstatus : item.status = .received)
      (hreason : self.invalidReason item.request = none) :
      Stage lift self (.validate returnId) (scheduling
        { self.withReturn returnId (item.moved .validated self.network.scheduler.clock.time
            "ACH return validated") with
          returnsByTransfer :=
            self.returnsByTransfer.set item.request.originalTransferId returnId } 1
        (lift (.process returnId)))
  | processed {returnId : String} {item : AchReturn}
      (hget : self.returns.get? returnId = some item) (hstatus : item.status = .validated) :
      Stage lift self (.process returnId) ((self.withReturn returnId
        (item.moved .processing self.network.scheduler.clock.time
          "ACH return processing")).scheduling 3 (lift (.complete returnId)))
  | credited {returnId : String} {item : AchReturn} {original : AchTransfer} {time : Int}
      (hget : self.returns.get? returnId = some item) (hstatus : item.status = .processing)
      (htime : self.network.scheduler.clock.time = time)
      (horiginal : self.network.transfers.get? item.request.originalTransferId = some original)
      (hfits : (item.request.creditPosting original.request time).Fits self.network.ledger) :
      Stage lift self (.complete returnId) ((self.withReturn returnId
          ((item.moved .completed time "ACH return completed").credited time
            (item.request.returnId ++ "-CREDIT"))).withLedger
        (self.network.ledger.push (Posting.entry hfits)))
  | uncredited {returnId : String} {item : AchReturn} {time : Int}
      (hget : self.returns.get? returnId = some item) (hstatus : item.status = .processing)
      (htime : self.network.scheduler.clock.time = time)
      (hunfit : ¬ self.CreditFits item.request time) :
      Stage lift self (.complete returnId)
        (self.withReturn returnId (item.moved .completed time "ACH return completed"))

/-- A stage ends in one of these outcomes, whether it returns or raises. -/
theorem stage_call (lift : AchReturnCallback → κ) (self : AchReturnProcessor κ)
    (callback : AchReturnCallback) :
    Stage lift self callback (after (call lift callback) self) := by
  by_cases hdue : ∃ item, self.returns.get? callback.returnId = some item ∧
      item.status = callback.source
  · rcases hdue with ⟨item, hget, hstatus⟩
    cases callback with
    | validate returnId =>
        dsimp only [AchReturnCallback.returnId, AchReturnCallback.source] at hget hstatus
        have hrun := validate_of_received lift hget hstatus
        cases hreason : self.invalidReason item.request with
        | some reason =>
            rw [hreason] at hrun
            rw [call, after_of_ok hrun]
            exact .rejected hget hstatus hreason
        | none =>
            rw [hreason] at hrun
            rw [call, after_of_ok hrun]
            exact .validated hget hstatus hreason
    | process returnId =>
        dsimp only [AchReturnCallback.returnId, AchReturnCallback.source] at hget hstatus
        rw [call, after_of_ok (process_of_validated lift hget hstatus)]
        exact .processed hget hstatus
    | complete returnId =>
        dsimp only [AchReturnCallback.returnId, AchReturnCallback.source] at hget hstatus
        by_cases hfits : self.CreditFits item.request self.network.scheduler.clock.time
        · rcases hfits with ⟨original, horiginal, hfits⟩
          rw [call, after_of_ok (complete_of_fits hget hstatus rfl horiginal hfits)]
          exact .credited hget hstatus rfl horiginal hfits
        · rcases complete_of_not_fits hget hstatus rfl hfits with ⟨e, he⟩
          rw [call, after_of_error he]
          exact .uncredited hget hstatus rfl hfits
  · have hrefused : ∀ item, self.returns.get? callback.returnId = some item →
        item.status ≠ callback.source :=
      fun item hget hstatus => hdue ⟨item, hget, hstatus⟩
    rcases call_refused lift self callback hrefused with ⟨e, he⟩
    rw [after_of_error he]
    exact .refused hrefused

/-- A known identifier is accepted again without effect. -/
theorem receive_known (lift : AchReturnCallback → κ) {self : AchReturnProcessor κ}
    {request : AchReturnRequest} (h : request.returnId ∈ self.returns) :
    (receive lift request).run self = .ok request.returnId self := by
  rw [receive, run_bind_get, if_pos h]
  rfl

theorem receive_new (lift : AchReturnCallback → κ) {self : AchReturnProcessor κ}
    {request : AchReturnRequest} (h : request.returnId ∉ self.returns) :
    (receive lift request).run self = .ok request.returnId
      ((self.withReturn request.returnId
        (AchReturn.new request self.network.scheduler.clock.time)).scheduling 1
          (lift (.validate request.returnId))) := by
  have hschedule := scheduleAfter_run (self.withReturn request.returnId
    (AchReturn.new request self.network.scheduler.clock.time)) 1
    (lift (.validate request.returnId)) (by decide)
  rw [receive, run_bind_get, if_neg h]
  exact run_bind_of_ok hschedule

end AchReturnProcessor

end BankSim
