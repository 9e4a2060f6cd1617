import BankSim.Library.Keyed
import BankSim.Theory.AchCompletion

/-!
# ACH Effects Happen at Most Once

Closures and direct calls reach the stages of transfers and returns in any
order, and a raise can drop a scheduled event or leave a workflow between its
transition and its posting. What bounds the effects is not the order of the
calls but two facts about single steps. A transfer posts its debit only on
the way from processing to completed, which it takes once. A return posts its
credit the same way, and only after it has claimed its transfer in the
processor's index, where a claim is never given up.

`AchWork` is what those facts are about: the workflows, the claims and the
ledger, without time, holds and scheduler. `AchWork.Step` lists what can
happen to it, and `step_exec` says that every call of the system, returning
or raising, is such a step. `AchWork.Sound` is the invariant of the steps: it
remembers, for each entry posted since the opening, the transfer or the
return that posted it.

## Main definitions

* `AchWork`: Workflows, claims and ledger.
* `AchWork.Step`: The changes they can go through.
* `AchWork.Advances`: Workflows stay and move along their graphs.
* `AchWork.Sound`: Every posted entry has one workflow to its name.
* `AchWork.EffectsOnce`: One debit per transfer, one credit per original.

## Theorems

* `step_network`, `step_return`: A stage is a step.
* `step_exec`: Every call of the components is a step or no change.
* `advances_moveTransfer`, `advances_moveReturn`: One workflow moves along.
* `Step.advances`: A step moves workflows along their graphs.
* `Step.sound`: A step keeps the invariant.
* `ach_effects_at_most_once`: Both, along every run.
-/

namespace BankSim

open Exec

/-- What the two components own together, apart from time and holds. `claims`
    is the return that each claimed transfer is claimed by. -/
structure AchWork where
  transfers : Dict String AchTransfer
  returns : Dict String AchReturn
  claims : Dict String String
  ledger : Ledger

def AchReturnProcessor.work {κ : Type} (self : AchReturnProcessor κ) : AchWork :=
  ⟨self.network.transfers, self.returns, self.returnsByTransfer, self.network.ledger⟩

/-- Past validation, and not rejected. -/
def AchReturnStatus.Accepted : AchReturnStatus → Prop
  | .validated | .processing | .completed => True
  | .received | .rejected => False

theorem AchReturnStatus.accepted_of_allowed {status next : AchReturnStatus}
    (hallowed : next ∈ status.allowedTransitions) (hnext : next.Accepted)
    (hne : next ≠ .validated) : status.Accepted := by
  cases status <;> cases next <;> simp_all [allowedTransitions, Accepted]

namespace AchWork

/-- One change of the work, in the order in which workflows go through
    them. -/
inductive Step (work : AchWork) : AchWork → Prop
  | idle : Step work work
  | received (request : AchTransferRequest)
      (hnew : work.transfers.get? request.transferId = none) :
      Step work
        { work with
          transfers := work.transfers.set request.transferId (AchTransfer.new request) }
  | moved {transferId : String} {transfer transfer' : AchTransfer}
      (hget : work.transfers.get? transferId = some transfer)
      (hrequest : transfer'.request = transfer.request)
      (hallowed : transfer'.status ∈ transfer.status.allowedTransitions) :
      Step work { work with transfers := work.transfers.set transferId transfer' }
  | debited {transferId : String} {transfer transfer' : AchTransfer}
      (hget : work.transfers.get? transferId = some transfer)
      (hrequest : transfer'.request = transfer.request)
      (hstatus : transfer.status = .processing) (hstatus' : transfer'.status = .completed)
      (hfits : transfer.request.debitPosting.Fits work.ledger) :
      Step work
        { work with
          transfers := work.transfers.set transferId transfer'
          ledger := work.ledger.push (Posting.entry hfits) }
  | returned (request : AchReturnRequest) (time : Int)
      (hnew : work.returns.get? request.returnId = none) :
      Step work
        { work with returns := work.returns.set request.returnId (AchReturn.new request time) }
  | returnMoved {returnId : String} {item item' : AchReturn}
      (hget : work.returns.get? returnId = some item) (hrequest : item'.request = item.request)
      (hallowed : item'.status ∈ item.status.allowedTransitions)
      (hvalidated : item'.status ≠ .validated) :
      Step work { work with returns := work.returns.set returnId item' }
  | claimed {returnId : String} {item item' : AchReturn} {original : AchTransfer}
      (hget : work.returns.get? returnId = some item) (hrequest : item'.request = item.request)
      (hstatus : item.status = .received) (hstatus' : item'.status = .validated)
      (horiginal : work.transfers.get? item.request.originalTransferId = some original)
      (hamount : item.request.amountCents = original.request.amountCents)
      (hfree : work.claims.get? item.request.originalTransferId = none) :
      Step work
        { work with
          returns := work.returns.set returnId item'
          claims := work.claims.set item.request.originalTransferId returnId }
  | credited {returnId : String} {item item' : AchReturn} {original : AchTransfer} {time : Int}
      (hget : work.returns.get? returnId = some item) (hrequest : item'.request = item.request)
      (hstatus : item.status = .processing) (hstatus' : item'.status = .completed)
      (horiginal : work.transfers.get? item.request.originalTransferId = some original)
      (hfits : (item.request.creditPosting original.request time).Fits work.ledger) :
      Step work
        { work with
          returns := work.returns.set returnId item'
          ledger := work.ledger.push (Posting.entry hfits) }

end AchWork

/-! ### Every call is a step -/

namespace AchReturnProcessor

open AchWork

variable {κ : Type}

/-- An accepted return found its transfer, for its own amount and unclaimed. -/
theorem accepted_of_invalidReason {self : AchReturnProcessor κ} {request : AchReturnRequest}
    (h : self.invalidReason request = none) :
    ∃ original, self.network.transfers.get? request.originalTransferId = some original ∧
      original.status = .completed ∧ request.amountCents = original.request.amountCents ∧
      self.returnsByTransfer.get? request.originalTransferId = none := by
  unfold invalidReason at h
  cases horiginal : self.network.transfers.get? request.originalTransferId with
  | none =>
      rw [horiginal] at h
      split_ifs at h
  | some original =>
      rw [horiginal] at h
      simp only at h
      split_ifs at h with _ _ hstatus hamount hclaim
      exact ⟨original, rfl, not_not.mp hstatus, not_not.mp hamount,
        (Dict.not_mem_iff _ _).mp hclaim⟩

/-- A stage of a transfer is a step of the work. -/
theorem step_network {lift : AchCallback → κ} {callback : AchCallback} {network' : AchNetwork κ}
    (self : AchReturnProcessor κ) (h : AchNetwork.Stage lift self.network callback network') :
    Step self.work (networkOf.set network' self).work := by
  cases h with
  | refused => exact .idle
  | rejected hget hstatus =>
      refine .moved hget (by rfl) ?_
      exact (AchTransfer.rejected_allowed_iff _).mpr hstatus
  | validated hget hstatus =>
      refine .moved hget (by rfl) ?_
      exact (AchTransfer.validated_allowed_iff _).mpr hstatus
  | held hget hstatus =>
      refine .moved hget (by rfl) ?_
      exact (AchTransfer.pending_allowed_iff _).mpr hstatus
  | unheld hget hstatus =>
      refine .moved hget (by rfl) ?_
      exact (AchTransfer.pending_allowed_iff _).mpr hstatus
  | submitted hget hstatus =>
      refine .moved hget (by rfl) ?_
      exact (AchTransfer.submitted_allowed_iff _).mpr hstatus
  | processed hget hstatus =>
      refine .moved hget (by rfl) ?_
      exact (AchTransfer.processing_allowed_iff _).mpr hstatus
  | debited hget hstatus hfits =>
      exact @Step.debited self.work _ _ _ hget (by rfl) hstatus (by rfl) hfits
  | undebited hget hstatus =>
      -- The transition stands without its debit, which is a move like any other.
      refine .moved hget (by rfl) ?_
      exact (AchTransfer.completed_allowed_iff _).mpr hstatus

/-- A stage of a return is a step of the work. -/
theorem step_return {lift : AchReturnCallback → κ} {callback : AchReturnCallback}
    {self later : AchReturnProcessor κ} (h : Stage lift self callback later) :
    Step self.work later.work := by
  cases h with
  | refused => exact .idle
  | rejected hget hstatus =>
      refine .returnMoved hget (by rfl) ?_ (fun h => by cases h)
      exact (AchReturn.rejected_allowed_iff _).mpr hstatus
  | validated hget hstatus hreason =>
      rcases accepted_of_invalidReason hreason with ⟨original, horiginal, -, hamount, hfree⟩
      exact .claimed hget rfl hstatus rfl horiginal hamount hfree
  | processed hget hstatus =>
      refine .returnMoved hget (by rfl) ?_ (fun h => by cases h)
      exact (AchReturn.processing_allowed_iff _).mpr hstatus
  | credited hget hstatus htime horiginal hfits =>
      exact @Step.credited self.work _ _ _ _ _ hget (by rfl) hstatus (by rfl) horiginal hfits
  | uncredited hget hstatus =>
      refine .returnMoved hget (by rfl) ?_ (fun h => by cases h)
      exact (AchReturn.completed_allowed_iff _).mpr hstatus

theorem step_receive (lift : AchCallback → κ) (self : AchReturnProcessor κ)
    (request : AchTransferRequest) :
    Step self.work
      (networkOf.set (after (AchNetwork.receive lift request) self.network) self).work := by
  have hcases := AchNetwork.after_receive lift self.network request
  rcases hcases with hsame | ⟨hnew, hafter⟩
  · rw [hsame]
    exact .idle
  · rw [hafter]
    exact .received request ((Dict.not_mem_iff _ _).mp hnew)

theorem step_receiveReturn (lift : AchReturnCallback → κ) (self : AchReturnProcessor κ)
    (request : AchReturnRequest) : Step self.work (after (receive lift request) self).work := by
  by_cases hmem : request.returnId ∈ self.returns
  · rw [after_of_ok (receive_known lift hmem)]
    exact .idle
  · rw [after_of_ok (receive_new lift hmem)]
    exact .returned request _ ((Dict.not_mem_iff _ _).mp hmem)

theorem step_callEither (self : AchSystem) (callback : AchCallback ⊕ AchReturnCallback) :
    Step self.work (after (callEither callback) self).work := by
  cases callback with
  | inl callback =>
      rw [callEither, Component.after_zoom]
      exact step_network self (AchNetwork.stage_call Sum.inl self.network callback)
  | inr callback => exact step_return (stage_call Sum.inr self callback)

end AchReturnProcessor

/-- A call of one of the two components, of their scheduler or of its clock,
    and not of another writer of the ledger. -/
def AchSystemCall.Internal : AchSystemCall → Bool
  | .append _ | .appendBatch _ => false
  | _ => true

/-- Every call of the components is a step of the work or leaves it as it
    was, whether it returns or raises. -/
theorem step_exec (self : AchSystem) (call : AchSystemCall) (hcall : call.Internal) :
    AchWork.Step self.work (after call.exec self).work := by
  cases call with
  | receive request =>
      rw [AchSystemCall.exec, after_discard, Component.after_zoom]
      exact AchReturnProcessor.step_receive Sum.inl self request
  | receiveReturn request =>
      rw [AchSystemCall.exec, after_discard]
      exact AchReturnProcessor.step_receiveReturn Sum.inr self request
  | call callback => exact AchReturnProcessor.step_callEither self callback
  | runNext =>
      rw [AchSystemCall.exec, after_discard, AchReturnProcessor.runNext]
      -- Only the callback of the event does anything to the work.
      rcases EventScheduler.after_runNext AchReturnProcessor.schedulerOf
          AchReturnProcessor.callEither self with
        ⟨-, hafter⟩ | ⟨event, queue, -, -, hafter⟩ |
          ⟨event, queue, clock, history, -, -, -, hafter⟩ <;> rw [hafter]
      · exact .idle
      · exact .idle
      · exact AchReturnProcessor.step_callEither (self.atEvent clock queue) event.callback
  | advanceTo newTime =>
      rw [AchSystemCall.exec, after_discard, Component.after_zoom]
      exact .idle
  | advanceBy amount =>
      rw [AchSystemCall.exec, after_discard, Component.after_zoom]
      exact .idle
  | append entry => cases hcall
  | appendBatch entries => cases hcall

/-! ### What a step keeps -/

namespace AchWork

/-- Every workflow is still there for the same request, with the same status
    or with one its graph allows next; what is new starts out received; and
    no claim is given up. -/
structure Advances (work later : AchWork) : Prop where
  transfers : ∀ transferId transfer, work.transfers.get? transferId = some transfer →
    ∃ transfer', later.transfers.get? transferId = some transfer' ∧
      transfer'.request = transfer.request ∧ (transfer'.status = transfer.status ∨
        transfer'.status ∈ transfer.status.allowedTransitions)
  returns : ∀ returnId item, work.returns.get? returnId = some item →
    ∃ item', later.returns.get? returnId = some item' ∧ item'.request = item.request ∧
      (item'.status = item.status ∨ item'.status ∈ item.status.allowedTransitions)
  newTransfers : ∀ transferId transfer, work.transfers.get? transferId = none →
    later.transfers.get? transferId = some transfer → transfer.status = .received
  newReturns : ∀ returnId item, work.returns.get? returnId = none →
    later.returns.get? returnId = some item → item.status = .received
  claims : ∀ transferId returnId, work.claims.get? transferId = some returnId →
    later.claims.get? transferId = some returnId

variable {work later : AchWork}

theorem Advances.refl (work : AchWork) : work.Advances work where
  transfers _ transfer hget := ⟨transfer, hget, rfl, Or.inl rfl⟩
  returns _ item hget := ⟨item, hget, rfl, Or.inl rfl⟩
  newTransfers _ _ hnone hget := by rw [hnone] at hget; cases hget
  newReturns _ _ hnone hget := by rw [hnone] at hget; cases hget
  claims _ _ hget := hget

/-- Assigning one transfer: its status goes where its graph allows, or it is
    new and received. The ledger may change as well. -/
theorem advances_setTransfer {transferId : String} {transfer' : AchTransfer} (ledger : Ledger)
    (hold : ∀ transfer, work.transfers.get? transferId = some transfer →
      transfer'.request = transfer.request ∧
        transfer'.status ∈ transfer.status.allowedTransitions)
    (hnew : work.transfers.get? transferId = none → transfer'.status = .received) :
    work.Advances { work with transfers := work.transfers.set transferId transfer', ledger } where
  transfers other transfer hget := by
    -- The transfer that is assigned takes its step, the others stay.
    by_cases hother : other = transferId
    · subst hother
      rcases hold transfer hget with ⟨hrequest, hallowed⟩
      exact ⟨transfer', Dict.get?_set_self _ _ _, hrequest, Or.inr hallowed⟩
    · exact ⟨transfer, (Dict.get?_set_ne _ _ hother).trans hget, rfl, Or.inl rfl⟩
  newTransfers other transfer hnone hget := by
    change (work.transfers.set transferId transfer').get? other = some transfer at hget
    rw [Dict.get?_set] at hget
    split_ifs at hget with hother
    · rw [← Option.some.inj hget]
      exact hnew (hother ▸ hnone)
    · rw [hnone] at hget
      cases hget
  returns := (Advances.refl work).returns
  newReturns := (Advances.refl work).newReturns
  claims _ _ hget := hget

/-- Assigning one return, in the same way. Claims may be added and the ledger
    may change. -/
theorem advances_setReturn {returnId : String} {item' : AchReturn} (claims : Dict String String)
    (ledger : Ledger)
    (hold : ∀ item, work.returns.get? returnId = some item →
      item'.request = item.request ∧ item'.status ∈ item.status.allowedTransitions)
    (hnew : work.returns.get? returnId = none → item'.status = .received)
    (hclaims : ∀ transferId other, work.claims.get? transferId = some other →
      claims.get? transferId = some other) :
    work.Advances
      { work with returns := work.returns.set returnId item', claims, ledger } where
  returns other item hget := by
    -- The return that is assigned takes its step, the others stay.
    by_cases hother : other = returnId
    · subst hother
      rcases hold item hget with ⟨hrequest, hallowed⟩
      exact ⟨item', Dict.get?_set_self _ _ _, hrequest, Or.inr hallowed⟩
    · exact ⟨item, (Dict.get?_set_ne _ _ hother).trans hget, rfl, Or.inl rfl⟩
  newReturns other item hnone hget := by
    change (work.returns.set returnId item').get? other = some item at hget
    rw [Dict.get?_set] at hget
    split_ifs at hget with hother
    · rw [← Option.some.inj hget]
      exact hnew (hother ▸ hnone)
    · rw [hnone] at hget
      cases hget
  transfers := (Advances.refl work).transfers
  newTransfers := (Advances.refl work).newTransfers
  claims := hclaims

/-- A transfer that is there moves along its graph. -/
theorem advances_moveTransfer {transferId : String} {transfer transfer' : AchTransfer}
    (ledger : Ledger) (hget : work.transfers.get? transferId = some transfer)
    (hrequest : transfer'.request = transfer.request)
    (hallowed : transfer'.status ∈ transfer.status.allowedTransitions) :
    work.Advances { work with transfers := work.transfers.set transferId transfer', ledger } := by
  refine advances_setTransfer ledger (fun found hfound => ?_) (fun hnone => ?_)
  · rw [hget, Option.some.injEq] at hfound
    rw [← hfound]
    exact ⟨hrequest, hallowed⟩
  · rw [hget] at hnone
    cases hnone

/-- A return that is there moves along its graph. -/
theorem advances_moveReturn {returnId : String} {item item' : AchReturn}
    (claims : Dict String String) (ledger : Ledger)
    (hget : work.returns.get? returnId = some item) (hrequest : item'.request = item.request)
    (hallowed : item'.status ∈ item.status.allowedTransitions)
    (hclaims : ∀ transferId other, work.claims.get? transferId = some other →
      claims.get? transferId = some other) :
    work.Advances
      { work with returns := work.returns.set returnId item', claims, ledger } := by
  refine advances_setReturn claims ledger (fun found hfound => ?_) (fun hnone => ?_) hclaims
  · rw [hget, Option.some.injEq] at hfound
    rw [← hfound]
    exact ⟨hrequest, hallowed⟩
  · rw [hget] at hnone
    cases hnone

/-- A step moves workflows along their graphs. -/
theorem Step.advances (h : work.Step later) : work.Advances later := by
  cases h with
  | idle => exact Advances.refl work
  | received request hnew =>
      refine advances_setTransfer work.ledger (fun transfer hget => ?_) (fun _ => rfl)
      rw [hnew] at hget
      cases hget
  | moved hget hrequest hallowed => exact advances_moveTransfer work.ledger hget hrequest hallowed
  | debited hget hrequest hstatus hstatus' hfits =>
      refine advances_moveTransfer _ hget hrequest ?_
      rw [hstatus']
      exact (AchTransfer.completed_allowed_iff _).mpr hstatus
  | returned request time hnew =>
      refine advances_setReturn work.claims work.ledger (fun item hget => ?_) (fun _ => rfl)
        (fun _ _ hclaim => hclaim)
      rw [hnew] at hget
      cases hget
  | returnMoved hget hrequest hallowed hvalidated =>
      exact advances_moveReturn work.claims work.ledger hget hrequest hallowed
        (fun _ _ hclaim => hclaim)
  | claimed hget hrequest hstatus hstatus' horiginal hamount hfree =>
      refine advances_moveReturn _ work.ledger hget hrequest ?_ (fun transferId other hclaim => ?_)
      · rw [hstatus']
        exact (AchReturn.validated_allowed_iff _).mpr hstatus
      · -- The new claim is on a transfer that nobody had claimed.
        rw [Dict.get?_set_ne _ _ fun hsame => ?_]
        · exact hclaim
        · rw [hsame, hfree] at hclaim
          cases hclaim
  | credited hget hrequest hstatus hstatus' horiginal hfits =>
      refine advances_moveReturn work.claims _ hget hrequest ?_ (fun _ _ hclaim => hclaim)
      rw [hstatus']
      exact (AchReturn.completed_allowed_iff _).mpr hstatus

/-- What is completed stays completed, for the same request. -/
theorem Advances.completed_transfer (h : work.Advances later) {transferId : String}
    {transfer : AchTransfer} (hget : work.transfers.get? transferId = some transfer)
    (hstatus : transfer.status = .completed) :
    ∃ transfer', later.transfers.get? transferId = some transfer' ∧
      transfer'.request = transfer.request ∧ transfer'.status = .completed := by
  rcases h.transfers transferId transfer hget with ⟨transfer', hget', hrequest, hsame | hallowed⟩
  · exact ⟨transfer', hget', hrequest, hsame.trans hstatus⟩
  · rw [hstatus] at hallowed
    cases hallowed

theorem Advances.completed_return (h : work.Advances later) {returnId : String} {item : AchReturn}
    (hget : work.returns.get? returnId = some item) (hstatus : item.status = .completed) :
    ∃ item', later.returns.get? returnId = some item' ∧ item'.request = item.request ∧
      item'.status = .completed := by
  rcases h.returns returnId item hget with ⟨item', hget', hrequest, hsame | hallowed⟩
  · exact ⟨item', hget', hrequest, hsame.trans hstatus⟩
  · rw [hstatus] at hallowed
    cases hallowed

/-- The entry is the debit of the given transfer, which is completed. -/
def Debited (work : AchWork) (transferId : String) (entry : LedgerEntry) : Prop :=
  ∃ transfer, work.transfers.get? transferId = some transfer ∧ transfer.status = .completed ∧
    transfer.request.debitPosting.Matches entry ∧ entry.originalTransferId = none

/-- The entry is a credit that gives the given transfer's amount back to its
    account, and the return that claimed the transfer is completed. -/
def Refunded (work : AchWork) (transferId : String) (entry : LedgerEntry) : Prop :=
  ∃ original returnId item, work.transfers.get? transferId = some original ∧
    work.claims.get? transferId = some returnId ∧ work.returns.get? returnId = some item ∧
    item.status = .completed ∧ entry.originalTransferId = some transferId ∧
    entry.entryType = .credit ∧ entry.accountId = original.request.sourceAccountId ∧
    entry.amount.cents = original.request.amountCents

/-- Of the entries, each debit belongs to a transfer of its own, and each
    credit refunds one of its own. -/
structure EffectsOnce (work : AchWork) (entries : List LedgerEntry) : Prop where
  debits : Keyed.OneEach work.Debited (entries.filter fun entry => entry.entryType = .debit)
  credits : Keyed.OneEach work.Refunded (entries.filter fun entry => entry.entryType = .credit)

theorem Debited.advance (h : work.Advances later) {transferId : String} {entry : LedgerEntry}
    (hdebited : work.Debited transferId entry) : later.Debited transferId entry := by
  rcases hdebited with ⟨transfer, hget, hstatus, hmatches, hnone⟩
  rcases h.completed_transfer hget hstatus with ⟨transfer', hget', hrequest, hstatus'⟩
  exact ⟨transfer', hget', hstatus', hrequest ▸ hmatches, hnone⟩

theorem Refunded.advance (h : work.Advances later) {transferId : String} {entry : LedgerEntry}
    (hrefunded : work.Refunded transferId entry) : later.Refunded transferId entry := by
  rcases hrefunded with
    ⟨original, returnId, item, horiginal, hclaim, hget, hstatus, hid, htype, haccount, hcents⟩
  rcases h.transfers transferId original horiginal with ⟨original', horiginal', hrequest, -⟩
  rcases h.completed_return hget hstatus with ⟨item', hget', -, hstatus'⟩
  rw [← hrequest] at haccount hcents
  exact ⟨original', returnId, item', horiginal', h.claims _ _ hclaim, hget', hstatus', hid, htype,
    haccount, hcents⟩

theorem EffectsOnce.advance (h : work.Advances later) {entries : List LedgerEntry}
    (heffects : work.EffectsOnce entries) : later.EffectsOnce entries :=
  ⟨heffects.debits.imp fun _ _ => Debited.advance h,
    heffects.credits.imp fun _ _ => Refunded.advance h⟩

/-- A debit may be added for a transfer that was not completed. -/
theorem EffectsOnce.debit (h : work.Advances later) {entries : List LedgerEntry}
    (heffects : work.EffectsOnce entries) (transferId : String) {entry : LedgerEntry}
    (htype : entry.entryType = .debit) (hdebited : later.Debited transferId entry)
    (hnone : ∀ other, ¬ work.Debited transferId other) :
    later.EffectsOnce (entries ++ [entry]) := by
  refine ⟨?_, ?_⟩
  · rw [List.filter_append, List.filter_cons_of_pos (by simpa using htype), List.filter_nil]
    exact heffects.debits.append (fun _ _ => Debited.advance h) hdebited hnone
  · rw [List.filter_append, List.filter_cons_of_neg (by simp [htype]), List.filter_nil,
      List.append_nil]
    exact heffects.credits.imp fun _ _ => Refunded.advance h

/-- A credit may be added for a transfer that was not refunded. -/
theorem EffectsOnce.credit (h : work.Advances later) {entries : List LedgerEntry}
    (heffects : work.EffectsOnce entries) (transferId : String) {entry : LedgerEntry}
    (htype : entry.entryType = .credit) (hrefunded : later.Refunded transferId entry)
    (hnone : ∀ other, ¬ work.Refunded transferId other) :
    later.EffectsOnce (entries ++ [entry]) := by
  refine ⟨?_, ?_⟩
  · rw [List.filter_append, List.filter_cons_of_neg (by simp [htype]), List.filter_nil,
      List.append_nil]
    exact heffects.debits.imp fun _ _ => Debited.advance h
  · rw [List.filter_append, List.filter_cons_of_pos (by simpa using htype), List.filter_nil]
    exact heffects.credits.append (fun _ _ => Refunded.advance h) hrefunded hnone

/-- At most one of the entries carries a given original transfer. -/
theorem EffectsOnce.carried_once {entries : List LedgerEntry} (heffects : work.EffectsOnce entries)
    (transferId : String) :
    (entries.filter fun entry => entry.originalTransferId = some transferId).length ≤ 1 := by
  -- A debit carries none, so the entries in question are credits.
  have hcredits : (entries.filter fun entry => entry.originalTransferId = some transferId)
      = ((entries.filter fun entry => entry.entryType = .credit).filter fun entry =>
          entry.originalTransferId = some transferId) := by
    rw [List.filter_filter]
    refine List.filter_congr fun entry hmem => ?_
    cases htype : entry.entryType with
    | credit => simp only [decide_true, Bool.and_true]
    | debit =>
        have hdebit : entry ∈ entries.filter fun entry => entry.entryType = .debit :=
          List.mem_filter.mpr ⟨hmem, by simpa using htype⟩
        rcases heffects.debits.owned hdebit with ⟨_, _, -, -, -, hnone⟩
        simp only [hnone, reduceCtorEq, decide_false, Bool.and_false]
  rw [hcredits]
  refine heffects.credits.length_filter_le_one
    (fun entry => entry.originalTransferId = some transferId) (k := transferId) ?_
  intro other entry hrefunded hcarries
  rcases hrefunded with ⟨_, _, _, -, -, -, -, hid, -⟩
  rw [hcarries, Option.some.injEq] at hid
  exact hid.symm

/-- Every accepted return has claimed its transfer, for the transfer's own
    amount. -/
def Claimed (work : AchWork) : Prop :=
  ∀ returnId item, work.returns.get? returnId = some item → item.status.Accepted →
    work.claims.get? item.request.originalTransferId = some returnId ∧
      ∃ original, work.transfers.get? item.request.originalTransferId = some original ∧
        item.request.amountCents = original.request.amountCents

/-- The invariant of the steps, for a ledger that started with the given
    entries. -/
structure Sound (opening : List LedgerEntry) (work : AchWork) : Prop where
  claimed : work.Claimed
  effects : ∃ entries, work.ledger.entries = opening ++ entries ∧ work.EffectsOnce entries

/-- A return that was accepted keeps its claim. -/
theorem Claimed.keep (h : work.Advances later) (hclaimed : work.Claimed) {returnId : String}
    {item : AchReturn} (hget : work.returns.get? returnId = some item)
    (haccepted : item.status.Accepted) :
    later.claims.get? item.request.originalTransferId = some returnId ∧
      ∃ original, later.transfers.get? item.request.originalTransferId = some original ∧
        item.request.amountCents = original.request.amountCents := by
  rcases hclaimed returnId item hget haccepted with ⟨hclaim, original, horiginal, hamount⟩
  rcases h.transfers _ original horiginal with ⟨original', horiginal', hrequest, -⟩
  exact ⟨h.claims _ _ hclaim, original', horiginal', hrequest ▸ hamount⟩

/-- Claims stay in order when the one return that changes had its own. -/
theorem Claimed.setReturn (h : work.Advances later) (hclaimed : work.Claimed) {returnId : String}
    {item' : AchReturn} (hreturns : later.returns = work.returns.set returnId item')
    (hitem : item'.status.Accepted →
      later.claims.get? item'.request.originalTransferId = some returnId ∧
        ∃ original, later.transfers.get? item'.request.originalTransferId = some original ∧
          item'.request.amountCents = original.request.amountCents) : later.Claimed := by
  intro other found hget haccepted
  rw [hreturns, Dict.get?_set] at hget
  split_ifs at hget with hother
  · subst hother
    rw [← Option.some.inj hget] at haccepted ⊢
    exact hitem haccepted
  · exact hclaimed.keep h hget haccepted

/-- A step keeps the claims in order. -/
theorem Step.claims_kept (h : work.Step later) (hclaimed : work.Claimed) : later.Claimed := by
  have hadvances := h.advances
  cases h with
  | idle => exact hclaimed
  | received request hnew => exact fun _ _ => hclaimed.keep hadvances
  | moved hget hrequest hallowed => exact fun _ _ => hclaimed.keep hadvances
  | debited hget hrequest hstatus hstatus' hfits => exact fun _ _ => hclaimed.keep hadvances
  | returned request time hnew => exact hclaimed.setReturn hadvances rfl (fun h => h.elim)
  | returnMoved hget hrequest hallowed hvalidated =>
      refine hclaimed.setReturn hadvances rfl fun haccepted => ?_
      rw [hrequest]
      exact hclaimed.keep hadvances hget
        (AchReturnStatus.accepted_of_allowed hallowed haccepted hvalidated)
  | claimed hget hrequest hstatus hstatus' horiginal hamount hfree =>
      -- This is the step that makes the claim.
      refine hclaimed.setReturn hadvances rfl fun _ => ?_
      rw [hrequest]
      exact ⟨Dict.get?_set_self _ _ _, _, horiginal, hamount⟩
  | credited hget hrequest hstatus hstatus' horiginal hfits =>
      refine hclaimed.setReturn hadvances rfl fun _ => ?_
      rw [hrequest]
      exact hclaimed.keep hadvances hget (by rw [hstatus]; trivial)

/-- A step keeps the invariant: an entry is posted only by a workflow that is
    completed in the same step. -/
theorem Step.sound {opening : List LedgerEntry} (h : work.Step later)
    (hsound : work.Sound opening) : later.Sound opening := by
  refine ⟨h.claims_kept hsound.claimed, ?_⟩
  have hadvances := h.advances
  rcases hsound.effects with ⟨entries, hentries, heffects⟩
  cases h with
  | idle => exact ⟨entries, hentries, heffects⟩
  | received request hnew => exact ⟨entries, hentries, heffects.advance hadvances⟩
  | moved hget hrequest hallowed => exact ⟨entries, hentries, heffects.advance hadvances⟩
  | @debited transferId transfer transfer' hget hrequest hstatus hstatus' hfits =>
      -- The new entry is the debit of the transfer that is completed here.
      refine ⟨entries ++ [Posting.entry hfits], ?_,
        heffects.debit hadvances transferId rfl ?_ ?_⟩
      · rw [Ledger.push_entries, hentries, List.append_assoc]
      · refine ⟨transfer', Dict.get?_set_self _ _ _, hstatus', ?_, rfl⟩
        rw [hrequest]
        exact Posting.matches_entry hfits
      · -- The transfer was processing until now, so no entry was its debit.
        rintro other ⟨found, hfound, hdone, -⟩
        rw [hget, Option.some.injEq] at hfound
        rw [← hfound, hstatus] at hdone
        cases hdone
  | returned request time hnew => exact ⟨entries, hentries, heffects.advance hadvances⟩
  | returnMoved hget hrequest hallowed hvalidated =>
      exact ⟨entries, hentries, heffects.advance hadvances⟩
  | claimed hget hrequest hstatus hstatus' horiginal hamount hfree =>
      exact ⟨entries, hentries, heffects.advance hadvances⟩
  | @credited returnId item item' original time hget hrequest hstatus hstatus' horiginal hfits =>
      rcases hsound.claimed returnId item hget (by rw [hstatus]; trivial) with
        ⟨hclaim, other, hother, hamount⟩
      rw [horiginal, Option.some.injEq] at hother
      subst hother
      -- The new entry is the credit to the transfer that the return claims.
      refine ⟨entries ++ [Posting.entry hfits], ?_,
        heffects.credit hadvances item.request.originalTransferId rfl ?_ ?_⟩
      · rw [Ledger.push_entries, hentries, List.append_assoc]
      · exact ⟨original, returnId, item', horiginal, hclaim, Dict.get?_set_self _ _ _, hstatus',
          rfl, rfl, rfl, hamount⟩
      · -- The claim names one return, and that one was processing until now.
        rintro other ⟨_, returnId', found, -, hclaim', hfound, hdone, -⟩
        rw [hclaim, Option.some.injEq] at hclaim'
        rw [← hclaim', hget, Option.some.injEq] at hfound
        rw [← hfound, hstatus] at hdone
        cases hdone

end AchWork

/-- Along a run of calls of the components, in any order and with raises
    caught, workflows move along their graphs, and the entries since the
    opening are one debit for each debited transfer and one credit of the
    full amount for each refunded one, which is the only one to carry it. -/
theorem ach_effects_at_most_once (ledger : Ledger)
    (scheduler : EventScheduler (AchCallback ⊕ AchReturnCallback)) (calls : List AchSystemCall)
    (hcalls : ∀ call ∈ calls, call.Internal) :
    AllSteps AchSystemCall.exec
        (fun system call => system.work.Advances (after call.exec system).work)
        (AchReturnProcessor.new (AchNetwork.new ledger scheduler)) calls ∧
      AllStates AchSystemCall.exec
        (fun system => ∃ entries, system.network.ledger.entries = ledger.entries ++ entries ∧
          system.work.EffectsOnce entries ∧ ∀ transferId, (entries.filter fun entry =>
            entry.originalTransferId = some transferId).length ≤ 1)
        (AchReturnProcessor.new (AchNetwork.new ledger scheduler)) calls := by
  have hstart : (AchReturnProcessor.new (AchNetwork.new ledger scheduler)).work.Sound
      ledger.entries := by
    refine ⟨fun _ item hget => ?_, [], ?_, Keyed.oneEach_nil _, Keyed.oneEach_nil _⟩
    · cases hget
    · exact (List.append_nil _).symm
  -- Every call is one of the components', and so is a step of the work.
  have hinternal : AllSteps AchSystemCall.exec (fun _ call => call.Internal)
      (AchReturnProcessor.new (AchNetwork.new ledger scheduler)) calls :=
    allSteps_of_forall fun _ call hmem => hcalls call hmem
  refine ⟨allSteps_of_forall fun system call hmem => ?_, ?_⟩
  · exact (step_exec system call (hcalls call hmem)).advances
  · have hsound := allStates_of_allSteps
      (fun system call (hsound : system.work.Sound ledger.entries) hcall =>
        (step_exec system call hcall).sound hsound) hstart hinternal
    refine allStates_mono (fun system hsound => ?_) hsound
    rcases hsound.effects with ⟨entries, hentries, heffects⟩
    exact ⟨entries, hentries, heffects, heffects.carried_once⟩

/-- A transfer is completed, twice over, and then returned twice. -/
def repeatedCalls : List AchSystemCall :=
  [ .receive
      { transferId := "ACH-0001", sourceAccountId := "HCCU-DEMO-001"
        destinationInstitution := "Blue Ridge National Bank"
        destinationReference := "EXTERNAL-ACCOUNT-001", amountCents := 25000
        description := "External transfer" },
    .runNext, .runNext, .runNext, .runNext, .call (.inl (.complete "ACH-0001")), .runNext,
    .receiveReturn ⟨"RETURN-0001", "ACH-0001", .accountClosed, 25000⟩,
    .receiveReturn ⟨"RETURN-0002", "ACH-0001", .unauthorized, 25000⟩,
    .call (.inr (.validate "RETURN-0002")), .runNext, .runNext, .runNext, .runNext,
    .call (.inr (.complete "RETURN-0002")) ]

theorem ach_effects_at_most_once_repeated :
    AllSteps AchSystemCall.exec
        (fun system call => system.work.Advances (after call.exec system).work)
        (AchReturnProcessor.new (AchNetwork.new lateEntryStart.network.ledger EventScheduler.new))
        repeatedCalls ∧
      AllStates AchSystemCall.exec
        (fun system => ∃ entries,
          system.network.ledger.entries = lateEntryStart.network.ledger.entries ++ entries ∧
          system.work.EffectsOnce entries ∧ ∀ transferId, (entries.filter fun entry =>
            entry.originalTransferId = some transferId).length ≤ 1)
        (AchReturnProcessor.new (AchNetwork.new lateEntryStart.network.ledger EventScheduler.new))
        repeatedCalls :=
  ach_effects_at_most_once lateEntryStart.network.ledger EventScheduler.new repeatedCalls
    (by decide)

end BankSim
