import BankSim.Theory.Ach
import BankSim.Theory.Conservation

/-!
# Whether ACH Promises Funds Twice

The network checks funds when it validates a transfer, holds them one stage
later and spends them at completion. Between the check and the hold, another
transfer from the same account can be validated against the same balance.

`committed` measures what the code loses track of: the amounts of all
transfers of an account that have been validated, are not completed, and have
a debit the ledger would accept. A state is `Backed` when every account
covers what is committed from it. Every stage but one keeps that. A
completion spends exactly what it had committed, and the others only move a
transfer that was already counted. The exception is validation, which commits
new funds, and `Affordable` is the condition on the state before it under
which the account still covers everything.

The code's own check agrees with `Affordable` only when nothing else is
committed and unheld. `funds_promised_once` is the safety of the runs that
meet the condition, and `doublePromise_overdraws` exhibits one that does not.

## Main definitions

* `AchTransferStatus.InFlight`: Validated and not completed.
* `AchNetwork.committed`: What an account owes to transfers in flight.
* `AchNetwork.Backed`: Every account covers what is committed from it.
* `AchNetwork.Affordable`: A validation does not commit missing funds.
* `AchNetworkCall`: A call of `receive` or a scheduler step.

## Theorems

* `backed_complete`: A completion spends what was committed.
* `backed_validate`: An affordable validation keeps the state backed.
* `backed_exec`: So does every call that meets the condition.
* `funds_promised_once`: No account goes negative in such a run.
* `doublePromise_overdraws`: A run in which one does.
-/

namespace BankSim

open Exec

/-- Validated, and neither completed nor rejected. -/
def AchTransferStatus.InFlight : AchTransferStatus → Bool
  | .validated | .pending | .submitted | .processing => true
  | .received | .completed | .rejected => false

/-- A transition into flight starts in flight, unless it is the validation. -/
theorem AchTransferStatus.inFlight_of_allowed {status next : AchTransferStatus}
    (hallowed : next ∈ status.allowedTransitions) (hnext : next.InFlight = true)
    (hne : next ≠ .validated) : status.InFlight = true := by
  revert hallowed hnext hne
  cases status <;> cases next <;> decide

/-- What a transfer is going to take from an account, if anything. -/
def AchTransfer.commitment (ledger : Ledger) (accountId : String) (transfer : AchTransfer) : Int :=
  if transfer.request.sourceAccountId = accountId ∧ transfer.status.InFlight ∧
      transfer.request.debitPosting.Fits ledger then
    transfer.request.amountCents
  else
    0

namespace AchTransfer

theorem commitment_nonneg (ledger : Ledger) (accountId : String) (transfer : AchTransfer) :
    0 ≤ transfer.commitment ledger accountId := by
  unfold commitment
  split_ifs with h
  · have hpos : 0 < transfer.request.amountCents := h.2.2.cents_pos
    omega
  · exact le_refl _

theorem commitment_of_not_inFlight (transfer : AchTransfer)
    (h : transfer.status.InFlight = false) (ledger : Ledger) (accountId : String) :
    transfer.commitment ledger accountId = 0 := by
  rw [commitment, if_neg]
  rw [h]
  exact fun hcond => absurd hcond.2.1 Bool.false_ne_true

/-- An accepted entry never adds to a commitment: it can only make a debit
    impossible to post. -/
theorem commitment_push_le {ledger : Ledger} {entry : LedgerEntry}
    (haccept : ledger.refusal entry = none) (accountId : String) (transfer : AchTransfer) :
    transfer.commitment (ledger.push entry) accountId ≤ transfer.commitment ledger accountId := by
  by_cases h : transfer.request.sourceAccountId = accountId ∧ transfer.status.InFlight ∧
      transfer.request.debitPosting.Fits (ledger.push entry)
  · rw [commitment, if_pos h, commitment,
      if_pos ⟨h.1, h.2.1, Posting.fits_of_push haccept h.2.2⟩]
  · rw [commitment, if_neg h]
    exact commitment_nonneg ledger accountId transfer

/-- A transition other than the validation commits nothing new. -/
theorem commitment_le_of_allowed {transfer transfer' : AchTransfer}
    (hrequest : transfer'.request = transfer.request)
    (hallowed : transfer'.status ∈ transfer.status.allowedTransitions)
    (hne : transfer'.status ≠ .validated) (ledger : Ledger) (accountId : String) :
    transfer'.commitment ledger accountId ≤ transfer.commitment ledger accountId := by
  cases hflight : transfer'.status.InFlight with
  | false =>
      rw [commitment_of_not_inFlight _ hflight]
      exact commitment_nonneg ledger accountId transfer
  | true =>
      have hbefore := AchTransferStatus.inFlight_of_allowed hallowed hflight hne
      simp only [commitment, hrequest, hflight, hbefore]
      exact le_refl _

end AchTransfer

namespace AchNetwork

variable {κ : Type}

/-- What an account owes to the transfers in flight. -/
def committed (network : AchNetwork κ) (accountId : String) : Int :=
  (network.transfers.values.map (AchTransfer.commitment network.ledger accountId)).sum

/-- Every account covers what is committed from it. -/
def Backed (network : AchNetwork κ) : Prop :=
  ∀ accountId, network.committed accountId ≤ accountBalance network.ledger accountId

theorem committed_nonneg (network : AchNetwork κ) (accountId : String) :
    0 ≤ network.committed accountId := by
  refine List.sum_nonneg fun cents hcents => ?_
  rcases List.mem_map.mp hcents with ⟨transfer, -, rfl⟩
  exact AchTransfer.commitment_nonneg network.ledger accountId transfer

theorem Backed.solvent {network : AchNetwork κ} (h : network.Backed) : Solvent network.ledger :=
  fun accountId => le_trans (network.committed_nonneg accountId) (h accountId)

/-- A state commits no more than another: the ledger is the same, and every
    account owes at most as much. -/
def CommitsLess (network network' : AchNetwork κ) : Prop :=
  network'.ledger = network.ledger ∧
    ∀ accountId, network'.committed accountId ≤ network.committed accountId

instance : Std.Refl (CommitsLess (κ := κ)) :=
  ⟨fun _ => ⟨rfl, fun _ => le_refl _⟩⟩

instance : IsTrans (AchNetwork κ) CommitsLess :=
  ⟨fun _ _ _ h h' => ⟨h'.1.trans h.1, fun accountId => le_trans (h'.2 accountId) (h.2 accountId)⟩⟩

theorem Backed.of_commitsLess {network network' : AchNetwork κ} (h : network.Backed)
    (hless : CommitsLess network network') : network'.Backed := by
  intro accountId
  rw [hless.1]
  exact le_trans (hless.2 accountId) (h accountId)

theorem commitsLess_of_eq {network network' : AchNetwork κ}
    (hledger : network'.ledger = network.ledger)
    (htransfers : network'.transfers = network.transfers) : CommitsLess network network' := by
  refine ⟨hledger, fun accountId => le_of_eq ?_⟩
  rw [committed, committed, hledger, htransfers]

/-- Replacing a transfer by one that commits no more. -/
theorem commitsLess_withTransfer {network : AchNetwork κ} {transferId : String}
    {transfer transfer' : AchTransfer}
    (hget : network.transfers.get? transferId = some transfer)
    (h : ∀ accountId, transfer'.commitment network.ledger accountId
      ≤ transfer.commitment network.ledger accountId) :
    CommitsLess network (network.withTransfer transferId transfer') := by
  refine ⟨rfl, fun accountId => ?_⟩
  have hsum := Dict.sum_set_of_get? network.transfers transferId transfer transfer'
    (AchTransfer.commitment network.ledger accountId) hget
  have hle := h accountId
  simp only [committed, withTransfer, hsum]
  omega

/-- Everything but a validation and a completion commits nothing new. -/
theorem admits_commitsLess : Admits (CommitsLess (κ := κ)) where
  frame _ _ := commitsLess_of_eq
  received network request hnone := by
    refine ⟨rfl, fun accountId => le_of_eq ?_⟩
    have hsum := Dict.sum_set_of_none network.transfers request.transferId
      (AchTransfer.new request) (AchTransfer.commitment network.ledger accountId) hnone
    have hzero := AchTransfer.commitment_of_not_inFlight (AchTransfer.new request)
      rfl network.ledger accountId
    simp only [committed, withTransfer, hsum, hzero, Int.add_zero]
  advanced _ _ _ _ hget hrequest hallowed hvalidated _ :=
    commitsLess_withTransfer hget
      (AchTransfer.commitment_le_of_allowed hrequest hallowed hvalidated _)

/-- A completion keeps the state backed: it takes from the account exactly
    what the transfer had committed, or takes nothing. -/
theorem backed_complete (network : AchNetwork κ) (transferId : String) (h : network.Backed) :
    (after (complete transferId) network).Backed := by
  rcases complete_cases network transferId with
    ⟨⟨e, hrun⟩, -⟩ | ⟨transfer, hget, hstatus, ⟨hfits, transfer', -, hdone, hrun⟩ | ⟨-, e, hrun⟩⟩
  · rwa [after_of_error hrun]
  · rw [after_of_ok hrun]
    intro accountId
    have hbefore := h accountId
    -- What was committed is what is posted, since the debit fits.
    have hcommitted : transfer.commitment network.ledger accountId
        = if transfer.request.sourceAccountId = accountId then transfer.request.amountCents
          else 0 := by
      unfold AchTransfer.commitment
      simp only [hstatus, AchTransferStatus.InFlight, hfits, and_true]
    have hzero := AchTransfer.commitment_of_not_inFlight transfer'
      (by rw [hdone]; rfl) network.ledger accountId
    have hsum := Dict.sum_set_of_get? network.transfers transferId transfer transfer'
      (AchTransfer.commitment network.ledger accountId) hget
    -- The new entry can make other debits impossible, never possible.
    have hpush : ((network.transfers.set transferId transfer').values.map
        (AchTransfer.commitment (network.ledger.push (Posting.entry hfits)) accountId)).sum
          ≤ ((network.transfers.set transferId transfer').values.map
            (AchTransfer.commitment network.ledger accountId)).sum :=
      List.sum_le_sum fun other _ =>
        AchTransfer.commitment_push_le (Posting.refusal_entry hfits) accountId other
    have hbalance : accountBalance (network.ledger.push (Posting.entry hfits)) accountId
        = accountBalance network.ledger accountId
          + if transfer.request.sourceAccountId = accountId then -transfer.request.amountCents
            else 0 := by
      refine (accountBalance_push network.ledger (Posting.entry hfits) accountId).trans ?_
      rw [signedCents_debit rfl]
      rfl
    have hdebit : accountBalance (network.ledger.push (Posting.entry hfits)) accountId
        = accountBalance network.ledger accountId
          - transfer.commitment network.ledger accountId := by
      rw [hbalance, hcommitted]
      split_ifs <;> ring
    change ((network.transfers.set transferId transfer').values.map
      (AchTransfer.commitment (network.ledger.push (Posting.entry hfits)) accountId)).sum
        ≤ accountBalance (network.ledger.push (Posting.entry hfits)) accountId
    unfold committed at hbefore
    omega
  · rw [after_of_error hrun]
    -- A completed transfer commits nothing, posted or not.
    refine h.of_commitsLess (IsTrans.trans _ (network.withTransfer transferId
      (transfer.moved .completed 10 "Transfer completed")) _ ?_ (commitsLess_of_eq rfl rfl))
    refine commitsLess_withTransfer hget fun accountId => ?_
    rw [AchTransfer.commitment_of_not_inFlight _ rfl]
    exact AchTransfer.commitment_nonneg network.ledger accountId transfer

/-- A validation of the transfer commits nothing its account does not have.
    Either the code's own check turns it down, or its debit could not be
    posted anyway, or the account covers it beside everything already
    committed. -/
def Affordable (network : AchNetwork κ) (transferId : String) : Prop :=
  ∀ transfer ∈ network.transfers.get? transferId, transfer.status = .received →
    (network.rejectionReason transfer.request).isSome ∨
      ¬ transfer.request.debitPosting.Fits network.ledger ∨
      transfer.request.amountCents + network.committed transfer.request.sourceAccountId
        ≤ accountBalance network.ledger transfer.request.sourceAccountId

instance (network : AchNetwork κ) (transferId : String) :
    Decidable (network.Affordable transferId) :=
  inferInstanceAs (Decidable (∀ transfer ∈ network.transfers.get? transferId, _ → _))

/-- An affordable validation keeps the state backed. -/
theorem backed_validate (lift : AchCallback → κ) (network : AchNetwork κ) (transferId : String)
    (h : network.Backed) (haffordable : network.Affordable transferId) :
    (after (validate lift transferId) network).Backed := by
  rcases validate_cases lift network transferId with
    hsame | ⟨transfer, transfer', hget, hstatus, hrequest, hledger, htransfers, hnew⟩
  · rwa [hsame]
  · intro accountId
    have hbefore := h accountId
    have hsum := Dict.sum_set_of_get? network.transfers transferId transfer transfer'
      (AchTransfer.commitment network.ledger accountId) hget
    have hzero := AchTransfer.commitment_of_not_inFlight transfer
      (by rw [hstatus]; rfl) network.ledger accountId
    -- A received transfer had committed nothing.
    have hcommitted : (after (validate lift transferId) network).committed accountId
        = network.committed accountId + transfer'.commitment network.ledger accountId := by
      rw [committed, hledger, htransfers, hsum, hzero, committed, Int.sub_zero]
    rw [hcommitted, hledger]
    -- Only a validation that commits something to this account needs the condition.
    by_cases hcommits : transfer'.request.sourceAccountId = accountId ∧ transfer'.status.InFlight ∧
        transfer'.request.debitPosting.Fits network.ledger
    · rw [AchTransfer.commitment, if_pos hcommits]
      rw [hrequest] at hcommits ⊢
      rcases hcommits with ⟨rfl, hflight, hfits⟩
      rcases hnew with hrejected | ⟨-, hreason⟩
      · rw [hrejected] at hflight
        cases hflight
      · rcases haffordable transfer hget hstatus with hturned | hunfit | hcovered
        · rw [hreason] at hturned
          cases hturned
        · exact absurd hfits hunfit
        · omega
    · rw [AchTransfer.commitment, if_neg hcommits]
      omega

end AchNetwork

/-- A call of the network's public method, or a step of its scheduler. -/
inductive AchNetworkCall
  | receive (request : AchTransferRequest)
  | runNext

namespace AchNetworkCall

/-- Make the call. -/
def exec : AchNetworkCall → Action (AchNetwork AchCallback) Unit
  | .receive request => do
      let _ ← AchNetwork.receive id request
  | .runNext => do
      let _ ← AchNetwork.runNext

/-- The transfer that a callback validates. -/
def validating : AchCallback → Option String
  | .validate transferId => some transferId
  | _ => none

/-- The condition on a call: a scheduler step that is going to validate a
    transfer does so in a state where the transfer is affordable. -/
def FundsFree (network : AchNetwork AchCallback) : AchNetworkCall → Prop
  | .receive _ => True
  | .runNext => ∀ event ∈ network.scheduler.queue.head?,
      network.scheduler.clock.time ≤ event.time →
        ∀ transferId ∈ validating event.callback, network.Affordable transferId

instance (network : AchNetwork AchCallback) :
    ∀ call : AchNetworkCall, Decidable (call.FundsFree network)
  | .receive _ => isTrue trivial
  | .runNext => inferInstanceAs (Decidable (∀ event ∈ network.scheduler.queue.head?, _ → _))

end AchNetworkCall

namespace AchNetwork

/-- A callback keeps the state backed, provided a validation is affordable. -/
theorem backed_call (callback : AchCallback) (network : AchNetwork AchCallback)
    (h : network.Backed)
    (haffordable : ∀ transferId ∈ AchNetworkCall.validating callback,
      network.Affordable transferId) :
    (after (call id callback) network).Backed := by
  cases callback with
  | validate transferId =>
      exact backed_validate id network transferId h (haffordable transferId rfl)
  | markPending transferId =>
      exact h.of_commitsLess (admits_commitsLess.within_markPending id transferId network)
  | submit transferId =>
      exact h.of_commitsLess (admits_commitsLess.within_submit id transferId network)
  | process transferId =>
      exact h.of_commitsLess (admits_commitsLess.within_process id transferId network)
  | complete transferId => exact backed_complete network transferId h

/-- Every call that meets the condition keeps the state backed. -/
theorem backed_exec (network : AchNetwork AchCallback) (call : AchNetworkCall)
    (h : network.Backed) (hfree : call.FundsFree network) :
    (after call.exec network).Backed := by
  cases call with
  | receive request =>
      rw [AchNetworkCall.exec, after_discard]
      exact h.of_commitsLess (admits_commitsLess.within_receive id request network)
  | runNext =>
      rw [AchNetworkCall.exec, after_discard, runNext]
      refine EventScheduler.runNext_related schedulerOf (AchNetwork.call id)
        (R := Keeps Backed) (fun _ _ hbacked => hbacked) ?_ h
      intro event queue clock hqueue hdue _ hready
      refine backed_call event.callback _ hready fun transferId htransfer => ?_
      have hhead : event ∈ network.scheduler.queue.head? := by
        change network.scheduler.queue = event :: queue at hqueue
        rw [hqueue]
        rfl
      exact hfree event hhead hdue transferId htransfer

end AchNetwork

/-- In a run of receive calls and scheduler steps, over a ledger without a
    negative account, no account ever goes negative, provided every
    validation on the way is affordable. -/
theorem funds_promised_once (ledger : Ledger) (scheduler : EventScheduler AchCallback)
    (calls : List AchNetworkCall) (hsolvent : Solvent ledger)
    (hfree : AllSteps AchNetworkCall.exec (fun network call => call.FundsFree network)
      (AchNetwork.new ledger scheduler) calls) :
    AllStates AchNetworkCall.exec (fun network => Solvent network.ledger)
      (AchNetwork.new ledger scheduler) calls := by
  -- A new network has committed nothing.
  have hstart : (AchNetwork.new ledger scheduler).Backed := hsolvent
  exact allStates_mono (fun _ => AchNetwork.Backed.solvent)
    (allStates_of_allSteps (fun network call => AchNetwork.backed_exec network call) hstart hfree)

/-- One credit of $1,000.00. -/
def achOpening : Ledger :=
  Ledger.new.push
    { entryId := "ACH-OPEN", accountId := "HCCU-DEMO-001", amount := { cents := 100000 }
      entryType := .credit, description := "Opening balance", sequence := 1, postedAt := 0 }

theorem solvent_achOpening : Solvent achOpening := by
  intro accountId
  rw [achOpening, accountBalance_push, accountBalance_new]
  split_ifs <;> decide

def achRequest (transferId : String) (amountCents : Int) : AchTransferRequest where
  transferId := transferId
  sourceAccountId := "HCCU-DEMO-001"
  destinationInstitution := "Blue Ridge National Bank"
  destinationReference := "EXTERNAL-ACCOUNT-001"
  amountCents := amountCents
  description := "External transfer"

/-- Transfers received at once, and then enough steps to complete them. -/
def achRun (requests : List AchTransferRequest) : List AchNetworkCall :=
  requests.map .receive ++ List.replicate (5 * requests.length) .runNext

/-- Transfers of $250.00 and $600.00 are affordable together, so a run in which both
    are on their way keeps every account nonnegative. -/
theorem funds_promised_once_scenario :
    AllStates AchNetworkCall.exec (fun network => Solvent network.ledger)
      (AchNetwork.new achOpening)
      (achRun [achRequest "ACH-0001" 25000, achRequest "ACH-0002" 60000]) :=
  funds_promised_once achOpening EventScheduler.new _ solvent_achOpening (by decide)

/-- Two transfers of $600.00 each are validated against the same $1,000.00,
    and both are posted. -/
theorem doublePromise_overdraws :
    ¬ Solvent (finalState AchNetworkCall.exec (AchNetwork.new achOpening)
      (achRun [achRequest "ACH-0001" 60000, achRequest "ACH-0002" 60000])).ledger := by
  intro hsolvent
  have hbalance : accountBalance (finalState AchNetworkCall.exec (AchNetwork.new achOpening)
      (achRun [achRequest "ACH-0001" 60000, achRequest "ACH-0002" 60000])).ledger
        "HCCU-DEMO-001" = -20000 := by
    decide
  have hnonneg := hsolvent "HCCU-DEMO-001"
  omega

end BankSim
