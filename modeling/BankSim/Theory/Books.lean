import BankSim.Theory.AchEffects
import BankSim.Theory.Conservation

/-!
# The Books of One Ledger

Deposits, withdrawals, transfers, ACH transfers, ACH returns and code that
appends entries itself can all write to one ledger, in any order. What the
ledger holds for some accounts can then be told without the ledger: from what
the operations returned, and from the records that the two ACH components keep
of their workflows.

The records are the point. A completion that the ledger refuses leaves a
transfer completed all the same, so counting completed transfers does not give
the balance. But the transfer writes "Ledger debit posted" into its history
only after the append, and a return names its corrective entry only then. Read
by these two marks, the records never disagree with the ledger, whatever was
refused and whoever else wrote to it.

`owed` is what the ledger holds, with the marked debits put back and the marked
credits taken out. No call of the components changes it, and any other call
changes it by what it reports.

## Main definitions

* `BankCall`: A call of any writer of the ledger.
* `BankCall.reported`: What a call reports for some accounts.
* `AchTransfer.debited`, `AchReturn.corrected`: The marks of the records.
* `AchWork.drawn`, `AchWork.restored`: What the records say was posted.
* `AchWork.Recorded`: Only what was completed is marked.

## Theorems

* `heldIn_operation`: An operation changes what is held by what it reports.
* `owed_network`, `owed_return`: A stage leaves what is owed as it is.
* `owed_exec`: A call changes what is owed by what it reports.
* `books_balance`: What every run leaves in the ledger.
-/

namespace BankSim

open Exec

/-! ### What calls report -/

/-- What a ledger holds for some accounts together. -/
def Ledger.heldIn (accounts : String → Bool) (ledger : Ledger) : Int :=
  totalCents (ledger.entries.filter fun entry => accounts entry.accountId)

/-- What a result says about some accounts: a transfer between two of them
    leaves what they hold together as it was. -/
def OperationResult.change (accounts : String → Bool) : OperationResult → Int
  | .deposit result =>
      if result.status = .posted ∧ accounts result.accountId then result.amountCents else 0
  | .withdrawal result =>
      if result.status = .posted ∧ accounts result.accountId then -result.amountCents else 0
  | .transfer result =>
      if result.transfer.status = .posted then
        (if accounts result.transfer.sourceAccountId then -result.transfer.amountCents else 0) +
          if accounts result.transfer.destinationAccountId then result.transfer.amountCents else 0
      else 0

/-- A call of any writer of one ledger: an operation, or a call of the two ACH
    components, of their scheduler and clock, or of code that appends itself. -/
inductive BankCall
  | operation (op : Operation)
  | ach (call : AchSystemCall)

namespace BankCall

/-- Make the call. -/
def exec : BankCall → Action AchSystem (Option OperationResult)
  | .operation op => do
      let result ← AchReturnProcessor.ledgerOf.zoom op.exec
      return some result
  | .ach call => do
      call.exec
      return none

/-- What the call reports for some accounts: an operation by its result, and an
    append by returning. The ACH components report nothing. -/
def reported (accounts : String → Bool) :
    BankCall → Except Raised (Option OperationResult) → Int
  | .operation _, .ok (some result) => result.change accounts
  | .ach (.append entry), outcome =>
      totalCents (((LedgerCall.append entry).written outcome).filter fun entry =>
        accounts entry.accountId)
  | .ach (.appendBatch entries), outcome =>
      totalCents (((LedgerCall.appendBatch entries).written outcome).filter fun entry =>
        accounts entry.accountId)
  | _, _ => 0

/-- What the calls of a run report together. -/
def reports (accounts : String → Bool) (system : AchSystem) (calls : List BankCall) : Int :=
  (List.zipWith (reported accounts) calls (outcomes exec system calls)).sum

end BankCall

/-! ### What the records say -/

/-- The history says that the debit was posted. -/
def AchTransfer.debited (self : AchTransfer) : Bool :=
  self.history.any fun event => event.description = "Ledger debit posted"

/-- The return names its corrective entry. -/
def AchReturn.corrected (self : AchReturn) : Bool :=
  self.correctiveEntryId.isSome

/-- What a transfer says was taken from some accounts. -/
def AchTransfer.drawnFrom (accounts : String → Bool) (self : AchTransfer) : Int :=
  if self.debited ∧ accounts self.request.sourceAccountId then self.request.amountCents else 0

/-- What a return says was given back to some accounts, among transfers that
    say which account that is. -/
def AchReturn.restoredTo (accounts : String → Bool) (transfers : Dict String AchTransfer)
    (self : AchReturn) : Int :=
  if self.corrected ∧ ∃ original ∈ transfers.get? self.request.originalTransferId,
      accounts original.request.sourceAccountId then
    self.request.amountCents
  else 0

namespace AchWork

def drawn (accounts : String → Bool) (work : AchWork) : Int :=
  (work.transfers.values.map (·.drawnFrom accounts)).sum

def restored (accounts : String → Bool) (work : AchWork) : Int :=
  (work.returns.values.map (·.restoredTo accounts work.transfers)).sum

/-- What the ledger would hold without the entries of the two components. -/
def owed (accounts : String → Bool) (work : AchWork) : Int :=
  work.ledger.heldIn accounts + work.drawn accounts - work.restored accounts

/-- Only completed workflows are marked, and the transfer of a marked return is
    known. -/
structure Recorded (work : AchWork) : Prop where
  transfers : ∀ transferId transfer, work.transfers.get? transferId = some transfer →
    transfer.status ≠ .completed → transfer.debited = false
  returns : ∀ returnId item, work.returns.get? returnId = some item →
    item.status ≠ .completed → item.corrected = false
  originals : ∀ returnId item, work.returns.get? returnId = some item →
    item.corrected = true → item.request.originalTransferId ∈ work.transfers

end AchWork

/-! ### Operations -/

section Held

variable {accounts : String → Bool}

theorem heldIn_push (ledger : Ledger) (entry : LedgerEntry) :
    (ledger.push entry).heldIn accounts
      = ledger.heldIn accounts + if accounts entry.accountId then entry.signedCents else 0 := by
  unfold Ledger.heldIn
  rw [Ledger.push_entries, List.filter_append, totalCents_append]
  by_cases h : accounts entry.accountId
  · rw [List.filter_cons_of_pos (by simpa using h), if_pos h]
    simp only [List.filter_nil, totalCents, List.map_cons, List.map_nil, List.sum_cons,
      List.sum_nil, Int.add_zero]
  · rw [List.filter_cons_of_neg (by simpa using h), if_neg h]
    rfl

theorem heldIn_posts {ledger final : Ledger} {entryId accountId : String} {cents : Int}
    {entryType : EntryType} (h : Posts ledger final entryId accountId cents entryType) :
    final.heldIn accounts = ledger.heldIn accounts +
      if accounts accountId then (if entryType = .credit then cents else -cents) else 0 := by
  rcases h with ⟨entry, -, rfl, -, rfl, rfl, rfl, -⟩
  rw [heldIn_push]
  cases hty : entry.entryType with
  | credit => rw [signedCents_credit hty, if_pos rfl]
  | debit => rw [signedCents_debit hty, if_neg EntryType.debit_ne_credit]

/-- A withdrawal reports the account it was asked for. -/
theorem withdrawal_accountId {request : WithdrawalRequest} {pending : List PendingTransaction}
    {ledger final : Ledger} {withdrawal : Withdrawal}
    (h : (processWithdrawal request pending).run ledger = .ok withdrawal final) :
    withdrawal.accountId = request.accountId := by
  rw [processWithdrawal_eq] at h
  cases hproject : projectBalances ledger pending with
  | error e =>
      rw [hproject] at h
      cases h
  | ok projection =>
      rw [hproject] at h
      by_cases hfunds : request.amountCents > projection.availableBalance
      · simp only [hfunds, if_true] at h
        cases h
        rfl
      · simp only [hfunds, if_false] at h
        rcases run_bind_ok_iff.mp h with ⟨_, posted, -, hreturn⟩
        cases hreturn
        rfl

/-- A transfer reports the terms it was asked for. -/
theorem transfer_terms {request : TransferRequest} {ledger final : Ledger}
    {result : TransferResult} (h : (processTransfer request).run ledger = .ok result final) :
    result.transfer.sourceAccountId = request.sourceAccountId ∧
      result.transfer.destinationAccountId = request.destinationAccountId ∧
      result.transfer.amountCents = request.amountCents := by
  by_cases hfunds : request.amountCents > accountBalance ledger request.sourceAccountId
  · rw [processTransfer_rejects request ledger hfunds] at h
    cases h
    exact ⟨rfl, rfl, rfl⟩
  · rw [processTransfer, run_bind_get] at h
    simp only [hfunds, if_false] at h
    -- The amounts, the entries and the batch come before the result.
    rcases run_bind_ok_iff.mp h with ⟨_, _, -, h⟩
    rcases run_bind_ok_iff.mp h with ⟨_, _, -, h⟩
    rcases run_bind_ok_iff.mp h with ⟨_, _, -, h⟩
    rcases run_bind_ok_iff.mp h with ⟨_, _, -, h⟩
    rcases run_bind_ok_iff.mp h with ⟨_, _, -, h⟩
    cases h
    exact ⟨rfl, rfl, rfl⟩

/-- What a caught operation reports. -/
def changeOf (accounts : String → Bool) : Except Raised OperationResult → Int
  | .ok result => result.change accounts
  | .error _ => 0

/-- An operation changes what some accounts hold by what it reports. -/
theorem heldIn_operation (op : Operation) (ledger : Ledger) :
    (after op.exec ledger).heldIn accounts
      = ledger.heldIn accounts + changeOf accounts (outcome op.exec ledger) := by
  rcases operation_cases op ledger with ⟨e, hout, hsame⟩ | ⟨request, deposit, -, hout, hrun⟩ |
    ⟨request, pending, withdrawal, -, hout, hrun⟩ | ⟨request, result, -, hout, hrun⟩
  · rw [hout, hsame]
    exact (Int.add_zero _).symm
  · rcases postDeposit_ok request _ _ deposit hrun with ⟨rfl, hposts⟩
    rw [hout, heldIn_posts hposts]
    simp only [changeOf, OperationResult.change, true_and, if_true]
  · have haccount := withdrawal_accountId hrun
    rcases processWithdrawal_ok request pending _ _ withdrawal hrun with
      ⟨hamount, ⟨hstatus, hsame⟩ | ⟨hstatus, -, hposts, -⟩⟩
    · rw [hout, hsame]
      simp only [changeOf, OperationResult.change, hstatus, reduceCtorEq, false_and, if_false,
        Int.add_zero]
    · rw [hout, heldIn_posts hposts]
      simp only [changeOf, OperationResult.change, hstatus, haccount, hamount, true_and,
        reduceCtorEq, if_false]
  · rcases transfer_terms hrun with ⟨hsource, hdestination, hamount⟩
    rw [hout]
    -- A transfer that lacks funds posts nothing, and any other posts both entries.
    by_cases hfunds : request.amountCents > accountBalance ledger request.sourceAccountId
    · rw [processTransfer_rejects request ledger hfunds, EStateM.Result.ok.injEq] at hrun
      rw [← hrun.2, ← hrun.1]
      simp only [changeOf, OperationResult.change, reduceCtorEq, if_false, Int.add_zero]
    · rcases processTransfer_posts request _ _ result hfunds hrun with
        ⟨hstatus, debit, credit, -, -, hfinal, -, hdaccount, hdcents, -, -, hcaccount, hccents, -⟩
      rw [hfinal, heldIn_push, heldIn_push, hdaccount, hcaccount, hdcents, hccents]
      simp only [changeOf, OperationResult.change, hstatus, if_true, hsource, hdestination,
        hamount, add_assoc]

end Held

/-! ### The two components -/

namespace AchWork

variable {accounts : String → Bool} {work : AchWork}

/-- A return is read among transfers that kept their requests. -/
theorem restored_setTransfer {transferId : String} {transfer transfer' : AchTransfer}
    (hget : work.transfers.get? transferId = some transfer)
    (hrequest : transfer'.request = transfer.request) (ledger : Ledger) :
    restored accounts
        { work with transfers := work.transfers.set transferId transfer', ledger }
      = work.restored accounts := by
  unfold restored
  refine congrArg List.sum (List.map_congr_left fun item _ => ?_)
  have hsame : (∃ original ∈ (work.transfers.set transferId transfer').get?
        item.request.originalTransferId, accounts original.request.sourceAccountId) ↔
      ∃ original ∈ work.transfers.get? item.request.originalTransferId,
        accounts original.request.sourceAccountId := by
    rw [Dict.get?_set]
    by_cases hid : item.request.originalTransferId = transferId
    · rw [if_pos hid, hid, hget]
      simp only [Option.mem_def, Option.some.injEq, exists_eq_left', hrequest]
    · rw [if_neg hid]
  simp only [AchReturn.restoredTo, hsame]

/-- Replacing a transfer by one with the same request and the same mark. -/
theorem owed_setTransfer {transferId : String} {transfer transfer' : AchTransfer}
    (hget : work.transfers.get? transferId = some transfer)
    (hrequest : transfer'.request = transfer.request)
    (hmark : transfer'.debited = transfer.debited) :
    owed accounts { work with transfers := work.transfers.set transferId transfer' }
      = work.owed accounts := by
  have hdrawn := Dict.sum_set_of_get? work.transfers transferId transfer transfer'
    (·.drawnFrom accounts) hget
  have hsame : transfer'.drawnFrom accounts = transfer.drawnFrom accounts := by
    unfold AchTransfer.drawnFrom
    rw [hrequest, hmark]
  unfold owed
  rw [restored_setTransfer hget hrequest work.ledger]
  unfold drawn
  rw [hdrawn, hsame, sub_add_cancel]

/-- Posting the debit of a transfer and marking it. -/
theorem owed_debited {transferId : String} {transfer transfer' : AchTransfer}
    (hget : work.transfers.get? transferId = some transfer)
    (hrequest : transfer'.request = transfer.request) (hopen : transfer.debited = false)
    (hmark : transfer'.debited = true)
    (hfits : transfer.request.debitPosting.Fits work.ledger) :
    owed accounts
        { work with
          transfers := work.transfers.set transferId transfer'
          ledger := work.ledger.push (Posting.entry hfits) } = work.owed accounts := by
  have hdrawn := Dict.sum_set_of_get? work.transfers transferId transfer transfer'
    (·.drawnFrom accounts) hget
  have hbefore : transfer.drawnFrom accounts = 0 := by
    unfold AchTransfer.drawnFrom
    simp only [hopen, Bool.false_eq_true, false_and, if_false]
  have hsigned : (Posting.entry hfits).signedCents = -transfer.request.amountCents :=
    signedCents_debit rfl
  unfold owed
  rw [restored_setTransfer hget hrequest, heldIn_push, hsigned]
  unfold drawn
  rw [hdrawn, hbefore]
  unfold AchTransfer.drawnFrom
  change _ + (if accounts transfer.request.sourceAccountId then _ else 0) + _ - _ = _
  by_cases haccount : accounts transfer.request.sourceAccountId
  · simp only [hmark, hrequest, haccount, and_self, if_true]
    ring
  · simp only [hrequest, haccount, Bool.false_eq_true, and_false, if_false]
    ring

/-- Replacing a return by one with the same request and the same mark. -/
theorem owed_setReturn {returnId : String} {item item' : AchReturn}
    (hget : work.returns.get? returnId = some item) (hrequest : item'.request = item.request)
    (hmark : item'.corrected = item.corrected) (claims : Dict String String) :
    owed accounts { work with returns := work.returns.set returnId item', claims }
      = work.owed accounts := by
  have hrestored := Dict.sum_set_of_get? work.returns returnId item item'
    (·.restoredTo accounts work.transfers) hget
  have hsame : item'.restoredTo accounts work.transfers
      = item.restoredTo accounts work.transfers := by
    unfold AchReturn.restoredTo
    rw [hrequest, hmark]
  unfold owed restored
  rw [hrestored, hsame, sub_add_cancel]
  rfl

/-- Posting the credit of a return and marking it. -/
theorem owed_credited {returnId : String} {item item' : AchReturn} {original : AchTransfer}
    {time : Int} (hget : work.returns.get? returnId = some item)
    (hrequest : item'.request = item.request) (hopen : item.corrected = false)
    (hmark : item'.corrected = true)
    (horiginal : work.transfers.get? item.request.originalTransferId = some original)
    (hfits : (item.request.creditPosting original.request time).Fits work.ledger) :
    owed accounts
        { work with
          returns := work.returns.set returnId item'
          ledger := work.ledger.push (Posting.entry hfits) } = work.owed accounts := by
  have hrestored := Dict.sum_set_of_get? work.returns returnId item item'
    (·.restoredTo accounts work.transfers) hget
  -- What the credit adds to the ledger is what the mark adds to what was restored.
  have hbefore : item.restoredTo accounts work.transfers = 0 := by
    unfold AchReturn.restoredTo
    simp only [hopen, Bool.false_eq_true, false_and, if_false]
  have hsigned : (Posting.entry hfits).signedCents = item.request.amountCents :=
    signedCents_credit rfl
  unfold owed
  rw [heldIn_push, hsigned]
  unfold restored drawn
  rw [hrestored, hbefore]
  unfold AchReturn.restoredTo
  change _ + (if accounts original.request.sourceAccountId then _ else 0) + _ - _ = _
  by_cases haccount : accounts original.request.sourceAccountId
  · simp only [hmark, hrequest, horiginal, Option.mem_def, Option.some.injEq, exists_eq_left',
      haccount, and_self, if_true]
    ring
  · simp only [hrequest, horiginal, Option.mem_def, Option.some.injEq, exists_eq_left', haccount,
      Bool.false_eq_true, and_false, if_false]
    ring

/-- A new transfer is not marked, and no marked return refers to it. -/
theorem owed_received {request : AchTransferRequest} (h : work.Recorded)
    (hnew : work.transfers.get? request.transferId = none) :
    owed accounts
        { work with
          transfers := work.transfers.set request.transferId (AchTransfer.new request) }
      = work.owed accounts := by
  have hdrawn := Dict.sum_set_of_none work.transfers request.transferId (AchTransfer.new request)
    (·.drawnFrom accounts) hnew
  have hunmarked : (AchTransfer.new request).drawnFrom accounts = 0 := rfl
  have hrestored : restored accounts
      { work with
        transfers := work.transfers.set request.transferId (AchTransfer.new request) }
        = work.restored accounts := by
    unfold restored
    refine congrArg List.sum (List.map_congr_left fun item hitem => ?_)
    rcases (Dict.mem_values_iff _ _).mp hitem with ⟨returnId, hget⟩
    by_cases hmark : item.corrected = true
    · have hknown := h.originals returnId item hget hmark
      have hne : item.request.originalTransferId ≠ request.transferId := by
        intro hsame
        rw [hsame, Dict.mem_iff, hnew] at hknown
        rcases hknown with ⟨_, hknown⟩
        cases hknown
      simp only [AchReturn.restoredTo, Dict.get?_set_ne _ _ hne]
    · simp only [AchReturn.restoredTo, hmark, Bool.false_eq_true, false_and, if_false]
  unfold owed
  rw [hrestored]
  unfold drawn
  rw [hdrawn, hunmarked, Int.add_zero]

/-- A new return is not marked. -/
theorem owed_returned {request : AchReturnRequest} (time : Int)
    (hnew : work.returns.get? request.returnId = none) :
    owed accounts
        { work with returns := work.returns.set request.returnId (AchReturn.new request time) }
      = work.owed accounts := by
  have hrestored := Dict.sum_set_of_none work.returns request.returnId
    (AchReturn.new request time) (·.restoredTo accounts work.transfers) hnew
  have hunmarked : (AchReturn.new request time).restoredTo accounts work.transfers = 0 := by
    unfold AchReturn.restoredTo
    rw [if_neg fun h => nomatch h.1]
  unfold owed restored
  rw [hrestored, hunmarked, Int.add_zero]
  rfl

/-- What is recorded stays recorded, and what is owed stays the same. -/
def Steady (accounts : String → Bool) (work later : AchWork) : Prop :=
  work.Recorded → later.Recorded ∧ later.owed accounts = work.owed accounts

theorem Steady.refl (accounts : String → Bool) (work : AchWork) : Steady accounts work work :=
  fun h => ⟨h, rfl⟩

theorem Recorded.setTransfer (h : work.Recorded) {transferId : String} {transfer' : AchTransfer}
    (hmark : transfer'.status ≠ .completed → transfer'.debited = false) (ledger : Ledger) :
    Recorded
      { work with transfers := work.transfers.set transferId transfer', ledger } where
  transfers := Dict.forall_get?_set hmark h.transfers
  returns := h.returns
  originals returnId item hget hcorrected := by
    have hknown := h.originals returnId item hget hcorrected
    rw [Dict.mem_iff] at hknown ⊢
    rcases hknown with ⟨original, hknown⟩
    by_cases hid : item.request.originalTransferId = transferId
    · exact ⟨transfer', by rw [Dict.get?_set, if_pos hid]⟩
    · exact ⟨original, by rw [Dict.get?_set, if_neg hid, hknown]⟩

theorem Recorded.setReturn (h : work.Recorded) {returnId : String} {item' : AchReturn}
    (hmark : item'.status ≠ .completed → item'.corrected = false)
    (hknown : item'.corrected = true → item'.request.originalTransferId ∈ work.transfers)
    (claims : Dict String String) (ledger : Ledger) :
    Recorded { work with returns := work.returns.set returnId item', claims, ledger } where
  transfers := h.transfers
  returns := Dict.forall_get?_set hmark h.returns
  originals := Dict.forall_get?_set hknown h.originals

theorem steady_moveTransfer {transferId : String} {transfer transfer' : AchTransfer}
    (hget : work.transfers.get? transferId = some transfer)
    (hopen : transfer.status ≠ .completed) (hrequest : transfer'.request = transfer.request)
    (hmark : transfer'.debited = transfer.debited) :
    Steady accounts work
      { work with transfers := work.transfers.set transferId transfer' } := by
  intro h
  have hclear := h.transfers transferId transfer hget hopen
  exact ⟨h.setTransfer (fun _ => hmark.trans hclear) work.ledger,
    owed_setTransfer hget hrequest hmark⟩

theorem steady_moveReturn {returnId : String} {item item' : AchReturn}
    (hget : work.returns.get? returnId = some item) (hopen : item.status ≠ .completed)
    (hrequest : item'.request = item.request) (hmark : item'.corrected = item.corrected)
    (claims : Dict String String) :
    Steady accounts work { work with returns := work.returns.set returnId item', claims } := by
  intro h
  have hclear := hmark.trans (h.returns returnId item hget hopen)
  refine ⟨h.setReturn (fun _ => hclear) (fun hcorrected => ?_) claims work.ledger,
    owed_setReturn hget hrequest hmark claims⟩
  rw [hclear] at hcorrected
  cases hcorrected

end AchWork

namespace AchReturnProcessor

open AchWork

variable {κ : Type} {accounts : String → Bool}

theorem debited_moved (transfer : AchTransfer) (status : AchTransferStatus) (time : Int)
    {description : String} (h : description ≠ "Ledger debit posted") :
    (transfer.moved status time description).debited = transfer.debited := by
  unfold AchTransfer.debited AchTransfer.moved
  simp only [List.any_append, List.any_cons, List.any_nil, h, decide_false, Bool.or_false]

theorem debited_noted (transfer : AchTransfer) : transfer.noted.debited = true := by
  unfold AchTransfer.debited AchTransfer.noted
  simp only [List.any_append, List.any_cons, decide_true, Bool.true_or, Bool.or_true]

/-- A stage of a transfer leaves what is owed as it is: only a posted debit is
    marked, and a refused one is not. -/
theorem steady_network {lift : AchCallback → κ} {callback : AchCallback}
    {network' : AchNetwork κ} (self : AchReturnProcessor κ)
    (h : AchNetwork.Stage lift self.network callback network') :
    Steady accounts self.work (networkOf.set network' self).work := by
  cases h with
  | refused => exact Steady.refl accounts self.work
  | @rejected transferId transfer reason hget hstatus =>
      refine steady_moveTransfer hget (by rw [hstatus]; decide) rfl ?_
      exact debited_moved transfer .rejected _ (by decide)
  | @validated transferId transfer hget hstatus =>
      refine steady_moveTransfer hget (by rw [hstatus]; decide) rfl ?_
      exact debited_moved transfer .validated 1 (by decide)
  | @held transferId transfer hget hstatus =>
      refine steady_moveTransfer hget (by rw [hstatus]; decide) rfl ?_
      exact debited_moved transfer .pending 2 (by decide)
  | @unheld transferId transfer hget hstatus =>
      refine steady_moveTransfer hget (by rw [hstatus]; decide) rfl ?_
      exact debited_moved transfer .pending 2 (by decide)
  | @submitted transferId transfer hget hstatus =>
      refine steady_moveTransfer hget (by rw [hstatus]; decide) rfl ?_
      exact debited_moved transfer .submitted 3 (by decide)
  | @processed transferId transfer hget hstatus =>
      refine steady_moveTransfer hget (by rw [hstatus]; decide) rfl ?_
      exact debited_moved transfer .processing 5 (by decide)
  -- The one stage that posts.
  | @debited transferId transfer hget hstatus hfits =>
      intro hrecorded
      have hclear := hrecorded.transfers transferId transfer hget (by rw [hstatus]; decide)
      exact ⟨hrecorded.setTransfer (fun hne => absurd rfl hne) _,
        @owed_debited accounts self.work _ _ _ hget (by rfl) hclear (debited_noted _) hfits⟩
  | @undebited transferId transfer hget hstatus =>
      refine steady_moveTransfer hget (by rw [hstatus]; decide) rfl ?_
      exact debited_moved transfer .completed 10 (by decide)

/-- The same for a stage of a return. -/
theorem steady_return {lift : AchReturnCallback → κ} {callback : AchReturnCallback}
    {self later : AchReturnProcessor κ} (h : Stage lift self callback later) :
    Steady accounts self.work later.work := by
  cases h with
  | refused => exact Steady.refl accounts self.work
  | rejected hget hstatus =>
      exact steady_moveReturn hget (by rw [hstatus]; decide) (by rfl) (by rfl)
        self.returnsByTransfer
  | validated hget hstatus =>
      exact steady_moveReturn hget (by rw [hstatus]; decide) (by rfl) (by rfl) _
  | processed hget hstatus =>
      exact steady_moveReturn hget (by rw [hstatus]; decide) (by rfl) (by rfl)
        self.returnsByTransfer
  | @credited returnId item original time hget hstatus htime horiginal hfits =>
      intro hrecorded
      have hclear := hrecorded.returns returnId item hget (by rw [hstatus]; decide)
      have hknown : item.request.originalTransferId ∈ self.work.transfers :=
        (Dict.mem_iff _ _).mpr ⟨original, horiginal⟩
      refine ⟨hrecorded.setReturn (fun hne => ?_) (fun _ => ?_) self.returnsByTransfer _, ?_⟩
      · exact absurd rfl hne
      · exact hknown
      · exact @owed_credited accounts self.work _ _ _ _ _ hget (by rfl) hclear (by rfl) horiginal
          hfits
  | uncredited hget hstatus =>
      exact steady_moveReturn hget (by rw [hstatus]; decide) (by rfl) (by rfl)
        self.returnsByTransfer

theorem steady_receive (lift : AchCallback → κ) (self : AchReturnProcessor κ)
    (request : AchTransferRequest) : Steady accounts self.work
      (networkOf.set (after (AchNetwork.receive lift request) self.network) self).work := by
  rcases AchNetwork.after_receive lift self.network request with hsame | ⟨hnew, hafter⟩
  · rw [hsame]
    exact Steady.refl accounts self.work
  · rw [hafter]
    intro hrecorded
    exact ⟨hrecorded.setTransfer (fun _ => rfl) self.network.ledger,
      owed_received hrecorded ((Dict.not_mem_iff _ _).mp hnew)⟩

theorem steady_receiveReturn (lift : AchReturnCallback → κ) (self : AchReturnProcessor κ)
    (request : AchReturnRequest) :
    Steady accounts self.work (after (receive lift request) self).work := by
  by_cases hmem : request.returnId ∈ self.returns
  · rw [after_of_ok (receive_known lift hmem)]
    exact Steady.refl accounts self.work
  · rw [after_of_ok (receive_new lift hmem)]
    intro hrecorded
    refine ⟨hrecorded.setReturn (fun _ => ?_) (fun hmark => ?_) self.returnsByTransfer
      self.network.ledger, ?_⟩
    · rfl
    · cases hmark
    · exact @owed_returned accounts self.work request _ ((Dict.not_mem_iff _ _).mp hmem)

theorem steady_callEither (self : AchSystem) (callback : AchCallback ⊕ AchReturnCallback) :
    Steady accounts self.work (after (callEither callback) self).work := by
  cases callback with
  | inl callback =>
      rw [callEither, Component.after_zoom]
      exact steady_network self (AchNetwork.stage_call Sum.inl self.network callback)
  | inr callback => exact steady_return (stage_call Sum.inr self callback)

end AchReturnProcessor

/-! ### Every call of a run -/

section Runs

open AchWork

variable (accounts : String → Bool)

/-- Another writer changes what is held by what it writes. -/
theorem heldIn_written (call : LedgerCall) (ledger : Ledger) :
    (after call.exec ledger).heldIn accounts = ledger.heldIn accounts +
      totalCents ((call.written (outcome call.exec ledger)).filter fun entry =>
        accounts entry.accountId) := by
  unfold Ledger.heldIn
  rw [Ledger.entries_exec, List.filter_append, totalCents_append]

/-- An operation works on the ledger only, and its result is returned. -/
theorem operation_run (op : Operation) (system : AchSystem) :
    after (BankCall.exec (.operation op)) system
        = AchReturnProcessor.ledgerOf.set (after op.exec system.network.ledger) system ∧
      BankCall.reported accounts (.operation op)
          (outcome (BankCall.exec (.operation op)) system)
        = changeOf accounts (outcome op.exec system.network.ledger) := by
  have hget : AchReturnProcessor.ledgerOf.get system = system.network.ledger := rfl
  cases hrun : op.exec.run system.network.ledger with
  | ok result ledger =>
      have hexec : (BankCall.exec (.operation op)).run system
          = .ok (some result) (AchReturnProcessor.ledgerOf.set ledger system) :=
        run_bind_of_ok (Component.zoom_run_ok (hget ▸ hrun))
      rw [after_of_ok hexec, outcome_of_ok hexec, after_of_ok hrun, outcome_of_ok hrun]
      exact ⟨rfl, rfl⟩
  | error e ledger =>
      have hexec : (BankCall.exec (.operation op)).run system
          = .error e (AchReturnProcessor.ledgerOf.set ledger system) :=
        run_bind_of_error (Component.zoom_run_error (hget ▸ hrun))
      rw [after_of_error hexec, outcome_of_error hexec, after_of_error hrun, outcome_of_error hrun]
      exact ⟨rfl, rfl⟩

/-- Making a call of the components, and what it returned. -/
theorem ach_run (call : AchSystemCall) (system : AchSystem) :
    after (BankCall.exec (.ach call)) system = after call.exec system ∧
      outcome (BankCall.exec (.ach call)) system
        = (outcome call.exec system).map fun _ => none := by
  cases hrun : call.exec.run system with
  | ok result later =>
      have hexec : (BankCall.exec (.ach call)).run system = .ok none later := run_bind_of_ok hrun
      rw [after_of_ok hexec, outcome_of_ok hexec, after_of_ok hrun, outcome_of_ok hrun]
      exact ⟨rfl, rfl⟩
  | error e later =>
      have hexec : (BankCall.exec (.ach call)).run system = .error e later :=
        run_bind_of_error hrun
      rw [after_of_error hexec, outcome_of_error hexec, after_of_error hrun, outcome_of_error hrun]
      exact ⟨rfl, rfl⟩

/-- A call of the components leaves what is owed as it is. -/
theorem steady_exec (system : AchSystem) (call : AchSystemCall) (hcall : call.Internal) :
    Steady accounts system.work (after call.exec system).work := by
  cases call with
  | receive request =>
      rw [AchSystemCall.exec, after_discard, Component.after_zoom]
      exact AchReturnProcessor.steady_receive Sum.inl system request
  | receiveReturn request =>
      rw [AchSystemCall.exec, after_discard]
      exact AchReturnProcessor.steady_receiveReturn Sum.inr system request
  | call callback => exact AchReturnProcessor.steady_callEither system callback
  | runNext =>
      rw [AchSystemCall.exec, after_discard, AchReturnProcessor.runNext]
      rcases EventScheduler.after_runNext AchReturnProcessor.schedulerOf
          AchReturnProcessor.callEither system with
        ⟨-, hafter⟩ | ⟨event, queue, -, -, hafter⟩ |
          ⟨event, queue, clock, history, -, -, -, hafter⟩ <;> rw [hafter]
      · exact Steady.refl accounts system.work
      · exact Steady.refl accounts system.work
      · exact AchReturnProcessor.steady_callEither (system.atEvent clock queue) event.callback
  | advanceTo newTime =>
      rw [AchSystemCall.exec, after_discard, Component.after_zoom]
      exact Steady.refl accounts system.work
  | advanceBy amount =>
      rw [AchSystemCall.exec, after_discard, Component.after_zoom]
      exact Steady.refl accounts system.work
  | append entry => cases hcall
  | appendBatch entries => cases hcall

/-- Another writer changes what is owed by what it puts into the ledger. -/
theorem owed_setLedger (system : AchSystem) (ledger : Ledger) (change : Int)
    (h : ledger.heldIn accounts = system.network.ledger.heldIn accounts + change) :
    (AchReturnProcessor.ledgerOf.set ledger system).work.owed accounts
      = system.work.owed accounts + change := by
  unfold owed
  change ledger.heldIn accounts + system.work.drawn accounts - system.work.restored accounts = _
  rw [h]
  change _ = system.network.ledger.heldIn accounts + _ - _ + _
  ring

/-- A call changes what is owed by what it reports. -/
theorem owed_exec (system : AchSystem) (call : BankCall) (h : system.work.Recorded) :
    (after call.exec system).work.Recorded ∧ (after call.exec system).work.owed accounts
      = system.work.owed accounts + call.reported accounts (outcome call.exec system) := by
  cases call with
  | operation op =>
      have hrun := operation_run accounts op system
      rw [hrun.1, hrun.2]
      exact ⟨⟨h.transfers, h.returns, h.originals⟩,
        owed_setLedger accounts system _ _ (heldIn_operation op system.network.ledger)⟩
  | ach call =>
      rw [(ach_run call system).1, (ach_run call system).2]
      by_cases hcall : call.Internal
      · have hnone : BankCall.reported accounts (.ach call)
            ((outcome call.exec system).map fun _ => none) = 0 := by
          cases call <;> first | rfl | cases hcall
        rw [hnone, Int.add_zero]
        exact steady_exec accounts system call hcall h
      · -- The other writers of the ledger.
        have hwritten : ∀ write : LedgerCall, write.written
            ((outcome write.exec system.network.ledger).map fun _ : Unit => (none : Option
              OperationResult)) = write.written (outcome write.exec system.network.ledger) :=
          fun write => by cases outcome write.exec system.network.ledger <;> rfl
        cases call with
        | append entry =>
            have hheld := heldIn_written accounts (.append entry) system.network.ledger
            rw [AchSystemCall.exec, Component.after_zoom, Component.outcome_zoom]
            refine ⟨⟨h.transfers, h.returns, h.originals⟩, owed_setLedger accounts system _ _ ?_⟩
            rw [← hwritten] at hheld
            exact hheld
        | appendBatch entries =>
            have hheld := heldIn_written accounts (.appendBatch entries) system.network.ledger
            rw [AchSystemCall.exec, Component.after_zoom, Component.outcome_zoom]
            refine ⟨⟨h.transfers, h.returns, h.originals⟩, owed_setLedger accounts system _ _ ?_⟩
            rw [← hwritten] at hheld
            exact hheld
        | _ => exact absurd rfl hcall

/-- Whoever writes to the ledger keeps it well formed. -/
theorem wellFormed_call (system : AchSystem) (call : BankCall)
    (h : system.network.ledger.WellFormed) :
    (after call.exec system).network.ledger.WellFormed := by
  cases call with
  | operation op =>
      rcases exec_extends op system.network.ledger with ⟨entries, hnone, hafter, -⟩
      rw [(operation_run (fun _ => true) op system).1]
      change (after op.exec system.network.ledger).WellFormed
      rw [hafter]
      exact Guarded.firstRefusal_none_invariant _ _
        (fun l entry _ hl haccept => Ledger.wellFormed_push l entry hl haccept) h hnone
  | ach call =>
      rw [(ach_run call system).1]
      by_cases hcall : call.Internal
      · -- Of the steps of the work, only the two postings touch the ledger.
        have hstep := step_exec system call hcall
        change (after call.exec system).work.ledger.WellFormed
        generalize (after call.exec system).work = later at hstep
        cases hstep with
        | debited _ _ _ _ hfits =>
            exact Ledger.wellFormed_push _ _ h (Posting.refusal_entry hfits)
        | credited _ _ _ _ _ hfits =>
            exact Ledger.wellFormed_push _ _ h (Posting.refusal_entry hfits)
        | _ => exact h
      · cases call with
        | append entry =>
            rw [AchSystemCall.exec, Component.after_zoom]
            exact Ledger.wellFormed_exec system.network.ledger (.append entry) h
        | appendBatch entries =>
            rw [AchSystemCall.exec, Component.after_zoom]
            exact Ledger.wellFormed_exec system.network.ledger (.appendBatch entries) h
        | _ => exact absurd rfl hcall

/-- A run changes what is owed by what it reports. -/
theorem owed_finalState (calls : List BankCall) (system : AchSystem) (h : system.work.Recorded) :
    (finalState BankCall.exec system calls).work.owed accounts
      = system.work.owed accounts + BankCall.reports accounts system calls := by
  induction calls generalizing system with
  | nil => exact (Int.add_zero _).symm
  | cons call calls ih =>
      rcases owed_exec accounts system call h with ⟨hlater, howed⟩
      rw [finalState_cons, ih _ hlater, howed]
      unfold BankCall.reports
      rw [outcomes, List.zipWith_cons_cons, List.sum_cons, add_assoc]

end Runs

theorem accountBalance_eq_heldIn (ledger : Ledger) (accountId : String) :
    accountBalance ledger accountId = ledger.heldIn fun other => other = accountId :=
  accountBalance_eq_totalCents ledger accountId

theorem replay_eq_heldIn {ledger : Ledger} (h : ledger.WellFormed) :
    replay ledger.entries = .ok (ledger.heldIn fun _ => true) := by
  rw [replay_eq_sum h, Ledger.heldIn, List.filter_eq_self.mpr fun _ _ => rfl]

/-- The two components with nothing received, on an empty ledger. -/
def AchSystem.empty (scheduler : EventScheduler (AchCallback ⊕ AchReturnCallback)) : AchSystem :=
  AchReturnProcessor.new (AchNetwork.new Ledger.new scheduler)

/-- What a run should have left in some accounts of an empty ledger: what its
    operations and appends reported, less the debits and plus the credits that
    the records of the components name in the end. -/
def AchSystem.told (scheduler : EventScheduler (AchCallback ⊕ AchReturnCallback))
    (calls : List BankCall) (accounts : String → Bool) : Int :=
  let final := finalState BankCall.exec (empty scheduler) calls
  BankCall.reports accounts (empty scheduler) calls - final.work.drawn accounts
    + final.work.restored accounts

theorem heldIn_finalState (scheduler : EventScheduler (AchCallback ⊕ AchReturnCallback))
    (calls : List BankCall) (accounts : String → Bool) :
    (finalState BankCall.exec (AchSystem.empty scheduler) calls).network.ledger.heldIn accounts
      = AchSystem.told scheduler calls accounts := by
  have hrecorded : (AchSystem.empty scheduler).work.Recorded := by
    refine ⟨fun _ _ hget => ?_, fun _ _ hget => ?_, fun _ _ hget => ?_⟩ <;> cases hget
  have howed := owed_finalState accounts calls (AchSystem.empty scheduler) hrecorded
  have hstart : (AchSystem.empty scheduler).work.owed accounts = 0 := rfl
  rw [hstart, Int.zero_add] at howed
  unfold AchSystem.told
  rw [← howed]
  generalize finalState BankCall.exec (AchSystem.empty scheduler) calls = final
  unfold AchWork.owed
  change _ = final.network.ledger.heldIn accounts + _ - _ - _ + _
  ring

/-- The books of one ledger. Whoever wrote to it, in whatever order, and
    whatever was refused: the ledger holds for any accounts together, for each
    account and in its replay what the run has told. -/
theorem books_balance (scheduler : EventScheduler (AchCallback ⊕ AchReturnCallback))
    (calls : List BankCall) :
    let final := finalState BankCall.exec (AchSystem.empty scheduler) calls
    (∀ accounts, final.network.ledger.heldIn accounts
        = AchSystem.told scheduler calls accounts) ∧
      (∀ accountId, accountBalance final.network.ledger accountId
        = AchSystem.told scheduler calls fun other => other = accountId) ∧
      replay final.network.ledger.entries
        = .ok (AchSystem.told scheduler calls fun _ => true) := by
  have hheld := heldIn_finalState scheduler calls
  have hwf : (finalState BankCall.exec (AchSystem.empty scheduler)
      calls).network.ledger.WellFormed :=
    invariant_finalState (I := fun system : AchSystem => system.network.ledger.WellFormed)
      wellFormed_call Ledger.wellFormed_new calls
  refine ⟨hheld, fun accountId => ?_, ?_⟩
  · rw [accountBalance_eq_heldIn, hheld]
  · rw [replay_eq_heldIn hwf, hheld]

end BankSim
