import BankSim.Theory.AchEffects
import BankSim.Theory.Operations
import BankSim.Theory.Settlement

/-!
# Settlement Expectations Agree with the Ledger

The settlement expectations are derived from the statuses of the workflows,
and the ledger is written by the stages. Nothing in the code compares the
two. They agree because the stages, as the scheduler runs them, never
complete a workflow without posting its entry.

A direct call of a stage can do that, and so can another writer of the
ledger. Left to the two receive methods and the scheduler, three things keep
a posting from being refused. A completion of a transfer is only ever queued
for time 10, and nothing in the ledger is posted later than 10 or than the
clock. A transfer is only submitted if its hold could be built, which checks
the same text that its debit needs. And the identifiers of the entries are
derived from those of the workflows, so they are as distinct as those.

`Settling` is the invariant on the workflows and the ledger, and `Expected`
the one on the queue. `AchWork.rows` lists the entries that the completed
workflows should have, and the ledger agrees with the expectations by way of
it.

## Main definitions

* `EntryRow`: What an entry says about a payment.
* `AchWork.rows`: The entries that the completed workflows should have.
* `AchWork.Settling`: The invariant on workflows and ledger.
* `AchWork.Expected`: The invariant on a queued callback.
* `AchSystemCall.Driven`: A call of the components' drivers.
* `AchSystem.Settles`: The expectations and the ledger agree.

## Theorems

* `expectations_rows`: The expectations are the rows.
* `Settling.debit_fits`, `Settling.credit_fits`: No posting is refused.
* `inOrder_exec`: Every driving call keeps the invariants.
* `settlement_agrees`: Every state of a driven run settles.
-/

namespace BankSim

open Exec

/-- What an entry says about a payment. The account of an expected entry is
    only known if its transfer is. -/
structure EntryRow where
  entryId : String
  accountId : Option String
  entryType : EntryType
  cents : Int
  deriving DecidableEq

def LedgerEntry.row (self : LedgerEntry) : EntryRow :=
  ⟨self.entryId, some self.accountId, self.entryType, self.amount.cents⟩

/-- What the row adds to a balance. -/
def EntryRow.signedCents (self : EntryRow) : Int :=
  (if self.entryType = .credit then 1 else -1) * self.cents

def AchTransferRequest.debitRow (request : AchTransferRequest) : EntryRow :=
  ⟨request.transferId ++ "-DEBIT", some request.sourceAccountId, .debit, request.amountCents⟩

def AchReturnRequest.creditRow (request : AchReturnRequest) (accountId : Option String) :
    EntryRow :=
  ⟨request.returnId ++ "-CREDIT", accountId, .credit, request.amountCents⟩

/-- The two suffixes differ in their third letter from the end. -/
theorem debit_ne_credit (a b : String) : a ++ "-DEBIT" ≠ b ++ "-CREDIT" :=
  append_suffix_ne a b (by decide) (by decide) (by decide)

namespace AchWork

/-- The account a transfer takes its funds from. -/
def accountOf (work : AchWork) (transferId : String) : Option String :=
  (work.transfers.get? transferId).map (·.request.sourceAccountId)

/-- The credit that a completed return should have. -/
def creditRow (work : AchWork) (item : AchReturn) : EntryRow :=
  item.request.creditRow (work.accountOf item.request.originalTransferId)

/-- The entries that the completed workflows should have. -/
def rows (work : AchWork) : List EntryRow :=
  (work.transfers.values.filter fun transfer => transfer.status = .completed).map
      (·.request.debitRow) ++
    (work.returns.values.filter fun item => item.status = .completed).map work.creditRow

/-- The entry that a settlement record expects. -/
def recordRow (work : AchWork) (record : SettlementRecord) : EntryRow :=
  match record.direction with
  | .outbound => ⟨record.paymentId ++ "-DEBIT", work.accountOf record.paymentId, .debit,
      record.amountCents⟩
  | .return => ⟨record.paymentId ++ "-CREDIT",
      (work.returns.get? record.paymentId).bind fun item =>
        work.accountOf item.request.originalTransferId, .credit, record.amountCents⟩

/-- Every workflow is kept under its own identifier. -/
structure Filed (work : AchWork) : Prop where
  transfers : ∀ transferId transfer, work.transfers.get? transferId = some transfer →
    transfer.request.transferId = transferId
  returns : ∀ returnId item, work.returns.get? returnId = some item →
    item.request.returnId = returnId

/-- The expectations are the rows of the completed workflows, in some
    order. -/
theorem expectations_rows {work : AchWork} (h : work.Filed) (generatedAt : Int) :
    ((settlementExpectations work.transfers.values work.returns.values generatedAt).map
      work.recordRow).Perm work.rows := by
  unfold settlementExpectations
  refine ((sortedBy_perm _ _).map _).trans ?_
  -- No two completed workflows share a payment and a direction.
  have hnodup := Dict.map_values_eq_keys work.transfers (·.request.transferId) h.transfers
  have hnodup' := Dict.map_values_eq_keys work.returns (·.request.returnId) h.returns
  refine ((Dict.values_index_perm _ _ ?_).map _).trans ?_
  · rw [List.map_append, List.map_map, List.map_map, List.nodup_append]
    refine ⟨?_, ?_, ?_⟩
    · have hkeys : ((work.transfers.values.filter fun t => t.status = .completed).map
          (·.request.transferId)).Nodup :=
        (List.filter_sublist.map _).nodup (hnodup ▸ work.transfers.keys_nodup)
      exact List.Nodup.of_map Prod.fst (by rw [List.map_map]; exact hkeys)
    · have hkeys : ((work.returns.values.filter fun i => i.status = .completed).map
          (·.request.returnId)).Nodup :=
        (List.filter_sublist.map _).nodup (hnodup' ▸ work.returns.keys_nodup)
      exact List.Nodup.of_map Prod.fst (by rw [List.map_map]; exact hkeys)
    · intro key hkey other hother hsame
      rcases List.mem_map.mp hkey with ⟨transfer, -, rfl⟩
      rcases List.mem_map.mp hother with ⟨item, -, rfl⟩
      have hdirection : SettlementDirection.outbound = .return := congrArg Prod.snd hsame
      cases hdirection
  · refine List.Perm.of_eq ?_
    rw [List.map_append, List.map_map, List.map_map, rows]
    congr 1
    · refine List.map_congr_left fun transfer hmem => ?_
      rcases (Dict.mem_values_iff _ _).mp (List.mem_filter.mp hmem).1 with ⟨transferId, hget⟩
      have haccount : work.accountOf transfer.request.transferId
          = some transfer.request.sourceAccountId := by
        rw [accountOf, h.transfers transferId transfer hget, hget]
        rfl
      simp only [Function.comp_apply, recordRow, haccount]
      rfl
    · refine List.map_congr_left fun item hmem => ?_
      rcases (Dict.mem_values_iff _ _).mp (List.mem_filter.mp hmem).1 with ⟨returnId, hget⟩
      have hreturn : work.returns.get? item.request.returnId = some item := by
        rw [h.returns returnId item hget, hget]
      simp only [Function.comp_apply, recordRow, hreturn, Option.bind_some]
      rfl

/-! ### The invariant on workflows and ledger -/

end AchWork

/-- Validated or further. -/
def AchTransferStatus.Passed : AchTransferStatus → Prop
  | .validated | .pending | .submitted | .processing | .completed => True
  | .received | .rejected => False

/-- Submitted or further. -/
def AchTransferStatus.Sent : AchTransferStatus → Prop
  | .submitted | .processing | .completed => True
  | .received | .validated | .pending | .rejected => False

theorem AchReturnProcessor.nonblank_of_invalidReason {κ : Type} {self : AchReturnProcessor κ}
    {request : AchReturnRequest} (h : self.invalidReason request = none) :
    isBlank request.returnId = false ∧ isBlank request.originalTransferId = false := by
  unfold invalidReason at h
  by_cases hid : isBlank request.returnId = true
  · rw [if_pos hid] at h
    cases h
  · by_cases horiginal : isBlank request.originalTransferId = true
    · rw [if_neg hid, if_pos horiginal] at h
      cases h
    · exact ⟨by simpa using hid, by simpa using horiginal⟩

/-- What is known of a transfer from its status. -/
structure Cleared (opening : Ledger) (now : Int) (transferId : String) (transfer : AchTransfer) :
    Prop where
  filed : transfer.request.transferId = transferId
  fresh : ∀ entry ∈ opening.entries, entry.entryId ≠ transferId ++ "-DEBIT"
  valid : transfer.status.Passed → transfer.request.invalidReason = none
  holdable : transfer.status.Sent → transfer.request.Holdable
  late : transfer.status = .completed → 10 ≤ now

/-- What is known of a return from its status. -/
structure Admitted (opening : Ledger) (work : AchWork) (returnId : String) (item : AchReturn) :
    Prop where
  filed : item.request.returnId = returnId
  fresh : ∀ entry ∈ opening.entries, entry.entryId ≠ returnId ++ "-CREDIT"
  nonblank : item.status.Accepted → isBlank item.request.returnId = false ∧
    isBlank item.request.originalTransferId = false
  original : item.status.Accepted →
    ∃ original, work.transfers.get? item.request.originalTransferId = some original ∧
      original.status = .completed ∧ item.request.amountCents = original.request.amountCents

/-- What is known of a return only depends on the transfers. -/
theorem Admitted.congr {opening : Ledger} {work later : AchWork} {returnId : String}
    {item : AchReturn} (h : Admitted opening work returnId item)
    (htransfers : later.transfers = work.transfers) : Admitted opening later returnId item where
  filed := h.filed
  fresh := h.fresh
  nonblank := h.nonblank
  original haccepted := by
    rw [htransfers]
    exact h.original haccepted

namespace AchWork

/-- No completed transfer is kept under the identifier. -/
def TransferOpen (work : AchWork) (transferId : String) : Prop :=
  ∀ transfer, work.transfers.get? transferId = some transfer → transfer.status ≠ .completed

/-- No completed return is kept under the identifier. -/
def ReturnOpen (work : AchWork) (returnId : String) : Prop :=
  ∀ item, work.returns.get? returnId = some item → item.status ≠ .completed

theorem TransferOpen.of_get {work : AchWork} {transferId : String} {transfer : AchTransfer}
    (hget : work.transfers.get? transferId = some transfer)
    (hstatus : transfer.status ≠ .completed) : work.TransferOpen transferId := by
  intro found hfound
  rw [hget, Option.some.injEq] at hfound
  rw [← hfound]
  exact hstatus

theorem ReturnOpen.of_get {work : AchWork} {returnId : String} {item : AchReturn}
    (hget : work.returns.get? returnId = some item) (hstatus : item.status ≠ .completed) :
    work.ReturnOpen returnId := by
  intro found hfound
  rw [hget, Option.some.injEq] at hfound
  rw [← hfound]
  exact hstatus

/-- The entries since the opening are those that the completed workflows
    should have, and nothing is posted later than time 10 or than now. -/
structure Settling (opening : Ledger) (now : Int) (work : AchWork) : Prop where
  transfers : ∀ transferId transfer, work.transfers.get? transferId = some transfer →
    Cleared opening now transferId transfer
  returns : ∀ returnId item, work.returns.get? returnId = some item →
    Admitted opening work returnId item
  wellFormed : work.ledger.WellFormed
  posted : ∀ entry ∈ work.ledger.entries, entry.postedAt ≤ max 10 now
  agrees : ∃ entries, work.ledger.entries = opening.entries ++ entries ∧
    (entries.map LedgerEntry.row).Perm work.rows

namespace Settling

variable {opening : Ledger} {now : Int} {work : AchWork}

theorem filed (h : work.Settling opening now) : work.Filed :=
  ⟨fun transferId transfer hget => (h.transfers transferId transfer hget).filed,
    fun returnId item hget => (h.returns returnId item hget).filed⟩

theorem lastPostedAt_le (h : work.Settling opening now) :
    work.ledger.lastPostedAt ≤ max 10 now := by
  unfold Ledger.lastPostedAt
  cases hlast : work.ledger.entries.getLast? with
  | none => exact le_trans (by omega : (0 : Int) ≤ 10) (le_max_left 10 now)
  | some last => exact h.posted last (List.mem_of_getLast? hlast)

/-- An identifier that is neither in the opening nor on a row is new. -/
theorem fresh (h : work.Settling opening now) {entryId : String}
    (hopening : ∀ entry ∈ opening.entries, entry.entryId ≠ entryId)
    (hrows : ∀ row ∈ work.rows, row.entryId ≠ entryId) : entryId ∉ work.ledger.entryIds := by
  rcases h.agrees with ⟨entries, hentries, hperm⟩
  exact h.wellFormed.fresh hentries hopening fun entry hentry =>
    hrows entry.row (hperm.subset (List.mem_map_of_mem hentry))

/-- The debit of a transfer in processing is not refused by time 10. -/
theorem debit_fits (h : work.Settling opening now) {transferId : String} {transfer : AchTransfer}
    (hget : work.transfers.get? transferId = some transfer)
    (hstatus : transfer.status = .processing) (hnow : now ≤ 10) :
    transfer.request.debitPosting.Fits work.ledger := by
  have hcleared := h.transfers transferId transfer hget
  have hhold := hcleared.holdable (by rw [hstatus]; trivial)
  have hvalid := AchTransferRequest.sound_of_invalidReason
    (hcleared.valid (by rw [hstatus]; trivial))
  have hlast := h.lastPostedAt_le
  refine
    { cents_pos := hhold.cents_pos
      entryId_nonblank := isBlank_append_of_suffix _ _ (by decide)
      accountId_nonblank := hvalid.2.1
      description_nonblank := hhold.description_nonblank
      postedAt_nonneg := (by decide : (0 : Int) ≤ 10)
      originalTransferId_nonblank := rfl
      achReturnId_nonblank := rfl
      fresh := h.fresh ?_ fun row hrow hid => ?_
      last_le := by rwa [max_eq_left hnow] at hlast }
  · change ∀ entry ∈ opening.entries, entry.entryId ≠ transfer.request.transferId ++ "-DEBIT"
    rw [hcleared.filed]
    exact hcleared.fresh
  · change row.entryId = transfer.request.transferId ++ "-DEBIT" at hid
    -- Its own row is not there yet, and all others have other identifiers.
    rcases List.mem_append.mp hrow with hmem | hmem
    · rcases List.mem_map.mp hmem with ⟨other, hother, rfl⟩
      rcases List.mem_filter.mp hother with ⟨hvalue, hdone⟩
      rcases (Dict.mem_values_iff _ _).mp hvalue with ⟨otherId, hotherGet⟩
      have hsame : other.request.transferId = transfer.request.transferId := append_suffix_inj hid
      rw [(h.transfers otherId other hotherGet).filed, hcleared.filed] at hsame
      rw [hsame, hget, Option.some.injEq] at hotherGet
      rw [← hotherGet, hstatus] at hdone
      exact absurd hdone (by decide)
    · rcases List.mem_map.mp hmem with ⟨item, -, rfl⟩
      exact debit_ne_credit _ _ hid.symm

/-- The credit of a return in processing is not refused. -/
theorem credit_fits (h : work.Settling opening now) (hnow : 0 ≤ now) {returnId : String}
    {item : AchReturn} (hget : work.returns.get? returnId = some item)
    (hstatus : item.status = .processing) :
    ∃ original, work.transfers.get? item.request.originalTransferId = some original ∧
      (item.request.creditPosting original.request now).Fits work.ledger := by
  have hadmitted := h.returns returnId item hget
  have haccepted : item.status.Accepted := by rw [hstatus]; trivial
  rcases hadmitted.original haccepted with ⟨original, horiginal, hdone, hamount⟩
  have hcleared := h.transfers _ original horiginal
  have hvalid := AchTransferRequest.sound_of_invalidReason
    (hcleared.valid (by rw [hdone]; trivial))
  have hlate := hcleared.late hdone
  have hlast := h.lastPostedAt_le
  refine ⟨original, horiginal,
    { cents_pos := ?_
      entryId_nonblank := isBlank_append_of_suffix _ _ (by decide)
      accountId_nonblank := hvalid.2.1
      description_nonblank := (by decide : isBlank "ACH return credit" = false)
      postedAt_nonneg := hnow
      originalTransferId_nonblank := (hadmitted.nonblank haccepted).2
      achReturnId_nonblank := (hadmitted.nonblank haccepted).1
      fresh := h.fresh ?_ fun row hrow hid => ?_
      last_le := by rwa [max_eq_right hlate] at hlast }⟩
  · change 0 < item.request.amountCents
    rw [hamount]
    exact hvalid.2.2
  · change ∀ entry ∈ opening.entries, entry.entryId ≠ item.request.returnId ++ "-CREDIT"
    rw [hadmitted.filed]
    exact hadmitted.fresh
  · change row.entryId = item.request.returnId ++ "-CREDIT" at hid
    rcases List.mem_append.mp hrow with hmem | hmem
    · rcases List.mem_map.mp hmem with ⟨other, -, rfl⟩
      exact debit_ne_credit _ _ hid
    · rcases List.mem_map.mp hmem with ⟨other, hother, rfl⟩
      rcases List.mem_filter.mp hother with ⟨hvalue, hdone'⟩
      rcases (Dict.mem_values_iff _ _).mp hvalue with ⟨otherId, hotherGet⟩
      have hsame : other.request.returnId = item.request.returnId := append_suffix_inj hid
      rw [(h.returns otherId other hotherGet).filed, hadmitted.filed] at hsame
      rw [hsame, hget, Option.some.injEq] at hotherGet
      rw [← hotherGet, hstatus] at hdone'
      exact absurd hdone' (by decide)

/-- The clock may move on. -/
theorem later {now' : Int} (h : work.Settling opening now) (hle : now ≤ now') :
    work.Settling opening now' where
  transfers transferId transfer hget :=
    { h.transfers transferId transfer hget with
      late := fun hdone => le_trans ((h.transfers transferId transfer hget).late hdone) hle }
  returns := h.returns
  wellFormed := h.wellFormed
  posted entry hmem := le_trans (h.posted entry hmem) (max_le_max (le_refl 10) hle)
  agrees := h.agrees

/-- The work with one more entry in the ledger keeps the rules of the
    ledger. -/
theorem push_posted (h : work.Settling opening now) {posting : Posting}
    (hfits : posting.Fits work.ledger) (hposted : posting.postedAt ≤ max 10 now) :
    (work.ledger.push (Posting.entry hfits)).WellFormed ∧
      ∀ entry ∈ (work.ledger.push (Posting.entry hfits)).entries, entry.postedAt ≤ max 10 now := by
  refine ⟨Ledger.wellFormed_push _ _ h.wellFormed (Posting.refusal_entry hfits), ?_⟩
  intro entry hmem
  rw [Ledger.push_entries, List.mem_append] at hmem
  rcases hmem with hmem | hmem
  · exact h.posted entry hmem
  · rw [List.mem_singleton.mp hmem]
    exact hposted

/-- A transfer that is not completed, before or after, is none of the
    originals of the returns that count. -/
theorem admitted_setTransfer (h : work.Settling opening now) {transferId : String}
    {transfer' : AchTransfer} (ledger : Ledger) (hopen : work.TransferOpen transferId)
    {returnId : String} {item : AchReturn}
    (hget : work.returns.get? returnId = some item) :
    Admitted opening { work with transfers := work.transfers.set transferId transfer', ledger }
      returnId item := by
  refine { h.returns returnId item hget with original := fun haccepted => ?_ }
  rcases (h.returns returnId item hget).original haccepted with
    ⟨original, horiginal, hdone, hamount⟩
  have hother : item.request.originalTransferId ≠ transferId := by
    rintro hsame
    rw [hsame] at horiginal
    exact hopen original horiginal hdone
  exact ⟨original, (Dict.get?_set_ne _ _ hother).trans horiginal, hdone, hamount⟩

/-- So the credits that are expected stay the same. -/
theorem creditRows_setTransfer (h : work.Settling opening now) {transferId : String}
    {transfer' : AchTransfer} (ledger : Ledger) (hopen : work.TransferOpen transferId) :
    ((work.returns.values.filter fun item => item.status = .completed).map
        (creditRow { work with transfers := work.transfers.set transferId transfer', ledger }))
      = (work.returns.values.filter fun item => item.status = .completed).map work.creditRow := by
  refine List.map_congr_left fun item hmem => ?_
  rcases List.mem_filter.mp hmem with ⟨hvalue, hdone⟩
  rcases (Dict.mem_values_iff _ _).mp hvalue with ⟨returnId, hget⟩
  have haccepted : item.status.Accepted := by
    rw [of_decide_eq_true hdone]
    trivial
  rcases (h.returns returnId item hget).original haccepted with ⟨original, horiginal, hcompleted, -⟩
  have hother : item.request.originalTransferId ≠ transferId := by
    rintro hsame
    rw [hsame] at horiginal
    exact hopen original horiginal hcompleted
  unfold creditRow accountOf
  congr 2
  exact Dict.get?_set_ne _ _ hother

/-- A transfer may come or move on without its completion. -/
theorem setTransfer (h : work.Settling opening now) {transferId : String}
    {transfer' : AchTransfer} (hopen : work.TransferOpen transferId)
    (hcleared : Cleared opening now transferId transfer') (hopen' : transfer'.status ≠ .completed) :
    Settling opening now { work with transfers := work.transfers.set transferId transfer' } where
  transfers := Dict.forall_get?_set hcleared h.transfers
  returns returnId item hget := h.admitted_setTransfer work.ledger hopen hget
  wellFormed := h.wellFormed
  posted := h.posted
  agrees := by
    rcases h.agrees with ⟨entries, hentries, hperm⟩
    refine ⟨entries, hentries, ?_⟩
    -- Neither the completed transfers nor the expected credits are touched.
    have hsame := Dict.filter_values_set_of_not
      (fun transfer : AchTransfer => decide (transfer.status = .completed)) work.transfers
      transferId (w := transfer') (fun transfer hget => by simpa using hopen transfer hget)
      (by simpa using hopen')
    rw [rows, hsame, h.creditRows_setTransfer work.ledger hopen]
    exact hperm

/-- A transfer may be completed together with its debit. -/
theorem debit (h : work.Settling opening now) {transferId : String}
    {transfer transfer' : AchTransfer}
    (hget : work.transfers.get? transferId = some transfer)
    (hstatus : transfer.status = .processing) (hrequest : transfer'.request = transfer.request)
    (hstatus' : transfer'.status = .completed) (hnow : 10 ≤ now)
    (hfits : transfer.request.debitPosting.Fits work.ledger) :
    Settling opening now
      { work with
        transfers := work.transfers.set transferId transfer'
        ledger := work.ledger.push (Posting.entry hfits) } := by
  have hcleared := h.transfers transferId transfer hget
  have hopen := TransferOpen.of_get hget (by simp [hstatus])
  have hpush := h.push_posted hfits (le_max_left 10 now)
  have hcleared' : Cleared opening now transferId transfer' := by
    refine ⟨hrequest ▸ hcleared.filed, hcleared.fresh, fun _ => ?_, fun _ => ?_, fun _ => hnow⟩
    · rw [hrequest]
      exact hcleared.valid (by rw [hstatus]; trivial)
    · rw [hrequest]
      exact hcleared.holdable (by rw [hstatus]; trivial)
  refine ⟨Dict.forall_get?_set hcleared' h.transfers, fun returnId item hitem => ?_, hpush.1,
    hpush.2, ?_⟩
  · exact h.admitted_setTransfer _ hopen hitem
  · rcases h.agrees with ⟨entries, hentries, hperm⟩
    refine ⟨entries ++ [Posting.entry hfits], ?_, ?_⟩
    · rw [Ledger.push_entries, hentries, List.append_assoc]
    · -- The new entry is the row of the transfer that is completed now.
      have hselected := Dict.filter_values_set_perm
        (fun transfer : AchTransfer => decide (transfer.status = .completed)) work.transfers
        (w := transfer') hget (by simp [hstatus]) (by simp [hstatus'])
      have hrow : (Posting.entry hfits).row = transfer'.request.debitRow := by
        rw [hrequest]
        rfl
      rw [rows, h.creditRows_setTransfer _ hopen, List.map_append, List.map_singleton, hrow]
      refine (List.perm_append_singleton _ _).trans ?_
      refine ((hperm.cons _).trans ?_)
      rw [rows, ← List.cons_append]
      exact ((hselected.map (·.request.debitRow)).symm).append_right _

/-- A return may come or move on without its completion. -/
theorem setReturn (h : work.Settling opening now) {returnId : String} {item' : AchReturn}
    (claims : Dict String String)
    (hopen : work.ReturnOpen returnId) (hadmitted : Admitted opening work returnId item')
    (hopen' : item'.status ≠ .completed) :
    Settling opening now { work with returns := work.returns.set returnId item', claims } where
  transfers := h.transfers
  returns := Dict.forall_get?_set (hadmitted.congr rfl) fun other item hget =>
    (h.returns other item hget).congr rfl
  wellFormed := h.wellFormed
  posted := h.posted
  agrees := by
    rcases h.agrees with ⟨entries, hentries, hperm⟩
    refine ⟨entries, hentries, ?_⟩
    -- The completed returns are not touched.
    have hsame := Dict.filter_values_set_of_not
      (fun item : AchReturn => decide (item.status = .completed)) work.returns returnId
      (w := item') (fun item hget => by simpa using hopen item hget) (by simpa using hopen')
    rw [rows, hsame]
    exact hperm

/-- A return may be completed together with its credit. -/
theorem credit (h : work.Settling opening now) {returnId : String} {item item' : AchReturn}
    {original : AchTransfer} (hget : work.returns.get? returnId = some item)
    (hstatus : item.status = .processing) (hrequest : item'.request = item.request)
    (hstatus' : item'.status = .completed)
    (horiginal : work.transfers.get? item.request.originalTransferId = some original)
    (hfits : (item.request.creditPosting original.request now).Fits work.ledger) :
    Settling opening now
      { work with
        returns := work.returns.set returnId item'
        ledger := work.ledger.push (Posting.entry hfits) } := by
  have hadmitted := h.returns returnId item hget
  have haccepted : item.status.Accepted := by rw [hstatus]; trivial
  have hpush := h.push_posted hfits (le_max_right 10 now)
  have hadmitted' : Admitted opening work returnId item' := by
    refine ⟨hrequest ▸ hadmitted.filed, hadmitted.fresh, fun _ => ?_, fun _ => ?_⟩
    · rw [hrequest]
      exact hadmitted.nonblank haccepted
    · rw [hrequest]
      exact hadmitted.original haccepted
  refine ⟨h.transfers, ?_, hpush.1, hpush.2, ?_⟩
  · exact Dict.forall_get?_set (hadmitted'.congr rfl) fun other found hfound =>
      (h.returns other found hfound).congr rfl
  · rcases h.agrees with ⟨entries, hentries, hperm⟩
    refine ⟨entries ++ [Posting.entry hfits], ?_, ?_⟩
    · rw [Ledger.push_entries, hentries, List.append_assoc]
    · -- The new entry is the row of the return that is completed now.
      have hselected := Dict.filter_values_set_perm
        (fun item : AchReturn => decide (item.status = .completed)) work.returns
        (w := item') hget (by simp [hstatus]) (by simp [hstatus'])
      have hrow : (Posting.entry hfits).row = work.creditRow item' := by
        rw [creditRow, hrequest, accountOf, horiginal]
        rfl
      rw [List.map_append, List.map_singleton, hrow]
      refine (List.perm_append_singleton _ _).trans ((hperm.cons _).trans ?_)
      refine List.perm_middle.symm.trans ?_
      exact ((hselected.map work.creditRow).symm).append_left _

end Settling

/-- What is known of a queued callback: a completion of a transfer waits for
    time 10, and a submission is of a transfer whose hold was built. -/
def Expected (work : AchWork) : AchCallback ⊕ AchReturnCallback → Int → Prop
  | .inl (.complete _), time => time = 10
  | .inl (.submit transferId), _ => ∃ transfer,
      work.transfers.get? transferId = some transfer ∧ transfer.request.Holdable
  | _, _ => True

theorem Expected.advance {work later : AchWork} (h : work.Advances later)
    {callback : AchCallback ⊕ AchReturnCallback} {time : Int}
    (hexpected : work.Expected callback time) : later.Expected callback time := by
  rcases callback with (transferId | transferId | transferId | transferId | transferId) |
    (returnId | returnId | returnId)
  case inl.submit =>
    rcases hexpected with ⟨transfer, hget, hhold⟩
    rcases h.transfers transferId transfer hget with ⟨transfer', hget', hrequest, -⟩
    exact ⟨transfer', hget', hrequest ▸ hhold⟩
  all_goals exact hexpected

end AchWork

/-! ### What the drivers keep -/

namespace AchSystem

/-- The invariant of the driven runs: on the work, and on every callback that
    is queued. -/
structure InOrder (opening : Ledger) (system : AchSystem) : Prop where
  settling : system.work.Settling opening system.now
  queued : ∀ event ∈ system.network.scheduler.queue,
    system.work.Expected event.callback event.time

variable {opening : Ledger}

/-- After a change that schedules nothing, the queue is expected as before. -/
theorem InOrder.unqueued {self later : AchSystem} (h : self.InOrder opening)
    (hstep : self.work.Step later.work)
    (hsettling : later.work.Settling opening later.now)
    (hqueue : later.network.scheduler.queue = self.network.scheduler.queue) :
    later.InOrder opening := by
  refine ⟨hsettling, fun event hmem => ?_⟩
  rw [hqueue] at hmem
  exact (h.queued event hmem).advance hstep.advances

/-- After a change that offers the scheduler one more callback, the callback
    must be expected as well. -/
theorem InOrder.offered {self later : AchSystem} (h : self.InOrder opening)
    (hstep : self.work.Step later.work)
    (hsettling : later.work.Settling opening self.now) {time : Int}
    {callback : AchCallback ⊕ AchReturnCallback}
    (hqueue : later.network.scheduler = self.network.scheduler.offered time callback)
    (hexpected : later.work.Expected callback time) : later.InOrder opening := by
  have hnow : later.now = self.now := by
    rw [now, hqueue, EventScheduler.offered_clock]
    rfl
  refine ⟨hnow ▸ hsettling, fun event hmem => ?_⟩
  rw [hqueue] at hmem
  rcases EventScheduler.mem_offered hmem with rfl | hold
  · exact hexpected
  · exact (h.queued event hold).advance hstep.advances

theorem InOrder.scheduled {self later : AchSystem} (h : self.InOrder opening)
    (hstep : self.work.Step later.work)
    (hsettling : later.work.Settling opening later.now) {time : Int}
    {callback : AchCallback ⊕ AchReturnCallback}
    (hqueue : later.network.scheduler = self.network.scheduler.scheduled time callback)
    (hexpected : later.work.Expected callback time) : later.InOrder opening := by
  refine ⟨hsettling, fun event hmem => ?_⟩
  rw [hqueue] at hmem
  rcases (EventScheduler.mem_scheduled_iff _ _ _ _).mp hmem with rfl | hold
  · exact hexpected
  · exact (h.queued event hold).advance hstep.advances

/-- An expected stage of a transfer keeps everything in order. -/
theorem inOrder_network {self : AchSystem} (h : self.InOrder opening) {callback : AchCallback}
    (hexpected : self.work.Expected (.inl callback) self.now)
    {network' : AchNetwork (AchCallback ⊕ AchReturnCallback)}
    (hstage : AchNetwork.Stage Sum.inl self.network callback network') :
    InOrder opening (AchReturnProcessor.networkOf.set network' self) := by
  have hstep := AchReturnProcessor.step_network self hstage
  -- Only a debit completes a transfer, and no transfer in these statuses is
  -- completed yet.
  cases hstage with
  | refused => exact h
  | @rejected transferId transfer reason hget hstatus hreason =>
      have hcleared := h.settling.transfers transferId transfer hget
      refine h.unqueued hstep (h.settling.setTransfer
        (.of_get hget (by simp [hstatus])) ?_ (fun hdone => by cases hdone)) rfl
      exact ⟨hcleared.filed, hcleared.fresh, fun h => h.elim, fun h => h.elim,
        fun hdone => by cases hdone⟩
  | @validated transferId transfer hget hstatus hreason =>
      have hcleared := h.settling.transfers transferId transfer hget
      refine h.offered hstep (h.settling.setTransfer
        (.of_get hget (by simp [hstatus])) ?_ (fun hdone => by cases hdone)) rfl trivial
      exact ⟨hcleared.filed, hcleared.fresh,
        fun _ => AchNetwork.invalidReason_of_rejectionReason hreason, fun h => h.elim,
        fun hdone => by cases hdone⟩
  | @held transferId transfer hget hstatus hhold =>
      have hcleared := h.settling.transfers transferId transfer hget
      refine h.offered hstep (h.settling.setTransfer
        (.of_get hget (by simp [hstatus])) ?_ (fun hdone => by cases hdone)) rfl
        ⟨_, Dict.get?_set_self _ _ _, hhold⟩
      exact ⟨hcleared.filed, hcleared.fresh, fun _ => hcleared.valid (by rw [hstatus]; trivial),
        fun h => h.elim, fun hdone => by cases hdone⟩
  | @unheld transferId transfer hget hstatus hhold =>
      have hcleared := h.settling.transfers transferId transfer hget
      refine h.unqueued hstep (h.settling.setTransfer
        (.of_get hget (by simp [hstatus])) ?_ (fun hdone => by cases hdone)) rfl
      exact ⟨hcleared.filed, hcleared.fresh, fun _ => hcleared.valid (by rw [hstatus]; trivial),
        fun h => h.elim, fun hdone => by cases hdone⟩
  | @submitted transferId transfer hget hstatus =>
      have hcleared := h.settling.transfers transferId transfer hget
      -- The event was queued by the hold, so the hold could be built.
      rcases hexpected with ⟨found, hfound, hhold⟩
      have hsame : some transfer = some found := hget.symm.trans hfound
      rw [← Option.some.inj hsame] at hhold
      refine h.offered hstep (h.settling.setTransfer
        (.of_get hget (by simp [hstatus])) ?_ (fun hdone => by cases hdone)) rfl trivial
      exact ⟨hcleared.filed, hcleared.fresh, fun _ => hcleared.valid (by rw [hstatus]; trivial),
        fun _ => hhold, fun hdone => by cases hdone⟩
  | @processed transferId transfer hget hstatus =>
      have hcleared := h.settling.transfers transferId transfer hget
      refine h.offered hstep (h.settling.setTransfer
        (.of_get hget (by simp [hstatus])) ?_ (fun hdone => by cases hdone)) rfl rfl
      exact ⟨hcleared.filed, hcleared.fresh, fun _ => hcleared.valid (by rw [hstatus]; trivial),
        fun _ => hcleared.holdable (by rw [hstatus]; trivial), fun hdone => by cases hdone⟩
  | @debited transferId transfer hget hstatus hfits =>
      have hnow : self.now = 10 := hexpected
      exact h.unqueued hstep
        (h.settling.debit hget hstatus (by rfl) rfl (le_of_eq hnow.symm) hfits) rfl
  | @undebited transferId transfer hget hstatus hunfit =>
      -- At time 10 nothing stands in the way of the debit.
      have hnow : self.now = 10 := hexpected
      exact absurd (h.settling.debit_fits hget hstatus (le_of_eq hnow)) hunfit

/-- So does any stage of a return. -/
theorem inOrder_return {self later : AchSystem} (h : self.InOrder opening)
    {callback : AchReturnCallback}
    (hstage : AchReturnProcessor.Stage Sum.inr self callback later) : later.InOrder opening := by
  have hstep := AchReturnProcessor.step_return hstage
  -- Only a credit completes a return, and no return in these statuses is
  -- completed yet.
  cases hstage with
  | refused => exact h
  | @rejected returnId item reason hget hstatus hreason =>
      have hadmitted := h.settling.returns returnId item hget
      refine h.unqueued hstep (h.settling.setReturn self.returnsByTransfer
        (.of_get hget (by simp [hstatus])) ?_ (fun hdone => by cases hdone)) rfl
      exact ⟨hadmitted.filed, hadmitted.fresh, fun h => h.elim, fun h => h.elim⟩
  | @validated returnId item hget hstatus hreason =>
      have hadmitted := h.settling.returns returnId item hget
      rcases AchReturnProcessor.accepted_of_invalidReason hreason with
        ⟨original, horiginal, hdone, hamount, -⟩
      refine h.scheduled hstep (h.settling.setReturn _
        (.of_get hget (by simp [hstatus])) ?_ (fun hdone => by cases hdone)) rfl trivial
      exact ⟨hadmitted.filed, hadmitted.fresh,
        fun _ => AchReturnProcessor.nonblank_of_invalidReason hreason,
        fun _ => ⟨original, horiginal, hdone, hamount⟩⟩
  | @processed returnId item hget hstatus =>
      have hadmitted := h.settling.returns returnId item hget
      have haccepted : item.status.Accepted := by rw [hstatus]; trivial
      refine h.scheduled hstep (h.settling.setReturn self.returnsByTransfer
        (.of_get hget (by simp [hstatus])) ?_ (fun hdone => by cases hdone)) rfl trivial
      exact ⟨hadmitted.filed, hadmitted.fresh, fun _ => hadmitted.nonblank haccepted,
        fun _ => hadmitted.original haccepted⟩
  | @credited returnId item original time hget hstatus htime horiginal hfits =>
      subst htime
      exact h.unqueued hstep (h.settling.credit hget hstatus (by rfl) rfl horiginal hfits) rfl
  | @uncredited returnId item time hget hstatus htime hunfit =>
      -- At no time does anything stand in the way of the credit.
      subst htime
      exact absurd (h.settling.credit_fits self.network.scheduler.clock.time_nonneg hget hstatus)
        hunfit

theorem inOrder_callEither {self : AchSystem} (h : self.InOrder opening)
    (callback : AchCallback ⊕ AchReturnCallback)
    (hexpected : self.work.Expected callback self.now) :
    InOrder opening (after (AchReturnProcessor.callEither callback) self) := by
  cases callback with
  | inl callback =>
      rw [AchReturnProcessor.callEither, Component.after_zoom]
      exact inOrder_network h hexpected (AchNetwork.stage_call Sum.inl self.network callback)
  | inr callback => exact inOrder_return h (AchReturnProcessor.stage_call Sum.inr self callback)

end AchSystem

/-- A call of one of the two receive methods, for a workflow whose entry is
    not in the opening, a scheduler step, or a move of the clock. -/
def AchSystemCall.Driven (opening : Ledger) : AchSystemCall → Prop
  | .receive request => ∀ entry ∈ opening.entries, entry.entryId ≠ request.transferId ++ "-DEBIT"
  | .receiveReturn request =>
      ∀ entry ∈ opening.entries, entry.entryId ≠ request.returnId ++ "-CREDIT"
  | .runNext | .advanceTo _ | .advanceBy _ => True
  | .call _ | .append _ | .appendBatch _ => False

instance (opening : Ledger) (call : AchSystemCall) : Decidable (call.Driven opening) := by
  cases call <;> unfold AchSystemCall.Driven <;> infer_instance

namespace AchSystem

variable {opening : Ledger}

/-- Moving the clock on keeps everything in order. -/
theorem inOrder_clock {self : AchSystem} (h : self.InOrder opening) {α : Type}
    (m : Action VirtualClock α) (hm : ∀ clock, clock.time ≤ (after m clock).time) :
    InOrder opening (after (clockOf.zoom m) self) := by
  rw [Component.after_zoom]
  exact ⟨h.settling.later (hm (clockOf.get self)), h.queued⟩

/-- Every driving call keeps everything in order. -/
theorem inOrder_exec (self : AchSystem) (call : AchSystemCall) (h : self.InOrder opening)
    (hcall : call.Driven opening) : InOrder opening (after call.exec self) := by
  cases call with
  | receive request =>
      have hstep := step_exec self (.receive request) rfl
      rw [AchSystemCall.exec, after_discard, Component.after_zoom] at hstep ⊢
      rcases AchNetwork.after_receive Sum.inl self.network request with hsame | ⟨hnew, hafter⟩
      · change InOrder opening
          { self with network := after (AchNetwork.receive Sum.inl request) self.network }
        rw [hsame]
        exact h
      · have hnone := (Dict.not_mem_iff _ _).mp hnew
        change AchWork.Step self.work (AchReturnProcessor.work
          { self with network := after (AchNetwork.receive Sum.inl request) self.network }) at hstep
        change InOrder opening
          { self with network := after (AchNetwork.receive Sum.inl request) self.network }
        rw [hafter] at hstep ⊢
        refine h.offered hstep (h.settling.setTransfer (fun found hfound => ?_) ?_
          (fun hdone => by cases hdone)) rfl trivial
        · have hsome : none = some found := hnone.symm.trans hfound
          cases hsome
        · exact ⟨rfl, hcall, fun h => h.elim, fun h => h.elim, fun hdone => by cases hdone⟩
  | receiveReturn request =>
      have hstep := step_exec self (.receiveReturn request) rfl
      rw [AchSystemCall.exec, after_discard] at hstep ⊢
      by_cases hmem : request.returnId ∈ self.returns
      · rw [after_of_ok (AchReturnProcessor.receive_known Sum.inr hmem)]
        exact h
      · rw [after_of_ok (AchReturnProcessor.receive_new Sum.inr hmem)] at hstep ⊢
        refine h.scheduled hstep (h.settling.setReturn self.returnsByTransfer
          (fun found hfound => ?_) ?_ (fun hdone => by cases hdone)) rfl trivial
        · have hnone := (Dict.not_mem_iff _ _).mp hmem
          have hsome : none = some found := hnone.symm.trans hfound
          cases hsome
        · exact ⟨rfl, hcall, fun h => h.elim, fun h => h.elim⟩
  | runNext =>
      rw [AchSystemCall.exec, after_discard, AchReturnProcessor.runNext]
      rcases EventScheduler.after_runNext AchReturnProcessor.schedulerOf
          AchReturnProcessor.callEither self with
        ⟨-, hafter⟩ | ⟨event, queue, hqueue, -, hafter⟩ |
          ⟨event, queue, clock, history, hqueue, hdue, hclock, hafter⟩ <;> rw [hafter]
      · exact h
      · -- A late event is dropped, and nothing else happens.
        change self.network.scheduler.queue = event :: queue at hqueue
        refine ⟨h.settling, fun other hmem => h.queued other ?_⟩
        rw [hqueue]
        exact List.mem_cons_of_mem event hmem
      · change self.network.scheduler.queue = event :: queue at hqueue
        -- The callback finds a system in order, at the time it was queued for.
        have hready : InOrder opening (self.atEvent clock queue) := by
          refine ⟨h.settling.later ?_, fun other hmem => h.queued other ?_⟩
          · rw [now_atEvent, hclock]
            exact hdue
          · rw [hqueue]
            exact List.mem_cons_of_mem event hmem
        have hexpected := h.queued event (by rw [hqueue]; exact List.mem_cons_self)
        rw [← hclock] at hexpected
        have hcalled := inOrder_callEither hready event.callback hexpected
        exact ⟨hcalled.settling, hcalled.queued⟩
  | advanceTo newTime =>
      rw [AchSystemCall.exec, after_discard]
      exact inOrder_clock h _ (EventScheduler.le_advanceTo newTime)
  | advanceBy amount =>
      rw [AchSystemCall.exec, after_discard]
      exact inOrder_clock h _ (EventScheduler.le_advanceBy amount)
  | call callback => exact hcall.elim
  | append entry => exact hcall.elim
  | appendBatch entries => exact hcall.elim

/-! ### What a state in order settles -/

/-- The settlement expectations of the two components. -/
def expectations (self : AchSystem) (generatedAt : Int) : List SettlementRecord :=
  settlementExpectations self.network.transfers.values self.returns.values generatedAt

/-- What the expectations of one direction come to, for the workflows of one
    account. -/
def expectedCents (self : AchSystem) (generatedAt : Int) (direction : SettlementDirection)
    (accountId : String) : Int :=
  (((self.expectations generatedAt).filter fun record => record.direction = direction ∧
    (self.work.recordRow record).accountId = some accountId).map (·.amountCents)).sum

end AchSystem

/-- Identifier, direction and amount of an entry. -/
def LedgerEntry.terms (self : LedgerEntry) : String × EntryType × Int :=
  (self.entryId, self.entryType, self.amount.cents)

/-- The terms of the entry that belongs to a settlement record. -/
def SettlementRecord.entryTerms (self : SettlementRecord) : String × EntryType × Int :=
  match self.direction with
  | .outbound => (self.paymentId ++ "-DEBIT", .debit, self.amountCents)
  | .return => (self.paymentId ++ "-CREDIT", .credit, self.amountCents)

namespace AchSystem

/-- The entries since the opening are those of the expectations, one for one,
    and every balance is the opening balance less what is outbound and plus
    what is returned. -/
structure Settles (opening : Ledger) (generatedAt : Int) (system : AchSystem) : Prop where
  records : ∃ entries, system.network.ledger.entries = opening.entries ++ entries ∧
    ((system.expectations generatedAt).map SettlementRecord.entryTerms).Perm
      (entries.map LedgerEntry.terms)
  balances : ∀ accountId, accountBalance system.network.ledger accountId
    = accountBalance opening accountId - system.expectedCents generatedAt .outbound accountId
      + system.expectedCents generatedAt .return accountId

/-- The rows of some expectations, for one account, come to what is returned
    less what is outbound. -/
theorem sum_recordRows (work : AchWork) (records : List SettlementRecord) (accountId : String) :
    (((records.map work.recordRow).filter fun row => row.accountId = some accountId).map
        EntryRow.signedCents).sum
      = ((records.filter fun record => record.direction = .return ∧
          (work.recordRow record).accountId = some accountId).map (·.amountCents)).sum
        - ((records.filter fun record => record.direction = .outbound ∧
          (work.recordRow record).accountId = some accountId).map (·.amountCents)).sum := by
  induction records with
  | nil => simp only [List.map_nil, List.filter_nil, List.sum_nil, Int.sub_zero]
  | cons record records ih =>
      by_cases haccount : (work.recordRow record).accountId = some accountId
      · cases hdirection : record.direction with
        | outbound =>
            have hcents : (work.recordRow record).signedCents = -record.amountCents := by
              simp only [AchWork.recordRow, hdirection, EntryRow.signedCents, reduceCtorEq,
                if_false, Int.neg_one_mul]
            simp only [List.map_cons, List.filter_cons, haccount, hdirection, decide_true,
              if_true, List.sum_cons, and_self, reduceCtorEq, false_and, decide_false,
              Bool.false_eq_true, if_false, ih, hcents]
            ring
        | «return» =>
            have hcents : (work.recordRow record).signedCents = record.amountCents := by
              simp only [AchWork.recordRow, hdirection, EntryRow.signedCents, if_true,
                Int.one_mul]
            simp only [List.map_cons, List.filter_cons, haccount, hdirection, decide_true,
              if_true, List.sum_cons, and_self, reduceCtorEq, false_and, decide_false,
              Bool.false_eq_true, if_false, ih, hcents]
            ring
      · -- A record of another account counts on neither side.
        simp only [List.map_cons, List.filter_cons, haccount, decide_false, Bool.false_eq_true,
          if_false, and_false, ih]

theorem sum_entryRows (entries : List LedgerEntry) (accountId : String) :
    (((entries.map LedgerEntry.row).filter fun row => row.accountId = some accountId).map
        EntryRow.signedCents).sum
      = totalCents (entries.filter fun entry => entry.accountId = accountId) := by
  rw [List.filter_map, List.map_map, totalCents]
  have hfilter : entries.filter
      ((fun row : EntryRow => decide (row.accountId = some accountId)) ∘ LedgerEntry.row)
        = entries.filter fun entry => entry.accountId = accountId :=
    List.filter_congr fun entry _ => by
      simp only [Function.comp_apply, LedgerEntry.row, Option.some.injEq]
  rw [hfilter]
  rfl

/-- A system in order settles, whenever the expectations are generated. -/
theorem InOrder.settles {system : AchSystem} (h : system.InOrder opening) (generatedAt : Int) :
    system.Settles opening generatedAt := by
  rcases h.settling.agrees with ⟨entries, hentries, hperm⟩
  change system.network.ledger.entries = opening.entries ++ entries at hentries
  -- Expected rows and posted rows are those of the completed workflows.
  have hrows : ((system.expectations generatedAt).map system.work.recordRow).Perm
      (entries.map LedgerEntry.row) :=
    (AchWork.expectations_rows h.settling.filed generatedAt).trans hperm.symm
  refine ⟨⟨entries, hentries, ?_⟩, fun accountId => ?_⟩
  · -- The terms are part of the row.
    have hterms := hrows.map fun row => (row.entryId, row.entryType, row.cents)
    rw [List.map_map, List.map_map] at hterms
    have hrecord : (fun row : EntryRow => (row.entryId, row.entryType, row.cents))
        ∘ system.work.recordRow = SettlementRecord.entryTerms := by
      funext record
      cases hdirection : record.direction <;>
        simp only [Function.comp_apply, AchWork.recordRow, SettlementRecord.entryTerms, hdirection]
    rw [hrecord] at hterms
    exact hterms
  · -- A balance is the opening's and the signed amounts of the rows.
    have hsum := ((hrows.filter fun row => row.accountId = some accountId).map
      EntryRow.signedCents).sum_eq
    rw [sum_recordRows, sum_entryRows] at hsum
    rw [accountBalance_eq_totalCents, accountBalance_eq_totalCents, hentries, List.filter_append,
      totalCents_append, ← hsum, expectedCents, expectedCents]
    ring

end AchSystem

/-- Driven by the two receive methods, scheduler steps and moves of the clock,
    over an opening that is posted by time 10 and has none of the derived
    identifiers, expectations and ledger agree in every state. -/
theorem settlement_agrees (ledger : Ledger) (hledger : ledger.Reachable)
    (hposted : ∀ entry ∈ ledger.entries, entry.postedAt ≤ 10)
    (scheduler : EventScheduler (AchCallback ⊕ AchReturnCallback)) (hqueue : scheduler.queue = [])
    (calls : List AchSystemCall) (hcalls : ∀ call ∈ calls, call.Driven ledger)
    (generatedAt : Int) :
    AllStates AchSystemCall.exec (AchSystem.Settles ledger generatedAt)
      (AchReturnProcessor.new (AchNetwork.new ledger scheduler)) calls := by
  have hstart : AchSystem.InOrder ledger
      (AchReturnProcessor.new (AchNetwork.new ledger scheduler)) := by
    refine ⟨⟨fun _ transfer hget => ?_, fun _ item hget => ?_,
      Ledger.reachable_wellFormed hledger, fun entry hmem => ?_, [], ?_, ?_⟩, fun event hmem => ?_⟩
    · cases hget
    · cases hget
    · exact le_trans (hposted entry hmem) (le_max_left 10 _)
    · exact (List.append_nil _).symm
    · exact List.Perm.refl []
    · change event ∈ scheduler.queue at hmem
      rw [hqueue] at hmem
      cases hmem
  have hdriven : AllSteps AchSystemCall.exec (fun _ call => call.Driven ledger)
      (AchReturnProcessor.new (AchNetwork.new ledger scheduler)) calls :=
    allSteps_of_forall fun _ call hmem => hcalls call hmem
  have horder := allStates_of_allSteps
    (fun system call (h : system.InOrder ledger) hcall =>
      AchSystem.inOrder_exec system call h hcall)
    hstart hdriven
  exact allStates_mono (fun _ h => h.settles generatedAt) horder

/-- One credit of $1,000.00, posted at time zero. -/
def settlementOpening : List LedgerCall :=
  [.append
    { entryId := "ACH-OPEN", accountId := "HCCU-DEMO-001", amount := { cents := 100000 }
      entryType := .credit, description := "Opening balance", sequence := 1, postedAt := 0 }]

/-- A transfer of $250.00 is completed, and at time 30 it is returned. -/
def returnedTransfer : List AchSystemCall :=
  [ .receive
      { transferId := "ACH-0001", sourceAccountId := "HCCU-DEMO-001"
        destinationInstitution := "Blue Ridge National Bank"
        destinationReference := "EXTERNAL-ACCOUNT-001", amountCents := 25000
        description := "External transfer" },
    .runNext, .runNext, .runNext, .runNext, .runNext, .advanceTo 30,
    .receiveReturn ⟨"RETURN-0001", "ACH-0001", .accountClosed, 25000⟩,
    .runNext, .runNext, .runNext ]

theorem settlement_agrees_returnedTransfer :
    AllStates AchSystemCall.exec
      (AchSystem.Settles (finalState LedgerCall.exec Ledger.new settlementOpening) 40)
      (AchReturnProcessor.new (AchNetwork.new
        (finalState LedgerCall.exec Ledger.new settlementOpening) EventScheduler.new))
      returnedTransfer :=
  settlement_agrees (finalState LedgerCall.exec Ledger.new settlementOpening)
    ⟨settlementOpening, rfl⟩ (by decide) EventScheduler.new rfl returnedTransfer (by decide) 40

end BankSim
