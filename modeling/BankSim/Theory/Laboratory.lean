import BankSim.Theory.Debits
import BankSim.Theory.Settlement

/-!
# The Laboratory

The laboratory runs payments through a dead-letter processor over a ledger, looks
up in the ledger what each completed payment amounts to, expects it to settle, and
reconciles that with a report of the network. Its own payments are fixed. Here they
are any payments with distinct identifiers, and the ledger is any that has no entry
under a name they could use.

In the end three books tell of the payments: the ledger, the settlements, and the
report. `Agree` says that they tell the same. The ledger lost what is expected to
settle, the network reports as much, and nothing is left to explain.

The settlements find their amounts by identifier, and an entry of another payment
could come first. `settledCents_eq` shows that it does not: the identifiers of
debits end in a way that tells them apart from all others.

## Main definitions

* `Laboratory.paymentRow`, `Laboratory.expectation`: A payment, and what is
  expected to settle of it.
* `Laboratory.completing`: The payments that are completed in the end.
* `Laboratory.Agree`: The books agree.

## Theorems

* `Laboratory.settlements_eq`: The settlements of the laboratory.
* `Laboratory.books_agree`: All runs end with books that agree.
-/

namespace BankSim

open Exec PaymentQueue

namespace Laboratory

/-- A submission of a payment whose work posts its amount. -/
def paymentRow (row : DeadLetterRow Int) : DeadLetterRow PostingWork :=
  { row with work := laboratoryPost row.paymentId row.work }

/-- What is expected to settle of a payment. -/
def expectation (now : Int) (row : DeadLetterRow Int) : SettlementRecord where
  recordId := "SETTLEMENT-" ++ row.paymentId
  paymentId := row.paymentId
  amountCents := row.work
  direction := .outbound
  expectedAt := now + 1

/-- No entry has an identifier that a payment could have. -/
def Unnamed (start : Ledger) (rows : List (DeadLetterRow Int)) : Prop :=
  ∀ row ∈ rows, ∀ entry ∈ start.entries,
    entry.entryId ≠ row.paymentId ++ "-DEBIT" ∧ entry.entryId ≠ row.paymentId ++ "-SETTLEMENT"

section Rows

variable {start ledger : Ledger} {rows : List (DeadLetterRow Int)} {limit : Nat}

/-- The works of payments with distinct identifiers can be done. -/
theorem debitable (hids : (rows.map (·.paymentId)).Nodup) (hpos : ∀ row ∈ rows, 0 < row.work)
    (hunnamed : Unnamed start rows) :
    Debitable start (rows.map fun row => (paymentRow row).work) where
  valid work hwork := by
    obtain ⟨row, hrow, rfl⟩ := List.mem_map.mp hwork
    exact
      { entryId_nonblank := isBlank_append_of_suffix _ _ (by decide)
        accountId_nonblank := show isBlank "HCCU-DEMO-001" = false by decide
        amount_pos := hpos row hrow
        description_nonblank := show isBlank "End-to-end laboratory payment" = false by decide }
  distinct := by
    rw [List.map_map]
    have hinj : Function.Injective fun paymentId : String => paymentId ++ "-DEBIT" :=
      fun a b h => append_suffix_inj h
    have hall := hids.map hinj
    rw [List.map_map] at hall
    exact hall
  fresh work hwork entry hentry := by
    obtain ⟨row, hrow, rfl⟩ := List.mem_map.mp hwork
    exact (hunnamed row hrow entry hentry).1

/-- Looking for the entry of a payment that was debited finds its amount. -/
theorem settledCents_eq (hids : (rows.map (·.paymentId)).Nodup) (hunnamed : Unnamed start rows)
    (hposted : DebitedOnce start (rows.map fun row => (paymentRow row).work) ledger)
    {row : DeadLetterRow Int} (hrow : row ∈ rows) :
    settledCents ledger.entries row.paymentId = .ok row.work := by
  obtain ⟨debits, hentries, hworks, -⟩ := hposted.entries
  -- All entries that the search could find have that amount,
  have hamount : ∀ entry ∈ ledger.entries, entry.entryId = row.paymentId ++ "-DEBIT" ∨
      entry.entryId = row.paymentId ++ "-SETTLEMENT" → entry.amount.cents = row.work := by
    intro entry hentry hnamed
    rw [hentries] at hentry
    rcases List.mem_append.mp hentry with hstart | hdebit
    · obtain ⟨hdebit, hsettlement⟩ := hunnamed row hrow entry hstart
      exact absurd hnamed (not_or.mpr ⟨hdebit, hsettlement⟩)
    · obtain ⟨other, hother, hwork⟩ :=
        List.mem_map.mp (hworks.subset (List.mem_map_of_mem hdebit))
      have hid : entry.entryId = other.paymentId ++ "-DEBIT" :=
        (congrArg PostingWork.entryId hwork).symm
      have hcents : entry.amount.cents = other.work :=
        (congrArg PostingWork.amountCents hwork).symm
      rw [hid] at hnamed
      rcases hnamed with hsame | hsame
      · rw [hcents, List.inj_on_of_nodup_map hids hother hrow (append_suffix_inj hsame)]
      · exact absurd hsame (append_suffix_ne _ _ (by decide) (by decide) (by decide))
  -- and there is one.
  have hfound : ∃ entry ∈ ledger.entries, entry.entryId = row.paymentId ++ "-DEBIT" := by
    have hmem : (paymentRow row).work ∈ debits.map fun entry => entry.debited.1 :=
      hworks.mem_iff.mpr (List.mem_map_of_mem hrow)
    obtain ⟨entry, hentry, hwork⟩ := List.mem_map.mp hmem
    refine ⟨entry, ?_, congrArg PostingWork.entryId hwork⟩
    rw [hentries]
    exact List.mem_append_right _ hentry
  unfold settledCents
  cases hsearch : ledger.entries.find? fun entry => decide (entry.entryId
      = row.paymentId ++ "-DEBIT" ∨ entry.entryId = row.paymentId ++ "-SETTLEMENT") with
  | none =>
      obtain ⟨entry, hentry, hid⟩ := hfound
      exact absurd (decide_eq_true (Or.inl hid)) (List.find?_eq_none.mp hsearch entry hentry)
  | some entry =>
      have hnamed := List.find?_some hsearch
      rw [decide_eq_true_eq] at hnamed
      exact congrArg Except.ok (hamount entry (List.mem_of_find?_eq_some hsearch) hnamed)

/-- The settlements of payments that are all done with, in the order of their
    identifiers. -/
theorem settlements_eq (hids : (rows.map (·.paymentId)).Nodup) (hunnamed : Unnamed start rows)
    (hposted : DebitedOnce start (rows.map fun row => (paymentRow row).work) ledger)
    {payments : List DeadLetterPayment}
    (hpayments : completedIds payments = rows.map (·.paymentId)) (now : Int) :
    settlements payments ledger now
      = .ok ((sortedBy (·.paymentId) rows).map (expectation now)) := by
  unfold settlements
  rw [hpayments, ← map_sortedBy id (fun row : DeadLetterRow Int => row.paymentId) rows]
  have hsorted : ∀ row ∈ sortedBy (·.paymentId) rows, row ∈ rows := fun row hrow =>
    (sortedBy_perm _ _).mem_iff.mp hrow
  change List.mapM _ ((sortedBy (·.paymentId) rows).map (·.paymentId)) = _
  generalize sortedBy (·.paymentId) rows = sorted at hsorted
  induction sorted with
  | nil => rfl
  | cons row sorted ih =>
      have hrow := settledCents_eq hids hunnamed hposted (hsorted row List.mem_cons_self)
      rw [List.map_cons, List.mapM_cons, ih fun other hother =>
        hsorted other (List.mem_cons_of_mem _ hother), hrow]
      rfl

/-- The network lists what it was expected to, so the two sides agree. -/
theorem terms_external (records : List SettlementRecord) (now : Int) :
    (external records now).records.map (·.terms) = records.map (·.terms) := by
  rw [external, List.map_map]
  rfl

/-- All expectations are outbound, and the network reports as much. -/
theorem totals_reconciliation (now : Int) (rows : List (DeadLetterRow Int)) :
    (reconciliation (rows.map (expectation now)) now).outboundTotals
        = ⟨(rows.map (·.work)).sum, (rows.map (·.work)).sum⟩ ∧
      (reconciliation (rows.map (expectation now)) now).returnTotals = ⟨0, 0⟩ := by
  have hall : ∀ record ∈ rows.map (expectation now), record.direction = .outbound := by
    intro record hrecord
    obtain ⟨row, -, rfl⟩ := List.mem_map.mp hrecord
    rfl
  have hreported : ∀ record ∈ (external (rows.map (expectation now)) now).records,
      record.direction = .outbound := by
    intro record hrecord
    obtain ⟨own, hown, rfl⟩ := List.mem_map.mp hrecord
    exact hall own hown
  constructor
  · change totals _ _ _ = _
    unfold totals
    rw [List.filter_eq_self.mpr fun record hrecord => decide_eq_true (hall record hrecord),
      List.filter_eq_self.mpr fun record hrecord => decide_eq_true (hreported record hrecord),
      external, List.map_map, List.map_map, List.map_map]
    rfl
  · change totals _ _ _ = _
    unfold totals
    rw [List.filter_eq_nil_iff.mpr fun record hrecord => by rw [hall record hrecord]; decide,
      List.filter_eq_nil_iff.mpr fun record hrecord => by rw [hreported record hrecord]; decide]
    rfl

end Rows

/-- The payments that are completed in the end. -/
def completing (limit : Nat) (rows : List (DeadLetterRow Int)) : List (DeadLetterRow Int) :=
  rows.filter fun row => row.accepted && !DeadLetterProcessor.Fails limit row

/-- The books agree on the payments that were completed: what the ledger lost is
    what is expected to settle and what the network reports. -/
structure Agree (start : Ledger) (completed : List (DeadLetterRow Int))
    (payments : List DeadLetterPayment) (ledger : Ledger) (now : Int) : Prop where
  effects : ledger.entries.length = start.entries.length + completed.length
  replay : replay ledger.entries = .ok (totalCents start.entries - (completed.map (·.work)).sum)
  settlements : ∃ records, settlements payments ledger now = .ok records ∧
    records = (sortedBy (·.paymentId) completed).map (expectation now) ∧
    (reconciliation records now).exceptionCount = 0 ∧
    (reconciliation records now).matchedCount = completed.length ∧
    (reconciliation records now).outboundTotals
      = ⟨(completed.map (·.work)).sum, (completed.map (·.work)).sum⟩ ∧
    (reconciliation records now).returnTotals = ⟨0, 0⟩

theorem agree {start ledger : Ledger} {completed : List (DeadLetterRow Int)}
    (hids : (completed.map (·.paymentId)).Nodup) (hunnamed : Unnamed start completed)
    (hposted : DebitedOnce start (completed.map fun row => (paymentRow row).work) ledger)
    {payments : List DeadLetterPayment}
    (hpayments : completedIds payments = completed.map (·.paymentId)) (now : Int) :
    Agree start completed payments ledger now := by
  have hperm := sortedBy_perm (·.paymentId) completed
  have hnodup : (((sortedBy (·.paymentId) completed).map (expectation now)).map
      (·.paymentId)).Nodup := by
    rw [List.map_map]
    exact (hperm.map _).nodup_iff.mpr hids
  obtain ⟨hiff, hmatched⟩ := reconciles_of_nodup _
    (external ((sortedBy (·.paymentId) completed).map (expectation now)) now) (now + 3) hnodup
  have hzero := hiff.mpr (List.Perm.of_eq (terms_external _ now))
  have htotals := totals_reconciliation now (sortedBy (·.paymentId) completed)
  rw [(hperm.map _).sum_eq] at htotals
  refine ⟨?_, ?_, _, settlements_eq hids hunnamed hposted hpayments now, rfl, hzero, ?_, htotals⟩
  · obtain ⟨debits, hentries, hworks, -⟩ := hposted.entries
    have hlength := hworks.length_eq
    rw [List.length_map, List.length_map] at hlength
    rw [hentries, List.length_append, hlength]
  · rw [hposted.replay, List.map_map]
    rfl
  · rw [reconciliation, hmatched hzero, List.length_map, hperm.length_eq]

theorem completing_rows (limit : Nat) (rows : List (DeadLetterRow Int)) :
    (((rows.map paymentRow).filter DeadLetterRow.accepted).filter fun row =>
        !DeadLetterProcessor.Fails limit row) = (completing limit rows).map paymentRow := by
  rw [List.filter_filter, List.filter_map]
  unfold completing
  exact congrArg _ (List.filter_congr fun row _ => Bool.and_comm _ _)

/-- The completed payments are those that are valid and do not fail. -/
theorem completedIds_eq (limit : Nat) (rows : List (DeadLetterRow Int)) :
    completedIds (((rows.map paymentRow).filter DeadLetterRow.accepted).map
        (DeadLetterProcessor.paymentFor limit)) = (completing limit rows).map (·.paymentId) := by
  have hcompleted : (fun row : DeadLetterRow PostingWork =>
      (DeadLetterProcessor.paymentFor limit row).completed)
        = fun row => !DeadLetterProcessor.Fails limit row := funext fun row => by
    rw [← DeadLetterProcessor.after_eq_paymentFor, ← DeadLetterProcessor.recovers_eq]
    simp [DeadLetterRow.after]
  have hname : ∀ row : DeadLetterRow PostingWork,
      (DeadLetterProcessor.paymentFor limit row).paymentId = row.paymentId := fun row => by
    rw [← DeadLetterProcessor.after_eq_paymentFor]
    rfl
  unfold completedIds
  rw [List.filter_map, List.map_map, show (DeadLetterPayment.completed ∘
      DeadLetterProcessor.paymentFor limit : DeadLetterRow PostingWork → Bool) = _ from hcompleted,
    completing_rows, List.map_map]
  exact List.map_congr_left fun row _ => hname (paymentRow row)

/-- The laboratory over any payments with distinct identifiers and any ledger that
    has none of their names and was last posted no later than the clock shows. A run
    never raises and comes to an end. Then the payments are settled as their scripts
    say, and the ledger, the settlements and the report agree on those completed. -/
theorem books_agree (clock : VirtualClock) (capacity : Int)
    (queue : AttemptQueue (DeadLetterWork PostingWork) (DeadLetterWork PostingWork) Empty)
    (hnew : PaymentQueue.new (EventScheduler.new clock) capacity = .ok queue)
    (maximumRetries retryDelay : Int) (engine : DeadLetterProcessor PostingWork Empty)
    (hengine : DeadLetterProcessor.new queue .new maximumRetries retryDelay = .ok engine)
    (rows : List (DeadLetterRow Int)) (hids : (rows.map (·.paymentId)).Nodup)
    (hpos : ∀ row ∈ rows, 0 < row.work) (start : Ledger) (hwf : start.WellFormed)
    (hlast : start.lastPostedAt ≤ clock.time) (hunnamed : Unnamed start rows) :
    (∀ rounds, ∃ ended t, (DeadLetterProcessor.runPosting rounds).run
        (Watched.given DeadLetterProcessor.submitRow DeadLetterProcessor.queueOf engine
          (rows.map paymentRow), start) = .ok ended t) ∧
    ∃ t enough, (∀ rounds, enough ≤ rounds → (DeadLetterProcessor.runPosting rounds).run
        (Watched.given DeadLetterProcessor.submitRow DeadLetterProcessor.queueOf engine
          (rows.map paymentRow), start) = .ok true t) ∧
      DeadLetterProcessor.Settled maximumRetries.toNat
        ((rows.map paymentRow).filter DeadLetterRow.accepted) t.1 ∧
      Agree start (completing maximumRetries.toNat rows) t.1.engine.payments t.2
        (t.1.now DeadLetterProcessor.queueOf) := by
  have hids' : ((rows.map paymentRow).map (·.paymentId)).Nodup := by
    rw [List.map_map]
    exact hids
  -- Rejected rows post nothing, so the debits of the others are among those of all.
  have hworks : Debitable start
      (((rows.map paymentRow).filter DeadLetterRow.accepted).map (·.work)) := by
    refine (debitable hids hpos hunnamed).subperm (List.Sublist.subperm ?_)
    have hsub := (List.filter_sublist (p := DeadLetterRow.accepted)
      (l := rows.map paymentRow)).map (·.work)
    rw [List.map_map] at hsub
    exact hsub
  obtain ⟨hruns, t, enough, hends, hsettled, hposted⟩ := DeadLetterProcessor.run_posting clock
    capacity queue hnew maximumRetries retryDelay engine hengine (rows.map paymentRow) start hwf
    hlast hworks
  have hsub : (completing maximumRetries.toNat rows).Sublist rows := List.filter_sublist
  rw [completing_rows, List.map_map] at hposted
  refine ⟨fun rounds => ?_, t, enough, hends, hsettled hids', ?_⟩
  · obtain ⟨ended, u, hrun, -⟩ := hruns rounds
    exact ⟨ended, u, hrun⟩
  · refine agree (hids.sublist (hsub.map _)) (fun row hrow => hunnamed row (hsub.subset hrow))
      hposted ?_ _
    obtain ⟨hpayments, -, -, -⟩ := hsettled hids'
    rw [hpayments, completedIds_eq]

/-- The payments A, B and E. -/
def plainPayments : List (DeadLetterRow Int) :=
  [{ paymentId := "PAY-A", requestId := "REQ-A", work := 1_000 },
    { paymentId := "PAY-B", requestId := "REQ-B", work := 2_000,
      failures := ["processor temporarily unavailable"] },
    { paymentId := "PAY-E", requestId := "REQ-E", work := 6_000,
      failures := List.replicate 3 "network unavailable", originalState := .processing }]

/-- The processor of the laboratory. -/
def processor : DeadLetterProcessor PostingWork Empty :=
  ⟨oneAMinute _ _, .new, 2, 2, [], [], 0, numeral_pos passes⟩

theorem books_agree_plainPayments :
    ∃ rounds t, (DeadLetterProcessor.runPosting rounds).run
        (Watched.given DeadLetterProcessor.submitRow DeadLetterProcessor.queueOf processor
          (plainPayments.map paymentRow), fundedWith 100_000) = .ok true t ∧
      Agree (fundedWith 100_000) (plainPayments.take 2) t.1.engine.payments t.2
        (t.1.now DeadLetterProcessor.queueOf) ∧
      replay t.2.entries = .ok 97_000 := by
  obtain ⟨-, t, enough, hends, -, hagree⟩ := books_agree ⟨0, by decide⟩ 1 (oneAMinute _ _) rfl 2 2
    processor rfl plainPayments (by decide) (by decide)
    (fundedWith 100_000) (fundedWith_wellFormed _ _) (by decide) (by unfold Unnamed; decide)
  exact ⟨enough, t, hends enough (le_refl _), hagree, hagree.replay⟩

end Laboratory

end BankSim
