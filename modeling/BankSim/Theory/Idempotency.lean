import BankSim.Theory.Posting
import BankSim.Library.Keyed
import BankSim.Core.Idempotency

/-!
# One Effect for Each Key

A delivery is answered in one of four ways. Its key is stored and it asks for
the stored payment, or for another one; or its key is new and the ledger takes
the debit, or refuses it. Only two of these return, and the other two leave
everything as it was.

The processor writes down the same fact several times: as a ledger entry, as a
stored record, in the count of entries it created and as an acknowledgement
that is not a duplicate. `Booked` is the invariant that ties them together. The
entries it added and the results it stored correspond one to one, in order,
and from there the counts agree and, since no identifier occurs twice in a
ledger, neither does a request in the store.

## Main definitions

* `PaymentDelivery.debitPosting`: The debit of a delivery.
* `PaymentProcessingResult.Reports`: The result tells of an entry.
* `IdempotentPaymentProcessor.Booked`: The invariant of the processor.
* `IdempotentPaymentProcessor.ExactlyOnce`: What it means for its records.

## Theorems

* `process_cases`: The four answers.
* `booked_process`: An answer keeps the invariant.
* `exactlyOnce_of_booked`: The invariant says that money moved once.
* `acknowledgements_finalState`: The acknowledgements are what was returned.
* `process_exactly_once`: It did so in every state of a run.
-/

namespace BankSim

open Exec

namespace PaymentDelivery

/-- The debit a delivery asks for. -/
def debitPosting (delivery : PaymentDelivery) : Posting where
  entryId := delivery.originalRequestId ++ "-DEBIT"
  accountId := "HCCU-DEMO-001"
  cents := delivery.amount.cents
  entryType := .debit
  description := "Idempotently processed payment"
  postedAt := delivery.arrivedAt + 1

/-- What is remembered once the debit is posted. -/
def result (delivery : PaymentDelivery) : PaymentProcessingResult :=
  ⟨delivery.originalRequestId, delivery.originalRequestId ++ "-DEBIT", delivery.amount,
    delivery.arrivedAt + 1⟩

/-- The ledger takes the debit: its identifier is new and nothing is posted
    later. Everything else the ledger asks for, a delivery guarantees. -/
theorem fits_debitPosting_iff (delivery : PaymentDelivery) (ledger : Ledger) :
    delivery.debitPosting.Fits ledger ↔
      delivery.originalRequestId ++ "-DEBIT" ∉ ledger.entryIds ∧
        ledger.lastPostedAt ≤ delivery.arrivedAt + 1 := by
  constructor
  · intro h
    exact ⟨h.fresh, h.last_le⟩
  · intro h
    have harrived := delivery.arrivedAt_nonneg
    exact
      { cents_pos := delivery.amount.cents_pos
        entryId_nonblank := isBlank_append_of_suffix _ _ (by decide)
        accountId_nonblank := (by decide : isBlank "HCCU-DEMO-001" = false)
        description_nonblank := (by decide : isBlank "Idempotently processed payment" = false)
        postedAt_nonneg := by
          change 0 ≤ delivery.arrivedAt + 1
          omega
        originalTransferId_nonblank := rfl
        achReturnId_nonblank := rfl
        fresh := h.1
        last_le := h.2 }

end PaymentDelivery

/-- The result tells of this entry. -/
structure PaymentProcessingResult.Reports (result : PaymentProcessingResult)
    (entry : LedgerEntry) : Prop where
  entryId : entry.entryId = result.ledgerEntryId
  accountId : entry.accountId = "HCCU-DEMO-001"
  amount : entry.amount = result.amount
  entryType : entry.entryType = .debit
  postedAt : entry.postedAt = result.processedAt

/-- What can be told of the entries from the results that report them. -/
theorem map_of_reports {β : Type} {results : List PaymentProcessingResult}
    {entries : List LedgerEntry} (f : LedgerEntry → β) (g : PaymentProcessingResult → β)
    (hsame : ∀ {result entry}, result.Reports entry → f entry = g result)
    (h : List.Forall₂ PaymentProcessingResult.Reports results entries) :
    entries.map f = results.map g := by
  induction h with
  | nil => rfl
  | cons hreport _ ih => rw [List.map_cons, List.map_cons, hsame hreport, ih]

section Opened

variable {opening : LedgerEntry} {entries : List LedgerEntry}
  {results : List PaymentProcessingResult}

/-- After a credit that opens the ledger, the reported entries are its
    debits. -/
theorem filter_debit_of_reports (hcredit : opening.entryType = .credit)
    (h : List.Forall₂ PaymentProcessingResult.Reports results entries) :
    (opening :: entries).filter (fun entry => entry.entryType = .debit) = entries := by
  rw [List.filter_cons_of_neg (by simp [hcredit]), List.filter_eq_self]
  intro entry hmem
  rcases List.mem_iff_getElem.mp hmem with ⟨i, hi, rfl⟩
  have hreport := h.get (by rw [h.length_eq]; exact hi) hi
  exact decide_eq_true hreport.entryType

/-- The balance is what the reported debits leave of the opening credit. -/
theorem replay_of_reports {ledger : Ledger} (hwf : ledger.WellFormed)
    (hentries : ledger.entries = opening :: entries) (hcredit : opening.entryType = .credit)
    (h : List.Forall₂ PaymentProcessingResult.Reports results entries) :
    replay ledger.entries
      = .ok (opening.amount.cents - (results.map (·.amount.cents)).sum) := by
  have hsigned : entries.map (·.signedCents) = results.map fun result => -result.amount.cents := by
    refine map_of_reports _ (fun result => -result.amount.cents) (fun h => ?_) h
    rw [LedgerEntry.signedCents, h.entryType, if_neg EntryType.debit_ne_credit, h.amount,
      neg_one_mul]
  have hneg : ((results.map fun result => -result.amount.cents).sum : Int)
      = -(results.map (·.amount.cents)).sum := by
    rw [List.sum_neg, List.map_map]
    rfl
  rw [replay_eq_sum hwf, hentries, totalCents, List.map_cons, List.sum_cons, hsigned, hneg,
    LedgerEntry.signedCents, if_pos hcredit, one_mul, sub_eq_add_neg]

end Opened

namespace IdempotentPaymentProcessor

/-- The processor after a duplicate was acknowledged. -/
def repeated (self : IdempotentPaymentProcessor) (delivery : PaymentDelivery)
    (key : IdempotencyKey) (record : IdempotencyRecord) : IdempotentPaymentProcessor :=
  { self with
    store := ⟨self.store.records.set key
      { record with duplicateDeliveryCount := record.duplicateDeliveryCount + 1 }⟩
    acknowledgements := self.acknowledgements ++ [⟨delivery, key, record.result, true⟩] }

/-- The processor after an original was processed. -/
def remembered (self : IdempotentPaymentProcessor) (delivery : PaymentDelivery)
    (key : IdempotencyKey) (entry : LedgerEntry) : IdempotentPaymentProcessor where
  ledger := self.ledger.push entry
  store := ⟨self.store.records.set key
    { key, originalRequestId := delivery.originalRequestId
      firstProcessedAt := delivery.arrivedAt + 1, completionStatus := .completed
      result := delivery.result }⟩
  acknowledgements := self.acknowledgements ++ [⟨delivery, key, delivery.result, false⟩]
  ledgerEntriesCreated := self.ledgerEntriesCreated + 1

section Process

variable {self : IdempotentPaymentProcessor} {delivery : PaymentDelivery} {key : IdempotencyKey}

theorem process_of_stored {record : IdempotencyRecord} (h : self.store.get? key = some record)
    (hid : record.result.originalRequestId = delivery.originalRequestId)
    (hamount : record.result.amount = delivery.amount) :
    (process delivery key).run self
      = .ok ⟨delivery, key, record.result, true⟩ (self.repeated delivery key record) := by
  rw [process, run_bind_get, h]
  change (replayResult delivery key record).run self = _
  rw [replayResult, if_neg (by simp only [hid, hamount, ne_eq, not_true_eq_false, or_self,
    not_false_eq_true])]
  rfl

/-- A key cannot be used for another payment. -/
theorem process_of_conflict {record : IdempotencyRecord} (h : self.store.get? key = some record)
    (hother : ¬ (record.result.originalRequestId = delivery.originalRequestId ∧
      record.result.amount = delivery.amount)) :
    ∃ e, (process delivery key).run self = .error e self := by
  rw [process, run_bind_get, h]
  change ∃ e, (replayResult delivery key record).run self = .error e self
  rw [replayResult, if_pos (not_and_or.mp hother)]
  exact ⟨_, rfl⟩

/-- The new entry is the debit posting of the delivery, and what follows it
    does not touch the ledger. -/
theorem processOriginal_eq (delivery : PaymentDelivery) (key : IdempotencyKey) :
    processOriginal delivery key = (do
      ledgerOf.zoom delivery.debitPosting.post
      storeOf.zoom (IdempotencyStore.remember
        { key, originalRequestId := delivery.originalRequestId
          firstProcessedAt := delivery.arrivedAt + 1, completionStatus := .completed
          result := delivery.result })
      modify fun self => { self with ledgerEntriesCreated := self.ledgerEntriesCreated + 1 }
      acknowledge ⟨delivery, key, delivery.result, false⟩) := by
  have hamount : Money.new delivery.debitPosting.cents = .ok delivery.amount :=
    Money.new_of_pos _ delivery.amount.cents_pos
  simp only [Posting.zoom_post, hamount, lift_ok, pure_bind, bind_assoc]
  rfl

theorem process_of_fits (h : self.store.get? key = none)
    (hfits : delivery.debitPosting.Fits self.ledger) :
    (process delivery key).run self = .ok ⟨delivery, key, delivery.result, false⟩
      (self.remembered delivery key (Posting.entry hfits)) := by
  rw [process, run_bind_get, h]
  change (processOriginal delivery key).run self = _
  have hpost : (ledgerOf.zoom delivery.debitPosting.post).run self
      = .ok () { self with ledger := self.ledger.push (Posting.entry hfits) } :=
    Component.zoom_run_ok (Posting.post_of_fits hfits)
  rw [processOriginal_eq, run_bind_of_ok hpost]
  -- The store was asked for the key before, and posting did not change it.
  have hnew : key ∉ self.store.records := (Dict.not_mem_iff _ _).mpr h
  have hremember : ∀ record : IdempotencyRecord, record.key = key →
      (IdempotencyStore.remember record).run self.store
        = .ok () ⟨self.store.records.set key record⟩ := by
    rintro record rfl
    rw [IdempotencyStore.remember, run_bind_get, if_neg hnew]
    rfl
  rw [run_bind_of_ok (Component.zoom_run_ok (hremember _ rfl))]
  rfl

theorem process_of_not_fits (h : self.store.get? key = none)
    (hfits : ¬ delivery.debitPosting.Fits self.ledger) :
    ∃ e, (process delivery key).run self = .error e self := by
  rw [process, run_bind_get, h]
  change ∃ e, (processOriginal delivery key).run self = .error e self
  rcases Posting.post_of_not_fits hfits with ⟨e, hpost⟩
  refine ⟨e, ?_⟩
  rw [processOriginal_eq]
  exact run_bind_of_error (Component.zoom_run_error hpost)

variable (self delivery key)

/-- A delivery is answered from the store, or processed as the first of its
    key, or refused without a trace. -/
theorem process_cases :
    (∃ record, self.store.get? key = some record ∧
      record.result.originalRequestId = delivery.originalRequestId ∧
      record.result.amount = delivery.amount ∧
      (process delivery key).run self
        = .ok ⟨delivery, key, record.result, true⟩ (self.repeated delivery key record)) ∨
    (self.store.get? key = none ∧ ∃ hfits : delivery.debitPosting.Fits self.ledger,
      (process delivery key).run self = .ok ⟨delivery, key, delivery.result, false⟩
        (self.remembered delivery key (Posting.entry hfits))) ∨
    ∃ e, (process delivery key).run self = .error e self := by
  -- A stored key decides before the ledger is asked.
  cases h : self.store.get? key with
  | some record =>
      by_cases hsame : record.result.originalRequestId = delivery.originalRequestId ∧
          record.result.amount = delivery.amount
      · exact .inl ⟨record, rfl, hsame.1, hsame.2, process_of_stored h hsame.1 hsame.2⟩
      · exact .inr (.inr (process_of_conflict h hsame))
  | none =>
      by_cases hfits : delivery.debitPosting.Fits self.ledger
      · exact .inr (.inl ⟨rfl, hfits, process_of_fits h hfits⟩)
      · exact .inr (.inr (process_of_not_fits h hfits))

/-- A delivery that raises changes nothing. -/
theorem atomic_process : Atomic (process delivery key) self := by
  intro e t hrun
  rcases process_cases self delivery key with ⟨record, -, -, -, hok⟩ | ⟨-, hfits, hok⟩ | ⟨e', herr⟩
  · rw [hok] at hrun
    cases hrun
  · rw [hok] at hrun
    cases hrun
  · rw [herr] at hrun
    cases hrun
    rfl

end Process

/-! ### Five records of the same facts -/

/-- The stored records, in the order they were first remembered. -/
def records (self : IdempotentPaymentProcessor) : List IdempotencyRecord :=
  self.store.records.values

/-- What the processor keeps is of one mind: the entries it added are the
    results it stored, and counts and acknowledgements follow. -/
structure Booked (opening : Ledger) (processor : IdempotentPaymentProcessor) : Prop where
  wellFormed : processor.ledger.WellFormed
  posted : ∃ added, processor.ledger.entries = opening.entries ++ added ∧
    List.Forall₂ PaymentProcessingResult.Reports (processor.records.map (·.result)) added
  kept : ∀ record ∈ processor.records,
    record.result.ledgerEntryId = record.originalRequestId ++ "-DEBIT"
  created : processor.ledgerEntriesCreated = processor.records.length
  originals : processor.acknowledgements.countP (fun ack => !ack.duplicate)
    = processor.records.length
  duplicates : (processor.records.map fun record => (record.duplicateDeliveryCount : Int)).sum
    = processor.acknowledgements.countP (·.duplicate)
  answered : ∀ ack ∈ processor.acknowledgements, ∃ record,
    processor.store.get? ack.key = some record ∧ record.result = ack.result

/-- Money moved exactly once for each stored record. -/
structure ExactlyOnce (opening : Ledger) (processor : IdempotentPaymentProcessor) : Prop where
  /-- Entries are only added, and as many as there are records. -/
  added : opening.entries <+: processor.ledger.entries ∧
    processor.ledger.entries.length
      = opening.entries.length + processor.statistics.storedIdempotencyRecords
  /-- So are acknowledgements that are not duplicates. -/
  originals : processor.acknowledgements.countP (fun ack => !ack.duplicate)
    = processor.statistics.storedIdempotencyRecords
  created : processor.statistics.ledgerEntriesCreated
    = processor.statistics.storedIdempotencyRecords
  /-- The debit of a record is in the ledger, and it is the only entry under
      its identifier. -/
  debited : ∀ record ∈ processor.records, ∃ entry,
    (processor.ledger.entries.filter fun other => other.entryId = record.result.ledgerEntryId)
      = [entry] ∧ record.result.Reports entry
  requests : (processor.records.map (·.originalRequestId)).Nodup
  duplicates : (processor.records.map (·.duplicateDeliveryCount)).sum
    = processor.statistics.duplicateDeliveries
  /-- An acknowledgement carries the result that is stored for its key. -/
  answered : ∀ ack ∈ processor.acknowledgements, ∃ record,
    processor.store.get? ack.key = some record ∧ record.result = ack.result

/-- What was stored for a key stays its result. -/
def Remembers (before after : IdempotentPaymentProcessor) : Prop :=
  ∀ key record, before.store.get? key = some record →
    ∃ now, after.store.get? key = some now ∧ now.result = record.result

instance : Std.Refl Remembers :=
  ⟨fun _ _ record h => ⟨record, h, rfl⟩⟩

instance : IsTrans IdempotentPaymentProcessor Remembers where
  trans a b c hab hbc key record h := by
    rcases hab key record h with ⟨middle, hmiddle, hsame⟩
    rcases hbc key middle hmiddle with ⟨now, hnow, hsame'⟩
    exact ⟨now, hnow, hsame'.trans hsame⟩

theorem booked_new {opening : Ledger} (hwf : opening.WellFormed) :
    Booked opening (new opening) where
  wellFormed := hwf
  posted := ⟨[], (List.append_nil _).symm, List.Forall₂.nil⟩
  kept _ h := absurd h List.not_mem_nil
  created := rfl
  originals := rfl
  duplicates := rfl
  answered _ h := absurd h List.not_mem_nil

section Step

variable {opening : Ledger} {self : IdempotentPaymentProcessor} {delivery : PaymentDelivery}
  {key : IdempotencyKey}

theorem remembers_repeated {record : IdempotencyRecord}
    (hrecord : self.store.get? key = some record) :
    Remembers self (self.repeated delivery key record) := by
  intro other old hold
  simp only [repeated, IdempotencyStore.get?, Dict.get?_set]
  by_cases hsame : other = key
  · rw [if_pos hsame]
    rw [hsame, hrecord, Option.some.injEq] at hold
    rw [← hold]
    exact ⟨_, rfl, rfl⟩
  · rw [if_neg hsame]
    exact ⟨old, hold, rfl⟩

theorem remembers_remembered (hnew : self.store.get? key = none) (entry : LedgerEntry) :
    Remembers self (self.remembered delivery key entry) := by
  intro other old hold
  simp only [remembered, IdempotencyStore.get?, Dict.get?_set]
  by_cases hsame : other = key
  · rw [hsame, hnew] at hold
    cases hold
  · rw [if_neg hsame]
    exact ⟨old, hold, rfl⟩

/-- Counting a duplicate changes no result, and the two counts of duplicates
    go up together. -/
theorem booked_repeated (h : Booked opening self) {record : IdempotencyRecord}
    (hrecord : self.store.get? key = some record) :
    Booked opening (self.repeated delivery key record) := by
  -- What does not read the count of duplicates reads the records as before.
  have hmap : ∀ {β : Type} (f : IdempotencyRecord → β),
      f { record with duplicateDeliveryCount := record.duplicateDeliveryCount + 1 } = f record →
      (self.repeated delivery key record).records.map f = self.records.map f :=
    fun f hsame => Dict.map_values_set_of_get? self.store.records key record _ f hrecord hsame
  have hlength : (self.repeated delivery key record).records.length = self.records.length := by
    have := congrArg List.length (hmap (fun record => record.key) rfl)
    simpa using this
  refine ⟨h.wellFormed, ?_, fun record' hmem => ?_, ?_, ?_, ?_, fun ack hmem => ?_⟩
  · rw [hmap (·.result) rfl]
    exact h.posted
  · have hall := hmap (fun record => (record.result.ledgerEntryId, record.originalRequestId)) rfl
    have hpair := List.mem_map_of_mem
      (f := fun record => (record.result.ledgerEntryId, record.originalRequestId)) hmem
    rw [hall] at hpair
    rcases List.mem_map.mp hpair with ⟨old, hold, hsame⟩
    have hkept := h.kept old hold
    simp only [Prod.mk.injEq] at hsame
    rw [← hsame.1, ← hsame.2]
    exact hkept
  · rw [hlength]
    exact h.created
  · rw [hlength, ← h.originals]
    simp [repeated]
  · -- One record counts one more, and there is one more acknowledgement.
    have hsum := Dict.sum_set_of_get? self.store.records key record
      { record with duplicateDeliveryCount := record.duplicateDeliveryCount + 1 }
      (fun record => (record.duplicateDeliveryCount : Int)) hrecord
    have hold := h.duplicates
    simp only [records, repeated] at hold ⊢
    rw [hsum, hold, List.countP_append]
    simp only [List.countP_singleton, if_true]
    push_cast
    omega
  · -- An earlier answer is still that of its record, and so is this one.
    have hstored : Remembers self (self.repeated delivery key record) :=
      remembers_repeated hrecord
    rcases List.mem_append.mp hmem with hmem | hmem
    · rcases h.answered ack hmem with ⟨old, hold, hresult⟩
      rcases hstored ack.key old hold with ⟨now, hnow, hkept⟩
      exact ⟨now, hnow, hkept.trans hresult⟩
    · rw [List.mem_singleton.mp hmem]
      exact hstored key record hrecord

/-- A new key adds one of everything. -/
theorem booked_remembered (h : Booked opening self) (hnew : self.store.get? key = none)
    (hfits : delivery.debitPosting.Fits self.ledger) :
    Booked opening (self.remembered delivery key (Posting.entry hfits)) := by
  have hrecords : (self.remembered delivery key (Posting.entry hfits)).records = self.records ++
      [{ key, originalRequestId := delivery.originalRequestId
         firstProcessedAt := delivery.arrivedAt + 1, completionStatus := .completed
         result := delivery.result }] :=
    Dict.values_set_of_none self.store.records key _ hnew
  refine ⟨?_, ?_, fun record hmem => ?_, ?_, ?_, ?_, fun ack hmem => ?_⟩
  · exact Ledger.wellFormed_push _ _ h.wellFormed (Posting.refusal_entry hfits)
  · -- Both the ledger and the store have grown at their ends.
    rcases h.posted with ⟨added, hentries, hreports⟩
    refine ⟨added ++ [Posting.entry hfits], ?_, ?_⟩
    · change self.ledger.entries ++ [Posting.entry hfits] = _
      rw [hentries, List.append_assoc]
    · rw [hrecords, List.map_append]
      exact List.rel_append hreports (.cons ⟨rfl, rfl, rfl, rfl, rfl⟩ .nil)
  · rw [hrecords] at hmem
    rcases List.mem_append.mp hmem with hmem | hmem
    · exact h.kept record hmem
    · rw [List.mem_singleton.mp hmem]
      rfl
  · rw [hrecords, List.length_append, ← h.created]
    rfl
  · rw [hrecords, List.length_append, ← h.originals]
    simp [remembered]
  · rw [hrecords, List.map_append, List.sum_append, h.duplicates]
    simp [remembered]
  · -- The records of earlier answers stay, and the new answer has its own.
    have hstored : Remembers self (self.remembered delivery key (Posting.entry hfits)) :=
      remembers_remembered hnew _
    rcases List.mem_append.mp hmem with hmem | hmem
    · rcases h.answered ack hmem with ⟨old, hold, hresult⟩
      rcases hstored ack.key old hold with ⟨now, hnow, hkept⟩
      exact ⟨now, hnow, hkept.trans hresult⟩
    · rw [List.mem_singleton.mp hmem]
      exact ⟨_, Dict.get?_set_self self.store.records key _, rfl⟩

/-- An answer keeps the invariant, and so does a refusal. -/
theorem booked_process (h : Booked opening self) :
    Booked opening (after (process delivery key) self) ∧
      Remembers self (after (process delivery key) self) := by
  rcases process_cases self delivery key with ⟨record, hrecord, -, -, hrun⟩ |
    ⟨hnew, hfits, hrun⟩ | ⟨e, hrun⟩
  · rw [after_of_ok hrun]
    exact ⟨booked_repeated h hrecord, remembers_repeated hrecord⟩
  · rw [after_of_ok hrun]
    exact ⟨booked_remembered h hnew hfits, remembers_remembered hnew _⟩
  · rw [after_of_error hrun]
    exact ⟨h, Std.Refl.refl self⟩

/-- A call that returns writes down its answer, and one that raises nothing. -/
theorem acknowledgements_process (self : IdempotentPaymentProcessor) (delivery : PaymentDelivery)
    (key : IdempotencyKey) : (after (process delivery key) self).acknowledgements
      = self.acknowledgements ++ (outcome (process delivery key) self).toOption.toList := by
  rcases process_cases self delivery key with ⟨record, -, -, -, hrun⟩ | ⟨-, hfits, hrun⟩ |
    ⟨e, hrun⟩
  · rw [after_of_ok hrun, outcome_of_ok hrun]
    rfl
  · rw [after_of_ok hrun, outcome_of_ok hrun]
    rfl
  · rw [after_of_error hrun, outcome_of_error hrun]
    exact (List.append_nil _).symm

end Step

/-- Since a ledger has no identifier twice, a store has no request twice, and
    the debit of a record is the only entry under its identifier. -/
theorem exactlyOnce_of_booked {opening : Ledger} {self : IdempotentPaymentProcessor}
    (h : Booked opening self) : ExactlyOnce opening self := by
  rcases h.posted with ⟨added, hentries, hreports⟩
  have hlength : self.records.length = added.length := by
    have := hreports.length_eq
    rwa [List.length_map] at this
  -- The identifiers of the added entries are those of the stored results.
  have hids : added.map (·.entryId)
      = self.records.map fun record => record.originalRequestId ++ "-DEBIT" := by
    rw [map_of_reports _ (·.ledgerEntryId) (fun h => h.entryId) hreports, List.map_map]
    exact List.map_congr_left fun record hmem => h.kept record hmem
  refine ⟨⟨?_, ?_⟩, h.originals, h.created, fun record hmem => ?_, ?_, ?_, h.answered⟩
  · rw [hentries]
    exact List.prefix_append _ _
  · rw [hentries, List.length_append, ← hlength]
    rfl
  · rcases List.mem_iff_getElem.mp hmem with ⟨i, hi, hget⟩
    have hi' : i < added.length := hlength ▸ hi
    have hreport : record.result.Reports added[i] := by
      have := hreports.get (by rwa [List.length_map]) hi'
      simpa [hget] using this
    refine ⟨added[i], ?_, hreport⟩
    rw [← hreport.entryId]
    refine Keyed.filter_eq_singleton LedgerEntry.entryId h.wellFormed.ids_nodup ?_
    rw [hentries]
    exact List.mem_append_right _ (List.getElem_mem hi')
  · have hnodup := h.wellFormed.ids_nodup
    rw [hentries, List.map_append, List.nodup_append, hids] at hnodup
    refine List.Nodup.of_map (· ++ "-DEBIT") ?_
    rw [List.map_map]
    exact hnodup.2.1
  · have hsum := h.duplicates
    have hcast : (self.records.map fun record => (record.duplicateDeliveryCount : Int))
        = (self.records.map (·.duplicateDeliveryCount)).map Nat.cast := by
      rw [List.map_map]
      rfl
    rw [hcast, ← Nat.cast_list_sum] at hsum
    exact Int.ofNat_inj.mp hsum

end IdempotentPaymentProcessor

/-- One call of `process`. -/
structure DeliveryCall where
  delivery : PaymentDelivery
  key : IdempotencyKey

def DeliveryCall.exec (call : DeliveryCall) :
    Action IdempotentPaymentProcessor IdempotentAcknowledgement :=
  IdempotentPaymentProcessor.process call.delivery call.key

/-- What the calls of a run returned, without those that raised. -/
def DeliveryCall.answers (processor : IdempotentPaymentProcessor) (calls : List DeliveryCall) :
    List IdempotentAcknowledgement :=
  (outcomes DeliveryCall.exec processor calls).filterMap (·.toOption)

/-- The acknowledgements of a processor are what its calls returned. -/
theorem acknowledgements_finalState (self : IdempotentPaymentProcessor)
    (calls : List DeliveryCall) : (finalState DeliveryCall.exec self calls).acknowledgements
      = self.acknowledgements ++ DeliveryCall.answers self calls := by
  induction calls generalizing self with
  | nil => exact (List.append_nil _).symm
  | cons call calls ih =>
      have hcall : (after call.exec self).acknowledgements
          = self.acknowledgements ++ (outcome call.exec self).toOption.toList :=
        self.acknowledgements_process call.delivery call.key
      rw [finalState_cons, ih, hcall, List.append_assoc]
      refine congrArg (self.acknowledgements ++ ·) ?_
      unfold DeliveryCall.answers
      rw [outcomes]
      cases outcome call.exec self with
      | error e => rfl
      | ok ack => rfl

open IdempotentPaymentProcessor in
/-- Money moves exactly once for each key, whatever is delivered under
    whatever keys: in every state of a run that starts with an empty store on
    some ledger, the ledger, the store, the acknowledgements and the counts
    agree, what was stored for a key in an earlier state is still its result,
    and a call that raises there changes nothing. The acknowledgements are the
    answers of the calls that returned. -/
theorem process_exactly_once (opening : List LedgerCall) (calls : List DeliveryCall) :
    let ledger := finalState LedgerCall.exec Ledger.new opening
    AllStates DeliveryCall.exec (ExactlyOnce ledger) (new ledger) calls ∧
      (finalState DeliveryCall.exec (new ledger) calls).acknowledgements
        = DeliveryCall.answers (new ledger) calls ∧
      (∀ earlier, earlier <+: calls →
        Remembers (finalState DeliveryCall.exec (new ledger) earlier)
          (finalState DeliveryCall.exec (new ledger) calls)) ∧
      AllStates DeliveryCall.exec (fun self => ∀ delivery key,
        Atomic (process delivery key) self) (new ledger) calls := by
  intro ledger
  have hbooked : ∀ (self : IdempotentPaymentProcessor) (call : DeliveryCall),
      Booked ledger self → Booked ledger (after call.exec self) :=
    fun self call h => (booked_process h).1
  have hstart : Booked ledger (new ledger) :=
    booked_new (Ledger.reachable_wellFormed ⟨opening, rfl⟩)
  have hall : AllStates DeliveryCall.exec (Booked ledger) (new ledger) calls :=
    allStates_of_allSteps (C := fun _ _ => True) (fun self call h _ => hbooked self call h) hstart
      (allSteps_of_forall fun _ _ _ => trivial)
  refine ⟨allStates_mono (fun _ => exactlyOnce_of_booked) hall,
    acknowledgements_finalState (new ledger) calls, ?_,
    allStates_mono (fun self _ delivery key => atomic_process self delivery key) hall⟩
  rintro earlier ⟨later, rfl⟩
  rw [finalState_append]
  -- Along the rest of the run the store keeps answering as it did.
  have hearlier : Booked ledger (finalState DeliveryCall.exec (new ledger) earlier) :=
    invariant_finalState hbooked hstart earlier
  refine (invariant_finalState (I := fun self => Booked ledger self ∧
    Remembers (finalState DeliveryCall.exec (new ledger) earlier) self) ?_
    ⟨hearlier, Std.Refl.refl _⟩ later).2
  rintro self call ⟨h, hkept⟩
  exact ⟨hbooked self call h, IsTrans.trans _ _ _ hkept (booked_process h).2⟩

end BankSim
