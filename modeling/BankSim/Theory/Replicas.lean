import BankSim.Library.Alike
import BankSim.Theory.Idempotency

/-!
# Several Processors on One Store

A processor is built on a ledger and may be given a store. So two processors
can work on one store and one ledger, a processor that was lost can be replaced
by a new one on the same store, and other code can write to the ledger
meanwhile. What a processor keeps for itself, its acknowledgements and a count,
does not take part in what it decides.

Deciding goes by the store and the ledger alone, and the two change together.
So the whole service answers as one processor would, `single_finalState`: the
first answer to a key is the only original one, and every later answer, by
whichever processor, repeats it. What other code writes can make the ledger
refuse a debit, but then nothing was stored either, and the delivery may come
again.

## Main definitions

* `PaymentService`: A ledger and a store with any number of processors.
* `ServiceCall`: A delivery to a processor, a replacement, or a foreign write.
* `Served`: The invariant: foreign entries, and one debit for each record.
* `Original`, `stored`: An original answer for a key, and whether it is stored.
* `single`: The call as it is made of a single processor.

## Theorems

* `process_cases`: The answers to a delivery.
* `served_exec`: A call keeps the invariant.
* `remembers_exec`: What is stored stays.
* `original_exec`: A call gives an original answer exactly if it stores the key.
* `alike_exec`: It makes no difference which processor a delivery goes to.
* `single_finalState`: A single processor gives the same answers.
* `service_exactly_once`: Money moves once for each key.
-/

namespace BankSim

open Exec

/-- What a processor keeps for itself. -/
structure Replica where
  acknowledgements : List IdempotentAcknowledgement := []
  ledgerEntriesCreated : Nat := 0

/-- A ledger and a store, with a processor under each number. -/
structure PaymentService where
  ledger : Ledger
  store : IdempotencyStore
  replicas : Nat → Replica

namespace PaymentService

/-- The service before the first delivery. -/
def new (ledger : Ledger) : PaymentService :=
  ⟨ledger, IdempotencyStore.new, fun _ => {}⟩

/-- The processor with a number: its ledger and its store are the shared
    ones. -/
def processorOf (number : Nat) : Component PaymentService IdempotentPaymentProcessor where
  get service := ⟨service.ledger, service.store, (service.replicas number).acknowledgements,
    (service.replicas number).ledgerEntriesCreated⟩
  set processor service := ⟨processor.ledger, processor.store, Function.update service.replicas
    number ⟨processor.acknowledgements, processor.ledgerEntriesCreated⟩⟩
  get_set processor service := by simp only [Function.update_self]
  set_get service := by simp only [Function.update_eq_self]
  set_set processor other service := by simp only [Function.update_idem]

def ledgerOf : Component PaymentService Ledger where
  get service := service.ledger
  set ledger service := { service with ledger }
  get_set _ _ := rfl
  set_get _ := rfl
  set_set _ _ _ := rfl

/-- The stored records, in the order they were first remembered. -/
def records (service : PaymentService) : List IdempotencyRecord :=
  service.store.records.values

end PaymentService

/-- A delivery to a processor, the replacement of a processor by a new one on
    the same ledger and store, or a write of other code. -/
inductive ServiceCall
  | process (number : Nat) (delivery : PaymentDelivery) (key : IdempotencyKey)
  | replace (number : Nat)
  | write (call : LedgerCall)

namespace ServiceCall

/-- Make the call. Only a delivery is answered. -/
def exec : ServiceCall → Action PaymentService (Option IdempotentAcknowledgement)
  | .process number delivery key => do
      let acknowledgement ← (PaymentService.processorOf number).zoom
        (IdempotentPaymentProcessor.process delivery key)
      return some acknowledgement
  | .replace number => do
      modify fun service => (PaymentService.processorOf number).set
        (IdempotentPaymentProcessor.new service.ledger service.store) service
      return none
  | .write call => do
      PaymentService.ledgerOf.zoom call.exec
      return none

/-- What other code has written by the call. -/
def foreign : ServiceCall → Except Raised (Option IdempotentAcknowledgement) →
    List LedgerEntry
  | .write call, outcome => call.written outcome
  | _, _ => []

/-- What other code writes in a run. -/
def foreignEntries (service : PaymentService) (calls : List ServiceCall) : List LedgerEntry :=
  (List.zipWith foreign calls (outcomes exec service calls)).flatten

/-- The answers a run gives. -/
def answers (service : PaymentService) (calls : List ServiceCall) :
    List IdempotentAcknowledgement :=
  (outcomes exec service calls).filterMap fun outcome =>
    match outcome with
    | .ok answer => answer
    | .error _ => none

theorem answers_cons_some {service : PaymentService} {call : ServiceCall}
    {answer : IdempotentAcknowledgement} (h : outcome call.exec service = .ok (some answer))
    (calls : List ServiceCall) :
    answers service (call :: calls) = answer :: answers (after call.exec service) calls := by
  unfold answers
  rw [outcomes, h]
  rfl

theorem answers_cons_none {service : PaymentService} {call : ServiceCall}
    (h : ∀ answer, outcome call.exec service ≠ .ok (some answer)) (calls : List ServiceCall) :
    answers service (call :: calls) = answers (after call.exec service) calls := by
  unfold answers
  rw [outcomes]
  generalize outcome call.exec service = result at h ⊢
  cases result with
  | error e => rfl
  | ok answer =>
      cases answer with
      | none => rfl
      | some answer => exact absurd rfl (h answer)

end ServiceCall

namespace PaymentService

/-- The answer is the first one for the key. -/
def Original (key : IdempotencyKey) (answer : IdempotentAcknowledgement) : Prop :=
  answer.key = key ∧ answer.duplicate = false

instance (key : IdempotencyKey) : DecidablePred (Original key) :=
  fun answer => inferInstanceAs (Decidable (answer.key = key ∧ answer.duplicate = false))

/-- How often the key is stored, which is never or once. -/
def stored (key : IdempotencyKey) (service : PaymentService) : Nat :=
  if (service.store.get? key).isSome then 1 else 0

/-- The ledger holds the entries of other code and one debit for each stored
    record, in the order of the records. -/
structure Served (foreign : List LedgerEntry) (service : PaymentService) : Prop where
  wellFormed : service.ledger.WellFormed
  posted : ∃ debits, service.ledger.entries.Perm (foreign ++ debits) ∧
    List.Forall₂ PaymentProcessingResult.Reports (service.records.map (·.result)) debits
  kept : ∀ record ∈ service.records,
    record.result.ledgerEntryId = record.originalRequestId ++ "-DEBIT"

/-- What was stored for a key stays its result. -/
def Remembers (before later : PaymentService) : Prop :=
  ∀ key record, before.store.get? key = some record →
    ∃ now, later.store.get? key = some now ∧ now.result = record.result

theorem Remembers.refl (service : PaymentService) : service.Remembers service :=
  fun _ record h => ⟨record, h, rfl⟩

theorem Remembers.trans {a b c : PaymentService} (hab : a.Remembers b) (hbc : b.Remembers c) :
    a.Remembers c := by
  intro key record h
  rcases hab key record h with ⟨middle, hmiddle, hsame⟩
  rcases hbc key middle hmiddle with ⟨now, hnow, hsame'⟩
  exact ⟨now, hnow, hsame'.trans hsame⟩

/-! ### One call -/

section Call

variable {service : PaymentService}

/-- What is stored once a key was processed. -/
def firstRecord (delivery : PaymentDelivery) (key : IdempotencyKey) : IdempotencyRecord :=
  { key, originalRequestId := delivery.originalRequestId
    firstProcessedAt := delivery.arrivedAt + 1, completionStatus := .completed
    result := delivery.result }

/-- A delivery is answered from the store, or processed as the first of its
    key, or refused without a trace, by whichever processor. -/
theorem process_cases (service : PaymentService) (number : Nat) (delivery : PaymentDelivery)
    (key : IdempotencyKey) :
    let call := ServiceCall.process number delivery key
    (∃ record, service.store.get? key = some record ∧
      outcome call.exec service = .ok (some ⟨delivery, key, record.result, true⟩) ∧
      (after call.exec service).ledger = service.ledger ∧
      (after call.exec service).store = ⟨service.store.records.set key
        { record with duplicateDeliveryCount := record.duplicateDeliveryCount + 1 }⟩) ∨
    (service.store.get? key = none ∧ ∃ hfits : delivery.debitPosting.Fits service.ledger,
      outcome call.exec service = .ok (some ⟨delivery, key, delivery.result, false⟩) ∧
      (after call.exec service).ledger = service.ledger.push (Posting.entry hfits) ∧
      (after call.exec service).store
        = ⟨service.store.records.set key (firstRecord delivery key)⟩) ∨
    ∃ e, outcome call.exec service = .error e ∧ after call.exec service = service := by
  intro call
  rcases IdempotentPaymentProcessor.process_cases ((processorOf number).get service) delivery key
    with ⟨record, hrecord, -, -, hrun⟩ | ⟨hnew, hfits, hrun⟩ | ⟨e, hrun⟩
  · have hexec : call.exec.run service = .ok _ _ := run_bind_of_ok (Component.zoom_run_ok hrun)
    rw [after_of_ok hexec, outcome_of_ok hexec]
    exact Or.inl ⟨record, hrecord, rfl, rfl, rfl⟩
  · have hexec : call.exec.run service = .ok _ _ := run_bind_of_ok (Component.zoom_run_ok hrun)
    rw [after_of_ok hexec, outcome_of_ok hexec]
    exact Or.inr (Or.inl ⟨hnew, hfits, rfl, rfl, rfl⟩)
  · have hexec : call.exec.run service = .error _ _ :=
      run_bind_of_error (Component.zoom_run_error hrun)
    rw [after_of_error hexec, outcome_of_error hexec, (processorOf number).set_get]
    exact Or.inr (Or.inr ⟨e, rfl, rfl⟩)

/-- A write of other code touches the ledger only. -/
theorem write_run (service : PaymentService) (call : LedgerCall) :
    (ServiceCall.write call).foreign (outcome (ServiceCall.write call).exec service)
        = call.written (outcome call.exec service.ledger) ∧
      (∀ answer, outcome (ServiceCall.write call).exec service ≠ .ok (some answer)) ∧
      (after (ServiceCall.write call).exec service).ledger = after call.exec service.ledger ∧
      (after (ServiceCall.write call).exec service).store = service.store := by
  have hget : ledgerOf.get service = service.ledger := rfl
  cases hrun : call.exec.run service.ledger with
  | ok a ledger =>
      have hexec : (ServiceCall.write call).exec.run service
          = .ok none (ledgerOf.set ledger service) :=
        run_bind_of_ok (Component.zoom_run_ok (hget ▸ hrun))
      rw [after_of_ok hexec, outcome_of_ok hexec, after_of_ok hrun, outcome_of_ok hrun]
      refine ⟨rfl, fun answer h => ?_, rfl, rfl⟩
      cases h
  | error e ledger =>
      have hexec : (ServiceCall.write call).exec.run service
          = .error e (ledgerOf.set ledger service) :=
        run_bind_of_error (Component.zoom_run_error (hget ▸ hrun))
      rw [after_of_error hexec, outcome_of_error hexec, after_of_error hrun, outcome_of_error hrun]
      refine ⟨rfl, fun answer h => ?_, rfl, rfl⟩
      cases h

theorem remembers_of_set {later : PaymentService} {key : IdempotencyKey}
    {record : IdempotencyRecord} (hstore : later.store = ⟨service.store.records.set key record⟩)
    (hsame : ∀ old, service.store.get? key = some old → record.result = old.result) :
    service.Remembers later := by
  intro other old hold
  rw [hstore, IdempotencyStore.get?, Dict.get?_set]
  by_cases hother : other = key
  · rw [if_pos hother]
    exact ⟨record, rfl, hsame old (hother ▸ hold)⟩
  · rw [if_neg hother]
    exact ⟨old, hold, rfl⟩

/-- What is stored stays, through replacements and foreign writes. -/
theorem remembers_exec (service : PaymentService) (call : ServiceCall) :
    service.Remembers (after call.exec service) := by
  cases call with
  | process number delivery key =>
      rcases process_cases service number delivery key with ⟨record, hrecord, -, -, hstore⟩ |
        ⟨hnew, hfits, -, -, hstore⟩ | ⟨e, -, hsame⟩
      · refine remembers_of_set hstore fun old hold => ?_
        rw [hrecord, Option.some.injEq] at hold
        rw [← hold]
      · refine remembers_of_set hstore fun old hold => ?_
        rw [hnew] at hold
        cases hold
      · rw [hsame]
        exact Remembers.refl service
  | replace number => exact fun _ record h => ⟨record, h, rfl⟩
  | write call =>
      intro key record h
      rw [(write_run service call).2.2.2]
      exact ⟨record, h, rfl⟩

/-- An answer carries the result that is stored from then on. -/
theorem answered_exec (service : PaymentService) (call : ServiceCall)
    {answer : IdempotentAcknowledgement} (h : outcome call.exec service = .ok (some answer)) :
    ∃ record, (after call.exec service).store.get? answer.key = some record ∧
      record.result = answer.result := by
  cases call with
  | process number delivery key =>
      rcases process_cases service number delivery key with ⟨record, -, hout, -, hstore⟩ |
        ⟨-, -, hout, -, hstore⟩ | ⟨e, hout, -⟩
      · rw [hout, Except.ok.injEq, Option.some.injEq] at h
        rw [hstore, ← h, IdempotencyStore.get?, Dict.get?_set_self]
        exact ⟨_, rfl, rfl⟩
      · rw [hout, Except.ok.injEq, Option.some.injEq] at h
        rw [hstore, ← h, IdempotencyStore.get?, Dict.get?_set_self]
        exact ⟨_, rfl, rfl⟩
      · rw [hout] at h
        cases h
  | replace number => cases h
  | write call => exact absurd h ((write_run service call).2.1 answer)

/-- How many original answers for the key a call gives. -/
def originalOf (key : IdempotencyKey) :
    Except Raised (Option IdempotentAcknowledgement) → Nat
  | .ok (some answer) => if Original key answer then 1 else 0
  | _ => 0

theorem originalOf_of_none (key : IdempotencyKey)
    {result : Except Raised (Option IdempotentAcknowledgement)}
    (h : ∀ answer, result ≠ .ok (some answer)) : originalOf key result = 0 := by
  cases result with
  | error e => rfl
  | ok answer =>
      cases answer with
      | none => rfl
      | some answer => exact absurd rfl (h answer)

/-- A call gives an original answer for a key exactly if it stores the key. -/
theorem original_exec (service : PaymentService) (call : ServiceCall) (key : IdempotencyKey) :
    stored key (after call.exec service)
      = stored key service + originalOf key (outcome call.exec service) := by
  cases call with
  | process number delivery other =>
      rcases process_cases service number delivery other with ⟨record, hrecord, hout, -, hstore⟩ |
        ⟨hnew, hfits, hout, -, hstore⟩ | ⟨e, hout, hsame⟩
      · -- A repeated answer is no original, and it replaces a record by a record.
        rw [hout]
        simp only [originalOf, Original, Bool.true_eq_false, and_false, if_false, Nat.add_zero]
        unfold stored
        rw [hstore, IdempotencyStore.get?, Dict.get?_set]
        by_cases hkey : key = other
        · rw [if_pos hkey, hkey, hrecord]
          rfl
        · rw [if_neg hkey]
          rfl
      · -- A first answer stores its own key and no other.
        rw [hout]
        simp only [originalOf, Original, and_true]
        unfold stored
        rw [hstore, IdempotencyStore.get?, Dict.get?_set]
        by_cases hkey : key = other
        · rw [if_pos hkey, hkey, hnew]
          simp
        · rw [if_neg hkey, if_neg (Ne.symm hkey)]
          rfl
      · rw [hout, hsame]
        rfl
  | replace number => rfl
  | write call =>
      have hrun := write_run service call
      rw [originalOf_of_none key hrun.2.1, stored, hrun.2.2.2]
      rfl

/-- An answer from the store leaves the records saying what they said. -/
theorem served_repeated {others : List LedgerEntry} {later : PaymentService}
    {key : IdempotencyKey} {record : IdempotencyRecord} (h : Served others service)
    (hrecord : service.store.get? key = some record) (hledger : later.ledger = service.ledger)
    (hstore : later.store = ⟨service.store.records.set key
      { record with duplicateDeliveryCount := record.duplicateDeliveryCount + 1 }⟩) :
    Served others later := by
  -- Nothing but the count of duplicates is another.
  have hmap : ∀ {β : Type} (f : IdempotencyRecord → β),
      f { record with duplicateDeliveryCount := record.duplicateDeliveryCount + 1 } = f record →
      later.records.map f = service.records.map f := by
    intro β f hsame
    unfold records
    rw [hstore]
    exact Dict.map_values_set_of_get? service.store.records key record _ f hrecord hsame
  refine ⟨hledger ▸ h.wellFormed, ?_, fun now hmem => ?_⟩
  · rw [hledger, hmap (·.result) rfl]
    exact h.posted
  · have hpair := List.mem_map_of_mem
      (f := fun record => (record.result.ledgerEntryId, record.originalRequestId)) hmem
    rw [hmap (fun record => (record.result.ledgerEntryId, record.originalRequestId)) rfl] at hpair
    rcases List.mem_map.mp hpair with ⟨old, hold, hsame⟩
    rw [Prod.mk.injEq] at hsame
    rw [← hsame.1, ← hsame.2]
    exact h.kept old hold

/-- A first answer adds a record and its debit. -/
theorem served_remembered {others : List LedgerEntry} {later : PaymentService}
    {delivery : PaymentDelivery} {key : IdempotencyKey} (h : Served others service)
    (hnew : service.store.get? key = none) (hfits : delivery.debitPosting.Fits service.ledger)
    (hledger : later.ledger = service.ledger.push (Posting.entry hfits))
    (hstore : later.store = ⟨service.store.records.set key (firstRecord delivery key)⟩) :
    Served others later := by
  have hrecords : later.records = service.records ++ [firstRecord delivery key] := by
    unfold records
    rw [hstore]
    exact Dict.values_set_of_none service.store.records key _ hnew
  refine ⟨?_, ?_, fun record hmem => ?_⟩
  · rw [hledger]
    exact Ledger.wellFormed_push _ _ h.wellFormed (Posting.refusal_entry hfits)
  · rcases h.posted with ⟨debits, hentries, hreports⟩
    refine ⟨debits ++ [Posting.entry hfits], ?_, ?_⟩
    · rw [hledger, Ledger.push_entries, ← List.append_assoc]
      exact hentries.append_right _
    · rw [hrecords, List.map_append]
      exact List.rel_append hreports (.cons ⟨rfl, rfl, rfl, rfl, rfl⟩ .nil)
  · rw [hrecords] at hmem
    rcases List.mem_append.mp hmem with hmem | hmem
    · exact h.kept record hmem
    · rw [List.mem_singleton.mp hmem]
      rfl

/-- A call keeps the invariant. -/
theorem served_exec {others : List LedgerEntry} (h : Served others service) (call : ServiceCall) :
    Served (others ++ call.foreign (outcome call.exec service)) (after call.exec service) := by
  cases call with
  | process number delivery key =>
      change Served (others ++ []) _
      rw [List.append_nil]
      rcases process_cases service number delivery key with ⟨record, hrecord, -, hledger, hstore⟩ |
        ⟨hnew, hfits, -, hledger, hstore⟩ | ⟨e, -, hsame⟩
      · exact served_repeated h hrecord hledger hstore
      · exact served_remembered h hnew hfits hledger hstore
      · rw [hsame]
        exact h
  | replace number =>
      change Served (others ++ []) _
      rw [List.append_nil]
      exact ⟨h.wellFormed, h.posted, h.kept⟩
  | write call =>
      rcases write_run service call with ⟨hwritten, -, hledger, hstore⟩
      have hrecords : (after (ServiceCall.write call).exec service).records = service.records := by
        rw [records, hstore, records]
      refine ⟨?_, ?_, hrecords ▸ h.kept⟩
      · rw [hledger]
        exact Ledger.wellFormed_exec service.ledger call h.wellFormed
      · -- What other code writes comes after the debits so far, and is no debit.
        rcases h.posted with ⟨debits, hentries, hreports⟩
        refine ⟨debits, ?_, hrecords ▸ hreports⟩
        rw [hledger, hwritten, Ledger.entries_exec, List.append_assoc]
        refine (hentries.append_right _).trans ?_
        rw [List.append_assoc]
        exact List.perm_append_comm.append_left others

end Call

/-! ### Runs -/

theorem served_new {ledger : Ledger} (hwf : ledger.WellFormed) :
    Served ledger.entries (new ledger) where
  wellFormed := hwf
  posted := ⟨[], by rw [List.append_nil]; exact List.Perm.refl _, List.Forall₂.nil⟩
  kept _ hmem := absurd hmem List.not_mem_nil

theorem served_finalState (calls : List ServiceCall) {others : List LedgerEntry}
    {service : PaymentService} (h : Served others service) :
    Served (others ++ ServiceCall.foreignEntries service calls)
      (finalState ServiceCall.exec service calls) := by
  induction calls generalizing others service with
  | nil =>
      rw [ServiceCall.foreignEntries, outcomes, List.zipWith_nil_right, List.flatten_nil,
        List.append_nil]
      exact h
  | cons call calls ih =>
      have hrest := ih (served_exec h call)
      rw [List.append_assoc] at hrest
      exact hrest

theorem remembers_finalState (service : PaymentService) (calls : List ServiceCall) :
    service.Remembers (finalState ServiceCall.exec service calls) :=
  invariant_finalState (fun _ call h => h.trans (remembers_exec _ call))
    (Remembers.refl service) calls

/-- The original answers of a run are counted by what it has stored. -/
theorem original_finalState (service : PaymentService) (calls : List ServiceCall)
    (key : IdempotencyKey) :
    stored key (finalState ServiceCall.exec service calls) = stored key service +
      (ServiceCall.answers service calls).countP (Original key) := by
  induction calls generalizing service with
  | nil => rfl
  | cons call calls ih =>
      rw [finalState_cons, ih, original_exec]
      by_cases hanswer : ∃ answer, outcome call.exec service = .ok (some answer)
      · rcases hanswer with ⟨answer, hout⟩
        rw [ServiceCall.answers_cons_some hout, List.countP_cons, hout, originalOf]
        simp only [decide_eq_true_eq]
        omega
      · have hnone := fun answer => not_exists.mp hanswer answer
        rw [ServiceCall.answers_cons_none hnone, originalOf_of_none key hnone, Nat.add_zero]

/-- The answers of a run carry what is stored in the end. -/
theorem answered_finalState (service : PaymentService) (calls : List ServiceCall)
    {answer : IdempotentAcknowledgement} (h : answer ∈ ServiceCall.answers service calls) :
    ∃ record, (finalState ServiceCall.exec service calls).store.get? answer.key = some record ∧
      record.result = answer.result := by
  induction calls generalizing service with
  | nil => cases h
  | cons call calls ih =>
      by_cases hanswer : ∃ given, outcome call.exec service = .ok (some given)
      · rcases hanswer with ⟨given, hout⟩
        rw [ServiceCall.answers_cons_some hout] at h
        rcases List.mem_cons.mp h with rfl | h
        · -- What it carries was stored then, and stays.
          rcases answered_exec service call hout with ⟨record, hrecord, hresult⟩
          rcases remembers_finalState (after call.exec service) calls answer.key record
            hrecord with ⟨now, hnow, hsame⟩
          exact ⟨now, hnow, hsame.trans hresult⟩
        · exact ih _ h
      · rw [ServiceCall.answers_cons_none fun given => not_exists.mp hanswer given] at h
        exact ih _ h

/-! ### As one processor -/

/-- Two services with the same ledger and the same store. -/
def SameBooks (service other : PaymentService) : Prop :=
  service.ledger = other.ledger ∧ service.store = other.store

/-- What a processor keeps for itself has no part in its answer. -/
theorem alike_process (processor other : IdempotentPaymentProcessor)
    (hledger : processor.ledger = other.ledger) (hstore : processor.store = other.store)
    (delivery : PaymentDelivery) (key : IdempotencyKey) :
    Alike (fun _ a b => a.ledger = b.ledger ∧ a.store = b.store)
      (fun a b => a.ledger = b.ledger ∧ a.store = b.store)
      (IdempotentPaymentProcessor.process delivery key)
      (IdempotentPaymentProcessor.process delivery key) processor other := by
  cases hget : processor.store.get? key with
  | some record =>
      have hget' : other.store.get? key = some record := hstore ▸ hget
      by_cases hsame : record.result.originalRequestId = delivery.originalRequestId ∧
          record.result.amount = delivery.amount
      · refine alike_of_ok (IdempotentPaymentProcessor.process_of_stored hget hsame.1 hsame.2)
          (IdempotentPaymentProcessor.process_of_stored hget' hsame.1 hsame.2) ⟨hledger, ?_⟩
        simp only [IdempotentPaymentProcessor.repeated, hstore]
      · rcases IdempotentPaymentProcessor.process_of_conflict hget hsame with ⟨e, hrun⟩
        rcases IdempotentPaymentProcessor.process_of_conflict hget' hsame with ⟨e', hrun'⟩
        exact alike_of_error hrun hrun' ⟨hledger, hstore⟩
  | none =>
      have hget' : other.store.get? key = none := hstore ▸ hget
      -- Whether the debit fits is decided by the ledger, which both have.
      by_cases hfits : delivery.debitPosting.Fits processor.ledger
      · have hfits' : delivery.debitPosting.Fits other.ledger := hledger ▸ hfits
        refine alike_of_ok (IdempotentPaymentProcessor.process_of_fits hget hfits)
          (IdempotentPaymentProcessor.process_of_fits hget' hfits') ⟨?_, ?_⟩
        · simp only [IdempotentPaymentProcessor.remembered, Posting.entry, hledger]
        · simp only [IdempotentPaymentProcessor.remembered, hstore]
      · have hfits' : ¬ delivery.debitPosting.Fits other.ledger := hledger ▸ hfits
        rcases IdempotentPaymentProcessor.process_of_not_fits hget hfits with ⟨e, hrun⟩
        rcases IdempotentPaymentProcessor.process_of_not_fits hget' hfits' with ⟨e', hrun'⟩
        exact alike_of_error hrun hrun' ⟨hledger, hstore⟩

/-- It makes no difference which processor a delivery goes to. -/
theorem alike_exec {service other : PaymentService} (h : SameBooks service other)
    (number number' : Nat) (delivery : PaymentDelivery) (key : IdempotencyKey) :
    Alike (fun _ => SameBooks) SameBooks (ServiceCall.process number delivery key).exec
      (ServiceCall.process number' delivery key).exec service other := by
  have hzoom : Alike (fun _ => SameBooks) SameBooks
      ((processorOf number).zoom (IdempotentPaymentProcessor.process delivery key))
      ((processorOf number').zoom (IdempotentPaymentProcessor.process delivery key))
      service other := by
    rcases alike_process ((processorOf number).get service) ((processorOf number').get other)
      h.1 h.2 delivery key with
      ⟨a, s, t, hs, ht, hend⟩ | ⟨e, e', s, t, hs, ht, hend⟩
    · exact alike_of_ok (Component.zoom_run_ok hs) (Component.zoom_run_ok ht) hend
    · exact alike_of_error (Component.zoom_run_error hs) (Component.zoom_run_error ht) hend
  exact hzoom.bind fun acknowledgement s t hend => alike_pure hend

/-- The call as it is made of a single processor: nothing is to be replaced. -/
def single : ServiceCall → Option ServiceCall
  | .process _ delivery key => some (.process 0 delivery key)
  | .replace _ => none
  | .write call => some (.write call)

/-- A single processor gives the same answers and leaves the same books. -/
theorem single_finalState (calls : List ServiceCall) {service other : PaymentService}
    (h : SameBooks service other) :
    ServiceCall.answers service calls
        = ServiceCall.answers other (calls.filterMap single) ∧
      SameBooks (finalState ServiceCall.exec service calls)
        (finalState ServiceCall.exec other (calls.filterMap single)) := by
  induction calls generalizing service other with
  | nil => exact ⟨rfl, h⟩
  | cons call calls ih =>
      cases call with
      | process number delivery key =>
          have halike := alike_exec h number 0 delivery key
          rcases ih halike.after with ⟨hanswers, hbooks⟩
          refine ⟨?_, hbooks⟩
          change _ = ServiceCall.answers other
            (.process 0 delivery key :: calls.filterMap single)
          -- Both answer the same, or both refuse.
          rcases halike with ⟨a, s, t, hs, ht, -⟩ | ⟨e, e', s, t, hs, ht, -⟩
          · cases a with
            | some answer =>
                rw [ServiceCall.answers_cons_some (outcome_of_ok hs), hanswers,
                  ServiceCall.answers_cons_some (outcome_of_ok ht)]
            | none =>
                rw [ServiceCall.answers_cons_none (by rw [outcome_of_ok hs]; simp), hanswers,
                  ServiceCall.answers_cons_none (by rw [outcome_of_ok ht]; simp)]
          · rw [ServiceCall.answers_cons_none (by rw [outcome_of_error hs]; simp), hanswers,
              ServiceCall.answers_cons_none (by rw [outcome_of_error ht]; simp)]
      | replace number => exact ih h
      | write call =>
          rcases write_run service call with ⟨-, hnone, hledger, hstore⟩
          rcases write_run other call with ⟨-, hnone', hledger', hstore'⟩
          have hafter : SameBooks (after (ServiceCall.write call).exec service)
              (after (ServiceCall.write call).exec other) := by
            refine ⟨?_, ?_⟩
            · rw [hledger, hledger', h.1]
            · rw [hstore, hstore', h.2]
          rcases ih hafter with ⟨hanswers, hbooks⟩
          refine ⟨?_, hbooks⟩
          change _ = ServiceCall.answers other (.write call :: calls.filterMap single)
          rw [ServiceCall.answers_cons_none hnone, hanswers, ServiceCall.answers_cons_none hnone']

/-! ### Exactly once -/

/-- What it means for a service that money moved once for each record. -/
structure ExactlyOnce (others : List LedgerEntry) (service : PaymentService) : Prop where
  /-- The debit of a record is in the ledger, and it is the only entry under
      its identifier. -/
  debited : ∀ record ∈ service.records, ∃ entry,
    (service.ledger.entries.filter fun other => other.entryId = record.result.ledgerEntryId)
      = [entry] ∧ record.result.Reports entry
  requests : (service.records.map (·.originalRequestId)).Nodup
  /-- The other entries are those of other code, and the balance is theirs less
      the recorded amounts. -/
  added : service.ledger.entries.length = others.length + service.records.length
  balance : replay service.ledger.entries
    = .ok (totalCents others - (service.records.map (·.result.amount.cents)).sum)

/-- Since no identifier occurs twice in a ledger, the debit of a record is the
    only entry under its identifier, also among those of other code. -/
theorem exactlyOnce_of_served {others : List LedgerEntry} {service : PaymentService}
    (h : Served others service) : ExactlyOnce others service := by
  rcases h.posted with ⟨debits, hentries, hreports⟩
  have hlength : service.records.length = debits.length := by
    have := hreports.length_eq
    rwa [List.length_map] at this
  refine ⟨fun record hmem => ?_, ?_, ?_, ?_⟩
  · rcases List.mem_iff_getElem.mp hmem with ⟨i, hi, hget⟩
    have hi' : i < debits.length := hlength ▸ hi
    have hreport : record.result.Reports debits[i] := by
      have := hreports.get (by rwa [List.length_map]) hi'
      simpa [hget] using this
    refine ⟨debits[i], ?_, hreport⟩
    rw [← hreport.entryId]
    refine Keyed.filter_eq_singleton LedgerEntry.entryId h.wellFormed.ids_nodup ?_
    exact hentries.mem_iff.mpr (List.mem_append_right _ (List.getElem_mem hi'))
  · -- The identifiers of the debits are made from those of the requests.
    have hids : debits.map (·.entryId)
        = (service.records.map (·.originalRequestId)).map (· ++ "-DEBIT") := by
      rw [map_of_reports _ (·.ledgerEntryId) (fun h => h.entryId) hreports, List.map_map,
        List.map_map]
      exact List.map_congr_left fun record hmem => h.kept record hmem
    have hnodup := ((hentries.map (·.entryId)).nodup_iff).mp h.wellFormed.ids_nodup
    rw [List.map_append, List.nodup_append, hids] at hnodup
    exact List.Nodup.of_map _ hnodup.2.1
  · rw [hentries.length_eq, List.length_append, hlength]
  · have hsigned : debits.map (·.signedCents)
        = (service.records.map (·.result.amount.cents)).map fun cents => -cents := by
      rw [map_of_reports _ (fun result => -result.amount.cents) (fun h => ?_) hreports,
        List.map_map, List.map_map]
      · rfl
      · rw [LedgerEntry.signedCents, h.entryType, if_neg EntryType.debit_ne_credit, h.amount,
          neg_one_mul]
    have htotal : totalCents service.ledger.entries = totalCents (others ++ debits) :=
      (hentries.map LedgerEntry.signedCents).sum_eq
    rw [replay_eq_sum h.wellFormed, htotal, totalCents, totalCents, List.map_append,
      List.sum_append, hsigned, ← List.sum_neg, sub_eq_add_neg]

/-- Money moves exactly once for each key, however many processors share the
    ledger and the store, however often one is replaced, and whatever other
    code writes meanwhile. The service answers as a single processor does: a
    key has one original answer if it is stored and none otherwise, and every
    answer carries what is stored. -/
theorem service_exactly_once (opening : List LedgerCall) (calls : List ServiceCall) :
    let service := new (finalState LedgerCall.exec Ledger.new opening)
    let final := finalState ServiceCall.exec service calls
    let answers := ServiceCall.answers service calls
    (answers = ServiceCall.answers service (calls.filterMap single) ∧
      SameBooks final (finalState ServiceCall.exec service (calls.filterMap single))) ∧
    (∀ key, answers.countP (Original key) = stored key final) ∧
    (∀ answer ∈ answers, ∃ record, final.store.get? answer.key = some record ∧
      record.result = answer.result) ∧
    ExactlyOnce (service.ledger.entries ++ ServiceCall.foreignEntries service calls) final := by
  intro service final answers
  have hwf : service.ledger.WellFormed := Ledger.reachable_wellFormed ⟨opening, rfl⟩
  refine ⟨single_finalState calls ⟨rfl, rfl⟩, fun key => ?_,
    fun answer hmem => answered_finalState service calls hmem,
    exactlyOnce_of_served (served_finalState calls (served_new hwf))⟩
  have hcount := original_finalState service calls key
  have hstart : stored key service = 0 := rfl
  rw [hstart, Nat.zero_add] at hcount
  exact hcount.symm

end PaymentService

end BankSim
