import BankSim.Theory.Operations
import BankSim.Theory.PaymentQueues
import BankSim.Theory.PoolRecurrence
import BankSim.Theory.Posting

/-!
# Capacity Changes When, Not What

The work of a payment posts one entry at the current time. As long as the
payments have identifiers of their own, nothing can be wrong with the entry:
the clock never moves backward, so neither do the posting times.

Both dispatchers do the work of payments in the order of arrival, whatever
their capacity, so both leave the same entries in the ledger. `Posted` is the
ledger when the work of so many payments is done. It says nothing about the
dispatcher, and so the results at the end of a run do not depend on it.

## Main definitions

* `Payment.Valid`: The payment can be posted.
* `Payment.effect`, `Payment.centsOn`: What it does to the ledger.
* `Posted`: The ledger after so many payments.
* `Scenario.Results`: The ledger at the end.

## Theorems

* `posted_next`: The work of one more payment.
* `undisturbed_post`: Posting does not get in the way of a dispatcher.
* `capacity_keeps_results`: The results are the same for every capacity,
  worker count and dispatcher.
-/

namespace BankSim

open Exec

namespace Payment

/-- The payment can be posted, under a new identifier. -/
structure Valid (payment : Payment) : Prop where
  paymentId_nonblank : isBlank payment.paymentId = false
  accountId_nonblank : isBlank payment.accountId = false
  amount_pos : 0 < payment.amount
  description_nonblank : isBlank payment.description = false

instance (payment : Payment) : Decidable payment.Valid :=
  decidable_of_iff
    (isBlank payment.paymentId = false ∧ isBlank payment.accountId = false ∧ 0 < payment.amount ∧
      isBlank payment.description = false)
    ⟨fun ⟨a, b, c, d⟩ => ⟨a, b, c, d⟩, fun ⟨a, b, c, d⟩ => ⟨a, b, c, d⟩⟩

/-- The payment as it is scheduled to arrive. -/
def arrivalAt (self : Payment) (time : Int) : Arrival Payment :=
  ⟨time, self.paymentId, self.paymentType, self⟩

def posting (self : Payment) (time : Int) : Posting where
  entryId := self.paymentId
  accountId := self.accountId
  cents := self.amount
  entryType := self.entryType
  description := self.description
  postedAt := time

/-- The row that the payment adds to the effects on the ledger. -/
def effect (self : Payment) : String × EntryType × Int :=
  (self.paymentId, self.entryType, self.amount)

/-- What the payment does to the balance of an account. -/
def centsOn (self : Payment) (accountId : String) : Int :=
  if self.accountId = accountId then (if self.entryType = .credit then 1 else -1) * self.amount
  else 0

end Payment

namespace Scenario

variable {δ : Type}

/-- The work of a payment is a posting at the current time. -/
theorem post_run (time : δ → Int) (payment : Payment) (s : Scenario δ) :
    (post time payment).run s
      = (ledgerOf.zoom (payment.posting (time s.dispatcher)).post).run s := by
  rw [Posting.zoom_post]
  rfl

end Scenario

/-! ### The ledger after so many payments -/

/-- The ledger when the work of the first payments is done, none of it after
    the given time. -/
structure Posted (start : Ledger) (arrivals : List (Arrival Payment)) (done : Nat) (time : Int)
    (ledger : Ledger) : Prop where
  wellFormed : ledger.WellFormed
  last_le : ledger.lastPostedAt ≤ time
  entries : ∃ entries, ledger.entries = start.entries ++ entries ∧
    (entries.map fun entry => (entry.entryId, entry.entryType, entry.amount.cents))
      = (arrivals.take done).map (·.work.effect)
  balances : ∀ accountId, accountBalance ledger accountId
    = accountBalance start accountId + ((arrivals.take done).map (·.work.centsOn accountId)).sum

/-- The arrivals are valid payments with identifiers of their own. -/
structure Postable (start : Ledger) (arrivals : List (Arrival Payment)) : Prop where
  valid : ∀ arrival ∈ arrivals, arrival.work.Valid
  distinct : (arrivals.map (·.work.paymentId)).Nodup
  fresh : ∀ arrival ∈ arrivals, ∀ entry ∈ start.entries, arrival.work.paymentId ≠ entry.entryId

theorem posted_start {start : Ledger} (arrivals : List (Arrival Payment))
    (hwf : start.WellFormed) {time : Int} (hlast : start.lastPostedAt ≤ time) :
    Posted start arrivals 0 time start where
  wellFormed := hwf
  last_le := hlast
  entries := ⟨[], (List.append_nil _).symm, rfl⟩
  balances _ := (Int.add_zero _).symm

section Next

variable {start ledger : Ledger} {arrivals : List (Arrival Payment)} {done : Nat}
  {arrival : Arrival Payment} {time now : Int}

/-- The next payment can be posted. -/
theorem Posted.fits (h : Posted start arrivals done time ledger)
    (hpostable : Postable start arrivals) (hget : arrivals[done]? = some arrival)
    (htime : time ≤ now) (hnow : 0 ≤ now) : (arrival.work.posting now).Fits ledger := by
  have hmem := List.mem_of_getElem? hget
  have hvalid := hpostable.valid arrival hmem
  refine
    { cents_pos := hvalid.amount_pos
      entryId_nonblank := hvalid.paymentId_nonblank
      accountId_nonblank := hvalid.accountId_nonblank
      description_nonblank := hvalid.description_nonblank
      postedAt_nonneg := hnow
      originalTransferId_nonblank := rfl
      achReturnId_nonblank := rfl
      fresh := ?_
      last_le := le_trans h.last_le htime }
  rcases h.entries with ⟨entries, hentries, heffects⟩
  refine h.wellFormed.fresh hentries
    (fun entry hentry => (hpostable.fresh arrival hmem entry hentry).symm) ?_
  intro entry hentry hid
  -- A posted entry is an earlier payment's, and its identifier another.
  have hids : entries.map (·.entryId) = (arrivals.take done).map (·.work.paymentId) := by
    have hfirst := congrArg (List.map Prod.fst) heffects
    rw [List.map_map, List.map_map] at hfirst
    exact hfirst
  have hearlier : arrival.work.paymentId ∈ (arrivals.take done).map (·.work.paymentId) := by
    rw [← hids]
    exact List.mem_map.mpr ⟨entry, hentry, hid⟩
  have hlater : arrival ∈ arrivals.drop done := by
    have hdrop : (arrivals.drop done)[0]? = arrivals[done + 0]? := List.getElem?_drop
    rw [Nat.add_zero, hget] at hdrop
    exact List.mem_of_getElem? hdrop
  have hdistinct := hpostable.distinct
  rw [← List.take_append_drop done arrivals, List.map_append, List.nodup_append] at hdistinct
  exact hdistinct.2.2 _ hearlier _ (List.mem_map_of_mem hlater) rfl

/-- The work of one more payment. -/
theorem posted_next (h : Posted start arrivals done time ledger)
    (hget : arrivals[done]? = some arrival) (hfits : (arrival.work.posting now).Fits ledger) :
    Posted start arrivals (done + 1) now (ledger.push (Posting.entry hfits)) := by
  have htake : arrivals.take (done + 1) = arrivals.take done ++ [arrival] := by
    rw [List.take_add_one, hget]
    rfl
  refine
    { wellFormed := Ledger.wellFormed_push _ _ h.wellFormed (Posting.refusal_entry hfits)
      last_le := ?_
      entries := ?_
      balances := fun accountId => ?_ }
  · rw [Ledger.push_lastPostedAt]
    exact le_refl now
  · rcases h.entries with ⟨entries, hentries, heffects⟩
    refine ⟨entries ++ [Posting.entry hfits], ?_, ?_⟩
    · rw [Ledger.push_entries, hentries, List.append_assoc]
    · rw [htake, List.map_append, List.map_append, heffects]
      rfl
  · rw [accountBalance_push, h.balances accountId, htake, List.map_append, List.sum_append,
      Int.add_assoc]
    refine congrArg _ (congrArg _ ?_)
    rw [List.map_singleton, List.sum_singleton]
    rfl

end Next

/-- Posting payments does not get in the way of a dispatcher. -/
theorem undisturbed_post {δ κ : Type} (schedulerOf : Component δ (EventScheduler κ))
    (kind : κ → Bool) {start : Ledger} {arrivals : List (Arrival Payment)}
    (hpostable : Postable start arrivals) :
    Undisturbed Scenario.dispatcherOf schedulerOf kind
      (Scenario.post fun dispatcher => (schedulerOf.get dispatcher).clock.time)
      (Empty.elim : Empty → Action (Scenario δ) Unit) arrivals
      fun done time s => Posted start arrivals done time s.ledger where
  frame _ _ _ _ h := h
  work done arrival time s hget h htime := by
    have hfits := h.fits hpostable hget htime (schedulerOf.get s.dispatcher).clock.time_nonneg
    refine ⟨Scenario.ledgerOf.set (s.ledger.push (Posting.entry hfits)) s, ?_,
      posted_next h hget hfits, schedulerOf.get s.dispatcher, .refl, ?_⟩
    · rw [Scenario.post_run]
      exact Component.zoom_run_ok (Posting.post_of_fits hfits)
    · exact (schedulerOf.set_get s.dispatcher).symm
  other callback := callback.elim

/-! ### The results of a run -/

/-- The ledger at the end has, after what it started with, the effects of the
    payments in the order of their arrival, and the balances that follow. -/
structure Scenario.Results {δ : Type} (start : Ledger) (rows : List (Int × Payment))
    (final : Scenario δ) : Prop where
  effects : final.ledgerEffects = (sortedBy (·.1) rows).map (·.2.effect)
  balances : ∀ accountId, accountBalance final.ledger accountId
    = accountBalance start accountId + (rows.map (·.2.centsOn accountId)).sum

/-- The rows as they are scheduled to arrive. -/
def arrivalsOf (rows : List (Int × Payment)) : List (Arrival Payment) :=
  rows.map fun row => row.2.arrivalAt row.1

theorem sortedBy_arrivalsOf (rows : List (Int × Payment)) :
    sortedBy (·.time) (arrivalsOf rows) = arrivalsOf (sortedBy (·.1) rows) :=
  (map_sortedBy (fun arrival : Arrival Payment => arrival.time)
    (fun row : Int × Payment => row.2.arrivalAt row.1) rows).symm

theorem Posted.results {δ : Type} {start : Ledger} {opening : LedgerEntry}
    (hstart : start.entries = [opening]) {rows : List (Int × Payment)} {time : Int}
    {final : Scenario δ}
    (h : Posted start (arrivalsOf (sortedBy (·.1) rows)) (arrivalsOf (sortedBy (·.1) rows)).length
      time final.ledger) : final.Results start rows where
  effects := by
    rcases h.entries with ⟨entries, hentries, heffects⟩
    rw [List.take_length, arrivalsOf, List.map_map] at heffects
    rw [Scenario.ledgerEffects, hentries, hstart]
    exact heffects
  balances accountId := by
    have hbalance := h.balances accountId
    rw [List.take_length, arrivalsOf, List.map_map] at hbalance
    rw [hbalance]
    exact congrArg _ (((sortedBy_perm (·.1) rows).map _).sum_eq)

/-- What a new ledger is once it accepted an entry. -/
theorem append_new {opening : LedgerEntry} {ledger : Ledger}
    (h : (Ledger.append opening).run Ledger.new = .ok () ledger) :
    ledger.WellFormed ∧ ledger.entries = [opening] ∧ ledger.lastPostedAt = opening.postedAt := by
  have hwf := Ledger.wellFormed_exec Ledger.new (.append opening) Ledger.wellFormed_new
  rw [LedgerCall.exec, after_of_ok h] at hwf
  rw [Ledger.append_eq_step] at h
  rcases (Guarded.step_ok_iff _ _ _ _ _).mp h with ⟨-, hpush⟩
  refine ⟨hwf, ?_, ?_⟩
  · rw [hpush, Ledger.push_entries]
    rfl
  · rw [hpush, Ledger.push_lastPostedAt]

/-- Distinct payments, none of which has the identifier of the opening, can be
    posted in the order in which they arrive. -/
theorem postable_arrivals {opening : LedgerEntry} {ledger : Ledger}
    (hentries : ledger.entries = [opening]) {rows : List (Int × Payment)}
    (hvalid : ∀ row ∈ rows, row.2.Valid) (hids : (rows.map (·.2.paymentId)).Nodup)
    (hfresh : ∀ row ∈ rows, row.2.paymentId ≠ opening.entryId) :
    Postable ledger (arrivalsOf (sortedBy (·.1) rows)) := by
  have hmem : ∀ arrival ∈ arrivalsOf (sortedBy (·.1) rows), ∃ row ∈ rows,
      arrival = row.2.arrivalAt row.1 := by
    intro arrival harrival
    rcases List.mem_map.mp harrival with ⟨row, hrow, rfl⟩
    exact ⟨row, (sortedBy_perm _ rows).mem_iff.mp hrow, rfl⟩
  refine ⟨fun arrival harrival => ?_, ?_, fun arrival harrival entry hentry => ?_⟩
  · rcases hmem arrival harrival with ⟨row, hrow, rfl⟩
    exact hvalid row hrow
  · rw [arrivalsOf, List.map_map]
    exact (((sortedBy_perm (·.1) rows).map _).nodup_iff).mpr hids
  · rcases hmem arrival harrival with ⟨row, hrow, rfl⟩
    rw [hentries, List.mem_singleton] at hentry
    rw [hentry]
    exact hfresh row hrow

/-- A scenario whose payments are scheduled up front comes to its end without
    raising, and leaves the same results in the ledger. -/
def Scenario.Ends {δ κ : Type} (schedulerOf : Component δ (EventScheduler κ))
    (arrivalCallback : Arrival Payment → κ) (call : κ → Action (Scenario δ) Unit) (start : Ledger)
    (rows : List (Int × Payment)) (dispatcher : δ) : Prop :=
  ∃ received final,
    ((dispatcherOf.comp schedulerOf).zoom
      (scheduleArrivals arrivalCallback (arrivalsOf rows))).run ⟨dispatcher, start⟩
        = .ok () received ∧
    (∃ enough, ∀ rounds, enough ≤ rounds →
      (EventScheduler.run (dispatcherOf.comp schedulerOf) call rounds).run received
        = .ok true final) ∧
    final.Results start rows

/-- Payments that post to a ledger which holds one opening entry leave the same
    effects and balances behind, whether a queue of any capacity or a pool of
    any number of workers of any speed dispatches them. -/
theorem capacity_keeps_results (opening : LedgerEntry) (ledger : Ledger)
    (hopening : (Ledger.append opening).run Ledger.new = .ok () ledger)
    (hposted : opening.postedAt = 0) (rows : List (Int × Payment))
    (htimes : ∀ row ∈ rows, 0 ≤ row.1)
    (hvalid : ∀ row ∈ rows, row.2.Valid) (hids : (rows.map (·.2.paymentId)).Nodup)
    (hfresh : ∀ row ∈ rows, row.2.paymentId ≠ opening.entryId) :
    (∀ capacity : Int, 0 < capacity → ∃ queue : PaymentQueue Payment (QueueCallback Payment Empty),
      PaymentQueue.new EventScheduler.new capacity = .ok queue ∧
        Scenario.Ends PaymentQueue.schedulerOf PaymentQueue.arrivalCallback
          (QueueCallback.call Scenario.dispatcherOf
            (Scenario.post fun queue => queue.scheduler.clock.time) Empty.elim)
          ledger rows queue) ∧
      ∀ workerCount processingTime : Int, 0 < workerCount → 0 < processingTime →
        ∃ configuration, CapacityConfiguration.new workerCount processingTime = .ok configuration ∧
          Scenario.Ends WorkerPool.schedulerOf WorkerPool.arrivalCallback
            (PoolCallback.call Scenario.dispatcherOf
              (Scenario.post fun pool => pool.scheduler.clock.time) Empty.elim)
            ledger rows (WorkerPool.new EventScheduler.new configuration) := by
  rcases append_new hopening with ⟨hwf, hentries, hlast⟩
  have hsorted := sortedBy_arrivalsOf rows
  have hpostable := postable_arrivals hentries hvalid hids hfresh
  have hnonblank : ∀ arrival ∈ arrivalsOf (sortedBy (·.1) rows),
      isBlank arrival.paymentId = false := by
    intro arrival harrival
    rcases List.mem_map.mp harrival with ⟨row, -, rfl⟩
    exact (hpostable.valid _ harrival).paymentId_nonblank
  have htimes' : ∀ arrival ∈ arrivalsOf rows, (0 : Int) ≤ arrival.time := by
    intro arrival harrival
    rcases List.mem_map.mp harrival with ⟨row, hrow, rfl⟩
    exact htimes row hrow
  have hstart := posted_start (arrivalsOf (sortedBy (·.1) rows)) hwf (hlast.trans hposted).le
  constructor
  · intro capacity hcapacity
    rcases PaymentQueue.new_of_pos Payment (QueueCallback Payment Empty) EventScheduler.new
      hcapacity with ⟨queue, hqueue⟩
    -- The payments only touch the ledger, and the queue never does.
    have hI := undisturbed_post (@PaymentQueue.schedulerOf Payment _)
      (PaymentQueue.ownCallback : QueueCallback Payment Empty → Bool) hpostable
    rw [← hsorted] at hI hnonblank hstart
    rcases PaymentQueue.progress_new ⟨0, by decide⟩ hI htimes' (s := ⟨queue, ledger⟩) hqueue hstart
      with ⟨received, hreceived, hprogress⟩
    rcases (PaymentQueue.queue_run hI hnonblank hprogress).2 inferInstance with
      ⟨final, hfinal, -, time, hresult⟩
    rw [hsorted] at hresult
    exact ⟨queue, hqueue, received, final, hreceived, hfinal, hresult.results hentries⟩
  · intro workerCount processingTime hworkers hprocessing
    rcases CapacityConfiguration.new_of_pos hworkers hprocessing with
      ⟨configuration, hconfiguration⟩
    -- So do a pool and the same payments.
    have hI := undisturbed_post (@WorkerPool.schedulerOf Payment _)
      (WorkerPool.ownCallback : PoolCallback Payment Empty → Bool) hpostable
    have hpool : Scenario.dispatcherOf.get (⟨WorkerPool.new EventScheduler.new configuration,
        ledger⟩ : Scenario (WorkerPool Payment (PoolCallback Payment Empty)))
          = WorkerPool.new (EventScheduler.new ⟨0, by decide⟩) configuration := rfl
    rw [← hsorted] at hI hnonblank hstart
    rcases WorkerPool.progress_new ⟨0, by decide⟩ hI htimes' hpool hstart with
      ⟨received, hreceived, hprogress⟩
    rcases (WorkerPool.pool_run hI (sortedBy_pairwise _ _) hnonblank hprogress).2 inferInstance
      with ⟨final, hfinal, -, time, hresult⟩
    rw [hsorted] at hresult
    exact ⟨configuration, hconfiguration, received, final, hreceived, hfinal,
      hresult.results hentries⟩

/-- One credit of $1,000.00, posted at time zero. -/
def capacityOpening : LedgerEntry :=
  { entryId := "OPEN", accountId := "A", amount := { cents := 100000 }, entryType := .credit
    description := "Open", sequence := 1, postedAt := 0 }

/-- Two transfers and the return of the first, of which the return is scheduled
    first. -/
def capacityWorkload : List (Int × Payment) :=
  [ (1, ⟨"RETURN-001", .achReturn, "A", .credit, 10000, "Queued ACH work"⟩),
    (0, ⟨"ACH-001", .achTransfer, "A", .debit, 10000, "Queued ACH work"⟩),
    (0, ⟨"ACH-002", .achTransfer, "A", .debit, 20000, "Queued ACH work"⟩) ]

theorem capacity_keeps_results_workload :
    (∃ queue : PaymentQueue Payment (QueueCallback Payment Empty),
      PaymentQueue.new EventScheduler.new 2 = .ok queue ∧
        Scenario.Ends PaymentQueue.schedulerOf PaymentQueue.arrivalCallback
          (QueueCallback.call Scenario.dispatcherOf
            (Scenario.post fun queue => queue.scheduler.clock.time) Empty.elim)
          (Ledger.new.push capacityOpening) capacityWorkload queue) ∧
      ∃ configuration, CapacityConfiguration.new 4 2 = .ok configuration ∧
        Scenario.Ends WorkerPool.schedulerOf WorkerPool.arrivalCallback
          (PoolCallback.call Scenario.dispatcherOf
            (Scenario.post fun pool => pool.scheduler.clock.time) Empty.elim)
          (Ledger.new.push capacityOpening) capacityWorkload
          (WorkerPool.new EventScheduler.new configuration) := by
  have h := capacity_keeps_results capacityOpening (Ledger.new.push capacityOpening)
    (Ledger.append_run capacityOpening Ledger.new) rfl capacityWorkload (by decide) (by decide)
    (by decide) (by decide)
  exact ⟨h.1 2 (by decide), h.2 4 2 (by decide) (by decide)⟩

end BankSim
