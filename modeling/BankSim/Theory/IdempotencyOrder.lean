import BankSim.Theory.Idempotency

/-!
# Which Processing Orders Are Possible

The same deliveries may be processed in many orders. Only the first delivery
of each request reaches the ledger, and it is posted one unit after it
arrived, while the ledger takes nothing that is posted before what it already
holds. So an order goes through exactly when the first deliveries it picks are
in order of arrival, and then it does not matter which order it was: the
debits are those of the requests, and the balance is what they leave.

`firstDeliveries` is the list of first deliveries and `Progress` ties it to
the processor along the loop.

## Main definitions

* `firstDeliveries`: The first delivery of each request, in order.
* `Progress`: Where the processor stands after some first deliveries.
* `debitsOf`: The debits of a ledger.
* `requestedDebits`: The debits a list of deliveries asks for.

## Theorems

* `processAll_iff`: When the loop returns, and what it leaves.
* `processing_order_iff`: When an order has the right effect.
-/

namespace BankSim

open Exec IdempotentPaymentProcessor

/-- Note a delivery unless an earlier one has the same request. -/
def noteFirst (firsts : List PaymentDelivery) (delivery : PaymentDelivery) :
    List PaymentDelivery :=
  if delivery.originalRequestId ∈ firsts.map (·.originalRequestId) then firsts
  else firsts ++ [delivery]

/-- The first delivery of each request, in processing order. -/
def firstDeliveries (deliveries : List PaymentDelivery) : List PaymentDelivery :=
  deliveries.foldl noteFirst []

/-- The deliveries are in order of arrival. -/
def ArrivalsInOrder (deliveries : List PaymentDelivery) : Prop :=
  deliveries.Pairwise fun a b => a.arrivedAt ≤ b.arrivedAt

instance (deliveries : List PaymentDelivery) : Decidable (ArrivalsInOrder deliveries) :=
  inferInstanceAs (Decidable (deliveries.Pairwise _))

/-- Two deliveries of one request ask for the same amount. -/
def OneAmountEach (deliveries : List PaymentDelivery) : Prop :=
  ∀ a ∈ deliveries, ∀ b ∈ deliveries,
    a.originalRequestId = b.originalRequestId → a.amount = b.amount

instance (deliveries : List PaymentDelivery) : Decidable (OneAmountEach deliveries) :=
  inferInstanceAs (Decidable (∀ a ∈ deliveries, ∀ b ∈ deliveries, _))

theorem prefix_noteFirst (firsts : List PaymentDelivery) (delivery : PaymentDelivery) :
    firsts <+: noteFirst firsts delivery := by
  unfold noteFirst
  split_ifs
  · exact List.prefix_rfl
  · exact List.prefix_append _ _

theorem prefix_foldl_noteFirst (deliveries firsts : List PaymentDelivery) :
    firsts <+: deliveries.foldl noteFirst firsts := by
  induction deliveries generalizing firsts with
  | nil => exact List.prefix_rfl
  | cons delivery deliveries ih => exact (prefix_noteFirst firsts delivery).trans (ih _)

theorem mem_noteFirst {firsts : List PaymentDelivery} {delivery first : PaymentDelivery}
    (h : first ∈ noteFirst firsts delivery) : first ∈ firsts ∨ first = delivery := by
  unfold noteFirst at h
  split_ifs at h
  · exact .inl h
  · exact (List.mem_append.mp h).imp_right List.mem_singleton.mp

/-- First deliveries are among the deliveries. -/
theorem mem_foldl_noteFirst {deliveries firsts : List PaymentDelivery} {first : PaymentDelivery}
    (h : first ∈ deliveries.foldl noteFirst firsts) : first ∈ firsts ∨ first ∈ deliveries := by
  induction deliveries generalizing firsts with
  | nil => exact .inl h
  | cons delivery deliveries ih =>
      rcases ih h with hmem | hmem
      · rcases mem_noteFirst hmem with hmem | rfl
        · exact .inl hmem
        · exact .inr List.mem_cons_self
      · exact .inr (List.mem_cons_of_mem delivery hmem)

/-- Every delivery has a first one. -/
theorem exists_foldl_noteFirst {deliveries : List PaymentDelivery} (firsts : List PaymentDelivery)
    {delivery : PaymentDelivery} (h : delivery ∈ deliveries) :
    ∃ first ∈ deliveries.foldl noteFirst firsts,
      first.originalRequestId = delivery.originalRequestId := by
  induction deliveries generalizing firsts with
  | nil => exact absurd h List.not_mem_nil
  | cons head deliveries ih =>
      rcases List.mem_cons.mp h with rfl | h
      · -- The head is noted now, or something before it was.
        have hnoted : ∃ first ∈ noteFirst firsts delivery,
            first.originalRequestId = delivery.originalRequestId := by
          unfold noteFirst
          split_ifs with hseen
          · exact List.mem_map.mp hseen
          · exact ⟨delivery, List.mem_append_right _ (List.mem_singleton_self _), rfl⟩
        rcases hnoted with ⟨first, hmem, hsame⟩
        exact ⟨first, (prefix_foldl_noteFirst deliveries _).subset hmem, hsame⟩
      · exact ih (noteFirst firsts head) h

/-- First deliveries stand in the order of the deliveries. -/
theorem sublist_foldl_noteFirst (deliveries firsts : List PaymentDelivery) :
    (deliveries.foldl noteFirst firsts).Sublist (firsts ++ deliveries) := by
  induction deliveries generalizing firsts with
  | nil => simp
  | cons delivery deliveries ih =>
      have hnoted : (noteFirst firsts delivery).Sublist (firsts ++ [delivery]) := by
        unfold noteFirst
        split_ifs
        · exact List.sublist_append_left _ _
        · exact List.Sublist.refl _
      rw [List.append_cons]
      exact (ih _).trans (hnoted.append_right deliveries)

/-- No request has two first deliveries. -/
theorem nodup_foldl_noteFirst (deliveries : List PaymentDelivery) {firsts : List PaymentDelivery}
    (h : (firsts.map (·.originalRequestId)).Nodup) :
    ((deliveries.foldl noteFirst firsts).map (·.originalRequestId)).Nodup := by
  induction deliveries generalizing firsts with
  | nil => exact h
  | cons delivery deliveries ih =>
      refine ih ?_
      unfold noteFirst
      split_ifs with hseen
      · exact h
      · rw [List.map_append, List.map_singleton]
        exact h.append (List.nodup_singleton _) (by simpa using hseen)

theorem idempotencyKeyFor_eq_iff (a b : PaymentDelivery) :
    idempotencyKeyFor a = idempotencyKeyFor b ↔ a.originalRequestId = b.originalRequestId := by
  constructor
  · intro h
    exact (String.append_right_inj "IDEMPOTENCY-").mp (congrArg IdempotencyKey.value h)
  · intro h
    simp only [idempotencyKeyFor, h]

/-- Where the processor stands once some first deliveries were processed, in
    the ledger after its opening entry and in the store. -/
structure Progress (opening : LedgerEntry) (firsts : List PaymentDelivery)
    (processor : IdempotentPaymentProcessor) : Prop where
  wellFormed : processor.ledger.WellFormed
  posted : ∃ entries, processor.ledger.entries = opening :: entries ∧
    List.Forall₂ PaymentProcessingResult.Reports (firsts.map (·.result)) entries
  stored : ∀ first ∈ firsts, ∃ record,
    processor.store.get? (idempotencyKeyFor first) = some record ∧ record.result = first.result
  fresh : ∀ delivery : PaymentDelivery,
    delivery.originalRequestId ∉ firsts.map (·.originalRequestId) →
      processor.store.get? (idempotencyKeyFor delivery) = none
  inOrder : ArrivalsInOrder firsts

section Progress

variable {opening : LedgerEntry} {firsts : List PaymentDelivery}
  {self : IdempotentPaymentProcessor} {delivery : PaymentDelivery}

/-- A delivery whose request was processed is answered from the store. -/
theorem progress_duplicate (h : Progress opening firsts self)
    (hseen : delivery.originalRequestId ∈ firsts.map (·.originalRequestId))
    (hamount : ∀ first ∈ firsts, first.originalRequestId = delivery.originalRequestId →
      first.amount = delivery.amount) :
    ∃ ack t, (process delivery (idempotencyKeyFor delivery)).run self = .ok ack t ∧
      Progress opening firsts t := by
  rcases List.mem_map.mp hseen with ⟨first, hfirst, hsame⟩
  rcases h.stored first hfirst with ⟨record, hrecord, hresult⟩
  rw [(idempotencyKeyFor_eq_iff first delivery).mpr hsame] at hrecord
  have hid : record.result.originalRequestId = delivery.originalRequestId := by
    rw [hresult]
    exact hsame
  have hcents : record.result.amount = delivery.amount := by
    rw [hresult]
    exact hamount first hfirst hsame
  refine ⟨_, _, process_of_stored hrecord hid hcents, h.wellFormed, h.posted, ?_, ?_, h.inOrder⟩
  · intro other hother
    rcases h.stored other hother with ⟨old, hold, hkept⟩
    rcases remembers_repeated hrecord _ old hold with ⟨now, hnow, hstill⟩
    exact ⟨now, hnow, hstill.trans hkept⟩
  · -- A request that is still unknown has another key.
    intro other hother
    have hne : idempotencyKeyFor other ≠ idempotencyKeyFor delivery := by
      intro hkey
      rw [(idempotencyKeyFor_eq_iff other delivery).mp hkey] at hother
      exact hother hseen
    change (self.store.records.set _ _).get? _ = none
    rw [Dict.get?_set_ne _ _ hne]
    exact h.fresh other hother

/-- The identifiers in use are that of the opening entry and those of the
    debits. -/
theorem mem_entryIds_iff (h : Progress opening firsts self) (entryId : String) :
    entryId ∈ self.ledger.entryIds ↔ entryId = opening.entryId ∨
      ∃ first ∈ firsts, entryId = first.originalRequestId ++ "-DEBIT" := by
  rcases h.posted with ⟨entries, hentries, hreports⟩
  have hids : entries.map (·.entryId)
      = firsts.map fun first => first.originalRequestId ++ "-DEBIT" := by
    rw [map_of_reports _ (·.ledgerEntryId) (fun h => h.entryId) hreports, List.map_map]
    rfl
  rw [h.wellFormed.ids_eq, List.mem_toFinset, hentries, List.map_cons, List.mem_cons, hids,
    List.mem_map]
  simp only [eq_comm]

/-- The last posting time is that of the last first delivery, or of the
    opening entry. -/
theorem lastPostedAt_le_iff (h : Progress opening firsts self) (hopening : opening.postedAt = 0) :
    self.ledger.lastPostedAt ≤ delivery.arrivedAt + 1 ↔
      ∀ first ∈ firsts, first.arrivedAt ≤ delivery.arrivedAt := by
  rcases h.posted with ⟨entries, hentries, hreports⟩
  have harrived := delivery.arrivedAt_nonneg
  have hinOrder := h.inOrder
  rcases List.eq_nil_or_concat' firsts with rfl | ⟨front, last, rfl⟩
  · rw [List.map_nil, List.forall₂_nil_left_iff] at hreports
    simp only [Ledger.lastPostedAt, hentries, hreports, List.getLast?_singleton, hopening,
      List.not_mem_nil, false_implies, implies_true, iff_true]
    omega
  · rw [List.map_append, List.map_singleton] at hreports
    rcases List.eq_nil_or_concat' entries with rfl | ⟨before, final, rfl⟩
    · have := hreports.length_eq
      simp at this
    -- Read from the end, the two lists correspond as well.
    have hreverse := List.forall₂_reverse_iff.mpr hreports
    simp only [List.reverse_append, List.reverse_singleton, List.singleton_append] at hreverse
    have hposted := (List.forall₂_cons.mp hreverse).1.postedAt
    have hlast : (opening :: (before ++ [final])).getLast? = some final := by
      rw [← List.cons_append, List.getLast?_append, List.getLast?_singleton, Option.some_or]
    rw [ArrivalsInOrder, List.pairwise_append] at hinOrder
    rw [Ledger.lastPostedAt, hentries, hlast]
    change final.postedAt ≤ _ ↔ _
    rw [hposted]
    change last.arrivedAt + 1 ≤ delivery.arrivedAt + 1 ↔ _
    constructor
    · -- What came before the last one arrived no later than it.
      intro hle first hfirst
      rcases List.mem_append.mp hfirst with hfront | hend
      · have := hinOrder.2.2 first hfront last (List.mem_singleton_self last)
        omega
      · rw [List.mem_singleton.mp hend]
        omega
    · intro hall
      have := hall last (List.mem_append_right _ (List.mem_singleton_self last))
      omega

/-- A first delivery fits when the opening entry does not have its identifier
    and no earlier first delivery arrived later. -/
theorem fits_first_iff (h : Progress opening firsts self) (hopening : opening.postedAt = 0)
    (hnew : delivery.originalRequestId ∉ firsts.map (·.originalRequestId)) :
    delivery.debitPosting.Fits self.ledger ↔
      opening.entryId ≠ delivery.originalRequestId ++ "-DEBIT" ∧
        ∀ first ∈ firsts, first.arrivedAt ≤ delivery.arrivedAt := by
  rw [delivery.fits_debitPosting_iff, lastPostedAt_le_iff h hopening, mem_entryIds_iff h]
  refine and_congr_left fun _ => ?_
  rw [not_or, ne_comm]
  refine and_iff_left ?_
  rintro ⟨first, hfirst, hsame⟩
  rw [String.append_left_inj] at hsame
  exact hnew (hsame ▸ List.mem_map_of_mem hfirst)

theorem progress_first (h : Progress opening firsts self)
    (hnew : delivery.originalRequestId ∉ firsts.map (·.originalRequestId))
    (hfits : delivery.debitPosting.Fits self.ledger)
    (horder : ∀ first ∈ firsts, first.arrivedAt ≤ delivery.arrivedAt) :
    ∃ ack t, (process delivery (idempotencyKeyFor delivery)).run self = .ok ack t ∧
      Progress opening (firsts ++ [delivery]) t := by
  have hkey := h.fresh delivery hnew
  refine ⟨_, _, process_of_fits hkey hfits, ?_, ?_, ?_, ?_, ?_⟩
  · exact Ledger.wellFormed_push _ _ h.wellFormed (Posting.refusal_entry hfits)
  · rcases h.posted with ⟨entries, hentries, hreports⟩
    refine ⟨entries ++ [Posting.entry hfits], ?_, ?_⟩
    · change self.ledger.entries ++ [Posting.entry hfits] = _
      rw [hentries, List.cons_append]
    · rw [List.map_append]
      exact List.rel_append hreports (.cons ⟨rfl, rfl, rfl, rfl, rfl⟩ .nil)
  · intro first hfirst
    rcases List.mem_append.mp hfirst with hfirst | hfirst
    · rcases h.stored first hfirst with ⟨old, hold, hkept⟩
      rcases remembers_remembered hkey (Posting.entry hfits) _ old hold with ⟨now, hnow, hstill⟩
      exact ⟨now, hnow, hstill.trans hkept⟩
    · rw [List.mem_singleton.mp hfirst]
      exact ⟨_, Dict.get?_set_self self.store.records _ _, rfl⟩
  · -- No other request has taken up its key here.
    intro other hother
    rw [List.map_append, List.mem_append, not_or, List.map_singleton, List.mem_singleton] at hother
    have hne : idempotencyKeyFor other ≠ idempotencyKeyFor delivery := by
      rw [ne_eq, idempotencyKeyFor_eq_iff]
      exact hother.2
    change (self.store.records.set _ _).get? _ = none
    rw [Dict.get?_set_ne _ _ hne]
    exact h.fresh other hother.1
  · refine List.pairwise_append.mpr ⟨h.inOrder, List.pairwise_singleton _ _, ?_⟩
    intro first hfirst other hother
    rw [List.mem_singleton.mp hother]
    exact horder first hfirst

end Progress

/-- From where the processor stands, the loop returns exactly when every first
    delivery it still meets fits, and then it has processed them all. -/
theorem processAll_iff {opening : LedgerEntry} (hopening : opening.postedAt = 0)
    (deliveries : List PaymentDelivery) {firsts : List PaymentDelivery}
    {self : IdempotentPaymentProcessor} (h : Progress opening firsts self)
    (hclear : ∀ first ∈ firsts, opening.entryId ≠ first.originalRequestId ++ "-DEBIT")
    (hamount : OneAmountEach (firsts ++ deliveries)) :
    (∃ t, (processAll deliveries).run self = .ok () t ∧
        Progress opening (deliveries.foldl noteFirst firsts) t) ∨
      (∃ e t, (processAll deliveries).run self = .error e t) ∧
        ¬ (ArrivalsInOrder (deliveries.foldl noteFirst firsts) ∧
          ∀ first ∈ deliveries.foldl noteFirst firsts,
            opening.entryId ≠ first.originalRequestId ++ "-DEBIT") := by
  induction deliveries generalizing firsts self with
  | nil => exact .inl ⟨self, rfl, h⟩
  | cons delivery deliveries ih =>
      rw [List.foldl_cons]
      have htail : ∀ x ∈ firsts ++ deliveries, x ∈ firsts ++ delivery :: deliveries := by
        intro x hx
        rcases List.mem_append.mp hx with hx | hx
        · exact List.mem_append_left _ hx
        · exact List.mem_append_right _ (List.mem_cons_of_mem delivery hx)
      by_cases hseen : delivery.originalRequestId ∈ firsts.map (·.originalRequestId)
      · -- A duplicate changes neither the ledger nor the first deliveries.
        rcases progress_duplicate h hseen (fun first hfirst hsame =>
          hamount first (List.mem_append_left _ hfirst) delivery
            (List.mem_append_right _ List.mem_cons_self) hsame) with ⟨ack, t, hrun, ht⟩
        rw [noteFirst, if_pos hseen, processAll, run_bind_of_ok hrun]
        exact ih ht hclear fun a ha b hb => hamount a (htail a ha) b (htail b hb)
      · rw [noteFirst, if_neg hseen]
        by_cases hfits : delivery.debitPosting.Fits self.ledger
        · -- It becomes the latest of the first deliveries, and its debit is posted.
          have hallowed := (fits_first_iff h hopening hseen).mp hfits
          rcases progress_first h hseen hfits hallowed.2 with ⟨ack, t, hrun, ht⟩
          rw [processAll, run_bind_of_ok hrun]
          refine ih ht (fun first hfirst => ?_) fun a ha b hb => ?_
          · rcases List.mem_append.mp hfirst with hfirst | hfirst
            · exact hclear first hfirst
            · rw [List.mem_singleton.mp hfirst]
              exact hallowed.1
          · rw [List.append_assoc, List.singleton_append] at ha hb
            exact hamount a ha b hb
        · -- The first delivery that does not fit raises, and it stays among the first ones.
          rcases process_of_not_fits (h.fresh delivery hseen) hfits with ⟨e, hrun⟩
          refine .inr ⟨⟨e, self, ?_⟩, ?_⟩
          · rw [processAll]
            exact run_bind_of_error hrun
          · rintro ⟨hinOrder, hfree⟩
            have hprefix := prefix_foldl_noteFirst deliveries (firsts ++ [delivery])
            have hmem := hprefix.subset
              (List.mem_append_right firsts (List.mem_singleton_self delivery))
            refine hfits ((fits_first_iff h hopening hseen).mpr ⟨hfree delivery hmem, ?_⟩)
            intro first hfirst
            have hsorted : ArrivalsInOrder (firsts ++ [delivery]) :=
              hinOrder.sublist hprefix.sublist
            exact (List.pairwise_append.mp hsorted).2.2 first hfirst delivery
              (List.mem_singleton_self delivery)

/-- The debits of a ledger: which there are, and of what amount. -/
def debitsOf (ledger : Ledger) : Finset (String × Money) :=
  ((ledger.entries.filter fun entry => entry.entryType = .debit).map fun entry =>
    (entry.entryId, entry.amount)).toFinset

/-- The debits that some deliveries ask for, one for each request. -/
def requestedDebits (deliveries : List PaymentDelivery) : Finset (String × Money) :=
  (deliveries.map fun delivery =>
    (delivery.originalRequestId ++ "-DEBIT", delivery.amount)).toFinset

section Effect

variable {opening : LedgerEntry} {firsts : List PaymentDelivery}
  {self : IdempotentPaymentProcessor}

/-- Apart from a credit that opens it, the ledger has the debits of the first
    deliveries. -/
theorem progress_debits (h : Progress opening firsts self) (hcredit : opening.entryType = .credit) :
    debitsOf self.ledger = requestedDebits firsts := by
  rcases h.posted with ⟨entries, hentries, hreports⟩
  rw [debitsOf, hentries, filter_debit_of_reports hcredit hreports,
    map_of_reports _ (fun result => (result.ledgerEntryId, result.amount))
      (fun h => by rw [h.entryId, h.amount]) hreports, List.map_map]
  rfl

/-- The balance is what the debits leave of the opening credit. -/
theorem progress_replay (h : Progress opening firsts self) (hcredit : opening.entryType = .credit) :
    replay self.ledger.entries
      = .ok (opening.amount.cents - ∑ debit ∈ requestedDebits firsts, debit.2.cents) := by
  have hnodup := h.wellFormed.ids_nodup
  rcases h.posted with ⟨entries, hentries, hreports⟩
  rw [hentries, List.map_cons, List.nodup_cons] at hnodup
  have hids := map_of_reports _ (·.ledgerEntryId) (fun h => h.entryId) hreports
  -- No request is among the first deliveries twice, so nothing collapses in the set.
  have hdistinct : (firsts.map fun first =>
      (first.originalRequestId ++ "-DEBIT", first.amount)).Nodup := by
    refine List.Nodup.of_map Prod.fst ?_
    rw [List.map_map]
    rw [hids, List.map_map] at hnodup
    exact hnodup.2
  rw [replay_of_reports h.wellFormed hentries hcredit hreports, requestedDebits,
    List.sum_toFinset _ hdistinct, List.map_map, List.map_map]
  rfl

/-- No debit was given the identifier of the opening entry. -/
theorem progress_clear (h : Progress opening firsts self) :
    ∀ first ∈ firsts, opening.entryId ≠ first.originalRequestId ++ "-DEBIT" := by
  intro first hfirst hsame
  have hnodup := h.wellFormed.ids_nodup
  rcases h.posted with ⟨entries, hentries, hreports⟩
  rw [hentries, List.map_cons, List.nodup_cons,
    map_of_reports _ (·.ledgerEntryId) (fun h => h.entryId) hreports, List.map_map] at hnodup
  refine hnodup.1 ?_
  rw [hsame]
  exact List.mem_map_of_mem hfirst

end Effect

/-- First deliveries ask for the same debits as all deliveries. -/
theorem requestedDebits_firstDeliveries {deliveries order : List PaymentDelivery}
    (hamount : OneAmountEach deliveries) (hperm : order.Perm deliveries) :
    requestedDebits (firstDeliveries order) = requestedDebits deliveries := by
  ext debit
  simp only [requestedDebits, List.mem_toFinset, List.mem_map]
  constructor
  · rintro ⟨first, hfirst, rfl⟩
    rcases mem_foldl_noteFirst hfirst with hnil | hmem
    · exact absurd hnil List.not_mem_nil
    · exact ⟨first, hperm.mem_iff.mp hmem, rfl⟩
  · rintro ⟨delivery, hmem, rfl⟩
    rcases exists_foldl_noteFirst [] (hperm.mem_iff.mpr hmem) with ⟨first, hfirst, hsame⟩
    refine ⟨first, hfirst, ?_⟩
    rcases mem_foldl_noteFirst hfirst with hnil | hfirst
    · exact absurd hnil List.not_mem_nil
    · rw [hsame, hamount first (hperm.mem_iff.mp hfirst) delivery hmem hsame]

/-- A new processor on a ledger that holds an opening entry and nothing else. -/
def openedWith (opening : LedgerEntry) : IdempotentPaymentProcessor :=
  new (after (Ledger.append opening) Ledger.new)

theorem progress_openedWith {opening : LedgerEntry} (hsequence : opening.sequence = 1) :
    Progress opening [] (openedWith opening) := by
  have haccept : Ledger.new.refusal opening = none := by
    refine (Ledger.refusal_eq_none_iff _ _).mpr ⟨?_, Finset.notMem_empty _, opening.postedAt_nonneg⟩
    rw [hsequence]
    rfl
  have hledger : (openedWith opening).ledger = Ledger.new.push opening := by
    change after (Ledger.append opening) Ledger.new = _
    refine after_of_ok (a := ()) ?_
    rw [Ledger.append_run, haccept]
  refine ⟨?_, ⟨[], ?_, .nil⟩, fun first h => absurd h List.not_mem_nil, fun _ _ => rfl, .nil⟩
  · rw [hledger]
    exact Ledger.wellFormed_push _ _ Ledger.wellFormed_new haccept
  · rw [hledger]
    rfl

/-- An order of the deliveries goes through when the first deliveries it picks
    are in order of arrival and the opening entry has none of their
    identifiers, and then the debits and the balance are those of any such
    order. Every other order raises. -/
theorem processing_order_iff (opening : LedgerEntry) (hcredit : opening.entryType = .credit)
    (hsequence : opening.sequence = 1) (hopening : opening.postedAt = 0)
    (deliveries : List PaymentDelivery) (hamount : OneAmountEach deliveries)
    (order : List PaymentDelivery) (hperm : order.Perm deliveries) :
    let possible := ArrivalsInOrder (firstDeliveries order) ∧
      ∀ delivery ∈ deliveries, opening.entryId ≠ delivery.originalRequestId ++ "-DEBIT"
    (possible → ∃ t, (processAll order).run (openedWith opening) = .ok () t ∧
        debitsOf t.ledger = requestedDebits deliveries ∧
        replay t.ledger.entries
          = .ok (opening.amount.cents - ∑ debit ∈ requestedDebits deliveries, debit.2.cents)) ∧
      (¬ possible → ∃ e t, (processAll order).run (openedWith opening) = .error e t) := by
  intro possible
  have hsame : OneAmountEach ([] ++ order) := fun a ha b hb =>
    hamount a (hperm.mem_iff.mp ha) b (hperm.mem_iff.mp hb)
  -- The identifiers of the first deliveries are those of all deliveries.
  have hpossible : possible ↔ ArrivalsInOrder (firstDeliveries order) ∧
      ∀ first ∈ firstDeliveries order,
        opening.entryId ≠ first.originalRequestId ++ "-DEBIT" := by
    refine and_congr_right fun _ => ⟨fun h first hfirst => ?_, fun h delivery hmem => ?_⟩
    · rcases mem_foldl_noteFirst hfirst with hnil | hmem
      · exact absurd hnil List.not_mem_nil
      · exact h first (hperm.mem_iff.mp hmem)
    · rcases exists_foldl_noteFirst [] (hperm.mem_iff.mpr hmem) with ⟨first, hfirst, hid⟩
      exact hid ▸ h first hfirst
  rcases processAll_iff hopening order (progress_openedWith hsequence)
    (fun first h => absurd h List.not_mem_nil) hsame with ⟨t, hrun, ht⟩ | ⟨⟨e, t, hrun⟩, hnot⟩
  · have hdone : possible := hpossible.mpr ⟨ht.inOrder, progress_clear ht⟩
    have hdebits : requestedDebits (order.foldl noteFirst []) = requestedDebits deliveries :=
      requestedDebits_firstDeliveries hamount hperm
    refine ⟨fun _ => ⟨t, hrun, ?_, ?_⟩, fun hnot => absurd hdone hnot⟩
    · rw [progress_debits ht hcredit, hdebits]
    · rw [progress_replay ht hcredit, hdebits]
  · exact ⟨fun h => absurd (hpossible.mp h) hnot, fun _ => ⟨e, t, hrun⟩⟩

/-- The opening balance of the scripted scenarios. -/
def scriptedOpening : LedgerEntry where
  entryId := "OPEN"
  accountId := "HCCU-DEMO-001"
  amount := { cents := 100_000 }
  entryType := .credit
  description := "Opening balance"
  sequence := 1
  postedAt := 0

/-- Two payments in order of arrival, and a retry of the first. -/
def retriedDeliveries : List PaymentDelivery :=
  [ { originalRequestId := "PAY-A", amount := { cents := 25_000 }, deliveryNumber := 1
      arrivedAt := 0, deliveryOrder := 1 },
    { originalRequestId := "PAY-B", amount := { cents := 10_000 }, deliveryNumber := 1
      arrivedAt := 5, deliveryOrder := 2 },
    { originalRequestId := "PAY-A", amount := { cents := 25_000 }, deliveryNumber := 2
      arrivedAt := 7, deliveryOrder := 3 } ]

/-- The retry may take the place of the original if it is the one that is
    processed first, but then the other payment has to come before it. -/
theorem processing_order_retried :
    let order := [1, 2, 0].filterMap fun i : Nat => retriedDeliveries[i]?
    let possible := ArrivalsInOrder (firstDeliveries order) ∧
      ∀ delivery ∈ retriedDeliveries,
        scriptedOpening.entryId ≠ delivery.originalRequestId ++ "-DEBIT"
    (possible → ∃ t, (processAll order).run (openedWith scriptedOpening) = .ok () t ∧
        debitsOf t.ledger = requestedDebits retriedDeliveries ∧
        replay t.ledger.entries = .ok (scriptedOpening.amount.cents
          - ∑ debit ∈ requestedDebits retriedDeliveries, debit.2.cents)) ∧
      (¬ possible → ∃ e t, (processAll order).run (openedWith scriptedOpening) = .error e t) :=
  processing_order_iff scriptedOpening rfl rfl rfl retriedDeliveries (by decide) _ (by decide)

/-- With the first two deliveries exchanged, the payment that arrived first is
    refused. -/
theorem exchangedDeliveries_raise :
    let order := [1, 0, 2].filterMap fun i : Nat => retriedDeliveries[i]?
    OneAmountEach retriedDeliveries ∧ order.Perm retriedDeliveries ∧
      (∃ t, (processAll retriedDeliveries).run (openedWith scriptedOpening) = .ok () t) ∧
      outcome (processAll order) (openedWith scriptedOpening)
        = .error (ledgerError "posting time cannot move backward") :=
  ⟨by decide, by decide, ⟨_, rfl⟩, rfl⟩

end BankSim
