import BankSim.Theory.IdempotencyOrder
import BankSim.Core.Duplicates
import BankSim.Library.Sums

/-!
# What Idempotence Prevents

A script of deliveries can be run in two ways. Naively, every delivery is
posted as a debit of its own. Idempotently, only the first delivery of each
request is, and the others are answered with what was stored for it. The two
ledgers share nothing but the account: entries have other identifiers and
other sequence numbers.

Both are read off the script. The naive ledger reports all deliveries and the
idempotent one reports the first deliveries, so what separates them is what
separates a list from its first elements by key. Since a script is in order of
arrival, nothing is posted too late on the idempotent side, and the only thing
that can go wrong there is a request that changes its amount.

## Main definitions

* `PaymentDelivery.attempt`: What a naive delivery leaves.
* `laterDeliveries`: The deliveries of a request after its first one.
* `DuplicateObservation.firstDebits`: The naive debits of first deliveries.

## Theorems

* `deliverAll_ok`: What the naive loop leaves when it returns.
* `processAll_ok`: What the idempotent loop leaves when it returns.
* `processIdempotently_error_iff`: When the idempotent run raises.
* `idempotent_refines_naive`: How the two runs compare.
-/

namespace BankSim

open Exec IdempotentPaymentProcessor

/-! ### Scripts -/

/-- A script that does not go backward from one delivery to the next does not
    go backward at all. -/
theorem arrivesBackward_eq_false_iff (deliveries : List PaymentDelivery) :
    arrivesBackward deliveries = false ↔ ArrivalsInOrder deliveries := by
  have htrans : IsTrans PaymentDelivery fun a b => a.arrivedAt ≤ b.arrivedAt :=
    ⟨fun _ _ _ => le_trans⟩
  have hchain : arrivesBackward deliveries = false ↔
      deliveries.IsChain fun a b => a.arrivedAt ≤ b.arrivedAt := by
    induction deliveries with
    | nil => simp [arrivesBackward]
    | cons current rest ih =>
        cases rest with
        | nil => simp [arrivesBackward]
        | cons following rest =>
            rw [List.isChain_cons_cons, ← ih]
            simp [arrivesBackward]
  rw [hchain, List.isChain_iff_pairwise, ArrivalsInOrder]

namespace DeliverySequence

theorem arrivalsInOrder (sequence : DeliverySequence) : ArrivalsInOrder sequence.deliveries :=
  (arrivesBackward_eq_false_iff _).mp sequence.forward

/-- The delivery orders keep the deliveries apart. -/
theorem nodup (sequence : DeliverySequence) : sequence.deliveries.Nodup := by
  refine List.Nodup.of_map (·.deliveryOrder) ?_
  rw [sequence.contiguous]
  have hrange : (List.range' 1 sequence.deliveries.length).Nodup := List.nodup_range'
  exact hrange.map Int.ofNat_injective

end DeliverySequence

/-- The deliveries that come after the first one of their request. -/
def laterDeliveries (deliveries : List PaymentDelivery) : List PaymentDelivery :=
  deliveries.filter (· ∉ firstDeliveries deliveries)

/-- What is kept of a list can be found in it again. -/
theorem filter_mem_kept {α : Type} [DecidableEq α] {kept all : List α} (h : kept.Sublist all)
    (hnodup : all.Nodup) : all.filter (· ∈ kept) = kept := by
  have hkept : kept.Sublist (all.filter (· ∈ kept)) := by
    have hfilter := h.filter (· ∈ kept)
    rwa [List.filter_eq_self.mpr (by simp)] at hfilter
  refine (hkept.eq_of_length_le ?_).symm
  -- There is no more of it than was kept, since nothing occurs twice.
  refine (List.subperm_of_subset (hnodup.filter _) fun x hx => ?_).length_le
  simpa using (List.mem_filter.mp hx).2

section Firsts

variable (sequence : DeliverySequence)

theorem filter_firstDeliveries :
    sequence.deliveries.filter (· ∈ firstDeliveries sequence.deliveries)
      = firstDeliveries sequence.deliveries :=
  filter_mem_kept (sublist_foldl_noteFirst sequence.deliveries []) sequence.nodup

/-- The requests of a script are those of its first deliveries. -/
theorem toFinset_requests (deliveries : List PaymentDelivery) :
    (deliveries.map (·.originalRequestId)).toFinset
      = ((firstDeliveries deliveries).map (·.originalRequestId)).toFinset := by
  ext request
  simp only [List.mem_toFinset, List.mem_map]
  constructor
  · rintro ⟨delivery, hmem, rfl⟩
    exact exists_foldl_noteFirst [] hmem
  · rintro ⟨first, hfirst, rfl⟩
    exact ⟨first, (mem_foldl_noteFirst hfirst).resolve_left List.not_mem_nil, rfl⟩

theorem card_requests (deliveries : List PaymentDelivery) :
    (deliveries.map (·.originalRequestId)).toFinset.card = (firstDeliveries deliveries).length := by
  have hnodup : ((firstDeliveries deliveries).map (·.originalRequestId)).Nodup :=
    nodup_foldl_noteFirst deliveries List.nodup_nil
  rw [toFinset_requests, List.toFinset_card_of_nodup hnodup, List.length_map]

end Firsts

/-! ### The naive loop -/

namespace PaymentDelivery

/-- What a naive delivery leaves. -/
def attempt (item : PaymentDelivery) : DeliveryAttempt where
  delivery := item
  processedAt := item.arrivedAt + 1
  result := .processed
  ledgerEntryId := item.originalRequestId ++ "-DELIVERY-" ++ toString item.deliveryNumber

/-- The debit a naive delivery asks for. -/
def naivePosting (item : PaymentDelivery) : Posting where
  entryId := item.attempt.ledgerEntryId
  accountId := "HCCU-DEMO-001"
  cents := item.amount.cents
  entryType := .debit
  description := "Naively processed payment delivery"
  postedAt := item.arrivedAt + 1

end PaymentDelivery

/-- What an attempt tells of its entry, as the idempotent processor would
    have it. -/
def DeliveryAttempt.report (attempt : DeliveryAttempt) : PaymentProcessingResult :=
  ⟨attempt.delivery.originalRequestId, attempt.ledgerEntryId, attempt.delivery.amount,
    attempt.processedAt⟩

theorem deliverAll_cons (item : PaymentDelivery) (items : List PaymentDelivery) :
    deliverAll (item :: items) = (do
      item.naivePosting.post
      let attempts ← deliverAll items
      return item.attempt :: attempts) := by
  have hamount : Money.new item.naivePosting.cents = .ok item.amount :=
    Money.new_of_pos _ item.amount.cents_pos
  simp only [deliverAll, Posting.post, hamount, lift_ok, pure_bind, bind_assoc]
  rfl

/-- When the naive loop returns, every delivery was attempted, and the ledger
    has grown by the entries that the attempts report. -/
theorem deliverAll_ok {items : List PaymentDelivery} {ledger final : Ledger}
    {attempts : List DeliveryAttempt} (hwf : ledger.WellFormed)
    (hrun : (deliverAll items).run ledger = .ok attempts final) :
    attempts = items.map (·.attempt) ∧ final.WellFormed ∧
      ∃ added, final.entries = ledger.entries ++ added ∧
        List.Forall₂ PaymentProcessingResult.Reports (attempts.map (·.report)) added := by
  induction items generalizing ledger attempts with
  | nil =>
      rcases hrun with ⟨rfl, rfl⟩
      exact ⟨rfl, hwf, [], (List.append_nil _).symm, .nil⟩
  | cons item items ih =>
      rw [deliverAll_cons, run_bind_ok_iff] at hrun
      rcases hrun with ⟨_, middle, hpost, hrest⟩
      rcases run_bind_ok_iff.mp hrest with ⟨later, final', hlater, hreturn⟩
      rcases hreturn with ⟨rfl, rfl⟩
      rcases Posting.post_ok hpost with ⟨hfits, rfl⟩
      have hmiddle := Ledger.wellFormed_push _ _ hwf (Posting.refusal_entry hfits)
      rcases ih hmiddle hlater with ⟨rfl, hfinal, added, hentries, hreports⟩
      refine ⟨rfl, hfinal, Posting.entry hfits :: added, ?_, ?_⟩
      · rw [hentries, Ledger.push_entries, List.append_assoc, List.singleton_append]
      · exact .cons ⟨rfl, rfl, rfl, rfl, rfl⟩ hreports

/-! ### The idempotent loop -/

section Idempotent

variable {opening : LedgerEntry} {firsts : List PaymentDelivery}
  {self t : IdempotentPaymentProcessor} {delivery : PaymentDelivery}

/-- A delivery that is answered agrees with the first delivery of its request,
    and is the first one if there was none. -/
theorem progress_of_process (hopening : opening.postedAt = 0) (h : Progress opening firsts self)
    {ack : IdempotentAcknowledgement}
    (hrun : (process delivery (idempotencyKeyFor delivery)).run self = .ok ack t) :
    Progress opening (noteFirst firsts delivery) t ∧
      ∃ first ∈ noteFirst firsts delivery,
        first.originalRequestId = delivery.originalRequestId ∧ first.amount = delivery.amount := by
  by_cases hseen : delivery.originalRequestId ∈ firsts.map (·.originalRequestId)
  · -- What is stored for the request is the result of its first delivery.
    have hamount : ∀ first ∈ firsts, first.originalRequestId = delivery.originalRequestId →
        first.amount = delivery.amount := by
      intro first hfirst hsame
      rcases h.stored first hfirst with ⟨record, hrecord, hresult⟩
      rw [(idempotencyKeyFor_eq_iff first delivery).mpr hsame] at hrecord
      by_contra hother
      rcases process_of_conflict hrecord (by
        rw [hresult]
        exact fun hboth => hother hboth.2 : ¬ (_ = delivery.originalRequestId ∧ _)) with ⟨e, herror⟩
      rw [herror] at hrun
      cases hrun
    rcases progress_duplicate h hseen hamount with ⟨ack', t', hrun', ht⟩
    rw [hrun'] at hrun
    cases hrun
    rcases List.mem_map.mp hseen with ⟨first, hfirst, hsame⟩
    rw [noteFirst, if_pos hseen]
    exact ⟨ht, first, hfirst, hsame, hamount first hfirst hsame⟩
  · -- A new request was posted, so its debit fits.
    by_cases hfits : delivery.debitPosting.Fits self.ledger
    · rcases progress_first h hseen hfits ((fits_first_iff h hopening hseen).mp hfits).2 with
        ⟨ack', t', hrun', ht⟩
      rw [hrun'] at hrun
      cases hrun
      rw [noteFirst, if_neg hseen]
      exact ⟨ht, delivery, List.mem_append_right _ (List.mem_singleton_self delivery), rfl, rfl⟩
    · rcases process_of_not_fits (h.fresh delivery hseen) hfits with ⟨e, herror⟩
      rw [herror] at hrun
      cases hrun

/-- Every answer is noted. -/
theorem length_acknowledgements_process {key : IdempotencyKey} {ack : IdempotentAcknowledgement}
    (hrun : (process delivery key).run self = .ok ack t) :
    t.acknowledgements.length = self.acknowledgements.length + 1 := by
  rcases process_cases self delivery key with ⟨record, -, -, -, hok⟩ | ⟨-, hfits, hok⟩ |
    ⟨e, herror⟩
  · rw [hok] at hrun
    cases hrun
    simp [repeated]
  · rw [hok] at hrun
    cases hrun
    simp [remembered]
  · rw [herror] at hrun
    cases hrun

/-- When the idempotent loop returns, it has processed the first deliveries
    and answered all of them, and each agrees with the first of its request. -/
theorem processAll_ok {ledger : Ledger} (hopening : opening.postedAt = 0)
    {deliveries : List PaymentDelivery} (h : Progress opening firsts self)
    (hbooked : Booked ledger self) (hrun : (processAll deliveries).run self = .ok () t) :
    Progress opening (deliveries.foldl noteFirst firsts) t ∧ Booked ledger t ∧
      t.acknowledgements.length = self.acknowledgements.length + deliveries.length ∧
      ∀ delivery ∈ deliveries, ∃ first ∈ deliveries.foldl noteFirst firsts,
        first.originalRequestId = delivery.originalRequestId ∧
          first.amount = delivery.amount := by
  induction deliveries generalizing firsts self with
  | nil =>
      rcases hrun with ⟨-, rfl⟩
      exact ⟨h, hbooked, rfl, fun delivery hmem => absurd hmem List.not_mem_nil⟩
  | cons delivery deliveries ih =>
      rcases run_bind_ok_iff.mp hrun with ⟨ack, middle, hprocess, hrest⟩
      rcases progress_of_process hopening h hprocess with ⟨hprogress, first, hfirst, hagrees⟩
      have hkept : Booked ledger middle := by
        rw [← after_of_ok hprocess]
        exact (booked_process hbooked).1
      rcases ih hprogress hkept hrest with ⟨hfinal, hend, hlength, hall⟩
      refine ⟨hfinal, hend, ?_, fun other hother => ?_⟩
      · rw [hlength, length_acknowledgements_process hprocess, List.length_cons]
        omega
      · rcases List.mem_cons.mp hother with rfl | hother
        · exact ⟨first, (prefix_foldl_noteFirst deliveries _).subset hfirst, hagrees⟩
        · exact hall other hother

end Idempotent

/-! ### Two runs of a script -/

/-- The entry that opens either ledger. -/
def openingCredit (amount : Money) : LedgerEntry where
  entryId := "OPEN"
  accountId := "HCCU-DEMO-001"
  amount := amount
  entryType := .credit
  description := "Opening balance"
  sequence := 1
  postedAt := 0

section Runs

variable {initialBalanceCents : Int} (hpos : 0 < initialBalanceCents)

/-- Neither run fails before its loop. -/
theorem openingCredit_new : LedgerEntry.new "OPEN" "HCCU-DEMO-001" ⟨initialBalanceCents, hpos⟩
    .credit "Opening balance" 1 0 = .ok (openingCredit ⟨initialBalanceCents, hpos⟩) :=
  LedgerEntry.new_self (openingCredit ⟨initialBalanceCents, hpos⟩)

theorem processIdempotently_ok_iff (deliveries : List PaymentDelivery)
    (processor : IdempotentPaymentProcessor) :
    processIdempotently deliveries initialBalanceCents = .ok processor ↔
      (processAll deliveries).run (openedWith (openingCredit ⟨initialBalanceCents, hpos⟩))
        = .ok () processor := by
  simp only [processIdempotently, Money.new_of_pos _ hpos, openingCredit_new hpos, bind,
    Except.bind, openedWith]
  cases (processAll deliveries).run (new _) with
  | ok _ final => simp
  | error e final => simp

theorem processNaively_ok_iff (scenario : DuplicatePaymentScenario)
    (observation : DuplicateObservation) :
    processNaively scenario initialBalanceCents = .ok observation ↔
      observation.scenario = scenario ∧
        observation.statistics = .ofAttempts observation.attempts ∧
        (deliverAll scenario.sequence.deliveries).run
            (after (Ledger.append (openingCredit ⟨initialBalanceCents, hpos⟩)) Ledger.new)
          = .ok observation.attempts observation.ledger := by
  simp only [processNaively, Money.new_of_pos _ hpos, openingCredit_new hpos, bind, Except.bind]
  rcases observation with ⟨scenario', attempts', ledger', statistics'⟩
  cases (deliverAll scenario.sequence.deliveries).run _ with
  | ok attempts ledger =>
      simp only [Except.ok.injEq, DuplicateObservation.mk.injEq, EStateM.Result.ok.injEq]
      constructor
      · rintro ⟨rfl, rfl, rfl, rfl⟩
        exact ⟨rfl, rfl, rfl, rfl⟩
      · rintro ⟨rfl, rfl, rfl, rfl⟩
        exact ⟨rfl, rfl, rfl, rfl⟩
  | error e ledger => simp

/-- What the idempotent run leaves when it returns. -/
theorem processIdempotently_ok {deliveries : List PaymentDelivery}
    {processor : IdempotentPaymentProcessor}
    (hrun : processIdempotently deliveries initialBalanceCents = .ok processor) :
    Progress (openingCredit ⟨initialBalanceCents, hpos⟩) (firstDeliveries deliveries) processor ∧
      processor.records.length = (firstDeliveries deliveries).length ∧
      processor.statistics.duplicateDeliveries
        = deliveries.length - (firstDeliveries deliveries).length ∧
      ∀ delivery ∈ deliveries, ∃ first ∈ firstDeliveries deliveries,
        first.originalRequestId = delivery.originalRequestId ∧
          first.amount = delivery.amount := by
  let opening := openingCredit ⟨initialBalanceCents, hpos⟩
  have hprogress : Progress opening [] (openedWith opening) := progress_openedWith rfl
  have hloop := (processIdempotently_ok_iff hpos deliveries processor).mp hrun
  rcases processAll_ok rfl hprogress (booked_new hprogress.wellFormed) hloop with
    ⟨hfinal, hbooked, hlength, hagrees⟩
  -- The entries after the opening one are counted by both invariants.
  have hrecords : processor.records.length = (firstDeliveries deliveries).length := by
    rcases hfinal.posted with ⟨entries, hentries, hreports⟩
    rcases hbooked.posted with ⟨added, hadded, hstored⟩
    rcases hprogress.posted with ⟨none, hopened, hnone⟩
    have hsame : opening :: entries = opening :: (none ++ added) := by
      rw [← List.cons_append, ← hopened, ← hentries]
      exact hadded
    rw [List.map_nil, List.forall₂_nil_left_iff] at hnone
    rw [hnone, List.nil_append, List.cons.injEq] at hsame
    have hleft := hstored.length_eq
    have hright := hreports.length_eq
    rw [List.length_map] at hleft hright
    rw [hleft, ← hsame.2, ← hright]
    rfl
  refine ⟨hfinal, hrecords, ?_, hagrees⟩
  -- An acknowledgement is an original or a duplicate.
  have hsplit := List.length_eq_countP_add_countP (fun ack : IdempotentAcknowledgement =>
    ack.duplicate) (l := processor.acknowledgements)
  have horiginals := hbooked.originals
  have hstart : (openedWith opening).acknowledgements.length = 0 := rfl
  have hcount : processor.acknowledgements.countP (fun ack => decide ¬ ack.duplicate = true)
      = processor.acknowledgements.countP fun ack => !ack.duplicate := by
    congr 1
    funext ack
    simp
  simp only [statistics]
  omega

/-- The deliveries of a request agree when they all agree with the first. -/
theorem oneAmountEach_of_first {deliveries : List PaymentDelivery}
    (h : ∀ delivery ∈ deliveries, ∃ first ∈ firstDeliveries deliveries,
      first.originalRequestId = delivery.originalRequestId ∧ first.amount = delivery.amount) :
    OneAmountEach deliveries := by
  intro a ha b hb hsame
  rcases h a ha with ⟨first, hfirst, hid, hamount⟩
  rcases h b hb with ⟨other, hother, hid', hamount'⟩
  have hnodup : ((firstDeliveries deliveries).map (·.originalRequestId)).Nodup :=
    nodup_foldl_noteFirst deliveries List.nodup_nil
  have heq : first = other :=
    List.inj_on_of_nodup_map hnodup hfirst hother (hid.trans (hsame.trans hid'.symm))
  rw [← hamount, ← hamount', heq]

/-- A script is refused exactly when one of its requests changes its amount:
    first deliveries are in order, and no debit has the identifier of the
    opening entry. -/
theorem processIdempotently_error_iff (hpos : 0 < initialBalanceCents)
    (sequence : DeliverySequence) :
    (∃ e, processIdempotently sequence.deliveries initialBalanceCents = .error e) ↔
      ¬ OneAmountEach sequence.deliveries := by
  constructor
  · rintro ⟨e, herror⟩ hamount
    have hinOrder : ArrivalsInOrder (firstDeliveries sequence.deliveries) :=
      sequence.arrivalsInOrder.sublist (sublist_foldl_noteFirst sequence.deliveries [])
    have hclear : ∀ first ∈ firstDeliveries sequence.deliveries,
        (openingCredit ⟨initialBalanceCents, hpos⟩).entryId
          ≠ first.originalRequestId ++ "-DEBIT" :=
      fun first _ hsame => append_suffix_ne "" first.originalRequestId (s := "OPEN") (t := "-DEBIT")
        (by decide) (by decide) (by decide) (String.empty_append.trans hsame)
    have hstart : Progress (openingCredit ⟨initialBalanceCents, hpos⟩) [] (openedWith _) :=
      progress_openedWith rfl
    rcases processAll_iff rfl sequence.deliveries hstart
        (fun first h => absurd h List.not_mem_nil) hamount with ⟨t, hrun, -⟩ | ⟨-, hnot⟩
    · rw [(processIdempotently_ok_iff hpos _ t).mpr hrun] at herror
      cases herror
    · exact hnot ⟨hinOrder, hclear⟩
  · intro hnot
    cases hrun : processIdempotently sequence.deliveries initialBalanceCents with
    | error e => exact ⟨e, rfl⟩
    | ok processor =>
        exact absurd (oneAmountEach_of_first (processIdempotently_ok hpos hrun).2.2.2) hnot

/-- What the naive run leaves when it returns. -/
theorem processNaively_ok {scenario : DuplicatePaymentScenario}
    {observation : DuplicateObservation}
    (hrun : processNaively scenario initialBalanceCents = .ok observation) :
    observation.scenario = scenario ∧
      observation.attempts = scenario.sequence.deliveries.map (·.attempt) ∧
      observation.statistics = .ofAttempts observation.attempts ∧
      observation.ledger.WellFormed ∧
      ∃ added, observation.ledger.entries
          = openingCredit ⟨initialBalanceCents, hpos⟩ :: added ∧
        List.Forall₂ PaymentProcessingResult.Reports
          (scenario.sequence.deliveries.map (·.attempt.report)) added := by
  let opening := openingCredit ⟨initialBalanceCents, hpos⟩
  rcases (processNaively_ok_iff hpos scenario observation).mp hrun with
    ⟨hscenario, hstatistics, hloop⟩
  have hprogress : Progress opening [] (openedWith opening) := progress_openedWith rfl
  rcases deliverAll_ok hprogress.wellFormed hloop with
    ⟨hattempts, hwf, added, hentries, hreports⟩
  rcases hprogress.posted with ⟨none, hopened, hnone⟩
  rw [List.map_nil, List.forall₂_nil_left_iff] at hnone
  rw [hattempts, List.map_map] at hreports
  refine ⟨hscenario, hattempts, hstatistics, hwf, added, ?_, hreports⟩
  rw [hentries]
  exact congrArg (· ++ added) (hopened.trans (by rw [hnone]))

end Runs

/-- The debits of a ledger, in order. -/
def Ledger.debits (ledger : Ledger) : List LedgerEntry :=
  ledger.entries.filter fun entry => entry.entryType = .debit

/-- What an entry does, and when. -/
def LedgerEntry.effect (entry : LedgerEntry) : Money × Int :=
  (entry.amount, entry.postedAt)

/-- The naive debits of the first delivery of each request, found by the
    identifiers of their attempts. -/
def DuplicateObservation.firstDebits (observation : DuplicateObservation) : List LedgerEntry :=
  let firsts := firstDeliveries observation.scenario.sequence.deliveries
  let entryIds := (observation.attempts.filter (·.delivery ∈ firsts)).map (·.ledgerEntryId)
  observation.ledger.debits.filter (·.entryId ∈ entryIds)

section Effects

variable {opening : LedgerEntry} {ledger : Ledger} {entries : List LedgerEntry}

/-- Naive entries can be picked by their deliveries: no identifier occurs
    twice in a ledger, so no two deliveries of a run have the same one. -/
theorem effects_of_attempts (hwf : ledger.WellFormed)
    (hledger : ledger.entries = opening :: entries)
    {deliveries firsts : List PaymentDelivery}
    (hreports : List.Forall₂ PaymentProcessingResult.Reports
      (deliveries.map (·.attempt.report)) entries) :
    (entries.filter fun entry => entry.entryId
        ∈ (deliveries.filter (· ∈ firsts)).map (·.attempt.ledgerEntryId)).map (·.effect)
      = (deliveries.filter (· ∈ firsts)).map fun delivery =>
          (delivery.amount, delivery.arrivedAt + 1) := by
  let entryIds := (deliveries.filter (· ∈ firsts)).map (·.attempt.ledgerEntryId)
  have hall : entries.map (fun entry => (entry.entryId, entry.effect))
      = deliveries.map fun delivery => (delivery.attempt.ledgerEntryId,
          delivery.amount, delivery.arrivedAt + 1) := by
    refine (map_of_reports _ (fun result =>
      (result.ledgerEntryId, result.amount, result.processedAt)) (fun h => ?_) hreports).trans ?_
    · rw [LedgerEntry.effect, h.entryId, h.amount, h.postedAt]
    · rw [List.map_map]
      rfl
  have hnodup : (deliveries.map (·.attempt.ledgerEntryId)).Nodup := by
    have hids := hwf.ids_nodup
    rw [hledger, List.map_cons, List.nodup_cons] at hids
    have hfirst := congrArg (List.map Prod.fst) hall
    rw [List.map_map, List.map_map] at hfirst
    exact hfirst ▸ hids.2
  -- An identifier is among those of the chosen ones when its delivery is.
  have hchosen : deliveries.filter (fun delivery => delivery.attempt.ledgerEntryId ∈ entryIds)
      = deliveries.filter (· ∈ firsts) := by
    refine List.filter_congr fun delivery hmem => ?_
    rw [decide_eq_decide]
    constructor
    · intro hid
      rcases List.mem_map.mp hid with ⟨other, hother, hsame⟩
      rcases List.mem_filter.mp hother with ⟨hother, hfirst⟩
      rw [← List.inj_on_of_nodup_map hnodup hother hmem hsame]
      exact of_decide_eq_true hfirst
    · intro hfirst
      exact List.mem_map_of_mem (List.mem_filter.mpr ⟨hmem, decide_eq_true hfirst⟩)
  calc (entries.filter fun entry => entry.entryId ∈ entryIds).map (·.effect)
      = ((entries.map fun entry => (entry.entryId, entry.effect)).filter
          fun row => row.1 ∈ entryIds).map Prod.snd := by
        rw [List.filter_map, List.map_map]
        rfl
    _ = (deliveries.filter fun delivery => delivery.attempt.ledgerEntryId ∈ entryIds).map
          fun delivery => (delivery.amount, delivery.arrivedAt + 1) := by
        rw [hall, List.filter_map, List.map_map]
        rfl
    _ = _ := by rw [hchosen]

end Effects

/-- Idempotent processing is naive processing of the first deliveries. A
    script is refused exactly when two deliveries of one request disagree on
    the amount. When both runs return, the idempotent debits are the naive
    debits of the first deliveries, in order; the idempotent balance is larger
    by what the later deliveries ask for; and the two count the same
    duplicates and the same operations. -/
theorem idempotent_refines_naive (scenario : DuplicatePaymentScenario) (initialBalanceCents : Int)
    (hpos : 0 < initialBalanceCents) :
    let deliveries := scenario.sequence.deliveries
    ((∃ e, processIdempotently deliveries initialBalanceCents = .error e) ↔
        ∃ a ∈ deliveries, ∃ b ∈ deliveries,
          a.originalRequestId = b.originalRequestId ∧ a.amount ≠ b.amount) ∧
      ∀ processor observation,
        processIdempotently deliveries initialBalanceCents = .ok processor →
        processNaively scenario initialBalanceCents = .ok observation →
        processor.ledger.debits.map (·.effect) = observation.firstDebits.map (·.effect) ∧
        (∃ balance, replay observation.ledger.entries = .ok balance ∧
          replay processor.ledger.entries
            = .ok (balance + ((laterDeliveries deliveries).map (·.amount.cents)).sum)) ∧
        processor.statistics.duplicateDeliveries = observation.statistics.duplicateDeliveries ∧
        processor.statistics.uniqueBusinessOperations
          = observation.statistics.uniquePaymentIdentifiers := by
  intro deliveries
  refine ⟨?_, fun processor observation hidempotent hnaive => ?_⟩
  · rw [processIdempotently_error_iff hpos scenario.sequence, OneAmountEach]
    push Not
    rfl
  · rcases processIdempotently_ok hpos hidempotent with ⟨hprogress, hrecords, hduplicates, -⟩
    rcases processNaively_ok hpos hnaive with
      ⟨rfl, hattempts, hstatistics, hwf, added, hadded, hreports⟩
    rcases hprogress.posted with ⟨entries, hentries, hstored⟩
    have hfirsts : deliveries.filter (· ∈ firstDeliveries deliveries)
        = firstDeliveries deliveries :=
      filter_firstDeliveries observation.scenario.sequence
    have hunique : observation.statistics.uniquePaymentIdentifiers
        = (firstDeliveries deliveries).length := by
      rw [hstatistics, hattempts, DuplicateStatistics.ofAttempts, List.map_map]
      exact card_requests deliveries
    refine ⟨?_, ?_, ?_, ?_⟩
    · -- Both sides are the amounts and times that the first deliveries ask for.
      have hleft : processor.ledger.debits = entries := by
        rw [Ledger.debits, hentries, filter_debit_of_reports rfl hstored]
      have hright : observation.firstDebits = added.filter fun entry => entry.entryId
          ∈ (deliveries.filter (· ∈ firstDeliveries deliveries)).map (·.attempt.ledgerEntryId) := by
        rw [DuplicateObservation.firstDebits, Ledger.debits, hadded,
          filter_debit_of_reports rfl hreports, hattempts, List.filter_map, List.map_map]
        rfl
      rw [hleft, hright, effects_of_attempts hwf hadded hreports, hfirsts,
        map_of_reports _ (fun result => (result.amount, result.processedAt)) (fun h => by
          rw [LedgerEntry.effect, h.amount, h.postedAt]) hstored, List.map_map]
      rfl
    · refine ⟨_, replay_of_reports hwf hadded rfl hreports, ?_⟩
      rw [replay_of_reports hprogress.wellFormed hentries rfl hstored]
      -- First and later deliveries are all there are.
      have hsplit := ListSum.sum_filter_add (· ∈ firstDeliveries deliveries)
        (fun delivery => delivery.amount.cents) deliveries
      simp only [hfirsts, ← decide_not] at hsplit
      simp only [List.map_map, Except.ok.injEq]
      change _ - ((firstDeliveries deliveries).map fun delivery => delivery.amount.cents).sum
        = _ - (deliveries.map fun delivery => delivery.amount.cents).sum + _
      rw [← hsplit, laterDeliveries]
      omega
    · have hlength : observation.attempts.length = deliveries.length := by
        rw [hattempts, List.length_map]
      have hcounted : observation.statistics.duplicateDeliveries = observation.attempts.length
          - observation.statistics.uniquePaymentIdentifiers := by
        rw [hstatistics]
        rfl
      rw [hduplicates, hcounted, hlength, hunique]
    · rw [hunique]
      exact hrecords

/-- A payment that was queued once and delivered twice is debited once. -/
theorem idempotent_refines_naive_queueReplay :
    let deliveries := queueReplayScenario.sequence.deliveries
    ((∃ e, processIdempotently deliveries 100_000 = .error e) ↔
        ∃ a ∈ deliveries, ∃ b ∈ deliveries,
          a.originalRequestId = b.originalRequestId ∧ a.amount ≠ b.amount) ∧
      ∀ processor observation,
        processIdempotently deliveries 100_000 = .ok processor →
        processNaively queueReplayScenario 100_000 = .ok observation →
        processor.ledger.debits.map (·.effect) = observation.firstDebits.map (·.effect) ∧
        (∃ balance, replay observation.ledger.entries = .ok balance ∧
          replay processor.ledger.entries
            = .ok (balance + ((laterDeliveries deliveries).map (·.amount.cents)).sum)) ∧
        processor.statistics.duplicateDeliveries = observation.statistics.duplicateDeliveries ∧
        processor.statistics.uniqueBusinessOperations
          = observation.statistics.uniquePaymentIdentifiers :=
  idempotent_refines_naive queueReplayScenario 100_000 (by decide)

-- Here both runs do return, and one payment is what lies between their balances.
example : (do
      let processor ← processIdempotently queueReplayScenario.sequence.deliveries
      let observation ← processNaively queueReplayScenario
      return (← replay processor.ledger.entries, ← replay observation.ledger.entries))
    = .ok (60_000, 50_000) := by
  decide +kernel

end BankSim
