import BankSim.Theory.AchHolds

/-!
# When the Holds Are a Pending Snapshot

`project_balances` wants pending activity numbered from one without a gap, and
no identifier twice. The network numbers a hold by how many there are when it
is taken, and a completion takes its hold out from wherever it is.

Taking a hold keeps the numbers in order. So does giving back the last one.
Giving back any other leaves the last hold with a number the list is too short
for, and the projection raises from then on.

The identifiers are never the problem. A hold is taken for a validated
transfer, every hold in the list belongs to a transfer that is pending or
further on, and a transfer is one or the other.

## Main definitions

* `InOrder`: Pending activity that `project_balances` accepts.
* `AchNetwork.Snapshot`: The projection returns, with the holds as its debits.
* `AchNetwork.ReleasesLast`: A completion gives back no hold but the last.
* `AchNetwork.Ordered`: The invariant.

## Theorems

* `sumPending_ok_iff`: What the loop of `project_balances` checks.
* `ordered_stage`: A stage that gives back no hold but the last keeps the order.
* `not_snapshot_stage`: Any other leaves no snapshot.
* `holds_snapshot_iff`: A run shows snapshots only, exactly when all its
  completions give back the last hold.
* `firstRelease_breaks`: Two transfers, the first of which completes first.
-/

namespace BankSim

open Exec

/-- Numbered from one without a gap, and no identifier twice. -/
structure InOrder (pending : List PendingTransaction) : Prop where
  sequence_eq : ∀ i (h : i < pending.length), pending[i].sequence = i + 1
  ids_nodup : (pending.map (·.transactionId)).Nodup

/-- The numbers go on from the expected one, and every identifier is new. -/
structure Follows (expected : Int) (seenIds : List String) (pending : List PendingTransaction) :
    Prop where
  sequence_eq : ∀ i (h : i < pending.length), pending[i].sequence = expected + i
  ids_nodup : (pending.map (·.transactionId)).Nodup
  ids_new : ∀ item ∈ pending, item.transactionId ∉ seenIds

theorem follows_nil (expected : Int) (seenIds : List String) : Follows expected seenIds [] where
  sequence_eq i h := absurd h (Nat.not_lt_zero i)
  ids_nodup := List.nodup_nil
  ids_new _ hitem := absurd hitem List.not_mem_nil

theorem follows_cons (expected : Int) (seenIds : List String) (item : PendingTransaction)
    (pending : List PendingTransaction) : Follows expected seenIds (item :: pending) ↔
      item.sequence = expected ∧ item.transactionId ∉ seenIds ∧
        Follows (expected + 1) (item.transactionId :: seenIds) pending := by
  constructor
  · intro h
    have hfirst := h.sequence_eq 0 (Nat.zero_lt_succ _)
    rw [List.getElem_cons_zero, Int.natCast_zero, Int.add_zero] at hfirst
    have hids := List.nodup_cons.mp h.ids_nodup
    refine ⟨hfirst, h.ids_new item List.mem_cons_self, fun i hi => ?_, hids.2, ?_⟩
    · have hnext := h.sequence_eq (i + 1) (Nat.succ_lt_succ hi)
      rw [List.getElem_cons_succ] at hnext
      rw [hnext]
      push_cast
      ring
    · intro other hother hmem
      rcases List.mem_cons.mp hmem with hsame | hseen
      · exact hids.1 (List.mem_map.mpr ⟨other, hother, hsame⟩)
      · exact h.ids_new other (List.mem_cons_of_mem item hother) hseen
  · rintro ⟨hfirst, hnew, h⟩
    refine ⟨fun i hi => ?_, List.nodup_cons.mpr ⟨fun hmem => ?_, h.ids_nodup⟩, ?_⟩
    · cases i with
      | zero =>
          rw [List.getElem_cons_zero, hfirst]
          simp only [Int.natCast_zero, Int.add_zero]
      | succ i =>
          rw [List.getElem_cons_succ, h.sequence_eq i (Nat.lt_of_succ_lt_succ hi)]
          push_cast
          ring
    · rcases List.mem_map.mp hmem with ⟨other, hother, hsame⟩
      exact h.ids_new other hother (hsame ▸ List.mem_cons_self)
    · intro other hother hseen
      rcases List.mem_cons.mp hother with rfl | hother
      · exact hnew hseen
      · exact h.ids_new other hother (List.mem_cons_of_mem _ hseen)

/-- This is what the loop of the projection checks. -/
theorem sumPending_ok_iff (pending : List PendingTransaction) (expected : Int)
    (seenIds : List String) (debits credits : Int) :
    (∃ totals, sumPending pending expected seenIds debits credits = .ok totals) ↔
      Follows expected seenIds pending := by
  induction pending generalizing expected seenIds debits credits with
  | nil => exact iff_of_true ⟨_, rfl⟩ (follows_nil expected seenIds)
  | cons item pending ih =>
      rw [follows_cons, sumPending]
      by_cases hsequence : item.sequence = expected
      · by_cases hseen : item.transactionId ∈ seenIds
        · rw [if_neg (not_not.mpr hsequence), if_pos hseen]
          refine iff_of_false ?_ fun h => h.2.1 hseen
          rintro ⟨totals, h⟩
          cases h
        · -- The item passes, and its kind decides only what is added.
          rw [if_neg (not_not.mpr hsequence), if_neg hseen, and_iff_right hsequence,
            and_iff_right hseen]
          cases item.transactionType with
          | pendingDebit => exact ih _ _ _ _
          | pendingCredit => exact ih _ _ _ _
      · rw [if_pos hsequence]
        refine iff_of_false ?_ fun h => hsequence h.1
        rintro ⟨totals, h⟩
        cases h

theorem follows_iff (pending : List PendingTransaction) :
    Follows 1 [] pending ↔ InOrder pending := by
  have hnumber : ∀ i : Nat, (1 : Int) + i = i + 1 := fun i => Int.add_comm 1 i
  constructor
  · exact fun h => ⟨fun i hi => (h.sequence_eq i hi).trans (hnumber i), h.ids_nodup⟩
  · exact fun h => ⟨fun i hi => (h.sequence_eq i hi).trans (hnumber i).symm, h.ids_nodup,
      fun _ _ => List.not_mem_nil⟩

/-- Over a well formed ledger the projection returns exactly when the pending
    activity is in order, and adds up its debits. -/
theorem projectBalances_ok_iff {ledger : Ledger} (hwf : ledger.WellFormed)
    (pending : List PendingTransaction) (debits : Int) :
    (∃ projection, projectBalances ledger pending = .ok projection ∧
        projection.pendingDebits = debits) ↔
      InOrder pending ∧ pendingCents .pendingDebit pending = debits := by
  rw [← follows_iff, ← sumPending_ok_iff pending 1 [] 0 0, projectBalances, replay_eq_sum hwf]
  cases hsum : sumPending pending 1 [] 0 0 with
  | error e =>
      refine iff_of_false ?_ ?_
      · rintro ⟨projection, h, -⟩
        cases h
      · rintro ⟨⟨totals, h⟩, -⟩
        cases h
  | ok totals =>
      have htotals := sumPending_ok pending 1 [] 0 0 totals hsum
      rw [Int.zero_add, Int.zero_add] at htotals
      subst htotals
      constructor
      · rintro ⟨projection, h, hdebits⟩
        cases h
        exact ⟨⟨_, rfl⟩, hdebits⟩
      · rintro ⟨-, hdebits⟩
        exact ⟨_, rfl, hdebits⟩

theorem inOrder_nil : InOrder [] where
  sequence_eq i h := absurd h (Nat.not_lt_zero i)
  ids_nodup := List.nodup_nil

/-- Pending activity in order stays so without its end. -/
theorem InOrder.of_prefix {pending earlier : List PendingTransaction} (h : InOrder pending)
    (hfront : earlier <+: pending) : InOrder earlier where
  sequence_eq i hi := by
    rw [hfront.getElem hi]
    exact h.sequence_eq i (lt_of_lt_of_le hi hfront.length_le)
  ids_nodup := h.ids_nodup.sublist (hfront.sublist.map _)

/-- One more item, with the next number and an identifier of its own. -/
theorem InOrder.snoc {pending : List PendingTransaction} (h : InOrder pending)
    {item : PendingTransaction} (hsequence : item.sequence = pending.length + 1)
    (hnew : ∀ other ∈ pending, other.transactionId ≠ item.transactionId) :
    InOrder (pending ++ [item]) where
  sequence_eq i hi := by
    by_cases hold : i < pending.length
    · rw [List.getElem_append_left hold]
      exact h.sequence_eq i hold
    · have hlast : i = pending.length := by
        rw [List.length_append, List.length_singleton] at hi
        omega
      subst hlast
      rw [List.getElem_concat_length rfl]
      exact hsequence
  ids_nodup := by
    rw [List.map_append, List.map_singleton, List.nodup_append]
    refine ⟨h.ids_nodup, List.nodup_singleton _, ?_⟩
    intro a ha b hb hsame
    rcases List.mem_map.mp ha with ⟨other, hother, rfl⟩
    rw [List.mem_singleton.mp hb] at hsame
    exact hnew other hother hsame

/-- The last item keeps its number, so nothing may be taken out before it. -/
theorem InOrder.not_filter {pending : List PendingTransaction} (h : InOrder pending)
    {keep : PendingTransaction → Bool} {item last : PendingTransaction}
    (hlast : pending.getLast? = some last) (hkept : keep last = true) (hmem : item ∈ pending)
    (htaken : keep item = false) : ¬ InOrder (pending.filter keep) := by
  intro horder
  have hlen : (pending.filter keep).length < pending.length := by
    refine lt_of_le_of_ne (List.length_filter_le keep pending) fun heq => ?_
    have hall := List.length_filter_eq_length_iff.mp heq item hmem
    rw [htaken] at hall
    cases hall
  rcases List.getLast?_eq_some_iff.mp hlast with ⟨front, hfront⟩
  have hlength : pending.length = front.length + 1 := by
    rw [hfront, List.length_append, List.length_singleton]
  have hend : pending.filter keep = front.filter keep ++ [last] := by
    rw [hfront, List.filter_append, List.filter_cons_of_pos hkept, List.filter_nil]
  -- The number of the last item is both the old and the new count.
  have hold : last.sequence = pending.length := by
    have hnumber := h.sequence_eq front.length (by omega)
    simp only [hfront, List.getElem_concat_length] at hnumber
    rw [hnumber, hlength]
    push_cast
    ring
  have hnew : last.sequence = (pending.filter keep).length := by
    have hnumber := horder.sequence_eq (front.filter keep).length (by
      rw [hend, List.length_append, List.length_singleton]
      omega)
    simp only [hend, List.getElem_concat_length] at hnumber
    rw [hnumber, hend, List.length_append, List.length_singleton]
    push_cast
    ring
  omega

namespace AchNetwork

variable {κ : Type}

/-- The projection over the holds returns, and its pending debits are the total
    of the holds. -/
def Snapshot (network : AchNetwork κ) : Prop :=
  ∃ projection, projectBalances network.ledger network.pending = .ok projection ∧
    projection.pendingDebits = (network.pending.map (·.amount.cents)).sum

/-- The transfer a callback is going to complete. -/
def completing : AchCallback → Option String
  | .complete transferId => some transferId
  | _ => none

/-- If the callback is going to complete a transfer, then no hold but the last
    is that transfer's. -/
def ReleasesLast (network : AchNetwork κ) (callback : AchCallback) : Prop :=
  ∀ transferId ∈ completing callback, ∀ transfer ∈ network.transfers.get? transferId,
    transfer.status = .processing →
      ∀ hold ∈ network.pending.dropLast, hold.transactionId ≠ transfer.request.transferId

instance (network : AchNetwork κ) (callback : AchCallback) :
    Decidable (network.ReleasesLast callback) :=
  inferInstanceAs (Decidable (∀ transferId ∈ completing callback, _))

/-- The holds are in order, are debits, and belong to transfers whose funds are
    on hold. -/
structure Ordered (network : AchNetwork κ) : Prop where
  wellFormed : network.ledger.WellFormed
  inOrder : InOrder network.pending
  debits : ∀ hold ∈ network.pending, hold.transactionType = .pendingDebit
  owned : ∀ hold ∈ network.pending, ∃ transfer,
    network.transfers.get? hold.transactionId = some transfer ∧ transfer.status.Held = true
  keyed : ∀ transferId transfer, network.transfers.get? transferId = some transfer →
    transfer.request.transferId = transferId

theorem ordered_new {ledger : Ledger} (hwf : ledger.WellFormed) (scheduler : EventScheduler κ) :
    (AchNetwork.new ledger scheduler).Ordered where
  wellFormed := hwf
  inOrder := inOrder_nil
  debits _ hhold := absurd hhold List.not_mem_nil
  owned _ hhold := absurd hhold List.not_mem_nil
  keyed _ _ hget := by cases hget

/-- Holds that are all debits make a snapshot when they are in order. -/
theorem snapshot_iff {network : AchNetwork κ} (hwf : network.ledger.WellFormed)
    (hdebits : ∀ hold ∈ network.pending, hold.transactionType = .pendingDebit) :
    network.Snapshot ↔ InOrder network.pending := by
  have hall : network.pending.filter (fun hold => hold.transactionType = .pendingDebit)
      = network.pending :=
    List.filter_eq_self.mpr fun hold hhold => decide_eq_true (hdebits hold hhold)
  rw [Snapshot, projectBalances_ok_iff hwf, pendingCents, hall, and_iff_left rfl]

/-- The scheduler does not matter. -/
theorem Ordered.of_eq {network later : AchNetwork κ} (h : network.Ordered)
    (hledger : later.ledger = network.ledger) (hpending : later.pending = network.pending)
    (htransfers : later.transfers = network.transfers) : later.Ordered where
  wellFormed := by
    rw [hledger]
    exact h.wellFormed
  inOrder := by
    rw [hpending]
    exact h.inOrder
  debits := by
    rw [hpending]
    exact h.debits
  owned := by
    rw [hpending, htransfers]
    exact h.owned
  keyed := by
    rw [htransfers]
    exact h.keyed

/-- A transfer takes another's place. What is left of the old holds has an
    owner, if the transfer owns what is left of its own. -/
theorem Ordered.owned_set {network : AchNetwork κ} (h : network.Ordered) {transferId : String}
    {transfer : AchTransfer} {hold : PendingTransaction} (hhold : hold ∈ network.pending)
    (hheld : hold.transactionId = transferId → transfer.status.Held = true) :
    ∃ owner, (network.transfers.set transferId transfer).get? hold.transactionId = some owner ∧
      owner.status.Held = true := by
  rw [Dict.get?_set]
  by_cases hown : hold.transactionId = transferId
  · rw [if_pos hown]
    exact ⟨transfer, rfl, hheld hown⟩
  · rw [if_neg hown]
    exact h.owned hold hhold

/-- A transition that releases nothing. -/
theorem Ordered.moved {network later : AchNetwork κ} (h : network.Ordered) {transferId : String}
    {transfer transfer' : AchTransfer}
    (hget : network.transfers.get? transferId = some transfer)
    (hledger : later.ledger = network.ledger) (hpending : later.pending = network.pending)
    (htransfers : later.transfers = network.transfers.set transferId transfer')
    (hrequest : transfer'.request = transfer.request)
    (hheld : transfer.status.Held = true → transfer'.status.Held = true) : later.Ordered where
  wellFormed := by
    rw [hledger]
    exact h.wellFormed
  inOrder := by
    rw [hpending]
    exact h.inOrder
  debits := by
    rw [hpending]
    exact h.debits
  owned := by
    rw [hpending, htransfers]
    intro hold hhold
    refine h.owned_set hhold fun hown => ?_
    rcases h.owned hold hhold with ⟨owner, howner, hstatus⟩
    rw [hown] at howner
    cases hget.symm.trans howner
    exact hheld hstatus
  keyed := by
    rw [htransfers]
    exact Dict.forall_get?_set (by rw [hrequest, h.keyed transferId transfer hget]) h.keyed

/-- A transfer whose funds are not on hold has no hold in the list. -/
theorem Ordered.not_held {network : AchNetwork κ} (h : network.Ordered) {transferId : String}
    {transfer : AchTransfer} (hget : network.transfers.get? transferId = some transfer)
    (hstatus : transfer.status.Held = false) {hold : PendingTransaction}
    (hhold : hold ∈ network.pending) : hold.transactionId ≠ transferId := by
  intro hown
  rcases h.owned hold hhold with ⟨owner, howner, hheld⟩
  rw [hown] at howner
  cases hget.symm.trans howner
  rw [hstatus] at hheld
  cases hheld

/-- The hold is taken. It has the next number, and its transfer had none. -/
theorem Ordered.hold {network later : AchNetwork κ} (h : network.Ordered) {transferId : String}
    {transfer : AchTransfer} (hget : network.transfers.get? transferId = some transfer)
    (hstatus : transfer.status = .validated) (hhold : transfer.request.Holdable)
    (hledger : later.ledger = network.ledger)
    (htransfers : later.transfers = network.transfers.set transferId
      (transfer.moved .pending 2 "Funds marked pending"))
    (hpending : later.pending
      = network.pending ++ [transfer.request.hold hhold network.pending.length]) :
    later.Ordered := by
  have hid : (transfer.request.hold hhold network.pending.length).transactionId = transferId :=
    h.keyed transferId transfer hget
  have hnew : ∀ other ∈ network.pending, other.transactionId ≠ transferId := fun other hother =>
    h.not_held hget (by rw [hstatus]; rfl) hother
  constructor
  · rw [hledger]
    exact h.wellFormed
  · rw [hpending]
    refine h.inOrder.snoc rfl ?_
    rw [hid]
    exact hnew
  · rw [hpending]
    intro hold hmem
    rcases List.mem_append.mp hmem with hmem | hmem
    · exact h.debits hold hmem
    · rw [List.mem_singleton.mp hmem]
      rfl
  · rw [hpending, htransfers]
    intro hold hmem
    rcases List.mem_append.mp hmem with hmem | hmem
    · exact h.owned_set hmem fun _ => rfl
    · rw [List.mem_singleton.mp hmem, hid]
      exact ⟨_, Dict.get?_set_self network.transfers transferId _, rfl⟩
  · rw [htransfers]
    exact Dict.forall_get?_set (h.keyed transferId transfer hget) h.keyed

/-- What a completion leaves of the holds, when it gives back no hold but the
    last, is all of them or all but the last. -/
theorem filter_of_last {holds : List PendingTransaction} {transferId : String}
    (hlast : ∀ hold ∈ holds.dropLast, hold.transactionId ≠ transferId) :
    (holds.filter fun hold => hold.transactionId ≠ transferId) <+: holds := by
  rcases List.eq_nil_or_concat' holds with rfl | ⟨front, last, rfl⟩
  · exact List.prefix_rfl
  · rw [List.dropLast_concat] at hlast
    have hfront : (front.filter fun hold => hold.transactionId ≠ transferId) = front :=
      List.filter_eq_self.mpr fun hold hhold => decide_eq_true (hlast hold hhold)
    rw [List.filter_append, hfront]
    refine List.prefix_append_right_inj front |>.mpr ?_
    by_cases hown : last.transactionId = transferId
    · rw [List.filter_cons_of_neg (by simpa using hown)]
      exact List.nil_prefix
    · rw [List.filter_cons_of_pos (by simpa using hown)]
      exact List.prefix_rfl

/-- The hold is given back, and it was the last one. -/
theorem Ordered.release {network later : AchNetwork κ} (h : network.Ordered)
    {transferId : String} {transfer : AchTransfer}
    (hget : network.transfers.get? transferId = some transfer) (transfer' : AchTransfer)
    (hrequest : transfer'.request = transfer.request) (hledger : later.ledger.WellFormed)
    (htransfers : later.transfers = network.transfers.set transferId transfer')
    (hpending : later.pending = network.pending.filter fun hold =>
      hold.transactionId ≠ transfer.request.transferId)
    (hlast : ∀ hold ∈ network.pending.dropLast,
      hold.transactionId ≠ transfer.request.transferId) : later.Ordered where
  wellFormed := hledger
  inOrder := by
    rw [hpending]
    exact h.inOrder.of_prefix (filter_of_last hlast)
  debits := by
    rw [hpending]
    exact fun hold hhold => h.debits hold (List.mem_of_mem_filter hhold)
  owned := by
    rw [hpending, htransfers]
    intro hold hhold
    have hother : hold.transactionId ≠ transfer.request.transferId := by
      simpa using (List.mem_filter.mp hhold).2
    refine h.owned_set (List.mem_of_mem_filter hhold) fun hown => absurd hown ?_
    rwa [h.keyed transferId transfer hget] at hother
  keyed := by
    rw [htransfers]
    exact Dict.forall_get?_set (by rw [hrequest, h.keyed transferId transfer hget]) h.keyed

variable {lift : AchCallback → κ} {network later : AchNetwork κ} {callback : AchCallback}

/-- A stage that gives back no hold but the last keeps the holds in order. -/
theorem ordered_stage (h : network.Ordered) (hstage : Stage lift network callback later)
    (hlast : network.ReleasesLast callback) : later.Ordered := by
  cases hstage with
  | refused => exact h
  | rejected hget hstatus =>
      exact h.moved hget rfl rfl rfl rfl fun hheld => by rw [hstatus] at hheld; cases hheld
  | validated hget hstatus =>
      exact h.moved hget rfl rfl rfl rfl fun hheld => by rw [hstatus] at hheld; cases hheld
  | held hget hstatus hhold => exact h.hold hget hstatus hhold rfl rfl rfl
  | unheld hget => exact h.moved hget rfl rfl rfl rfl fun _ => rfl
  | submitted hget => exact h.moved hget rfl rfl rfl rfl fun _ => rfl
  | processed hget => exact h.moved hget rfl rfl rfl rfl fun _ => rfl
  | @debited transferId transfer hget hstatus hfits =>
      exact h.release hget (transfer.moved .completed 10 "Transfer completed").noted rfl
        (Ledger.wellFormed_push _ _ h.wellFormed (Posting.refusal_entry hfits)) rfl rfl
        (hlast transferId rfl transfer hget hstatus)
  | @undebited transferId transfer hget hstatus =>
      exact h.release hget (transfer.moved .completed 10 "Transfer completed") rfl h.wellFormed
        rfl rfl (hlast transferId rfl transfer hget hstatus)

/-- A completion that takes a hold out from before the last one leaves holds
    that no projection accepts. -/
theorem not_snapshot_stage (h : network.Ordered) (hstage : Stage lift network callback later)
    (hearly : ¬ network.ReleasesLast callback) : ¬ later.Snapshot := by
  unfold ReleasesLast at hearly
  push Not at hearly
  rcases hearly with ⟨transferId, hcompleting, transfer, hget, hstatus, hold, hhold, hown⟩
  have hcallback : callback = .complete transferId := by
    cases callback with
    | complete other =>
        cases hcompleting
        rfl
    | _ => cases hcompleting
  subst hcallback
  have hfilter : ¬ InOrder (network.pending.filter fun item =>
      item.transactionId ≠ transfer.request.transferId) := by
    rcases List.eq_nil_or_concat' network.pending with hnil | ⟨front, last, hfront⟩
    · rw [hnil] at hhold
      exact absurd hhold List.not_mem_nil
    · rw [hfront, List.dropLast_concat] at hhold
      -- The last hold is another one, and identifiers are distinct.
      have hkept : last.transactionId ≠ transfer.request.transferId := by
        have hdistinct := h.inOrder.ids_nodup
        rw [hfront, List.map_append, List.map_singleton, List.nodup_append] at hdistinct
        intro hsame
        exact hdistinct.2.2 _ (List.mem_map_of_mem hhold) _ (List.mem_singleton_self _)
          (hown.trans hsame.symm)
      refine @InOrder.not_filter _ h.inOrder _ hold last ?_ (decide_eq_true hkept) ?_ ?_
      · rw [hfront, List.getLast?_concat]
      · rw [hfront]
        exact List.mem_append_left _ hhold
      · simpa using hown
  have hsubset : later.pending = (network.pending.filter fun item =>
      item.transactionId ≠ transfer.request.transferId) ∧ later.ledger.WellFormed := by
    cases hstage with
    | refused hrefused => exact absurd hstatus (hrefused transfer hget)
    | debited hget' _ hfits =>
        cases hget.symm.trans hget'
        exact ⟨rfl, Ledger.wellFormed_push _ _ h.wellFormed (Posting.refusal_entry hfits)⟩
    | undebited hget' =>
        cases hget.symm.trans hget'
        exact ⟨rfl, h.wellFormed⟩
  rw [snapshot_iff hsubset.2, hsubset.1]
  · exact hfilter
  · rw [hsubset.1]
    exact fun item hitem => h.debits item (List.mem_of_mem_filter hitem)

end AchNetwork

/-- A scheduler step does not complete a transfer whose hold has others after
    it. -/
def AchNetworkCall.ReleasesLast (network : AchNetwork AchCallback) : AchNetworkCall → Prop
  | .receive _ => True
  | .runNext => ∀ event ∈ network.scheduler.queue.head?,
      network.scheduler.clock.time ≤ event.time → network.ReleasesLast event.callback

instance (network : AchNetwork AchCallback) :
    ∀ call : AchNetworkCall, Decidable (call.ReleasesLast network)
  | .receive _ => isTrue trivial
  | .runNext => inferInstanceAs (Decidable (∀ event ∈ network.scheduler.queue.head?, _ → _))

namespace AchNetwork

/-- What a call leaves of the order. -/
theorem ordered_exec {network : AchNetwork AchCallback} (h : network.Ordered)
    (call : AchNetworkCall) :
    (call.ReleasesLast network → (after call.exec network).Ordered) ∧
      (¬ call.ReleasesLast network → ¬ (after call.exec network).Snapshot) := by
  cases call with
  | receive request =>
      refine ⟨fun _ => ?_, fun hearly => absurd trivial hearly⟩
      rw [AchNetworkCall.exec, after_discard]
      rcases after_receive id network request with hsame | ⟨hnew, hstored⟩
      · rwa [hsame]
      · -- The transfer is new, so no hold can be its own.
        have hnone := (Dict.not_mem_iff network.transfers request.transferId).mp hnew
        rw [hstored]
        refine ⟨h.wellFormed, h.inOrder, h.debits, fun hold hhold => ?_,
          Dict.forall_get?_set rfl h.keyed⟩
        refine h.owned_set hhold fun hown => ?_
        rcases h.owned hold hhold with ⟨owner, howner, -⟩
        rw [hown, hnone] at howner
        cases howner
  | runNext =>
      rw [AchNetworkCall.exec, after_discard, runNext]
      rcases EventScheduler.after_runNext schedulerOf (AchNetwork.call id) network with
        ⟨hqueue, hafter⟩ | ⟨event, queue, hqueue, hlate, hafter⟩ |
          ⟨event, queue, clock, history, hqueue, hdue, hclock, hafter⟩ <;>
        rw [hafter]
      · refine ⟨fun _ => h, fun hearly => absurd (fun event hmem => ?_) hearly⟩
        change network.scheduler.queue = [] at hqueue
        rw [hqueue] at hmem
        cases hmem
      · refine ⟨fun _ => h.of_eq rfl rfl rfl,
          fun hearly => absurd (fun other hmem hdue => ?_) hearly⟩
        change network.scheduler.queue = event :: queue at hqueue
        rw [hqueue] at hmem
        cases hmem
        exact absurd hdue (not_le.mpr hlate)
      · -- The callback finds the transfers and the holds as they were.
        change network.scheduler.queue = event :: queue at hqueue
        have hready : (schedulerOf.set ((schedulerOf.get network).ready clock queue)
            network).Ordered := h.of_eq rfl rfl rfl
        have hstage := stage_call id
          (schedulerOf.set ((schedulerOf.get network).ready clock queue) network) event.callback
        have hlast : AchNetworkCall.ReleasesLast network .runNext ↔
            network.ReleasesLast event.callback := by
          simp only [AchNetworkCall.ReleasesLast, hqueue, List.head?_cons, Option.mem_def,
            Option.some.injEq, forall_eq']
          exact ⟨fun hall => hall hdue, fun hall _ => hall⟩
        rw [hlast]
        constructor
        · intro hall
          exact (ordered_stage hready hstage hall).of_eq rfl rfl rfl
        · intro hearly hsnapshot
          exact not_snapshot_stage hready hstage hearly hsnapshot

theorem Ordered.snapshot {network : AchNetwork κ} (h : network.Ordered) : network.Snapshot :=
  (snapshot_iff h.wellFormed h.debits).mpr h.inOrder

/-- In a run of receive calls and scheduler steps from a new network over a
    ledger that was built by its own calls, the projection accepts the holds in
    every state, exactly when every completion gives back the last hold. -/
theorem holds_snapshot_iff (opening : List LedgerCall) (scheduler : EventScheduler AchCallback)
    (calls : List AchNetworkCall) :
    let network := AchNetwork.new (finalState LedgerCall.exec Ledger.new opening) scheduler
    AllStates AchNetworkCall.exec Snapshot network calls ↔
      AllSteps AchNetworkCall.exec (fun network call => call.ReleasesLast network) network
        calls := by
  intro network
  have hstart : network.Ordered :=
    ordered_new (Ledger.reachable_wellFormed ⟨opening, rfl⟩) scheduler
  rw [allStates_iff_after]
  refine (and_iff_right hstart.snapshot).trans ?_
  refine allSteps_congr (I := Ordered) ?_ ?_ hstart calls
  · exact fun network call h hlast => (ordered_exec h call).1 hlast
  · -- A hold taken out of the middle is seen at once.
    intro network call h
    constructor
    · exact fun hsnapshot => by_contra fun hearly => (ordered_exec h call).2 hearly hsnapshot
    · exact fun hlast => ((ordered_exec h call).1 hlast).snapshot

/-- One credit of $1,000.00, appended. -/
def pendingOpening : List LedgerCall :=
  [.append
    { entryId := "ACH-OPEN", accountId := "HCCU-DEMO-001", amount := { cents := 100000 }
      entryType := .credit, description := "Opening balance", sequence := 1, postedAt := 0 }]

/-- Two transfers are received and go through the stages side by side, until
    the first of them completes. -/
def twoTransfers : List AchNetworkCall :=
  [.receive (achRequest "ACH-0001" 25000), .receive (achRequest "ACH-0002" 10000)] ++
    List.replicate 9 .runNext

/-- They are held under the numbers one and two, and the first completion leaves
    the second hold alone under the number two. -/
theorem firstRelease_breaks :
    ¬ AllStates AchNetworkCall.exec Snapshot
      (AchNetwork.new (finalState LedgerCall.exec Ledger.new pendingOpening)) twoTransfers := by
  intro hall
  rcases allStates_finalState hall with ⟨projection, hproject, -⟩
  have hraises : (projectBalances
      (finalState AchNetworkCall.exec
        (AchNetwork.new (finalState LedgerCall.exec Ledger.new pendingOpening)) twoTransfers).ledger
      (finalState AchNetworkCall.exec
        (AchNetwork.new (finalState LedgerCall.exec Ledger.new pendingOpening))
          twoTransfers).pending).isOk = false := by
    decide
  rw [hproject] at hraises
  cases hraises

end AchNetwork

end BankSim
