import BankSim.Theory.AchHolds

/-!
# Whose Holds an Available Balance Counts

`available_balance` takes an account, and asks the ledger about that account
alone, but the holds it subtracts are all that the network has. A hold does
not carry an account, so telling whose it is takes the transfer behind it.

In every state that a network can reach there is exactly one such transfer,
with the amount of the hold. The holds therefore add up to the amounts of the
transfers that hold funds, and what an account has available is right exactly
when none of these belongs to another account. For the same reason work on
another account's transfer shows exactly when it takes a hold or gives one
back.

## Main definitions

* `AchNetwork.Listed`: A transfer holds funds.
* `AchNetwork.OwnBalance`: The available balance counts an account's own holds.
* `AchNetwork.OnlyHolds`: Nobody but the account has holds.
* `AchNetwork.Covered`: There is one transfer behind every hold.
* `AchNetworkCall.MovesHold`: A step takes a hold or gives one back.

## Theorems

* `covered_stage`, `covered_exec`: A call keeps a transfer behind every hold.
* `ownBalance_iff`: When a balance counts an account's own holds only.
* `unchanged_stage_iff`: When work for another account leaves it alone.
* `availableBalance_own_iff`: Both, in every state a network can reach.
-/

namespace BankSim

open Exec

namespace AchNetwork

variable {κ : Type}

/-- The transfer has funds on hold. -/
def Listed (network : AchNetwork κ) (transfer : AchTransfer) : Prop :=
  transfer.request.transferId ∈ network.pending.map (·.transactionId)

instance (network : AchNetwork κ) : DecidablePred network.Listed :=
  fun _ => inferInstanceAs (Decidable (_ ∈ _))

/-- The transfers that have funds on hold. -/
def listed (network : AchNetwork κ) : List AchTransfer :=
  network.transfers.values.filter fun transfer => network.Listed transfer

/-- The amounts of the account's transfers that have funds on hold. -/
def heldOf (network : AchNetwork κ) (accountId : String) : Int :=
  ((network.listed.filter fun transfer => transfer.request.sourceAccountId = accountId).map
    (·.request.amountCents)).sum

/-- The available balance is the account's balance less its own holds. -/
def OwnBalance (network : AchNetwork κ) (accountId : String) : Prop :=
  network.availableBalance accountId
    = accountBalance network.ledger accountId - network.heldOf accountId

instance (network : AchNetwork κ) (accountId : String) : Decidable (network.OwnBalance accountId) :=
  inferInstanceAs (Decidable (_ = _))

/-- Whoever has funds on hold has them on hold from this account. -/
def OnlyHolds (network : AchNetwork κ) (accountId : String) : Prop :=
  ∀ transferId transfer, network.transfers.get? transferId = some transfer →
    network.Listed transfer → transfer.request.sourceAccountId = accountId

/-- There is one transfer behind every hold, and it has the amount of the hold
    and no other. -/
structure Covered (network : AchNetwork κ) : Prop where
  keyed : ∀ transferId transfer, network.transfers.get? transferId = some transfer →
    transfer.request.transferId = transferId
  once : (network.pending.map (·.transactionId)).Nodup
  behind : ∀ item ∈ network.pending, item.transactionType = .pendingDebit ∧
    ∃ transfer, network.transfers.get? item.transactionId = some transfer ∧
      transfer.status.Held ∧ transfer.request.amountCents = item.amount.cents

theorem covered_new (ledger : Ledger) (scheduler : EventScheduler κ) :
    (AchNetwork.new ledger scheduler).Covered where
  keyed _ _ hget := nomatch hget
  once := List.nodup_nil
  behind _ hitem := nomatch hitem

variable {network later : AchNetwork κ} {transferId : String} {transfer transfer' : AchTransfer}

/-- The scheduler and the ledger do not matter. -/
theorem Covered.of_eq (h : network.Covered) (hpending : later.pending = network.pending)
    (htransfers : later.transfers = network.transfers) : later.Covered where
  keyed := by
    rw [htransfers]
    exact h.keyed
  once := by
    rw [hpending]
    exact h.once
  behind := by
    rw [hpending, htransfers]
    exact h.behind

/-- A transfer that is listed has its funds on hold. -/
theorem Covered.held_of_listed (h : network.Covered)
    (hget : network.transfers.get? transferId = some transfer) (hlisted : network.Listed transfer) :
    transfer.status.Held := by
  rcases List.mem_map.mp hlisted with ⟨item, hitem, hid⟩
  rcases (h.behind item hitem).2 with ⟨found, hfound, hheld, -⟩
  rw [hid, h.keyed transferId transfer hget, hget] at hfound
  cases hfound
  exact hheld

/-- A transfer is replaced, and the holds on it, if any, go on as before. -/
theorem Covered.replace (h : network.Covered)
    (htransfers : later.transfers = network.transfers.set transferId transfer')
    (hpending : later.pending = network.pending)
    (hid : transfer'.request.transferId = transferId)
    (hget : ∀ transfer, network.transfers.get? transferId = some transfer →
      transfer'.request = transfer.request ∧ (transfer.status.Held → transfer'.status.Held)) :
    later.Covered where
  keyed := by
    rw [htransfers]
    exact Dict.forall_get?_set hid h.keyed
  once := by
    rw [hpending]
    exact h.once
  behind item hitem := by
    rw [hpending] at hitem
    rcases h.behind item hitem with ⟨htype, found, hfound, hheld, hcents⟩
    refine ⟨htype, ?_⟩
    rw [htransfers, Dict.get?_set]
    by_cases hsame : item.transactionId = transferId
    · rw [hsame] at hfound
      rcases hget found hfound with ⟨hrequest, hkeeps⟩
      exact ⟨transfer', if_pos hsame, hkeeps hheld, by rw [hrequest, hcents]⟩
    · exact ⟨found, (if_neg hsame).trans hfound, hheld, hcents⟩

/-- A transition that does not give funds back. -/
theorem Covered.moved (h : network.Covered)
    (hget : network.transfers.get? transferId = some transfer)
    (htransfers : later.transfers = network.transfers.set transferId transfer')
    (hpending : later.pending = network.pending) (hrequest : transfer'.request = transfer.request)
    (hheld : transfer.status.Held → transfer'.status.Held) : later.Covered := by
  refine h.replace htransfers hpending ?_ fun found hfound => ?_
  · rw [hrequest]
    exact h.keyed transferId transfer hget
  · cases hget.symm.trans hfound
    exact ⟨hrequest, hheld⟩

/-- The hold is taken. -/
theorem Covered.hold (h : network.Covered)
    (hget : network.transfers.get? transferId = some transfer)
    (hstatus : transfer.status = .validated) (hhold : transfer.request.Holdable)
    (htransfers : later.transfers = network.transfers.set transferId
      (transfer.moved .pending 2 "Funds marked pending"))
    (hpending : later.pending
      = network.pending ++ [transfer.request.hold hhold network.pending.length]) :
    later.Covered := by
  have hid := h.keyed transferId transfer hget
  have hkept : (network.withTransfer transferId
      (transfer.moved .pending 2 "Funds marked pending")).Covered :=
    h.moved hget rfl rfl rfl fun _ => rfl
  refine ⟨?_, ?_, ?_⟩
  · rw [htransfers]
    exact hkept.keyed
  · rw [hpending, List.map_append]
    -- A validated transfer had no hold before.
    refine List.nodup_append'.mpr ⟨h.once, List.nodup_singleton _, ?_⟩
    rw [List.map_singleton, List.disjoint_singleton]
    intro hlisted
    have hheld := h.held_of_listed hget hlisted
    rw [hstatus] at hheld
    cases hheld
  · intro item hitem
    rw [hpending, List.mem_append, List.mem_singleton] at hitem
    rw [htransfers]
    rcases hitem with hitem | rfl
    · exact hkept.behind item hitem
    · refine ⟨rfl, transfer.moved .pending 2 "Funds marked pending", ?_, rfl, rfl⟩
      change (network.transfers.set transferId _).get? transfer.request.transferId = _
      rw [hid]
      exact Dict.get?_set_self _ _ _

/-- The hold is given back. -/
theorem Covered.release (h : network.Covered)
    (hget : network.transfers.get? transferId = some transfer)
    (htransfers : later.transfers = network.transfers.set transferId transfer')
    (hpending : later.pending = network.pending.filter fun item =>
      item.transactionId ≠ transfer.request.transferId)
    (hrequest : transfer'.request = transfer.request) : later.Covered where
  keyed := by
    rw [htransfers]
    refine Dict.forall_get?_set ?_ h.keyed
    rw [hrequest]
    exact h.keyed transferId transfer hget
  once := by
    rw [hpending]
    exact h.once.sublist (List.filter_sublist.map _)
  behind item hitem := by
    rw [hpending, List.mem_filter] at hitem
    have hne : item.transactionId ≠ transferId := by
      simpa [h.keyed transferId transfer hget] using hitem.2
    rw [htransfers, Dict.get?_set_ne _ _ hne]
    exact h.behind item hitem.1

variable {lift : AchCallback → κ} {callback : AchCallback}

/-- A stage keeps a transfer behind every hold. -/
theorem covered_stage (h : network.Covered) (hstage : Stage lift network callback later) :
    later.Covered := by
  cases hstage with
  | refused => exact h
  | rejected hget hstatus =>
      refine h.moved hget rfl rfl rfl fun hheld => ?_
      rw [hstatus] at hheld
      cases hheld
  | validated hget hstatus =>
      refine h.moved hget rfl rfl rfl fun hheld => ?_
      rw [hstatus] at hheld
      cases hheld
  | held hget hstatus hhold => exact h.hold hget hstatus hhold rfl rfl
  | unheld hget => exact h.moved hget rfl rfl rfl fun _ => rfl
  | submitted hget => exact h.moved hget rfl rfl rfl fun _ => rfl
  | processed hget => exact h.moved hget rfl rfl rfl fun _ => rfl
  | debited hget => exact h.release hget rfl rfl rfl
  | undebited hget => exact h.release hget rfl rfl rfl

/-! ### What the holds add up to -/

/-- Every hold is a pending debit, so all of them are subtracted. -/
theorem Covered.availableBalance_eq (h : network.Covered) (accountId : String) :
    network.availableBalance accountId
      = accountBalance network.ledger accountId - (network.pending.map (·.amount.cents)).sum := by
  have hall : (network.pending.filter fun item => item.transactionType = .pendingDebit)
      = network.pending :=
    List.filter_eq_self.mpr fun item hitem => decide_eq_true (h.behind item hitem).1
  rw [availableBalance, hall]

theorem mem_listed_iff : transfer ∈ network.listed ↔
    (∃ transferId, network.transfers.get? transferId = some transfer) ∧
      network.Listed transfer := by
  rw [listed, List.mem_filter, Dict.mem_values_iff, decide_eq_true_iff]

/-- The holds and the transfers behind them have the same identifiers. -/
theorem Covered.listed_perm (h : network.Covered) :
    (network.listed.map (·.request.transferId)).Perm (network.pending.map (·.transactionId)) := by
  have hkeys := Dict.map_values_eq_keys network.transfers (·.request.transferId) h.keyed
  refine (List.perm_ext_iff_of_nodup ?_ h.once).mpr fun transferId => ?_
  · have hnodup := network.transfers.keys_nodup
    rw [← Dict.keys, ← hkeys] at hnodup
    exact hnodup.sublist (List.filter_sublist.map _)
  · constructor
    · intro hmem
      rcases List.mem_map.mp hmem with ⟨transfer, htransfer, rfl⟩
      exact (mem_listed_iff.mp htransfer).2
    · intro hmem
      rcases List.mem_map.mp hmem with ⟨item, hitem, rfl⟩
      rcases (h.behind item hitem).2 with ⟨transfer, hget, -, -⟩
      have hid := h.keyed item.transactionId transfer hget
      refine List.mem_map.mpr ⟨transfer, mem_listed_iff.mpr ⟨⟨_, hget⟩, ?_⟩, hid⟩
      rwa [Listed, hid]

/-- The amount of the transfer with this identifier. -/
def centsOf (network : AchNetwork κ) (transferId : String) : Int :=
  ((network.transfers.get? transferId).map (·.request.amountCents)).getD 0

/-- The holds add up to the amounts of the transfers behind them. -/
theorem Covered.sum_listed (h : network.Covered) :
    (network.listed.map (·.request.amountCents)).sum
      = (network.pending.map (·.amount.cents)).sum := by
  have htransfers : network.listed.map (·.request.amountCents)
      = (network.listed.map (·.request.transferId)).map network.centsOf := by
    rw [List.map_map]
    refine List.map_congr_left fun transfer hmem => ?_
    rcases (mem_listed_iff.mp hmem).1 with ⟨transferId, hget⟩
    rw [Function.comp_apply, h.keyed transferId transfer hget, centsOf, hget]
    rfl
  have hpending : network.pending.map (·.amount.cents)
      = (network.pending.map (·.transactionId)).map network.centsOf := by
    rw [List.map_map]
    refine List.map_congr_left fun item hitem => ?_
    rcases (h.behind item hitem).2 with ⟨transfer, hget, -, hcents⟩
    rw [Function.comp_apply, centsOf, hget, ← hcents]
    rfl
  rw [htransfers, hpending]
  exact (h.listed_perm.map network.centsOf).sum_eq

theorem Covered.cents_pos (h : network.Covered) (hmem : transfer ∈ network.listed) :
    0 < transfer.request.amountCents := by
  rcases mem_listed_iff.mp hmem with ⟨⟨transferId, hget⟩, hlisted⟩
  rcases List.mem_map.mp hlisted with ⟨item, hitem, hid⟩
  rcases (h.behind item hitem).2 with ⟨found, hfound, -, hcents⟩
  rw [hid, h.keyed transferId transfer hget, hget] at hfound
  cases hfound
  rw [hcents]
  exact item.amount.cents_pos

/-- The available balance of an account counts its own holds, and no other,
    exactly when there is no other. -/
theorem ownBalance_iff (h : network.Covered) (accountId : String) :
    network.OwnBalance accountId ↔ network.OnlyHolds accountId := by
  have hpart := ListSum.sum_filter_eq_iff
    (fun transfer => decide (transfer.request.sourceAccountId = accountId))
    (fun transfer => transfer.request.amountCents) (l := network.listed) fun _ => h.cents_pos
  rw [OwnBalance, h.availableBalance_eq, ← h.sum_listed, sub_right_inj, heldOf]
  refine eq_comm.trans (hpart.trans ?_)
  constructor
  · intro hall transferId transfer hget hlisted
    exact of_decide_eq_true (hall transfer (mem_listed_iff.mpr ⟨⟨transferId, hget⟩, hlisted⟩))
  · intro honly transfer hmem
    rcases mem_listed_iff.mp hmem with ⟨⟨transferId, hget⟩, hlisted⟩
    exact decide_eq_true (honly transferId transfer hget hlisted)

/-! ### Work for another account -/

/-- The callback takes a hold, or gives one back. -/
def MovesHold (network : AchNetwork κ) : AchCallback → Prop
  | .markPending transferId => ∃ transfer ∈ network.transfers.get? transferId,
      transfer.status = .validated ∧ transfer.request.Holdable
  | .complete transferId => ∃ transfer ∈ network.transfers.get? transferId,
      transfer.status = .processing ∧ network.Listed transfer
  | .validate _ | .submit _ | .process _ => False

/-- The transfer that the callback works on takes no funds of this account. -/
def Elsewhere (network : AchNetwork κ) (accountId : String) (callback : AchCallback) : Prop :=
  ∀ transfer ∈ network.transfers.get? callback.transferId,
    transfer.request.sourceAccountId ≠ accountId

/-- What is left of the holds adds up to what it was exactly when none was
    given back. -/
theorem sum_released_iff (network : AchNetwork κ) (transfer : AchTransfer) :
    ((network.pending.filter fun item => item.transactionId ≠ transfer.request.transferId).map
        (·.amount.cents)).sum = (network.pending.map (·.amount.cents)).sum ↔
      ¬ network.Listed transfer := by
  rw [ListSum.sum_filter_eq_iff _ _ fun item _ => item.amount.cents_pos, Listed, List.mem_map]
  simp only [ne_eq, decide_not, Bool.not_eq_true', decide_eq_false_iff_not, not_exists, not_and]

/-- Giving a hold back leaves a balance as it was exactly when there is none. -/
theorem unchanged_release_iff (h : network.Covered) (hlater : later.Covered) {accountId : String}
    (hbalance : accountBalance later.ledger accountId = accountBalance network.ledger accountId)
    (hpending : later.pending = network.pending.filter fun item =>
      item.transactionId ≠ transfer.request.transferId) :
    later.availableBalance accountId = network.availableBalance accountId ↔
      ¬ network.Listed transfer := by
  rw [hlater.availableBalance_eq, h.availableBalance_eq, hbalance, sub_right_inj, hpending,
    sum_released_iff]

/-- Work on another account's transfer leaves an available balance as it was
    exactly when it moves no hold. -/
theorem unchanged_stage_iff (h : network.Covered) (hstage : Stage lift network callback later)
    {accountId : String} (hother : network.Elsewhere accountId callback) :
    later.availableBalance accountId = network.availableBalance accountId ↔
      ¬ network.MovesHold callback := by
  have hlater := covered_stage h hstage
  -- Completing a transfer that is processing moves its hold, if it has one.
  have hcompletes : ∀ {transferId : String} {transfer : AchTransfer},
      network.transfers.get? transferId = some transfer → transfer.status = .processing →
        (network.MovesHold (.complete transferId) ↔ network.Listed transfer) := by
    intro transferId transfer hget hstatus
    constructor
    · rintro ⟨found, hfound, -, hlisted⟩
      cases hget.symm.trans hfound
      exact hlisted
    · exact fun hlisted => ⟨transfer, hget, hstatus, hlisted⟩
  cases hstage with
  | refused hrefused =>
      refine iff_of_true rfl fun hmoves => ?_
      cases callback with
      | markPending transferId =>
          rcases hmoves with ⟨transfer, hget, hstatus, -⟩
          exact hrefused transfer hget hstatus
      | complete transferId =>
          rcases hmoves with ⟨transfer, hget, hstatus, -⟩
          exact hrefused transfer hget hstatus
      | _ => exact hmoves
  | rejected hget hstatus => exact iff_of_true rfl not_false
  | validated hget hstatus => exact iff_of_true rfl not_false
  | @held transferId transfer hget hstatus hhold =>
      refine iff_of_false ?_ fun hstays => hstays ⟨transfer, hget, hstatus, hhold⟩
      -- The hold is taken from what is available to everybody.
      have hpos := hhold.cents_pos
      have hsum : ((network.pending ++ [transfer.request.hold hhold network.pending.length]).map
          (·.amount.cents)).sum
            = (network.pending.map (·.amount.cents)).sum + transfer.request.amountCents := by
        rw [List.map_append, List.sum_append, List.map_singleton, List.sum_singleton]
        rfl
      rw [hlater.availableBalance_eq, h.availableBalance_eq]
      change accountBalance network.ledger accountId - List.sum (List.map _
        (network.pending ++ [transfer.request.hold hhold network.pending.length])) ≠ _
      omega
  | unheld hget hstatus hhold =>
      refine iff_of_true rfl ?_
      rintro ⟨found, hfound, -, hhold'⟩
      cases hget.symm.trans hfound
      exact hhold hhold'
  | submitted hget hstatus => exact iff_of_true rfl not_false
  | processed hget hstatus => exact iff_of_true rfl not_false
  | @debited transferId transfer hget hstatus hfits =>
      have hbalance := accountBalance_push network.ledger (Posting.entry hfits) accountId
      have haccount : (Posting.entry hfits).accountId ≠ accountId := hother transfer hget
      rw [if_neg haccount, Int.add_zero] at hbalance
      exact (unchanged_release_iff h hlater hbalance rfl).trans
        (not_congr (hcompletes hget hstatus).symm)
  | undebited hget hstatus =>
      exact (unchanged_release_iff h hlater rfl rfl).trans
        (not_congr (hcompletes hget hstatus).symm)

end AchNetwork

namespace AchNetworkCall

/-- A call takes a hold or gives one back. -/
def MovesHold (network : AchNetwork AchCallback) : AchNetworkCall → Prop
  | .receive _ => False
  | .runNext => ∃ event ∈ network.scheduler.queue.head?,
      network.scheduler.clock.time ≤ event.time ∧ network.MovesHold event.callback

/-- A call is about transfers that take no funds of this account. -/
def Elsewhere (network : AchNetwork AchCallback) (accountId : String) : AchNetworkCall → Prop
  | .receive request => request.sourceAccountId ≠ accountId
  | .runNext => ∀ event ∈ network.scheduler.queue.head?, network.Elsewhere accountId event.callback

end AchNetworkCall

namespace AchNetwork

/-- A call keeps a transfer behind every hold, and one for another account is
    noticed exactly when it moves a hold. -/
theorem covered_exec {network : AchNetwork AchCallback} (h : network.Covered)
    (call : AchNetworkCall) :
    (after call.exec network).Covered ∧ ∀ accountId, call.Elsewhere network accountId →
      ((after call.exec network).availableBalance accountId = network.availableBalance accountId ↔
        ¬ call.MovesHold network) := by
  cases call with
  | receive request =>
      rw [AchNetworkCall.exec, after_discard]
      rcases after_receive id network request with hsame | ⟨hnew, hstored⟩
      · rw [hsame]
        exact ⟨h, fun _ _ => iff_of_true rfl not_false⟩
      · rw [hstored]
        refine ⟨?_, fun _ _ => iff_of_true rfl not_false⟩
        -- There was no transfer under the identifier, so no hold either.
        have hnone := (Dict.not_mem_iff network.transfers request.transferId).mp hnew
        refine h.replace rfl rfl rfl fun transfer hget => ?_
        cases hnone.symm.trans hget
  | runNext =>
      rw [AchNetworkCall.exec, after_discard, runNext]
      rcases EventScheduler.after_runNext schedulerOf (AchNetwork.call id) network with
        ⟨hqueue, hafter⟩ | ⟨event, queue, hqueue, hlate, hafter⟩ |
          ⟨event, queue, clock, history, hqueue, hdue, hclock, hafter⟩ <;>
        rw [hafter] <;> change network.scheduler.queue = _ at hqueue
      · refine ⟨h, fun _ _ => iff_of_true rfl ?_⟩
        rintro ⟨event, hmem, -⟩
        rw [hqueue] at hmem
        cases hmem
      · refine ⟨h.of_eq rfl rfl, fun _ _ => iff_of_true rfl ?_⟩
        rintro ⟨other, hmem, hdue, -⟩
        rw [hqueue] at hmem
        cases hmem
        exact absurd hdue (not_le.mpr hlate)
      · -- The callback finds the transfers and the holds as they were.
        have hready : (schedulerOf.set ((schedulerOf.get network).ready clock queue)
            network).Covered := h.of_eq rfl rfl
        have hstage := stage_call id
          (schedulerOf.set ((schedulerOf.get network).ready clock queue) network) event.callback
        refine ⟨(covered_stage hready hstage).of_eq rfl rfl, fun accountId hother => ?_⟩
        have hhead : event ∈ network.scheduler.queue.head? := by
          rw [hqueue]
          rfl
        refine (unchanged_stage_iff hready hstage (hother event hhead)).trans (not_congr ?_)
        constructor
        · exact fun hmoves => ⟨event, hhead, hdue, hmoves⟩
        · rintro ⟨other, hmem, -, hmoves⟩
          rw [hqueue] at hmem
          cases hmem
          exact hmoves

/-- In every state that a network can reach by receive calls and scheduler
    steps, the available balance of an account is its balance less its own
    holds exactly when nobody else has funds on hold, and a call for another
    account leaves it as it is exactly when no hold is taken or given back. -/
theorem availableBalance_own_iff (ledger : Ledger) (scheduler : EventScheduler AchCallback)
    (calls : List AchNetworkCall) :
    AllStates AchNetworkCall.exec
      (fun network => ∀ accountId,
        (network.OwnBalance accountId ↔ network.OnlyHolds accountId) ∧
        ∀ call : AchNetworkCall, call.Elsewhere network accountId →
          ((after call.exec network).availableBalance accountId
              = network.availableBalance accountId ↔ ¬ call.MovesHold network))
      (AchNetwork.new ledger scheduler) calls := by
  have hcovered : AllStates AchNetworkCall.exec Covered (AchNetwork.new ledger scheduler) calls :=
    allStates_of_allSteps (I := Covered) (C := fun _ _ => True)
      (fun _ call h _ => (covered_exec h call).1) (covered_new ledger scheduler)
      (allSteps_of_forall fun _ _ _ => trivial)
  refine allStates_mono (fun network h accountId => ⟨ownBalance_iff h accountId, ?_⟩) hcovered
  exact fun call hother => (covered_exec h call).2 accountId hother

/-- A pending transfer of one account is taken from what another account has
    available, which has no transfers and no funds. -/
theorem foreignHold_subtracted :
    ¬ AllStates AchNetworkCall.exec (fun network => ∀ accountId, network.OwnBalance accountId)
      (AchNetwork.new achOpening)
      [.receive (achRequest "ACH-0001" 25000), .runNext, .runNext] := by
  intro hall
  have hown := allStates_finalState hall "HCCU-DEMO-002"
  revert hown
  decide

end AchNetwork

end BankSim
