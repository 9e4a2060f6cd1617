import BankSim.Library.Keyed
import BankSim.Theory.Ach
import BankSim.Theory.Agenda
import BankSim.Theory.Operations

/-!
# A Batch of ACH Transfers Runs to Its End

Transfers received together at time zero go through their stages side by
side: all are validated at time 1, then those that passed are held at time 2,
submitted at 3, processed at 5 and completed at 10. Each of these is a sweep
of the scheduler, which finds one callback for each transfer on the agenda,
in the order of receipt, and leaves the next stage's callbacks there in the
same order.

While the validations run, there are no holds yet and the ledger is the one
the network was given, so what a transfer's validation decides, its
`verdict`, does not depend on the other transfers. `viewAt` is what every
transfer looks like in the middle of a sweep, and `Standing` is the state of
the books: which transfers hold funds, which were submitted and which were
posted. Each sweep moves one of the three along.

## Main definitions

* `AchTransfer.next`, `AchTransferRequest.staged`: A transfer after a number of
  stages.
* `AchBatch.verdict`: Why a transfer is going to be rejected.
* `AchBatch.Standing`: The transfers and the books in the middle of a sweep.
* `AchBatch.receiveAll`: Receive requests one after the other.
* `AchBatch.Finished`: Every transfer is completed and posted, or rejected.

## Theorems

* `receiveAll_run`: Receiving puts the validations on the agenda.
* `validate_step`, `markPending_step`, `submit_step`, `process_step`,
  `complete_step`: One item of each sweep.
* `batch_finishes`: The batch runs to its end.
-/

namespace BankSim

open Exec

/-- What one more stage makes of a transfer, after so many stages. -/
def AchTransfer.next (self : AchTransfer) : Nat → AchTransfer
  | 0 => self.moved .validated 1 "Transfer validated"
  | 1 => self.moved .pending 2 "Funds marked pending"
  | 2 => self.moved .submitted 3 "Submitted to ACH network"
  | 3 => self.moved .processing 5 "Network processing"
  | _ => (self.moved .completed 10 "Transfer completed").noted

/-- The transfer of a request after so many stages, none of which failed. -/
def AchTransferRequest.staged (request : AchTransferRequest) : Nat → AchTransfer
  | 0 => AchTransfer.new request
  | stage + 1 => (request.staged stage).next stage

namespace AchBatch

/-- Why the transfer is going to be rejected, if it is: what its validation
    finds on a network with the given ledger and no holds. -/
def verdict (ledger : Ledger) (request : AchTransferRequest) : Option String :=
  (AchNetwork.new ledger : AchNetwork AchCallback).rejectionReason request

/-- The requests that are going to pass. -/
def accepted (ledger : Ledger) (requests : List AchTransferRequest) : List AchTransferRequest :=
  requests.filter fun request => verdict ledger request = none

def ids (requests : List AchTransferRequest) : List String :=
  requests.map (·.transferId)

/-- The transfer of a request in the middle of a sweep, when the sweep is done
    with the given requests. Only the first sweep rejects. -/
def viewAt (ledger : Ledger) (stage : Nat) (done : List AchTransferRequest)
    (request : AchTransferRequest) : AchTransfer :=
  match verdict ledger request with
  | some reason =>
      if stage = 0 ∧ request ∉ done then request.staged 0
      else (request.staged 0).rejected 1 reason
  | none => request.staged (if request ∈ done then stage + 1 else stage)

/-- The network knows the transfers of the requests, and no others, and they
    look as the view says. -/
def Viewed (requests : List AchTransferRequest) (view : AchTransferRequest → AchTransfer)
    (transfers : Dict String AchTransfer) : Prop :=
  ∀ transferId, transfers.get? transferId
    = (requests.find? fun request => request.transferId = transferId).map view

section View

variable {requests : List AchTransferRequest} {request : AchTransferRequest}
  {view view' : AchTransferRequest → AchTransfer} {transfers : Dict String AchTransfer}

/-- A request is found under its identifier. -/
theorem find_of_mem (hids : (ids requests).Nodup) (hmem : request ∈ requests) :
    (requests.find? fun other => other.transferId = request.transferId) = some request := by
  rw [← List.head?_filter, Keyed.filter_eq_singleton _ hids hmem]
  rfl

theorem Viewed.get? (h : Viewed requests view transfers) (hids : (ids requests).Nodup)
    (hmem : request ∈ requests) : transfers.get? request.transferId = some (view request) := by
  rw [h request.transferId, find_of_mem hids hmem]
  rfl

/-- Replacing one transfer changes the view of its own request only. -/
theorem Viewed.set (h : Viewed requests view transfers) (hids : (ids requests).Nodup)
    (hmem : request ∈ requests) (hsame : ∀ other, other ≠ request → view' other = view other) :
    Viewed requests view' (transfers.set request.transferId (view' request)) := by
  intro transferId
  rw [Dict.get?_set]
  by_cases hid : transferId = request.transferId
  · rw [if_pos hid, hid, find_of_mem hids hmem]
    rfl
  · rw [if_neg hid, h transferId]
    refine Option.map_congr fun other hother => ?_
    have hfound := List.find?_some hother
    refine (hsame other ?_).symm
    rintro rfl
    exact hid (of_decide_eq_true hfound).symm

/-- A new request at the end is a new transfer. -/
theorem Viewed.receive (h : Viewed requests view transfers)
    (hnew : request.transferId ∉ ids requests) :
    Viewed (requests ++ [request]) view (transfers.set request.transferId (view request)) := by
  intro transferId
  rw [Dict.get?_set, List.find?_append]
  by_cases hid : transferId = request.transferId
  · have hnone : (requests.find? fun other => other.transferId = transferId) = none := by
      rw [List.find?_eq_none]
      intro other hother hsame
      refine hnew (List.mem_map.mpr ⟨other, hother, ?_⟩)
      rw [of_decide_eq_true hsame, hid]
    rw [if_pos hid, hnone, Option.none_or, List.find?_cons_of_pos (by simp [hid])]
    rfl
  · rw [if_neg hid, List.find?_cons_of_neg (by simpa using Ne.symm hid), List.find?_nil,
      Option.or_none]
    exact h transferId

end View

/-- The middle of a batch: how the transfers look, whose funds are held, who
    was submitted and who was posted. -/
structure Standing (ledger : Ledger) (requests : List AchTransferRequest)
    (view : AchTransferRequest → AchTransfer) (held sent posted : List AchTransferRequest)
    (network : AchNetwork AchCallback) : Prop where
  viewed : Viewed requests view network.transfers
  pending : network.pending.map (·.transactionId) = ids held
  submissions : network.submissions = ids sent
  entries : ∃ entries, network.ledger.entries = ledger.entries ++ entries ∧
    List.Forall₂ (fun request entry => request.debitPosting.Matches entry) posted entries
  wellFormed : network.ledger.WellFormed
  last_le : network.ledger.lastPostedAt ≤ 10

/-- The state of the books does not depend on the scheduler. -/
theorem Standing.frame {ledger : Ledger} {requests held sent posted : List AchTransferRequest}
    {view : AchTransferRequest → AchTransfer} {network : AchNetwork AchCallback}
    (h : Standing ledger requests view held sent posted network)
    (scheduler : EventScheduler AchCallback) :
    Standing ledger requests view held sent posted
      (AchNetwork.schedulerOf.set scheduler network) :=
  ⟨h.viewed, h.pending, h.submissions, h.entries, h.wellFormed, h.last_le⟩

/-- With nothing held and nothing posted, a validation finds the verdict. -/
theorem Standing.rejectionReason {ledger : Ledger} {requests : List AchTransferRequest}
    {view : AchTransferRequest → AchTransfer} {network : AchNetwork AchCallback}
    (h : Standing ledger requests view [] [] [] network) (request : AchTransferRequest) :
    network.rejectionReason request = verdict ledger request := by
  have hpending : network.pending = [] := List.map_eq_nil_iff.mp h.pending
  have hentries : network.ledger.entries = ledger.entries := by
    rcases h.entries with ⟨entries, hentries, hnone⟩
    cases hnone
    rw [hentries, List.append_nil]
  have havailable : ∀ accountId, network.availableBalance accountId
      = (AchNetwork.new ledger : AchNetwork AchCallback).availableBalance accountId := by
    intro accountId
    unfold AchNetwork.availableBalance
    rw [hpending, accountBalance_eq_totalCents, hentries, accountBalance_eq_totalCents]
    rfl
  unfold verdict AchNetwork.rejectionReason
  rw [havailable]

/-! ### Receiving -/

/-- Receive requests one after the other. -/
def receiveAll : List AchTransferRequest → Action (AchNetwork AchCallback) Unit
  | [] => return
  | request :: requests => do
      let _ ← AchNetwork.receive id request
      receiveAll requests

/-- The network at time zero, when it has received some requests. -/
structure Received (ledger : Ledger) (requests : List AchTransferRequest)
    (network : AchNetwork AchCallback) : Prop where
  viewed : Viewed requests (·.staged 0) network.transfers
  pending : network.pending = []
  submissions : network.submissions = []
  ledger_eq : network.ledger = ledger
  clock : network.scheduler.clock.time ≤ 1
  numbered : network.scheduler.Numbered
  agenda : network.scheduler.agenda
    = requests.map fun request => (1, AchCallback.validate request.transferId)

theorem received_new (ledger : Ledger) : Received ledger [] (AchNetwork.new ledger) where
  viewed _ := rfl
  pending := rfl
  submissions := rfl
  ledger_eq := rfl
  clock := (by decide : (0 : Int) ≤ 1)
  numbered := EventScheduler.numbered_new _
  agenda := rfl

/-- Receiving one more request. -/
theorem receive_step {ledger : Ledger} {requests : List AchTransferRequest}
    {network : AchNetwork AchCallback} (h : Received ledger requests network)
    {request : AchTransferRequest} (hnew : request.transferId ∉ ids requests) :
    ∃ later, (AchNetwork.receive id request).run network = .ok request.transferId later ∧
      Received ledger (requests ++ [request]) later := by
  have hfresh : request.transferId ∉ network.transfers := by
    rw [Dict.not_mem_iff, h.viewed request.transferId, Option.map_eq_none_iff, List.find?_eq_none]
    intro other hother hsame
    exact hnew (List.mem_map.mpr ⟨other, hother, of_decide_eq_true hsame⟩)
  have hschedule := Component.zoom_run_ok (p := AchNetwork.schedulerOf)
    (s := network.withTransfer request.transferId (AchTransfer.new request))
    (EventScheduler.scheduleAt_of_le (AchCallback.validate request.transferId) h.clock)
  refine ⟨_, (AchNetwork.receive_new id hfresh).trans (run_bind_of_ok hschedule), ?_⟩
  -- Everything on the agenda is a validation at time 1, so the new one is last.
  have hlast : ∀ item ∈ network.scheduler.agenda, item.1 ≤ 1 := by
    intro item hitem
    rw [h.agenda] at hitem
    rcases List.mem_map.mp hitem with ⟨_, -, rfl⟩
    exact le_refl 1
  have hagenda := EventScheduler.agenda_scheduled_last h.numbered hlast
    (AchCallback.validate request.transferId)
  rw [h.agenda] at hagenda
  exact
    { viewed := h.viewed.receive hnew
      pending := h.pending
      submissions := h.submissions
      ledger_eq := h.ledger_eq
      clock := h.clock
      numbered := EventScheduler.numbered_scheduled h.numbered _ _
      agenda := by
        rw [List.map_append]
        exact hagenda }

/-- Receiving requests with distinct identifiers puts their validations on the
    agenda, in order. -/
theorem receiveAll_run {ledger : Ledger} (requests more : List AchTransferRequest)
    {network : AchNetwork AchCallback} (h : Received ledger requests network)
    (hids : (ids (requests ++ more)).Nodup) :
    ∃ later, (receiveAll more).run network = .ok () later ∧
      Received ledger (requests ++ more) later := by
  induction more generalizing requests network with
  | nil =>
      rw [List.append_nil]
      exact ⟨network, rfl, h⟩
  | cons request more ih =>
      have hnew : request.transferId ∉ ids requests := by
        intro hmem
        rw [ids, List.map_append, List.nodup_append] at hids
        exact hids.2.2 _ hmem _ (List.mem_cons_self) rfl
      rcases receive_step h hnew with ⟨later, hrun, hlater⟩
      rcases ih (requests ++ [request]) hlater (by rwa [List.append_assoc]) with
        ⟨final, hrest, hfinal⟩
      rw [List.append_assoc] at hfinal
      refine ⟨final, ?_, hfinal⟩
      rw [receiveAll, run_bind_of_ok hrun]
      exact hrest

/-! ### One item of each sweep -/

/-- A batch that may be received: identifiers are distinct and new to the
    ledger, descriptions are empty or say something, and nothing is posted
    later than the debits will be. -/
structure Receivable (ledger : Ledger) (requests : List AchTransferRequest) : Prop where
  wellFormed : ledger.WellFormed
  last_le : ledger.lastPostedAt ≤ 10
  distinct : (ids requests).Nodup
  described : ∀ request ∈ requests, request.description = "" ∨
    isBlank request.description = false
  fresh : ∀ request ∈ requests, ∀ entry ∈ ledger.entries,
    entry.entryId ≠ request.transferId ++ "-DEBIT"

section Sweeps

variable {ledger : Ledger} {requests done todo : List AchTransferRequest}
  {request : AchTransferRequest}

theorem mem_accepted_iff :
    request ∈ accepted ledger requests ↔ request ∈ requests ∧ verdict ledger request = none := by
  rw [accepted, List.mem_filter, decide_eq_true_eq]

/-- An item of a sweep is not among those that are done. -/
theorem not_mem_done {items : List AchTransferRequest} (hitems : (ids items).Nodup)
    (h : done ++ request :: todo = items) : request ∉ done := by
  intro hmem
  rw [← h, ids, List.map_append, List.nodup_append] at hitems
  exact hitems.2.2 _ (List.mem_map_of_mem hmem) _ List.mem_cons_self rfl

theorem ids_accepted_nodup (ledger : Ledger) (h : (ids requests).Nodup) :
    (ids (accepted ledger requests)).Nodup :=
  (List.filter_sublist.map _).nodup h

theorem viewAt_of_not_mem (hverdict : verdict ledger request = none) {stage : Nat}
    (hnew : request ∉ done) : viewAt ledger stage done request = request.staged stage := by
  simp only [viewAt, hverdict, if_neg hnew]

theorem viewAt_snoc_self (hverdict : verdict ledger request = none) (stage : Nat)
    (done : List AchTransferRequest) :
    viewAt ledger stage (done ++ [request]) request = request.staged (stage + 1) := by
  have hmem : request ∈ done ++ [request] := List.mem_append_right _ (List.mem_singleton_self _)
  simp only [viewAt, hverdict, if_pos hmem]

theorem viewAt_snoc_ne {other : AchTransferRequest} (h : other ≠ request) (stage : Nat)
    (done : List AchTransferRequest) :
    viewAt ledger stage (done ++ [request]) other = viewAt ledger stage done other := by
  have hmem : other ∈ done ++ [request] ↔ other ∈ done := by
    rw [List.mem_append, List.mem_singleton]
    exact ⟨fun hor => hor.resolve_right h, Or.inl⟩
  simp only [viewAt, hmem]

/-- An accepted transfer passes its hold: the text of the hold is its own
    description, or the default. -/
theorem Receivable.holdable (h : Receivable ledger requests)
    (hmem : request ∈ accepted ledger requests) : request.Holdable := by
  rcases mem_accepted_iff.mp hmem with ⟨hrequest, hverdict⟩
  rcases AchTransferRequest.sound_of_invalidReason
    (AchNetwork.invalidReason_of_rejectionReason hverdict) with ⟨hid, -, hcents⟩
  refine ⟨hcents, hid, ?_⟩
  unfold orDefault
  rcases h.described request hrequest with hempty | htext
  · rw [if_pos hempty]
    decide
  · by_cases hempty : request.description = ""
    · rw [if_pos hempty]
      decide
    · rwa [if_neg hempty]

/-- The transfer of an item of a sweep past the first, before and after. -/
theorem Standing.advance {stage : Nat} {held sent posted : List AchTransferRequest}
    {network : AchNetwork AchCallback} (hreceivable : Receivable ledger requests)
    (h : Standing ledger requests (viewAt ledger stage done) held sent posted network)
    (hitems : done ++ request :: todo = accepted ledger requests) :
    request ∈ accepted ledger requests ∧
      network.transfers.get? request.transferId = some (request.staged stage) ∧
      Viewed requests (viewAt ledger stage (done ++ [request]))
        (network.transfers.set request.transferId (request.staged (stage + 1))) := by
  have hmem : request ∈ accepted ledger requests := by
    rw [← hitems]
    exact List.mem_append_right _ List.mem_cons_self
  rcases mem_accepted_iff.mp hmem with ⟨hrequest, hverdict⟩
  have hnew := not_mem_done (ids_accepted_nodup ledger hreceivable.distinct) hitems
  refine ⟨hmem, ?_, ?_⟩
  · rw [h.viewed.get? hreceivable.distinct hrequest, viewAt_of_not_mem hverdict hnew]
  · rw [← viewAt_snoc_self hverdict stage done]
    exact h.viewed.set hreceivable.distinct hrequest fun other hne =>
      viewAt_snoc_ne hne stage done

theorem validate_step (hreceivable : Receivable ledger requests)
    {network : AchNetwork AchCallback}
    (h : Standing ledger requests (viewAt ledger 0 done) [] [] [] network)
    (hitems : done ++ request :: todo = requests) (hclock : network.scheduler.clock.time = 1) :
    ∃ later, (AchNetwork.call id (.validate request.transferId)).run network = .ok () later ∧
      Standing ledger requests (viewAt ledger 0 (done ++ [request])) [] [] [] later ∧
      later.scheduler = network.scheduler.followed 2 (if verdict ledger request = none
        then some (.markPending request.transferId) else none) := by
  have hmem : request ∈ requests := by
    rw [← hitems]
    exact List.mem_append_right _ List.mem_cons_self
  have hnew := not_mem_done hreceivable.distinct hitems
  -- Until its validation, the transfer is as it was received.
  have hget : network.transfers.get? request.transferId = some (request.staged 0) := by
    rw [h.viewed.get? hreceivable.distinct hmem]
    unfold viewAt
    cases verdict ledger request with
    | none => simp only [if_neg hnew]
    | some reason => simp only [hnew, not_false_eq_true, and_self, if_true]
  have hrun := AchNetwork.validate_of_received id hget rfl
  have hset := h.viewed.set hreceivable.distinct hmem
    (fun other hne => viewAt_snoc_ne hne 0 done)
  have hdone : request ∈ done ++ [request] := List.mem_append_right _ (List.mem_singleton_self _)
  have hreason : network.rejectionReason (request.staged 0).request = verdict ledger request :=
    h.rejectionReason request
  rw [hreason] at hrun
  cases hverdict : verdict ledger request with
  | some reason =>
      rw [hverdict, hclock] at hrun
      refine ⟨_, hrun, ?_, ?_⟩
      · refine { h with viewed := ?_ }
        have hview : viewAt ledger 0 (done ++ [request]) request
            = (request.staged 0).rejected 1 reason := by
          simp only [viewAt, hverdict, hdone, not_true_eq_false, and_false, if_false]
        rw [hview] at hset
        exact hset
      · rw [if_neg (by simp)]
        rfl
  | none =>
      rw [hverdict] at hrun
      have hschedule := Component.zoom_run_ok (p := AchNetwork.schedulerOf)
        (s := network.withTransfer request.transferId (request.staged 1))
        (EventScheduler.scheduleAt_of_le (AchCallback.markPending request.transferId)
          (le_trans (le_of_eq hclock) (by decide : (1 : Int) ≤ 2)))
      refine ⟨_, hrun.trans hschedule, ?_, ?_⟩
      · refine { h with viewed := ?_ }
        rw [viewAt_snoc_self hverdict] at hset
        exact hset
      · rw [if_pos rfl]
        rfl

/-- The stages after that find the transfer in the status the stage before left
    it in, and schedule the next stage. -/
theorem markPending_step (hreceivable : Receivable ledger requests)
    {network : AchNetwork AchCallback}
    (h : Standing ledger requests (viewAt ledger 1 done) done [] [] network)
    (hitems : done ++ request :: todo = accepted ledger requests)
    (hclock : network.scheduler.clock.time = 2) :
    ∃ later, (AchNetwork.call id (.markPending request.transferId)).run network = .ok () later ∧
      Standing ledger requests (viewAt ledger 1 (done ++ [request])) (done ++ [request]) [] []
        later ∧
      later.scheduler = network.scheduler.scheduled 3 (.submit request.transferId) := by
  rcases h.advance hreceivable hitems with ⟨hmem, hget, hviewed⟩
  have hschedule := Component.zoom_run_ok (p := AchNetwork.schedulerOf)
    (s := { network.withTransfer request.transferId (request.staged 2) with
      pending := network.pending
        ++ [request.hold (hreceivable.holdable hmem) network.pending.length] })
    (EventScheduler.scheduleAt_of_le (AchCallback.submit request.transferId)
      (le_trans (le_of_eq hclock) (by decide : (2 : Int) ≤ 3)))
  refine ⟨_, (AchNetwork.markPending_of_holdable id hget rfl
    (hreceivable.holdable hmem)).trans hschedule, ?_, rfl⟩
  refine { h with viewed := hviewed, pending := ?_ }
  change (network.pending
    ++ [request.hold (hreceivable.holdable hmem) network.pending.length]).map _ = _
  rw [List.map_append, h.pending, ids, ids, List.map_append]
  rfl

theorem submit_step (hreceivable : Receivable ledger requests)
    {network : AchNetwork AchCallback}
    (h : Standing ledger requests (viewAt ledger 2 done) (accepted ledger requests) done []
      network)
    (hitems : done ++ request :: todo = accepted ledger requests)
    (hclock : network.scheduler.clock.time = 3) :
    ∃ later, (AchNetwork.call id (.submit request.transferId)).run network = .ok () later ∧
      Standing ledger requests (viewAt ledger 2 (done ++ [request])) (accepted ledger requests)
        (done ++ [request]) [] later ∧
      later.scheduler = network.scheduler.scheduled 5 (.process request.transferId) := by
  rcases h.advance hreceivable hitems with ⟨hmem, hget, hviewed⟩
  have hschedule := Component.zoom_run_ok (p := AchNetwork.schedulerOf)
    (s := { network.withTransfer request.transferId (request.staged 3) with
      submissions := network.submissions ++ [request.transferId] })
    (EventScheduler.scheduleAt_of_le (AchCallback.process request.transferId)
      (le_trans (le_of_eq hclock) (by decide : (3 : Int) ≤ 5)))
  refine ⟨_, (AchNetwork.submit_of_pending id hget rfl).trans hschedule, ?_, rfl⟩
  refine { h with viewed := hviewed, submissions := ?_ }
  change network.submissions ++ [request.transferId] = _
  rw [h.submissions, ids, ids, List.map_append]
  rfl

theorem process_step (hreceivable : Receivable ledger requests)
    {network : AchNetwork AchCallback}
    (h : Standing ledger requests (viewAt ledger 3 done) (accepted ledger requests)
      (accepted ledger requests) [] network)
    (hitems : done ++ request :: todo = accepted ledger requests)
    (hclock : network.scheduler.clock.time = 5) :
    ∃ later, (AchNetwork.call id (.process request.transferId)).run network = .ok () later ∧
      Standing ledger requests (viewAt ledger 3 (done ++ [request])) (accepted ledger requests)
        (accepted ledger requests) [] later ∧
      later.scheduler = network.scheduler.scheduled 10 (.complete request.transferId) := by
  rcases h.advance hreceivable hitems with ⟨hmem, hget, hviewed⟩
  have hschedule := Component.zoom_run_ok (p := AchNetwork.schedulerOf)
    (s := network.withTransfer request.transferId (request.staged 4))
    (EventScheduler.scheduleAt_of_le (AchCallback.complete request.transferId)
      (le_trans (le_of_eq hclock) (by decide : (5 : Int) ≤ 10)))
  refine ⟨_, (AchNetwork.process_of_submitted id hget rfl).trans hschedule, ?_, rfl⟩
  exact { h with viewed := hviewed }

/-- The debit of an accepted transfer fits as long as it has not been
    posted. -/
theorem Standing.debit_fits {view : AchTransferRequest → AchTransfer}
    {held sent : List AchTransferRequest} {network : AchNetwork AchCallback}
    (hreceivable : Receivable ledger requests)
    (h : Standing ledger requests view held sent done network)
    (hitems : done ++ request :: todo = accepted ledger requests) :
    request.debitPosting.Fits network.ledger := by
  have hmem : request ∈ accepted ledger requests := by
    rw [← hitems]
    exact List.mem_append_right _ List.mem_cons_self
  rcases mem_accepted_iff.mp hmem with ⟨hrequest, hverdict⟩
  rcases AchTransferRequest.sound_of_invalidReason
    (AchNetwork.invalidReason_of_rejectionReason hverdict) with ⟨-, haccount, hcents⟩
  refine
    { cents_pos := hcents
      entryId_nonblank := isBlank_append_of_suffix _ _ (by decide)
      accountId_nonblank := haccount
      description_nonblank := (hreceivable.holdable hmem).description_nonblank
      postedAt_nonneg := (by decide : (0 : Int) ≤ 10)
      originalTransferId_nonblank := rfl
      achReturnId_nonblank := rfl
      fresh := ?_
      last_le := h.last_le }
  rcases h.entries with ⟨entries, hentries, hall⟩
  refine h.wellFormed.fresh hentries (hreceivable.fresh request hrequest) ?_
  intro entry hentry hid
  -- A posted debit is another transfer's, and its identifier another.
  rcases List.mem_iff_getElem.mp hentry with ⟨i, hi, rfl⟩
  have hi' : i < done.length := hall.length_eq.symm ▸ hi
  have hmatches : entries[i].entryId = done[i].transferId ++ "-DEBIT" := (hall.get hi' hi).1
  rw [hmatches] at hid
  have hids := ids_accepted_nodup ledger hreceivable.distinct
  rw [← hitems, ids, List.map_append, List.nodup_append] at hids
  exact hids.2.2 _ (List.mem_map_of_mem (List.getElem_mem hi')) _ List.mem_cons_self
    (append_suffix_inj hid)

theorem complete_step (hreceivable : Receivable ledger requests)
    {network : AchNetwork AchCallback}
    (h : Standing ledger requests (viewAt ledger 4 done) (request :: todo)
      (accepted ledger requests) done network)
    (hitems : done ++ request :: todo = accepted ledger requests) :
    ∃ later, (AchNetwork.call id (.complete request.transferId)).run network = .ok () later ∧
      Standing ledger requests (viewAt ledger 4 (done ++ [request])) todo
        (accepted ledger requests) (done ++ [request]) later ∧
      later.scheduler = network.scheduler := by
  rcases h.advance hreceivable hitems with ⟨hmem, hget, hviewed⟩
  have hfits := h.debit_fits hreceivable hitems
  refine ⟨_, AchNetwork.complete_of_fits hget rfl hfits, ?_, rfl⟩
  refine
    { viewed := hviewed
      pending := ?_
      submissions := h.submissions
      entries := ?_
      wellFormed := Ledger.wellFormed_push _ _ h.wellFormed (Posting.refusal_entry hfits)
      last_le := ?_ }
  · -- The holds are in the order of the items left, and the first is released.
    change ((network.pending.filter fun item => item.transactionId ≠ request.transferId).map
      (·.transactionId)) = ids todo
    have hids := ids_accepted_nodup ledger hreceivable.distinct
    rw [← hitems, ids, List.map_append, List.nodup_append, List.map_cons, List.nodup_cons] at hids
    have hfilter : (network.pending.filter fun item =>
        item.transactionId ≠ request.transferId).map (·.transactionId)
          = (network.pending.map (·.transactionId)).filter fun transferId =>
            transferId ≠ request.transferId := by
      rw [List.filter_map]
      rfl
    rw [hfilter, h.pending, ids, List.map_cons, List.filter_cons_of_neg (by simp)]
    refine List.filter_eq_self.mpr fun transferId hother => ?_
    have hne : transferId ≠ request.transferId := by
      rintro rfl
      exact hids.2.1.1 hother
    simpa using hne
  · -- The debit goes behind those of the transfers completed before.
    rcases h.entries with ⟨entries, hentries, hall⟩
    refine ⟨entries ++ [Posting.entry hfits], ?_, ?_⟩
    · rw [Ledger.push_entries, hentries, List.append_assoc]
      rfl
    · exact List.rel_append hall (List.Forall₂.cons (Posting.matches_entry hfits) .nil)
  · rw [Ledger.push_lastPostedAt]
    exact le_refl 10

/-! ### The sweeps in a row -/

theorem Viewed.congr {view view' : AchTransferRequest → AchTransfer}
    {transfers : Dict String AchTransfer} (h : Viewed requests view transfers)
    (hsame : ∀ request ∈ requests, view request = view' request) :
    Viewed requests view' transfers := by
  intro transferId
  rw [h transferId]
  exact Option.map_congr fun request hfound => hsame request (List.mem_of_find?_eq_some hfound)

/-- The end of a sweep is the start of the next. -/
theorem viewAt_next {stage : Nat} (hdone : ∀ request ∈ requests,
      verdict ledger request = none ∨ stage = 0 → request ∈ done) :
    ∀ request ∈ requests, viewAt ledger stage done request
      = viewAt ledger (stage + 1) [] request := by
  intro request hmem
  unfold viewAt
  cases hverdict : verdict ledger request with
  | none =>
      simp only [if_pos (hdone request hmem (Or.inl hverdict)), List.not_mem_nil, if_false]
  | some reason =>
      have hold : ¬ (stage = 0 ∧ request ∉ done) :=
        fun ⟨hstage, hnew⟩ => hnew (hdone request hmem (Or.inr hstage))
      simp only [if_neg hold, Nat.add_eq_zero_iff, one_ne_zero, and_false, false_and, if_false]

theorem Standing.next {stage : Nat} {held sent posted : List AchTransferRequest}
    {network : AchNetwork AchCallback}
    (h : Standing ledger requests (viewAt ledger stage done) held sent posted network)
    (hdone : ∀ request ∈ requests, verdict ledger request = none ∨ stage = 0 → request ∈ done) :
    Standing ledger requests (viewAt ledger (stage + 1) []) held sent posted network :=
  { h with viewed := h.viewed.congr (viewAt_next hdone) }

/-- Once received, the batch has nothing behind it. -/
theorem Received.standing (hreceivable : Receivable ledger requests)
    {network : AchNetwork AchCallback} (h : Received ledger requests network) :
    Standing ledger requests (viewAt ledger 0 []) [] [] [] network where
  viewed := by
    refine h.viewed.congr fun request _ => ?_
    unfold viewAt
    cases verdict ledger request with
    | none => simp only [List.not_mem_nil, if_false]
    | some reason => simp only [List.not_mem_nil, not_false_eq_true, and_self, if_true]
  pending := by
    rw [h.pending]
    rfl
  submissions := h.submissions
  entries := by
    refine ⟨[], ?_, .nil⟩
    rw [h.ledger_eq, List.append_nil]
  wellFormed := by
    rw [h.ledger_eq]
    exact hreceivable.wellFormed
  last_le := by
    rw [h.ledger_eq]
    exact hreceivable.last_le

/-- What is scheduled for those that pass. -/
theorem filterMap_accepted {β : Type} (callback : AchTransferRequest → β) :
    (requests.filterMap fun request =>
        if verdict ledger request = none then some (callback request) else none)
      = (accepted ledger requests).map callback := by
  induction requests with
  | nil => rfl
  | cons request requests ih =>
      by_cases hverdict : verdict ledger request = none
      · have hfilter : accepted ledger (request :: requests)
            = request :: accepted ledger requests :=
          List.filter_cons_of_pos (decide_eq_true hverdict)
        rw [hfilter, List.map_cons, ← ih, List.filterMap_cons]
        simp only [if_pos hverdict]
      · have hfilter : accepted ledger (request :: requests) = accepted ledger requests :=
          List.filter_cons_of_neg (by rw [decide_eq_true_eq]; exact hverdict)
        rw [hfilter, ← ih, List.filterMap_cons]
        simp only [if_neg hverdict]

/-- A network whose agenda has one callback for each transfer that passed, all
    for one stage. -/
structure Poised (ledger : Ledger) (requests : List AchTransferRequest) (stage : Nat)
    (held sent posted : List AchTransferRequest) (time : Int)
    (callback : AchTransferRequest → AchCallback) (network : AchNetwork AchCallback) : Prop where
  standing : Standing ledger requests (viewAt ledger stage []) held sent posted network
  clock : network.scheduler.clock.time ≤ time
  numbered : network.scheduler.Numbered
  agenda : network.scheduler.agenda
    = (accepted ledger requests).map fun request => (time, callback request)

/-- The first sweep validates every transfer or rejects it. -/
theorem validate_sweep (hreceivable : Receivable ledger requests)
    {network : AchNetwork AchCallback} (h : Received ledger requests network) :
    ∃ later, EventScheduler.Leads AchNetwork.schedulerOf (AchNetwork.call id) network later ∧
      Poised ledger requests 1 [] [] [] 2 (fun request => .markPending request.transferId)
        later := by
  rcases EventScheduler.sweep AchNetwork.schedulerOf (AchNetwork.call id) requests 1 2 (by decide)
      (fun request => .validate request.transferId)
      (fun request => if verdict ledger request = none
        then some (.markPending request.transferId) else none)
      (fun done todo network => done ++ todo = requests ∧
        Standing ledger requests (viewAt ledger 0 done) [] [] [] network)
      (fun _ _ _ q hI => ⟨hI.1, hI.2.frame q⟩)
      (fun done request todo network hI hclock => by
        rcases validate_step hreceivable hI.2 hI.1 hclock with ⟨later, hrun, hlater, hnext⟩
        exact ⟨later, hrun, ⟨by rw [List.append_assoc]; exact hI.1, hlater⟩, hnext⟩)
      ⟨rfl, h.standing hreceivable⟩ h.clock h.numbered h.agenda with
    ⟨later, hleads, ⟨-, hstanding⟩, hclock, hnumbered, hagenda⟩
  refine ⟨later, hleads, hstanding.next fun request hmem _ => hmem,
    le_trans hclock (by decide : (1 : Int) ≤ 2), hnumbered, ?_⟩
  rw [filterMap_accepted, List.map_map] at hagenda
  exact hagenda

/-- A later sweep takes the transfers that passed through one stage, and the
    books along with them. -/
theorem stage_sweep {stage : Nat} (hstage : 0 < stage) {time next : Int} (hnext : time ≤ next)
    {callback nextCallback : AchTransferRequest → AchCallback}
    (held sent posted : List AchTransferRequest → List AchTransferRequest → List AchTransferRequest)
    (hstep : ∀ done request todo (network : AchNetwork AchCallback),
      Standing ledger requests (viewAt ledger stage done) (held done (request :: todo))
          (sent done (request :: todo)) (posted done (request :: todo)) network →
        done ++ request :: todo = accepted ledger requests →
        network.scheduler.clock.time = time →
          ∃ later, (AchNetwork.call id (callback request)).run network = .ok () later ∧
            Standing ledger requests (viewAt ledger stage (done ++ [request]))
              (held (done ++ [request]) todo) (sent (done ++ [request]) todo)
              (posted (done ++ [request]) todo) later ∧
            later.scheduler = network.scheduler.scheduled next (nextCallback request))
    {network : AchNetwork AchCallback}
    (h : Poised ledger requests stage (held [] (accepted ledger requests))
      (sent [] (accepted ledger requests)) (posted [] (accepted ledger requests)) time callback
      network) :
    ∃ later, EventScheduler.Leads AchNetwork.schedulerOf (AchNetwork.call id) network later ∧
      Poised ledger requests (stage + 1) (held (accepted ledger requests) [])
        (sent (accepted ledger requests) []) (posted (accepted ledger requests) []) next
        nextCallback later := by
  rcases EventScheduler.sweep AchNetwork.schedulerOf (AchNetwork.call id)
      (accepted ledger requests) time next hnext callback
      (fun request => some (nextCallback request))
      (fun done todo network => done ++ todo = accepted ledger requests ∧
        Standing ledger requests (viewAt ledger stage done) (held done todo) (sent done todo)
          (posted done todo) network)
      (fun _ _ _ q hI => ⟨hI.1, hI.2.frame q⟩)
      (fun done request todo network hI hclock => by
        rcases hstep done request todo network hI.2 hI.1 hclock with ⟨later, hrun, hlater, hnext⟩
        exact ⟨later, hrun, ⟨by rw [List.append_assoc]; exact hI.1, hlater⟩, hnext⟩)
      ⟨rfl, h.standing⟩ h.clock h.numbered h.agenda with
    ⟨later, hleads, ⟨-, hstanding⟩, hclock, hnumbered, hagenda⟩
  refine ⟨later, hleads, hstanding.next fun request hmem hor => ?_, le_trans hclock hnext,
    hnumbered, ?_⟩
  · exact mem_accepted_iff.mpr ⟨hmem, hor.resolve_right (by omega)⟩
  · rw [← Function.comp_def some nextCallback, List.filterMap_eq_map, List.map_map] at hagenda
    exact hagenda

/-- The last sweep completes the transfers and leaves the agenda empty. -/
theorem complete_sweep (hreceivable : Receivable ledger requests)
    {network : AchNetwork AchCallback}
    (h : Poised ledger requests 4 (accepted ledger requests) (accepted ledger requests) [] 10
      (fun request => .complete request.transferId) network) :
    ∃ final, EventScheduler.Leads AchNetwork.schedulerOf (AchNetwork.call id) network final ∧
      Standing ledger requests (viewAt ledger 5 []) [] (accepted ledger requests)
        (accepted ledger requests) final ∧
      final.scheduler.agenda = [] := by
  rcases EventScheduler.sweep AchNetwork.schedulerOf (AchNetwork.call id)
      (accepted ledger requests) 10 10 (le_refl 10) (fun request => .complete request.transferId)
      (fun _ => none)
      (fun done todo network => done ++ todo = accepted ledger requests ∧
        Standing ledger requests (viewAt ledger 4 done) todo (accepted ledger requests) done
          network)
      (fun _ _ _ q hI => ⟨hI.1, hI.2.frame q⟩)
      (fun done request todo network hI _ => by
        rcases complete_step hreceivable hI.2 hI.1 with ⟨later, hrun, hlater, hnext⟩
        exact ⟨later, hrun, ⟨by rw [List.append_assoc]; exact hI.1, hlater⟩, hnext⟩)
      ⟨rfl, h.standing⟩ h.clock h.numbered h.agenda with
    ⟨final, hleads, ⟨-, hstanding⟩, -, -, hagenda⟩
  refine ⟨final, hleads, hstanding.next fun request hmem hor => ?_, ?_⟩
  · exact mem_accepted_iff.mpr ⟨hmem, hor.resolve_right (by omega)⟩
  · rw [List.filterMap_none, List.map_nil] at hagenda
    exact hagenda

/-- The five sweeps, one after the other. -/
theorem sweeps (hreceivable : Receivable ledger requests) {network : AchNetwork AchCallback}
    (h : Received ledger requests network) :
    ∃ final, EventScheduler.Leads AchNetwork.schedulerOf (AchNetwork.call id) network final ∧
      Standing ledger requests (viewAt ledger 5 []) [] (accepted ledger requests)
        (accepted ledger requests) final ∧
      final.scheduler.agenda = [] := by
  rcases validate_sweep hreceivable h with ⟨validated, hleads₁, hvalidated⟩
  rcases stage_sweep (by decide) (by decide) (fun done _ => done) (fun _ _ => []) (fun _ _ => [])
    (fun done request todo network hstanding =>
      markPending_step hreceivable hstanding) hvalidated with ⟨pending, hleads₂, hpending⟩
  rcases stage_sweep (by decide) (by decide) (fun _ _ => accepted ledger requests)
    (fun done _ => done) (fun _ _ => []) (fun done request todo network hstanding =>
      submit_step hreceivable hstanding) hpending with ⟨submitted, hleads₃, hsubmitted⟩
  rcases stage_sweep (by decide) (by decide) (fun _ _ => accepted ledger requests)
    (fun _ _ => accepted ledger requests) (fun _ _ => [])
    (fun done request todo network hstanding =>
      process_step hreceivable hstanding) hsubmitted with ⟨processing, hleads₄, hprocessing⟩
  rcases complete_sweep hreceivable hprocessing with ⟨final, hleads₅, hfinal⟩
  exact ⟨final, ((hleads₁.trans hleads₂).trans hleads₃).trans (hleads₄.trans hleads₅), hfinal⟩

end Sweeps

/-! ### The outcome -/

/-- The requests whose transfers are completed, in order of receipt. -/
def completed (network : AchNetwork AchCallback) (requests : List AchTransferRequest) :
    List AchTransferRequest :=
  requests.filter fun request =>
    (network.transfers.get? request.transferId).any fun transfer => transfer.status = .completed

/-- The end of a batch. -/
structure Finished (ledger : Ledger) (requests : List AchTransferRequest)
    (network : AchNetwork AchCallback) : Prop where
  known : ∀ transferId, transferId ∈ network.transfers ↔ transferId ∈ ids requests
  outcome : ∀ request ∈ requests, ∃ transfer,
    network.transfers.get? request.transferId = some transfer ∧ transfer.request = request ∧
      ((transfer.status = .completed ∧
          transfer.history.map (·.time) = [0, 1, 2, 3, 5, 10, 10]) ∨
        (transfer.status = .rejected ∧ transfer.rejectionReason.isSome))
  entries : ∃ entries, network.ledger.entries = ledger.entries ++ entries ∧
    List.Forall₂ (fun request entry => request.debitPosting.Matches entry)
      (completed network requests) entries
  submissions : network.submissions = ids (completed network requests)
  pending : network.pending = []

theorem Standing.finished {ledger : Ledger} {requests : List AchTransferRequest}
    (hids : (ids requests).Nodup) {network : AchNetwork AchCallback}
    (h : Standing ledger requests (viewAt ledger 5 []) [] (accepted ledger requests)
      (accepted ledger requests) network) : Finished ledger requests network := by
  -- A transfer that passed is completed, and any other is rejected.
  have hview : ∀ request ∈ requests, network.transfers.get? request.transferId
      = some (match verdict ledger request with
        | some reason => (request.staged 0).rejected 1 reason
        | none => request.staged 5) := by
    intro request hmem
    rw [h.viewed.get? hids hmem]
    unfold viewAt
    cases verdict ledger request with
    | none => simp only [List.not_mem_nil, if_false]
    | some reason => simp only [OfNat.ofNat_ne_zero, false_and, if_false]
  have hcompleted : completed network requests = accepted ledger requests := by
    refine List.filter_congr fun request hmem => ?_
    rw [hview request hmem]
    cases verdict ledger request with
    | none => rfl
    | some reason => rfl
  refine ⟨fun transferId => ?_, fun request hmem => ?_, ?_, ?_, List.map_eq_nil_iff.mp h.pending⟩
  · rw [Dict.mem_iff, h.viewed transferId]
    constructor
    · rintro ⟨transfer, hget⟩
      rcases Option.map_eq_some_iff.mp hget with ⟨request, hfound, -⟩
      have hid := List.find?_some hfound
      exact List.mem_map.mpr ⟨request, List.mem_of_find?_eq_some hfound, of_decide_eq_true hid⟩
    · intro hmem
      rcases List.mem_map.mp hmem with ⟨request, hrequest, rfl⟩
      rw [find_of_mem hids hrequest]
      exact ⟨_, rfl⟩
  · refine ⟨_, hview request hmem, ?_⟩
    cases verdict ledger request with
    | none => exact ⟨rfl, Or.inl ⟨rfl, rfl⟩⟩
    | some reason => exact ⟨rfl, Or.inr ⟨rfl, rfl⟩⟩
  · rw [hcompleted]
    exact h.entries
  · rw [hcompleted]
    exact h.submissions

end AchBatch

open AchBatch in
/-- A batch received at time zero runs to its end: no call raises, and the
    scheduler runs dry with every transfer completed and posted, in order of
    receipt, or rejected for a reason. -/
theorem batch_finishes (ledger : Ledger) (hledger : ledger.Reachable)
    (hlast : ledger.lastPostedAt ≤ 10) (requests : List AchTransferRequest)
    (hids : (requests.map (·.transferId)).Nodup)
    (hdescribed : ∀ request ∈ requests, request.description = "" ∨
      isBlank request.description = false)
    (hfresh : ∀ request ∈ requests, ∀ entry ∈ ledger.entries,
      entry.entryId ≠ request.transferId ++ "-DEBIT") :
    ∃ received final, (receiveAll requests).run (AchNetwork.new ledger) = .ok () received ∧
      (∃ enough, ∀ rounds, enough ≤ rounds →
        (EventScheduler.run AchNetwork.schedulerOf (AchNetwork.call id) rounds).run received
          = .ok true final) ∧
      Finished ledger requests final := by
  have hreceivable : Receivable ledger requests :=
    ⟨Ledger.reachable_wellFormed hledger, hlast, hids, hdescribed, hfresh⟩
  rcases receiveAll_run [] requests (received_new ledger) hids with ⟨received, hreceive, hreceived⟩
  rcases sweeps hreceivable hreceived with ⟨final, hleads, hstanding, hagenda⟩
  have hqueue : final.scheduler.queue = [] := List.map_eq_nil_iff.mp hagenda
  exact ⟨received, final, hreceive,
    EventScheduler.run_of_leads AchNetwork.schedulerOf (AchNetwork.call id) hleads hqueue,
    hstanding.finished hids⟩

/-- Two transfers out of $1,000.00, of which the second is too large. -/
def batchOfTwo : List AchTransferRequest :=
  [ { transferId := "ACH-0001", sourceAccountId := "HCCU-DEMO-001"
      destinationInstitution := "Blue Ridge National Bank"
      destinationReference := "EXTERNAL-ACCOUNT-001", amountCents := 25000, description := "" },
    { transferId := "ACH-0002", sourceAccountId := "HCCU-DEMO-001"
      destinationInstitution := "Blue Ridge National Bank"
      destinationReference := "EXTERNAL-ACCOUNT-001", amountCents := 250000
      description := "External transfer" } ]

/-- A ledger with one credit of $1,000.00, posted at time zero. -/
def batchOpening : List LedgerCall :=
  [.append
    { entryId := "ACH-OPEN", accountId := "HCCU-DEMO-001", amount := { cents := 100000 }
      entryType := .credit, description := "Opening balance", sequence := 1, postedAt := 0 }]

theorem batch_finishes_two :
    ∃ received final, (AchBatch.receiveAll batchOfTwo).run
        (AchNetwork.new (finalState LedgerCall.exec Ledger.new batchOpening)) = .ok () received ∧
      (∃ enough, ∀ rounds, enough ≤ rounds →
        (EventScheduler.run AchNetwork.schedulerOf (AchNetwork.call id) rounds).run received
          = .ok true final) ∧
      AchBatch.Finished (finalState LedgerCall.exec Ledger.new batchOpening) batchOfTwo final :=
  batch_finishes (finalState LedgerCall.exec Ledger.new batchOpening) ⟨batchOpening, rfl⟩
    (by decide) batchOfTwo (by decide) (by decide) (by decide)

end BankSim
