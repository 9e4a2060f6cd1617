import BankSim.Theory.OrderingModel

/-!
# Ordering and the Ledger

Does the state of a payment tell whether its money has moved? On a run in
which the ledger takes every settlement it does, and this module says that
there is no other way: a run keeps the two in agreement, and lets no raise
leave anything behind, exactly when no settlement is refused.

The invariant names the completions that were applied, in order.
`Consistent` says that the entries appended so far are their settlements one
for one, and that the payments at the end of their workflows are theirs. The
states of the payments are those of the position reached, and events are
buffered where they belong. Every transition of the model keeps it, with one
completion more where one was applied.

A refused settlement breaks the run at once, for `receive_refines` says that
it leaves the payment at the last position, where it was not before.

## Main definitions

* `PaymentOrderingState.Coherent`: The state of some position.
* `OrderingView.Consistent`: The completions applied are the ones settled.
* `OrderingView.Steady`: Consistent, with nothing left to drain.
* `settlementsOf`: The settlements appended for a payment.
* `CompletedIffSettled`: States and settlements agree.
* `RaiseChangesNothing`: A delivery that raises leaves everything as it was.

## Theorems

* `consistent_applied`: Applying an event keeps the invariant.
* `steady_received`: A delivery keeps it.
* `ordering_atomic_iff`: When a run keeps states and ledger together.
* `crossedDelivery_splits`: A completed payment without a settlement.
-/

namespace BankSim

open Exec

theorem PaymentEventType.value_eq_completed (eventType : PaymentEventType) :
    eventType.value = "PaymentCompleted" ↔ eventType = .completed := by
  cases eventType <;> decide

/-- The state of a payment is that of the position it has reached. -/
structure PaymentOrderingState.Coherent (state : PaymentOrderingState) : Prop where
  revision : state.lastRevision = state.lastSequence
  nonneg : 0 ≤ state.lastSequence
  le_four : state.lastSequence ≤ 4
  completed : state.finalState = "PaymentCompleted" ↔ state.lastSequence = 4

theorem PaymentOrderingState.coherent_new : PaymentOrderingState.new.Coherent where
  revision := rfl
  nonneg := le_rfl
  le_four := by decide
  completed := by decide

/-- The state an event takes its payment to. -/
theorem PaymentEvent.coherent (event : PaymentEvent) : PaymentOrderingState.Coherent
    { lastSequence := event.sequence.value
      lastRevision := event.revision.value
      finalState := event.eventType.value
      amount := some event.amount } where
  revision := event.revision_eq_sequence
  nonneg := le_of_lt event.sequence.value_pos
  le_four := event.sequence_le
  completed := (event.eventType.value_eq_completed).trans event.completed_iff

namespace OrderingView

/-- The completions applied since the processor was given its ledger, in
    order, are the ones the ledger has settled and the ones the states show. -/
structure Consistent (initial : Ledger) (settled : List PaymentEvent) (v : OrderingView) : Prop where
  keyed : v.Keyed
  coherent : ∀ paymentId, (v.states paymentId).Coherent
  settled_nodup : (settled.map (·.paymentId)).Nodup
  settled_iff : ∀ paymentId, paymentId ∈ settled.map (·.paymentId) ↔ v.last paymentId = 4
  appended : ∃ entries, v.ledger.entries = initial.entries ++ entries ∧
    List.Forall₂ PaymentEvent.Settles settled entries

variable {initial : Ledger} {settled : List PaymentEvent} {v w : OrderingView}
  {event : PaymentEvent} {owner : String}

theorem consistent_new (ledger : Ledger) :
    Consistent ledger [] (OrderedEventProcessor.new ledger).view where
  keyed := fun _ _ _ h => by cases h
  coherent := fun _ => PaymentOrderingState.coherent_new
  settled_nodup := List.nodup_nil
  settled_iff := fun _ => iff_of_false List.not_mem_nil (by decide : (0 : Int) ≠ 4)
  appended := ⟨[], (List.append_nil _).symm, .nil⟩

/-- The buffers may change as long as events stay where they belong. -/
theorem Consistent.buffering (h : Consistent initial settled v) (owner : String)
    (position : Int) (held : Option PaymentEvent) (hheld : ∀ later, held = some later →
      later.paymentId = owner ∧ later.sequence.value = position) :
    Consistent initial settled (v.buffering owner position held) :=
  { h with keyed := keyed_buffering h.keyed owner position held hheld }

theorem coherent_advanced (h : ∀ paymentId, (v.states paymentId).Coherent) (paymentId : String) :
    ((v.advanced event owner).states paymentId).Coherent := by
  simp only [advanced, Function.update_apply]
  split_ifs with howner
  · exact event.coherent
  · exact h paymentId

theorem last_advanced (paymentId : String) : (v.advanced event owner).last paymentId =
    if paymentId = owner then event.sequence.value else v.last paymentId := by
  simp only [last, advanced, Function.update_apply]
  split_ifs <;> rfl

/-- Applying the next event of a payment keeps the invariant. A completion
    joins the ones that were settled. -/
theorem consistent_applied (h : Consistent initial settled v)
    (hnext : event.sequence.value = v.last owner + 1) (howner : event.paymentId = owner)
    (happlied : v.Applied event owner w) :
    Consistent initial settled w ∨
      event.eventType = .completed ∧ Consistent initial (settled ++ [event]) w := by
  have hle := event.sequence_le
  -- the payment was not at the end of its workflow
  have hnew : owner ∉ settled.map (·.paymentId) := by
    rw [h.settled_iff]
    omega
  cases happlied with
  | conflict hconflict => exact Or.inl h
  | advanced hagree hopen =>
      have hne : event.sequence.value ≠ 4 := (not_congr event.completed_iff).mp hopen
      refine Or.inl { h with coherent := coherent_advanced h.coherent, settled_iff := ?_ }
      intro paymentId
      rw [last_advanced]
      split_ifs with hsame
      · rw [hsame]
        exact iff_of_false hnew hne
      · exact h.settled_iff paymentId
  | settled hagree hdone entry hsettles haccept =>
      have hfour := event.completed_iff.mp hdone
      rcases h.appended with ⟨entries, hentries, hforall⟩
      refine Or.inr ⟨hdone, { h with
        coherent := coherent_advanced h.coherent
        settled_nodup := ?_
        settled_iff := ?_
        appended := ⟨entries ++ [entry], ?_, ?_⟩ }⟩
      · rw [List.map_append, List.nodup_append]
        refine ⟨h.settled_nodup, List.nodup_singleton _, fun a ha b hb hab => hnew ?_⟩
        rw [List.map_singleton, List.mem_singleton, howner] at hb
        rwa [hab, hb] at ha
      · intro paymentId
        change paymentId ∈ _ ↔ (v.advanced event owner).last paymentId = 4
        rw [last_advanced, List.map_append, List.mem_append, List.map_singleton,
          List.mem_singleton, howner, h.settled_iff paymentId]
        split_ifs with hsame
        · exact iff_of_true (Or.inr hsame) hfour
        · exact or_iff_left hsame
      · change v.ledger.entries ++ [entry] = _
        rw [hentries, List.append_assoc]
      · exact List.rel_append hforall (.cons hsettles .nil)

/-- Taking the next event out of the buffer keeps the invariant. -/
theorem consistent_drainStep (h : Consistent initial settled v) (hstep : v.DrainStep owner w) :
    ∃ settled', Consistent initial settled' w := by
  rcases hstep with ⟨event, hevent, happlied⟩
  rcases h.keyed owner _ event hevent with ⟨howner, hposition⟩
  have hpopped := h.buffering owner (v.last owner + 1) none (fun _ h => by cases h)
  rcases consistent_applied hpopped hposition howner happlied with hsame | ⟨-, hmore⟩
  · exact ⟨settled, hsame⟩
  · exact ⟨settled ++ [event], hmore⟩

theorem consistent_drained (h : Consistent initial settled v)
    (hsteps : Relation.ReflTransGen (fun x y => x.DrainStep owner y) v w) :
    ∃ settled', Consistent initial settled' w := by
  induction hsteps with
  | refl => exact ⟨settled, h⟩
  | tail _ hstep ih =>
      rcases ih with ⟨settled', hsettled'⟩
      exact consistent_drainStep hsettled' hstep

/-- One payment is worked on, and the others are not touched. -/
def OnlyChanges (owner : String) (v w : OrderingView) : Prop :=
  ∀ paymentId, paymentId ≠ owner →
    w.states paymentId = v.states paymentId ∧ w.buffers paymentId = v.buffers paymentId

theorem onlyChanges_applied (happlied : v.Applied event owner w) : OnlyChanges owner v w := by
  intro paymentId hne
  cases happlied with
  | conflict => exact ⟨rfl, rfl⟩
  | advanced => exact ⟨Function.update_of_ne hne _ _, rfl⟩
  | settled => exact ⟨Function.update_of_ne hne _ _, rfl⟩

theorem onlyChanges_drained
    (hsteps : Relation.ReflTransGen (fun x y => x.DrainStep owner y) v w) :
    OnlyChanges owner v w := by
  induction hsteps with
  | refl => exact fun _ _ => ⟨rfl, rfl⟩
  | tail _ hstep ih =>
      rcases hstep with ⟨event, -, happlied⟩
      intro paymentId hne
      rcases onlyChanges_applied happlied paymentId hne with ⟨hstates, hbuffers⟩
      rw [hstates, hbuffers]
      refine ⟨(ih paymentId hne).1, ?_⟩
      rw [← (ih paymentId hne).2]
      exact Function.update_of_ne hne _ _

theorem OnlyChanges.exhausted (h : OnlyChanges owner v w) {paymentId : String}
    (hne : paymentId ≠ owner) (hend : v.Exhausted paymentId) : w.Exhausted paymentId := by
  rcases h paymentId hne with ⟨hstates, hbuffers⟩
  rw [Exhausted, last, hstates, hbuffers]
  exact hend

/-- Between deliveries the invariant holds and nothing is left to drain. -/
def Steady (initial : Ledger) (v : OrderingView) : Prop :=
  (∃ settled, Consistent initial settled v) ∧ ∀ paymentId, v.Exhausted paymentId

theorem steady_new (ledger : Ledger) : Steady ledger (OrderedEventProcessor.new ledger).view :=
  ⟨⟨[], consistent_new ledger⟩, fun _ => rfl⟩

/-- A delivery that returns keeps the invariant. -/
theorem steady_received (h : Steady initial v) (hreceived : v.Received event w) :
    Steady initial w := by
  rcases h with ⟨⟨settled, hconsistent⟩, hend⟩
  cases hreceived with
  | ignored => exact ⟨⟨settled, hconsistent⟩, hend⟩
  | held hlater hfree =>
      refine ⟨⟨settled, hconsistent.buffering _ _ _ fun later hheld => ?_⟩, fun paymentId => ?_⟩
      · rw [← Option.some.inj hheld]
        exact ⟨rfl, rfl⟩
      · -- The event held is not the next one of its payment.
        rw [Exhausted, buffers_buffering, if_neg]
        · exact hend paymentId
        · rintro ⟨hsame, hposition⟩
          change v.last paymentId + 1 = event.sequence.value at hposition
          rw [hsame] at hposition
          omega
  | applied hfresh hnext u w hfirst hrest hend' =>
      refine ⟨?_, fun paymentId => ?_⟩
      · rcases consistent_applied hconsistent hnext rfl hfirst with hsame | ⟨-, hmore⟩
        · exact consistent_drained hsame hrest
        · exact consistent_drained hmore hrest
      · -- Draining ends when the payment is exhausted, and touches no other.
        by_cases hsame : paymentId = event.paymentId
        · rw [hsame]
          exact hend'
        · exact (onlyChanges_drained hrest).exhausted hsame
            ((onlyChanges_applied hfirst).exhausted hsame (hend paymentId))

end OrderingView

/-- The settlements appended for a payment since the processor was given its
    ledger. -/
def settlementsOf (initial ledger : Ledger) (paymentId : String) : List LedgerEntry :=
  (ledger.entries.drop initial.entries.length).filter fun entry =>
    entry.entryId = paymentId ++ "-SETTLEMENT"

/-- A payment shows as completed exactly when it was settled once. -/
def CompletedIffSettled (initial : Ledger) (self : OrderedEventProcessor) : Prop :=
  ∀ paymentId, self.paymentState paymentId = "PaymentCompleted" ↔
    (settlementsOf initial self.ledger paymentId).length = 1

/-- The states of all payments, what is buffered for them and the processed
    identifiers are the same. -/
def Unchanged (s t : OrderedEventProcessor) : Prop :=
  (∀ paymentId, t.stateOf paymentId = s.stateOf paymentId) ∧
    (∀ paymentId, t.bufferOf paymentId = s.bufferOf paymentId) ∧
    t.processedEventIds = s.processedEventIds

/-- If the delivery raises, it leaves everything as it was. -/
def RaiseChangesNothing (s : OrderedEventProcessor) (event : PaymentEvent) : Prop :=
  ∀ e t, (OrderedEventProcessor.receive event).run s = .error e t → Unchanged s t

/-- Settlements are counted by the payments of the completions they settle. -/
theorem length_filter_settles {settled : List PaymentEvent} {entries : List LedgerEntry}
    (h : List.Forall₂ PaymentEvent.Settles settled entries) (paymentId : String) :
    (entries.filter fun entry => entry.entryId = paymentId ++ "-SETTLEMENT").length
      = (settled.map (·.paymentId)).count paymentId := by
  induction h with
  | nil => rfl
  | @cons event entry settled entries hsettles _ ih =>
      have hid : entry.entryId = paymentId ++ "-SETTLEMENT" ↔ event.paymentId = paymentId := by
        rw [hsettles.entryId, String.append_left_inj]
      by_cases hsame : event.paymentId = paymentId
      · rw [List.filter_cons_of_pos (by simpa using hid.mpr hsame), List.length_cons, ih,
          List.map_cons, hsame, List.count_cons_self]
      · rw [List.filter_cons_of_neg (by simpa using (not_congr hid).mpr hsame), ih,
          List.map_cons, List.count_cons_of_ne hsame]

theorem OrderedEventProcessor.paymentState_eq (self : OrderedEventProcessor) (paymentId : String) :
    self.paymentState paymentId = (self.stateOf paymentId).finalState := by
  unfold paymentState stateOf
  cases self.states.get? paymentId <;> rfl

/-- Where the invariant holds, states and settlements agree. -/
theorem OrderingView.Consistent.completedIffSettled {initial : Ledger}
    {settled : List PaymentEvent} {s : OrderedEventProcessor}
    (h : OrderingView.Consistent initial settled s.view) : CompletedIffSettled initial s := by
  intro paymentId
  rcases h.appended with ⟨entries, hentries, hforall⟩
  have hsettlements : (settlementsOf initial s.ledger paymentId).length
      = (settled.map (·.paymentId)).count paymentId := by
    change s.ledger.entries = initial.entries ++ entries at hentries
    rw [settlementsOf, hentries, List.drop_left, length_filter_settles hforall]
  rw [s.paymentState_eq, hsettlements, h.settled_nodup.count]
  refine ((h.coherent paymentId).completed.trans (h.settled_iff paymentId).symm).trans ?_
  split_ifs with hmem
  · exact iff_of_true hmem rfl
  · exact iff_of_false hmem (by decide)

section Step

variable {initial : Ledger} {s : OrderedEventProcessor} {event : PaymentEvent}

/-- A delivery whose settlements are accepted returns and keeps the
    invariant. -/
theorem receive_of_accepted (h : s.view.Steady initial) (haccepted : s.view.Accepted event) :
    ∃ results t, (OrderedEventProcessor.receive event).run s = .ok results t ∧
      s.view.Received event t.view ∧ t.view.Steady initial := by
  rcases h with ⟨⟨settled, hconsistent⟩, hend⟩
  rcases OrderedEventProcessor.receive_refines event s hconsistent.keyed (hend event.paymentId)
      (hconsistent.coherent event.paymentId).revision with
    ⟨-, results, t, hrun, hreceived⟩ | ⟨hrefused, -⟩
  · exact ⟨results, t, hrun, hreceived,
      OrderingView.steady_received ⟨⟨settled, hconsistent⟩, hend⟩ hreceived⟩
  · exact absurd haccepted hrefused

/-- A delivery with a refused settlement raises, and leaves the payment at
    the end of its workflow, where it was not before. -/
theorem receive_of_refused (h : s.view.Steady initial) (hrefused : ¬ s.view.Accepted event) :
    ∃ e t, (OrderedEventProcessor.receive event).run s = .error e t ∧ ¬ Unchanged s t := by
  rcases h with ⟨⟨settled, hconsistent⟩, hend⟩
  rcases OrderedEventProcessor.receive_refines event s hconsistent.keyed (hend event.paymentId)
      (hconsistent.coherent event.paymentId).revision with
    ⟨haccepted, -⟩ | ⟨-, hlt, e, t, hrun, hlast⟩
  · exact absurd haccepted hrefused
  · refine ⟨e, t, hrun, fun hunchanged => ?_⟩
    have hsame : t.view.last event.paymentId = s.view.last event.paymentId :=
      congrArg PaymentOrderingState.lastSequence (hunchanged.1 event.paymentId)
    omega

end Step

/-- Ordering and the ledger along a run of deliveries, over any ledger. States
    and settlements agree throughout, and no raise leaves anything behind,
    exactly when no delivery sets off a settlement the ledger refuses. -/
theorem ordering_atomic_iff (ledger : Ledger) (events : List PaymentEvent) :
    AllStates OrderedEventProcessor.receive (CompletedIffSettled ledger)
        (OrderedEventProcessor.new ledger) events ∧
      AllSteps OrderedEventProcessor.receive RaiseChangesNothing
        (OrderedEventProcessor.new ledger) events ↔
    AllSteps OrderedEventProcessor.receive (fun s event => s.view.Accepted event)
      (OrderedEventProcessor.new ledger) events := by
  have hstart := OrderingView.steady_new ledger
  have hstep : ∀ s event, s.view.Steady ledger → s.view.Accepted event →
      (after (OrderedEventProcessor.receive event) s).view.Steady ledger := by
    intro s event hsteady haccepted
    rcases receive_of_accepted hsteady haccepted with ⟨results, t, hrun, -, hsteady'⟩
    rw [after_of_ok hrun]
    exact hsteady'
  -- While the processor is steady, a raise and a refusal are the same thing.
  have hiff := allSteps_congr (I := fun s => s.view.Steady ledger) (G := RaiseChangesNothing) hstep
    (fun s event hsteady => by
      by_cases haccepted : s.view.Accepted event
      · rcases receive_of_accepted hsteady haccepted with ⟨results, t, hrun, -⟩
        refine iff_of_true (fun e t' herror => ?_) haccepted
        rw [hrun] at herror
        cases herror
      · rcases receive_of_refused hsteady haccepted with ⟨e, t, hrun, hchanged⟩
        exact iff_of_false (fun hraise => hchanged (hraise e t hrun)) haccepted) hstart events
  constructor
  · rintro ⟨-, hraise⟩
    exact hiff.mp hraise
  · intro haccepted
    refine ⟨allStates_mono (fun s hsteady => ?_) (allStates_of_allSteps hstep hstart haccepted),
      hiff.mpr haccepted⟩
    rcases hsteady with ⟨⟨settled, hconsistent⟩, -⟩
    exact hconsistent.completedIffSettled

/-- An event of a payment of $100.00. -/
def workflowEvent (paymentId : String) (eventType : PaymentEventType) (arrivalOrder : Nat)
    (nonblank : isBlank paymentId = false := by exact Eq.refl false)
    (arrivalOrder_pos : 0 < arrivalOrder := by exact count_pos passes) : PaymentEvent :=
  let sequence : Int := match eventType with
    | .received => 1
    | .validated => 2
    | .queued => 3
    | .completed => 4
  have hsequence : 0 < sequence := by cases eventType <;> decide
  { paymentId
    eventId := paymentId ++ eventType.value
    sequence := ⟨sequence, hsequence⟩
    revision := ⟨sequence, hsequence⟩
    eventType
    creationOrder := sequence
    arrivalOrder
    amount := { cents := 10_000 }
    paymentId_nonblank := nonblank
    eventId_nonblank := isBlank_append_of_suffix _ _ (by cases eventType <;> decide)
    creationOrder_pos := hsequence
    arrivalOrder_pos := pos_of_count arrivalOrder_pos
    revision_eq_sequence := rfl
    eventType_of_sequence := by cases eventType <;> rfl }

/-- The completion of one payment arrives first, then all of another payment,
    then the rest of the first. -/
def crossedDelivery : List PaymentEvent :=
  [ workflowEvent "PAY-A" .completed 1,
    workflowEvent "PAY-B" .received 2,
    workflowEvent "PAY-B" .validated 3,
    workflowEvent "PAY-B" .queued 4,
    workflowEvent "PAY-B" .completed 5,
    workflowEvent "PAY-A" .received 6,
    workflowEvent "PAY-A" .validated 7,
    workflowEvent "PAY-A" .queued 8 ]

/-- The last delivery raises, and leaves its payment completed without a
    settlement. -/
theorem crossedDelivery_splits :
    ¬ (AllStates OrderedEventProcessor.receive (CompletedIffSettled orderingLedger)
        (OrderedEventProcessor.new orderingLedger) crossedDelivery ∧
      AllSteps OrderedEventProcessor.receive RaiseChangesNothing
        (OrderedEventProcessor.new orderingLedger) crossedDelivery) := by
  rintro ⟨hstates, -⟩
  have hlast := allStates_finalState hstates "PAY-A"
  have hcompleted : (finalState OrderedEventProcessor.receive
      (OrderedEventProcessor.new orderingLedger) crossedDelivery).paymentState "PAY-A"
        = "PaymentCompleted" := by
    decide
  have hnone : (settlementsOf orderingLedger (finalState OrderedEventProcessor.receive
      (OrderedEventProcessor.new orderingLedger) crossedDelivery).ledger "PAY-A").length = 0 := by
    decide
  rw [hnone] at hlast
  exact absurd (hlast.mp hcompleted) (by decide)

end BankSim
