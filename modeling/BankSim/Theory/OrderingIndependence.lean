import BankSim.Theory.OrderingConvergence
import BankSim.Theory.OrderingLanes

/-!
# Payments Are Ordered Independently

What a processor does with one payment does not depend on the others that
are delivered to it, provided that events of different payments never share
an identifier and no delivery raises. The comparison is with a processor that
is only given the events of the one payment, in the same order.

Both act on the same lane. The set of identifiers and the log are shared
between payments, but an identifier of the payment is known on the one side
when it is known on the other, and the log of the one side is the other's once
the results of other payments are left out. The ledger is shared as well, and
here the two sides do differ. But a delivery that returns is one whose
completion was accepted, and then it no longer matters by which ledger. The
processor with the single payment never raises to begin with.

## Main definitions

* `Mirrors`: One payment on two processors.

## Theorems

* `mirrors_own`: A delivery of the payment, on both sides.
* `mirrors_other`: A delivery of another payment, on one side.
* `payments_independent`: Any interleaving of deliveries.
-/

namespace BankSim

open Exec

/-- No event of another payment has an identifier of an event of this one. -/
def IdsApart (events : List PaymentEvent) : Prop :=
  ∀ a ∈ events, ∀ b ∈ events, a.eventId = b.eventId → a.paymentId = b.paymentId

instance (events : List PaymentEvent) : Decidable (IdsApart events) :=
  inferInstanceAs (Decidable
    (∀ a ∈ events, ∀ b ∈ events, a.eventId = b.eventId → a.paymentId = b.paymentId))

/-- One payment on two processors: the first is given all the events, the
    second only those of the payment. -/
structure Mirrors (events : List PaymentEvent) (paymentId : String)
    (s t : OrderedEventProcessor) : Prop where
  resting : s.Resting
  resting' : t.Resting
  alone : Alone paymentId t.view
  delivered : ∀ owner, (s.lane owner).Holds fun _ event => event ∈ events
  lane : s.lane paymentId = t.lane paymentId
  log : (s.results.filter fun result => result.event.paymentId = paymentId) = t.results
  known : ∀ event ∈ events, event.paymentId = paymentId → s.knows event = t.knows event

variable {events : List PaymentEvent} {paymentId : String} {s t s' t' : OrderedEventProcessor}
  {event : PaymentEvent}

theorem mirrors_new (events : List PaymentEvent) (paymentId : String) :
    Mirrors events paymentId (.new orderingLedger) (.new orderingLedger) where
  resting := OrderedEventProcessor.resting_new _
  resting' := OrderedEventProcessor.resting_new _
  alone := alone_new paymentId
  delivered := fun _ _ _ hget => (nomatch hget)
  lane := rfl
  log := rfl
  known := fun _ _ _ => rfl

/-- A delivery that returns treats its lane as if the ledger accepted
    everything. -/
theorem receive_returns (h : s.Resting) {results : List EventProcessingResult}
    (hrun : (OrderedEventProcessor.receive event).run s = .ok results s') :
    s'.Shows event.paymentId s.results
        ((s.lane event.paymentId).deliver (fun _ => true) (s.knows event) event) ∧
      (∀ owner, owner ≠ event.paymentId → s'.lane owner = s.lane owner) ∧
      s'.processedEventIds = s.processedEventIds ∪
        (((s.lane event.paymentId).movedBy (fun _ => true) (s.knows event) event).map
          (·.eventId)).toFinset := by
  have hcarries := OrderedEventProcessor.receive_carries event s (h event.paymentId).1
  have hreturns : ¬ Raises (OrderedEventProcessor.receive event) s := by
    rintro ⟨e, u, herror⟩
    rw [hrun] at herror
    cases herror
  rcases Lane.deliver_congr _ (hcarries.returns.mp hreturns) with ⟨hdeliver, hmoved⟩
  have hshows := hcarries.shows
  have hprocessed := hcarries.processed
  rw [after_of_ok hrun, hdeliver] at hshows
  rw [after_of_ok hrun, hmoved] at hprocessed
  refine ⟨hshows, fun owner hne => ?_, hprocessed⟩
  have hothers := hcarries.others owner hne
  rw [after_of_ok hrun] at hothers
  rw [OrderedEventProcessor.lane, OrderedEventProcessor.lane, hothers.1, hothers.2]

/-- The buffers of a processor only ever hold events that were delivered. -/
theorem delivered_receive (h : s.Resting) (hevent : event ∈ events)
    (hdelivered : ∀ owner, (s.lane owner).Holds fun _ event => event ∈ events)
    {results : List EventProcessingResult}
    (hrun : (OrderedEventProcessor.receive event).run s = .ok results s') :
    ∀ owner, (s'.lane owner).Holds fun _ event => event ∈ events := by
  rcases receive_returns h hrun with ⟨hshows, hothers, -⟩
  intro owner
  by_cases hsame : owner = event.paymentId
  · rw [hsame]
    have hholds := Lane.holds_deliver (fun _ => true) (s.knows event)
      (hdelivered event.paymentId) hevent
    unfold Lane.Holds at *
    rw [OrderedEventProcessor.lane, hshows.buffer]
    exact hholds
  · rw [hothers owner hsame]
    exact hdelivered owner

/-- A delivery of another payment goes unnoticed. -/
theorem mirrors_other (h : Mirrors events paymentId s t) (hids : IdsApart events)
    (hevent : event ∈ events) (howner : event.paymentId ≠ paymentId)
    {results : List EventProcessingResult}
    (hrun : (OrderedEventProcessor.receive event).run s = .ok results s') :
    Mirrors events paymentId s' t := by
  rcases receive_returns h.resting hrun with ⟨hshows, hothers, hprocessed⟩
  have hresting := OrderedEventProcessor.resting_receive event h.resting
  rw [after_of_ok hrun] at hresting
  -- What the delivery moves to and records are events of its own payment.
  have hall : (s.lane event.paymentId).Holds
      fun _ later => later ∈ events ∧ later.paymentId = event.paymentId :=
    fun position later hget => ⟨h.delivered event.paymentId position later hget,
      ((h.resting event.paymentId).1 position later hget).1⟩
  rcases Lane.forall_deliver (fun _ => true) (s.knows event) hall
      ⟨hevent, rfl⟩ with ⟨hmoved, hlog⟩
  refine ⟨hresting, h.resting', h.alone, delivered_receive h.resting hevent h.delivered hrun, ?_,
    ?_, fun own hown hpayment => ?_⟩
  · rw [hothers paymentId (Ne.symm howner)]
    exact h.lane
  · rw [hshows.results, List.filter_append, h.log]
    refine (congrArg (t.results ++ ·) (List.filter_eq_nil_iff.mpr fun result hmem => ?_)).trans
      (List.append_nil _)
    have hresult := ((hlog result hmem).resolve_left List.not_mem_nil).2
    simpa [hresult] using howner
  · rw [← h.known own hown hpayment, OrderedEventProcessor.knows, OrderedEventProcessor.knows,
      hprocessed]
    refine decide_eq_decide.mpr ?_
    rw [Finset.mem_union, or_iff_left]
    intro hmem
    rcases List.mem_map.mp (List.mem_toFinset.mp hmem) with ⟨later, hlater, hsame⟩
    refine howner ?_
    rw [← (hmoved later hlater).2, hids later (hmoved later hlater).1 own hown hsame, hpayment]

/-- A delivery of the payment does the same on both sides. -/
theorem mirrors_own (h : Mirrors events paymentId s t) (hevent : event ∈ events)
    (howner : event.paymentId = paymentId) {results : List EventProcessingResult}
    (hrun : (OrderedEventProcessor.receive event).run s = .ok results s') :
    ∃ results' t', (OrderedEventProcessor.receive event).run t = .ok results' t' ∧
      Mirrors events paymentId s' t' := by
  rcases receive_of_accepted h.alone.steady (alone_accepted h.alone howner) with
    ⟨results', t', hrun', hreceived, -⟩
  refine ⟨results', t', hrun', ?_⟩
  rcases receive_returns h.resting hrun with ⟨hshows, hothers, hprocessed⟩
  rcases receive_returns h.resting' hrun' with ⟨hshows', -, hprocessed'⟩
  have hresting := OrderedEventProcessor.resting_receive event h.resting
  have hresting' := OrderedEventProcessor.resting_receive event h.resting'
  rw [after_of_ok hrun] at hresting
  rw [after_of_ok hrun'] at hresting'
  have hown : (s.lane event.paymentId).Holds fun _ later => later.paymentId = event.paymentId :=
    fun position later hget => ((h.resting event.paymentId).1 position later hget).1
  rcases Lane.forall_deliver (fun _ => true) (s.knows event) hown rfl
    with ⟨-, hlog⟩
  -- Both sides deliver the same event to the same lane.
  have hlane : t.lane event.paymentId = s.lane event.paymentId := by
    rw [howner]
    exact h.lane.symm
  rw [hlane, ← h.known event hevent howner] at hshows' hprocessed'
  refine ⟨hresting, hresting', h.alone.received howner hreceived,
    delivered_receive h.resting hevent h.delivered hrun, ?_, ?_, fun own hown hpayment => ?_⟩
  · rw [← howner, OrderedEventProcessor.lane, OrderedEventProcessor.lane, hshows.state,
      hshows.buffer, hshows'.state, hshows'.buffer]
  · rw [hshows.results, hshows'.results, List.filter_append, h.log]
    refine congrArg (t.results ++ ·) (List.filter_eq_self.mpr fun result hmem => ?_)
    have hresult := (hlog result hmem).resolve_left List.not_mem_nil
    simpa [hresult] using howner
  · have hbefore := h.known own hown hpayment
    rw [OrderedEventProcessor.knows, OrderedEventProcessor.knows, decide_eq_decide] at hbefore ⊢
    rw [hprocessed, hprocessed', Finset.mem_union, Finset.mem_union, hbefore]

/-- Deliveries that return on the first processor return on the second, which
    is given those of the payment. -/
theorem mirrors_receiveAll (h : Mirrors events paymentId s t) (hids : IdsApart events)
    (later : List PaymentEvent) (hlater : ∀ event ∈ later, event ∈ events)
    (hrun : (OrderedEventProcessor.receiveAll later).run s = .ok () s') :
    ∃ t', (OrderedEventProcessor.receiveAll
        (later.filter fun event => event.paymentId = paymentId)).run t = .ok () t' ∧
      Mirrors events paymentId s' t' := by
  induction later generalizing s t with
  | nil =>
      cases hrun
      exact ⟨t, rfl, h⟩
  | cons event later ih =>
      rcases run_bind_ok_iff.mp hrun with ⟨results, u, hfirst, hrest⟩
      have hevent := hlater event List.mem_cons_self
      have hlater' : ∀ f ∈ later, f ∈ events := fun f hf => hlater f (List.mem_cons_of_mem event hf)
      by_cases howner : event.paymentId = paymentId
      · rw [List.filter_cons_of_pos (by simpa using howner), OrderedEventProcessor.receiveAll]
        rcases mirrors_own h hevent howner hfirst with ⟨results', t', hrun', hmirrors⟩
        rw [run_bind_of_ok hrun']
        exact ih hmirrors hlater' hrest
      · rw [List.filter_cons_of_neg (by simpa using howner)]
        exact ih (mirrors_other h hids hevent howner hfirst) hlater' hrest

/-- If events of different payments never share an identifier and no delivery
    raises, then every payment has the results, the state and the buffer that
    it has when only its own events are delivered. -/
theorem payments_independent (events : List PaymentEvent) (processor : OrderedEventProcessor)
    (hids : IdsApart events) (hrun : processEvents events = .ok processor) (paymentId : String) :
    ∃ alone, processEvents (events.filter fun event => event.paymentId = paymentId) = .ok alone ∧
      (processor.results.filter fun result => result.event.paymentId = paymentId)
        = alone.results ∧
      processor.stateOf paymentId = alone.stateOf paymentId ∧
      processor.bufferOf paymentId = alone.bufferOf paymentId := by
  unfold processEvents at hrun ⊢
  cases hall : (OrderedEventProcessor.receiveAll events).run (.new orderingLedger) with
  | error e t =>
      rw [hall] at hrun
      cases hrun
  | ok a t =>
      rw [hall] at hrun
      cases hrun
      rcases mirrors_receiveAll (mirrors_new events paymentId) hids events (fun _ h => h) hall with
        ⟨alone, hrun', hmirrors⟩
      rw [hrun']
      refine ⟨alone, rfl, hmirrors.log, ?_, ?_⟩
      · exact congrArg Lane.state hmirrors.lane
      · exact congrArg Lane.buffer hmirrors.lane

theorem payments_independent_mixed :
    IdsApart mixedDelivery ∧ ∃ processor, processEvents mixedDelivery = .ok processor ∧
      ∃ alone, processEvents (mixedDelivery.filter fun event => event.paymentId = "PAY-B")
          = .ok alone ∧
        (processor.results.filter fun result => result.event.paymentId = "PAY-B")
          = alone.results := by
  have hids : IdsApart mixedDelivery := by decide
  rcases delivery_settles_mixed.2 with ⟨processor, hrun, -⟩
  rcases payments_independent mixedDelivery processor hids hrun "PAY-B" with
    ⟨alone, hrun', hlog, -⟩
  exact ⟨hids, processor, hrun, alone, hrun', hlog⟩

end BankSim
