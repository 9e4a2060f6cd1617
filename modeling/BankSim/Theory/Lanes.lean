import BankSim.Core.Ordering

/-!
# One Payment at a Time

A delivery looks at one payment: its state, its buffer, and whether the
identifier of the event is known. `Lane` is what a processor keeps for that
payment, together with what the delivery has recorded so far, and
`Lane.deliver` is the delivery as a function on it. The ledger enters as the
question whether it accepts a completion, which is asked at most once, since
a payment has one last position.

What a delivery does is told by the events it moves the payment to: the
delivered one, if it is the next and no amount is in conflict, and those that
follow it in the buffer. They are what the log says was processed, except for
a completion that the ledger refuses.

## Main definitions

* `processedEvents`: The events that a log says were processed.
* `Lane`: State, buffer and new results of one payment.
* `Lane.apply`, `Lane.drain`, `Lane.hold`, `Lane.deliver`: The steps of a
  delivery as functions.
* `Lane.drainedBy`, `Lane.movedBy`: The events a delivery moves its payment to.
* `Lane.LeadsTo`: A chain of events in a buffer.

## Theorems

* `holds_deliver`: What a delivery keeps of the events in the buffer.
* `exhausted_deliver`: After a delivery nothing is left to drain.
* `drained_spec`: A drain moves to what the buffer leads to.
* `deliver_processed`: The results that say an event was processed.
* `forall_deliver`: A delivery moves to and records what it is given.
* `deliver_congr`: Only the completions it moves to matter to the ledger.
-/

namespace BankSim

/-- The events that a log says were processed. -/
def processedEvents (results : List EventProcessingResult) : List PaymentEvent :=
  (results.filter fun result => result.decision = .processed).map (·.event)

theorem processedEvents_append (results more : List EventProcessingResult) :
    processedEvents (results ++ more) = processedEvents results ++ processedEvents more := by
  rw [processedEvents, List.filter_append, List.map_append]
  rfl

/-- A completion is only recorded if the ledger accepts it. -/
def recorded (accepts : PaymentEvent → Bool) (event : PaymentEvent) : Bool :=
  decide (event.eventType = .completed → accepts event = true)

/-- What a processor keeps for one payment, and what was recorded for it since
    the delivery began. -/
structure Lane where
  state : PaymentOrderingState
  buffer : Dict Int PaymentEvent
  log : List EventProcessingResult

namespace Lane

/-- What holds of the positions and events in the buffer. -/
def Holds (P : Int → PaymentEvent → Prop) (self : Lane) : Prop :=
  ∀ position event, self.buffer.get? position = some event → P position event

/-- Events are buffered for their payment and under their position. -/
abbrev Keyed (owner : String) (self : Lane) : Prop :=
  self.Holds fun position event => event.paymentId = owner ∧ event.sequence.value = position

def expected (self : Lane) : Int :=
  self.state.lastSequence + 1

/-- The payment has had an event of another amount. -/
def Conflicts (self : Lane) (event : PaymentEvent) : Prop :=
  (self.state.amount.any fun amount => amount ≠ event.amount) = true

instance (self : Lane) (event : PaymentEvent) : Decidable (self.Conflicts event) :=
  inferInstanceAs (Decidable (_ = true))

def note (self : Lane) (event : PaymentEvent) (decision : ProcessingDecision) : Lane :=
  { self with log := self.log ++ [⟨event, decision, self.expected⟩] }

/-- The payment moves to an event. -/
def advance (self : Lane) (event : PaymentEvent) : Lane :=
  { self with
    state :=
      { lastSequence := event.sequence.value
        lastRevision := event.revision.value
        finalState := event.eventType.value
        amount := some event.amount } }

/-- The next event is taken out of the buffer. -/
def take (self : Lane) : Lane :=
  { self with buffer := self.buffer.erase self.expected }

/-- Keep an event for later, unless its position is taken. -/
def hold (event : PaymentEvent) (self : Lane) : Lane :=
  if event.sequence.value ∈ self.buffer then
    self.note event .rejected
  else
    { self.note event .buffered with buffer := self.buffer.set event.sequence.value event }

variable (accepts : PaymentEvent → Bool)

/-- Apply the expected event. A completion that the ledger refuses moves the
    payment and is not recorded. -/
def apply (event : PaymentEvent) (self : Lane) : Lane :=
  if self.Conflicts event then
    self.note event .rejected
  else if event.eventType = .completed ∧ accepts event = false then
    self.advance event
  else
    (self.note event .processed).advance event

/-- Apply what the buffer has ready. -/
def drain : Nat → Lane → Lane
  | 0, self => self
  | rounds + 1, self =>
      match self.buffer.get? self.expected with
      | none => self
      | some event => drain rounds (self.take.apply accepts event)

/-- One delivery of an event, whose identifier may be known. -/
def deliver (known : Bool) (event : PaymentEvent) (self : Lane) : Lane :=
  if known then
    self.note event .duplicate
  else if event.sequence.value ≤ self.state.lastSequence ∨
      event.revision.value ≤ self.state.lastRevision then
    self.note event .stale
  else if event.sequence.value > self.expected then
    self.hold event
  else
    (self.apply accepts event).drain accepts self.buffer.items.length

/-- The event an application moves the payment to, if there is no conflict. -/
def moves (self : Lane) (event : PaymentEvent) : List PaymentEvent :=
  if self.Conflicts event then [] else [event]

/-- The events a drain moves the payment to. -/
def drained : Nat → Lane → List PaymentEvent
  | 0, _ => []
  | rounds + 1, self =>
      match self.buffer.get? self.expected with
      | none => []
      | some event => self.take.moves event ++ drained rounds (self.take.apply accepts event)

/-- The event is the one the payment is waiting for. -/
def Expects (known : Bool) (event : PaymentEvent) (self : Lane) : Prop :=
  known = false ∧ self.state.lastSequence < event.sequence.value ∧
    self.state.lastRevision < event.revision.value ∧ event.sequence.value ≤ self.expected

instance (known : Bool) (event : PaymentEvent) (self : Lane) :
    Decidable (self.Expects known event) :=
  inferInstanceAs (Decidable (_ ∧ _))

/-- The events a delivery takes out of the buffer and moves the payment to. -/
def drainedBy (known : Bool) (event : PaymentEvent) (self : Lane) : List PaymentEvent :=
  if self.Expects known event then
    (self.apply accepts event).drained accepts self.buffer.items.length
  else
    []

/-- The events a delivery moves the payment to. -/
def movedBy (known : Bool) (event : PaymentEvent) (self : Lane) : List PaymentEvent :=
  (if self.Expects known event then self.moves event else []) ++ self.drainedBy accepts known event

/-- A buffer leads from a position to an event further on: no place on the way is
    free, and all that is held there has one amount. -/
def LeadsTo (buffer : Dict Int PaymentEvent) (position : Int) (amount : Money)
    (later : PaymentEvent) : Prop :=
  position < later.sequence.value ∧ buffer.get? later.sequence.value = some later ∧
    ∀ between, position < between → between ≤ later.sequence.value →
      ∃ held ∈ buffer.get? between, held.amount = amount

instance (buffer : Dict Int PaymentEvent) (position : Int) (amount : Money)
    (later : PaymentEvent) : Decidable (LeadsTo buffer position amount later) :=
  inferInstanceAs (Decidable (_ ∧ _ ∧ ∀ between, position < between → _))

section Steps

variable {accepts : PaymentEvent → Bool} {owner : String} {self : Lane} {event : PaymentEvent}
  {P : Int → PaymentEvent → Prop}

theorem apply_of_conflicts (h : self.Conflicts event) :
    self.apply accepts event = self.note event .rejected :=
  if_pos h

theorem apply_of_refused (h : ¬ self.Conflicts event) (hdone : event.eventType = .completed)
    (hrefused : accepts event = false) : self.apply accepts event = self.advance event := by
  rw [apply, if_neg h, if_pos ⟨hdone, hrefused⟩]

theorem apply_of_accepted (h : ¬ self.Conflicts event)
    (haccepted : event.eventType = .completed → accepts event = true) :
    self.apply accepts event = (self.note event .processed).advance event := by
  rw [apply, if_neg h, if_neg]
  rintro ⟨hdone, hrefused⟩
  rw [haccepted hdone] at hrefused
  cases hrefused

/-- Applying an event does not touch the buffer. -/
@[simp] theorem apply_buffer (accepts : PaymentEvent → Bool) (event : PaymentEvent) (self : Lane) :
    (self.apply accepts event).buffer = self.buffer := by
  unfold apply
  split_ifs <;> rfl

/-- Where the payment stands afterwards does not depend on the ledger. -/
theorem apply_state (accepts : PaymentEvent → Bool) (event : PaymentEvent) (self : Lane) :
    (self.apply accepts event).state =
      if self.Conflicts event then self.state else (self.advance event).state := by
  unfold apply
  split_ifs <;> rfl

/-- An event has one number for its position and its revision. -/
theorem revision_apply (h : self.state.lastRevision = self.state.lastSequence) :
    (self.apply accepts event).state.lastRevision
      = (self.apply accepts event).state.lastSequence := by
  rw [apply_state]
  split_ifs
  · exact h
  · exact event.revision_eq_sequence

/-- A payment that has nothing to drain stays as it is. -/
theorem drain_of_none (accepts : PaymentEvent → Bool) (rounds : Nat)
    (h : self.buffer.get? self.expected = none) :
    self.drain accepts rounds = self ∧ self.drained accepts rounds = [] := by
  cases rounds with
  | zero => exact ⟨rfl, rfl⟩
  | succ rounds => simp only [drain, drained, h, and_self]

theorem drain_of_some (accepts : PaymentEvent → Bool) (rounds : Nat)
    (h : self.buffer.get? self.expected = some event) :
    self.drain accepts (rounds + 1) = (self.take.apply accepts event).drain accepts rounds ∧
      self.drained accepts (rounds + 1)
        = self.take.moves event ++ (self.take.apply accepts event).drained accepts rounds := by
  simp only [drain, drained, h, and_self]

theorem holds_take (h : self.Holds P) : self.take.Holds P := by
  intro position later hlater
  rw [take, Dict.get?_erase] at hlater
  split_ifs at hlater
  exact h position later hlater

theorem holds_apply (h : self.Holds P) : (self.apply accepts event).Holds P := by
  intro position later hlater
  rw [apply_buffer] at hlater
  exact h position later hlater

theorem holds_drain (rounds : Nat) (h : self.Holds P) : (self.drain accepts rounds).Holds P := by
  induction rounds generalizing self with
  | zero => exact h
  | succ rounds ih =>
      cases hget : self.buffer.get? self.expected with
      | none =>
          rw [(drain_of_none accepts _ hget).1]
          exact h
      | some later =>
          rw [(drain_of_some accepts rounds hget).1]
          exact ih (holds_apply (holds_take h))

theorem holds_hold (h : self.Holds P) (hevent : P event.sequence.value event) :
    (self.hold event).Holds P := by
  unfold hold
  split_ifs
  · exact h
  · intro position later hlater
    rw [Dict.get?_set] at hlater
    split_ifs at hlater with hplace
    · rw [← Option.some.inj hlater, hplace]
      exact hevent
    · exact h position later hlater

/-- A delivery puts at most its own event into the buffer, under its
    position. -/
theorem holds_deliver (accepts : PaymentEvent → Bool) (known : Bool) (h : self.Holds P)
    (hevent : P event.sequence.value event) :
    (self.deliver accepts known event).Holds P := by
  unfold deliver
  split_ifs
  · exact h
  · exact h
  · exact holds_hold h hevent
  · exact holds_drain _ (holds_apply h)

/-- Past the last position there is nothing to drain. -/
theorem none_of_four (h : self.Keyed owner) (hlast : self.state.lastSequence = 4) :
    self.buffer.get? self.expected = none := by
  cases hget : self.buffer.get? self.expected with
  | none => rfl
  | some later =>
      have hposition := (h _ later hget).2
      have hle := later.sequence_le
      rw [expected, hlast] at hposition
      omega

/-- Nothing in the buffer can be applied. -/
def Exhausted (self : Lane) : Prop :=
  self.buffer.get? self.expected = none

/-- A drain goes on as long as there is something to apply. -/
theorem exhausted_drain (rounds : Nat) (hkeyed : self.Keyed owner)
    (hrounds : self.buffer.items.length ≤ rounds) : (self.drain accepts rounds).Exhausted := by
  induction rounds generalizing self with
  | zero =>
      cases hget : self.buffer.get? self.expected with
      | none => exact hget
      | some later =>
          have hlt := Dict.length_erase_lt _ _ ((Dict.mem_iff _ _).mpr ⟨later, hget⟩)
          omega
  | succ rounds ih =>
      cases hget : self.buffer.get? self.expected with
      | none =>
          rw [(drain_of_none accepts _ hget).1]
          exact hget
      | some later =>
          -- Every round takes an event out of the buffer.
          have hlt := Dict.length_erase_lt _ _ ((Dict.mem_iff _ _).mpr ⟨later, hget⟩)
          rw [(drain_of_some accepts rounds hget).1]
          refine ih (holds_apply (holds_take hkeyed)) ?_
          rw [apply_buffer]
          change (self.buffer.erase self.expected).items.length ≤ rounds
          omega

theorem exhausted_deliver (accepts : PaymentEvent → Bool) (event : PaymentEvent) (known : Bool)
    (hkeyed : self.Keyed owner) (h : self.Exhausted) :
    (self.deliver accepts known event).Exhausted := by
  unfold deliver
  split_ifs with hknown hstale hlater
  · exact h
  · exact h
  · unfold hold
    split_ifs
    · exact h
    · -- The event held is not the next one.
      change (self.buffer.set event.sequence.value event).get? self.expected = none
      rw [Dict.get?_set, if_neg (by omega)]
      exact h
  · refine exhausted_drain _ (holds_apply hkeyed) ?_
    rw [apply_buffer]

/-- The revision a payment has reached is the position it has reached. -/
theorem revision_drain (rounds : Nat) (h : self.state.lastRevision = self.state.lastSequence) :
    (self.drain accepts rounds).state.lastRevision
      = (self.drain accepts rounds).state.lastSequence := by
  induction rounds generalizing self with
  | zero => exact h
  | succ rounds ih =>
      cases hget : self.buffer.get? self.expected with
      | none =>
          rw [(drain_of_none accepts _ hget).1]
          exact h
      | some later =>
          rw [(drain_of_some accepts rounds hget).1]
          exact ih (@revision_apply accepts self.take later h)

theorem revision_deliver (known : Bool)
    (h : self.state.lastRevision = self.state.lastSequence) :
    (self.deliver accepts known event).state.lastRevision
      = (self.deliver accepts known event).state.lastSequence := by
  unfold deliver hold
  split_ifs
  · exact h
  · exact h
  · exact h
  · exact h
  · exact revision_drain _ (revision_apply h)

/-- A chain from a position to an event further on: the next event of the buffer
    is its first link, and the rest begins there. -/
theorem leadsTo_iff {buffer : Dict Int PaymentEvent} {position : Int} {amount : Money}
    {next : PaymentEvent} (hget : buffer.get? (position + 1) = some next)
    (hplace : next.sequence.value = position + 1) (hamount : next.amount = amount)
    (later : PaymentEvent) : LeadsTo buffer position amount later ↔
      later = next ∨ LeadsTo (buffer.erase (position + 1)) (position + 1) amount later := by
  constructor
  · rintro ⟨hlt, hlater, hchain⟩
    by_cases hfirst : later.sequence.value = position + 1
    · rw [hfirst, hget, Option.some.injEq] at hlater
      exact Or.inl hlater.symm
    · refine Or.inr ⟨by omega, ?_, fun between hafter hle => ?_⟩
      · rw [Dict.get?_erase, if_neg hfirst]
        exact hlater
      · rw [Dict.get?_erase, if_neg (by omega)]
        exact hchain between (by omega) hle
  · rintro (rfl | ⟨hlt, hlater, hchain⟩)
    · refine ⟨by omega, hplace ▸ hget, fun between hafter hle => ?_⟩
      obtain rfl : between = position + 1 := by omega
      exact ⟨later, hget, hamount⟩
    · rw [Dict.get?_erase, if_neg (by omega)] at hlater
      refine ⟨by omega, hlater, fun between hafter hle => ?_⟩
      by_cases hfirst : between = position + 1
      · rw [hfirst]
        exact ⟨next, hget, hamount⟩
      · have hheld := hchain between (by omega) hle
        rwa [Dict.get?_erase, if_neg hfirst] at hheld

/-- With a free place, or another amount, at the next position no chain begins. -/
theorem leadsTo_nil {buffer : Dict Int PaymentEvent} {position : Int} {amount : Money}
    (hnext : ∀ held, buffer.get? (position + 1) = some held → held.amount ≠ amount) :
    ([] : List PaymentEvent).Nodup ∧
      ∀ later, later ∈ ([] : List PaymentEvent) ↔ LeadsTo buffer position amount later := by
  refine ⟨List.nodup_nil, fun later => iff_of_false List.not_mem_nil ?_⟩
  rintro ⟨hlt, -, hchain⟩
  rcases hchain (position + 1) (by omega) (by omega) with ⟨held, hheld, hamount⟩
  exact hnext held hheld hamount

/-- The next event is put in front of what the rest of the buffer leads to. -/
theorem leadsTo_cons {buffer : Dict Int PaymentEvent} {position : Int} {amount : Money}
    {next : PaymentEvent} (hget : buffer.get? (position + 1) = some next)
    (hplace : next.sequence.value = position + 1) (hamount : next.amount = amount)
    {rest : List PaymentEvent} (hrest : rest.Nodup ∧ ∀ later, later ∈ rest ↔
      LeadsTo (buffer.erase (position + 1)) (position + 1) amount later) :
    (next :: rest).Nodup ∧
      ∀ later, later ∈ next :: rest ↔ LeadsTo buffer position amount later := by
  refine ⟨List.nodup_cons.mpr ⟨fun hmem => ?_, hrest.1⟩, fun later => ?_⟩
  · have hafter := ((hrest.2 next).mp hmem).1
    omega
  · rw [List.mem_cons, hrest.2 later, leadsTo_iff hget hplace hamount]

theorem conflicts_take_iff {amount : Money} (h : self.state.amount = some amount) :
    self.take.Conflicts event ↔ event.amount ≠ amount := by
  unfold Conflicts take
  rw [h, Option.any_some, decide_eq_true_iff]
  exact ne_comm

/-- An event in conflict is taken out of the buffer, and leaves a gap behind. -/
theorem drained_of_conflicts (rounds : Nat) (h : self.take.Conflicts event) :
    (self.take.apply accepts event).drained accepts rounds = [] := by
  refine (drain_of_none accepts rounds ?_).2
  rw [apply_of_conflicts h]
  change (self.buffer.erase self.expected).get? self.expected = none
  rw [Dict.get?_erase, if_pos rfl]

/-- A drain moves a payment to the events that the buffer leads to, each once. -/
theorem drained_spec {amount : Money} (rounds : Nat) (hkeyed : self.Keyed owner)
    (hrounds : self.buffer.items.length ≤ rounds) (hamount : self.state.amount = some amount) :
    (self.drained accepts rounds).Nodup ∧ ∀ later, later ∈ self.drained accepts rounds ↔
      LeadsTo self.buffer self.state.lastSequence amount later := by
  induction rounds generalizing self with
  | zero =>
      refine leadsTo_nil fun held hheld => ?_
      have hlt := Dict.length_erase_lt _ _ ((Dict.mem_iff _ _).mpr ⟨held, hheld⟩)
      omega
  | succ rounds ih =>
      cases hget : self.buffer.get? self.expected with
      | none =>
          rw [(drain_of_none accepts _ hget).2]
          refine leadsTo_nil fun held hheld => ?_
          cases hget.symm.trans hheld
      | some next =>
          have hplace : next.sequence.value = self.state.lastSequence + 1 := (hkeyed _ next hget).2
          rw [(drain_of_some accepts rounds hget).2, moves]
          by_cases hconflict : self.take.Conflicts next
          · rw [if_pos hconflict, List.nil_append, drained_of_conflicts rounds hconflict]
            refine leadsTo_nil fun held hheld => ?_
            rw [← Option.some.inj (hget.symm.trans hheld)]
            exact (conflicts_take_iff hamount).mp hconflict
          · have hsame : next.amount = amount := by
              rw [conflicts_take_iff hamount] at hconflict
              exact not_not.mp hconflict
            -- The payment has moved to the event, which is no longer in the buffer.
            have hstate : (self.take.apply accepts next).state
                = (self.take.advance next).state := by
              rw [apply_state, if_neg hconflict]
            have hbuffer : (self.take.apply accepts next).buffer
                = self.buffer.erase (self.state.lastSequence + 1) := apply_buffer _ _ _
            have hshorter : (self.buffer.erase (self.state.lastSequence + 1)).items.length
                < self.buffer.items.length :=
              Dict.length_erase_lt _ _ ((Dict.mem_iff _ _).mpr ⟨next, hget⟩)
            have hrest := @ih (self.take.apply accepts next)
              (holds_apply (holds_take hkeyed)) (by rw [hbuffer]; omega)
              (by rw [hstate]; exact congrArg some hsame)
            rw [hbuffer, hstate] at hrest
            change _ ∧ ∀ later, _ ↔ LeadsTo _ next.sequence.value amount later at hrest
            rw [hplace] at hrest
            rw [if_neg hconflict, List.singleton_append]
            exact leadsTo_cons hget hplace hsame hrest

/-- Only an event that the payment moves to is followed by others, and a
    completion is followed by none. -/
theorem drainedBy_eq_nil (known : Bool) (hkeyed : self.Keyed owner) (h : self.Exhausted)
    (hnot : self.Conflicts event ∨ event.eventType = .completed) :
    self.drainedBy accepts known event = [] := by
  unfold drainedBy
  split_ifs
  · refine (drain_of_none accepts _ ?_).2
    by_cases hconflict : self.Conflicts event
    · rw [apply_of_conflicts hconflict]
      exact h
    · refine none_of_four (holds_apply hkeyed) ?_
      rw [apply_state, if_neg hconflict]
      exact event.completed_iff.mp (hnot.resolve_left hconflict)
  · rfl

end Steps

section Log

variable {accepts : PaymentEvent → Bool} {owner : String} {self : Lane} {event : PaymentEvent}

theorem processed_note (decision : ProcessingDecision) (hdecision : decision ≠ .processed) :
    processedEvents (self.note event decision).log = processedEvents self.log := by
  rw [note, processedEvents_append]
  simp [processedEvents, hdecision]

theorem processed_apply : processedEvents (self.apply accepts event).log
    = processedEvents self.log ++ (self.moves event).filter (recorded accepts) := by
  rw [moves]
  by_cases hconflict : self.Conflicts event
  · rw [apply_of_conflicts hconflict, if_pos hconflict, List.filter_nil, List.append_nil]
    exact processed_note .rejected (by decide)
  rw [if_neg hconflict]
  by_cases hrecorded : recorded accepts event = true
  · have haccepted := of_decide_eq_true hrecorded
    rw [apply_of_accepted hconflict haccepted, List.filter_cons_of_pos hrecorded, List.filter_nil]
    simp [note, advance, processedEvents]
  · have hrefused : event.eventType = .completed ∧ accepts event = false := by
      simpa [recorded] using hrecorded
    rw [apply_of_refused hconflict hrefused.1 hrefused.2, List.filter_cons_of_neg hrecorded,
      List.filter_nil, List.append_nil]
    rfl

theorem processed_drain (rounds : Nat) : processedEvents (self.drain accepts rounds).log
    = processedEvents self.log ++ (self.drained accepts rounds).filter (recorded accepts) := by
  induction rounds generalizing self with
  | zero => exact (List.append_nil _).symm
  | succ rounds ih =>
      cases hget : self.buffer.get? self.expected with
      | none =>
          rw [(drain_of_none accepts _ hget).1, (drain_of_none accepts _ hget).2, List.filter_nil,
            List.append_nil]
      | some later =>
          rw [(drain_of_some accepts rounds hget).1, (drain_of_some accepts rounds hget).2, ih,
            processed_apply, List.filter_append, List.append_assoc]
          rfl

/-- A delivery records as processed the events it moves the payment to, but
    for a completion that the ledger refuses. -/
theorem deliver_processed (known : Bool) :
    processedEvents (self.deliver accepts known event).log
      = processedEvents self.log
        ++ (self.movedBy accepts known event).filter (recorded accepts) := by
  rw [deliver, movedBy, drainedBy]
  by_cases hexpects : self.Expects known event
  · rcases hexpects with ⟨hknown, hsequence, hrevision, hle⟩
    rw [if_neg (by simp [hknown]), if_neg (by omega), if_neg (by omega),
      if_pos ⟨hknown, hsequence, hrevision, hle⟩, if_pos ⟨hknown, hsequence, hrevision, hle⟩,
      processed_drain, processed_apply, List.filter_append, List.append_assoc]
  · rw [if_neg hexpects, if_neg hexpects, List.append_nil, List.filter_nil, List.append_nil]
    split_ifs with hknown hstale hlater
    · exact processed_note .duplicate (by decide)
    · exact processed_note .stale (by decide)
    · unfold hold
      split_ifs
      · exact processed_note .rejected (by decide)
      · exact processed_note .buffered (by decide)
    · -- The event is not the next one, and yet neither known, nor stale, nor later.
      refine absurd ⟨?_, by omega, by omega, by omega⟩ hexpects
      simpa using hknown

theorem forall_note {P : PaymentEvent → Prop} (decision : ProcessingDecision) (hevent : P event) :
    ∀ result ∈ (self.note event decision).log, result ∈ self.log ∨ P result.event := by
  intro result hmem
  rcases List.mem_append.mp hmem with hold | hnew
  · exact Or.inl hold
  · rw [List.mem_singleton.mp hnew]
    exact Or.inr hevent

theorem forall_apply {P : PaymentEvent → Prop} (accepts : PaymentEvent → Bool) (hevent : P event) :
    (∀ c ∈ self.moves event, P c) ∧
      ∀ result ∈ (self.apply accepts event).log, result ∈ self.log ∨ P result.event := by
  unfold moves apply
  split_ifs
  · exact ⟨fun c hc => absurd hc List.not_mem_nil, forall_note .rejected hevent⟩
  · exact ⟨fun c hc => List.mem_singleton.mp hc ▸ hevent, fun result hmem => Or.inl hmem⟩
  · exact ⟨fun c hc => List.mem_singleton.mp hc ▸ hevent, forall_note .processed hevent⟩

/-- A drain moves to what was in the buffer. -/
theorem forall_drain {P : PaymentEvent → Prop} (accepts : PaymentEvent → Bool) (rounds : Nat)
    (hholds : self.Holds fun _ later => P later) :
    (∀ c ∈ self.drained accepts rounds, P c) ∧
      ∀ result ∈ (self.drain accepts rounds).log, result ∈ self.log ∨ P result.event := by
  induction rounds generalizing self with
  | zero => exact ⟨fun c hc => absurd hc List.not_mem_nil, fun result hmem => Or.inl hmem⟩
  | succ rounds ih =>
      cases hget : self.buffer.get? self.expected with
      | none =>
          rw [(drain_of_none accepts _ hget).1, (drain_of_none accepts _ hget).2]
          exact ⟨fun c hc => absurd hc List.not_mem_nil, fun result hmem => Or.inl hmem⟩
      | some later =>
          rw [(drain_of_some accepts rounds hget).1, (drain_of_some accepts rounds hget).2]
          rcases @forall_apply self.take later P accepts (hholds _ later hget) with ⟨hmoves, hlog⟩
          rcases ih (holds_apply (holds_take hholds)) with ⟨hdrained, hrest⟩
          refine ⟨fun c hc => ?_, fun result hmem => ?_⟩
          · exact (List.mem_append.mp hc).elim (hmoves c) (hdrained c)
          · exact (hrest result hmem).elim (hlog result) Or.inr

/-- What a delivery moves to and records is what it is given: its own event
    and those in the buffer. -/
theorem forall_deliver {P : PaymentEvent → Prop} (accepts : PaymentEvent → Bool) (known : Bool)
    (hholds : self.Holds fun _ later => P later) (hevent : P event) :
    (∀ c ∈ self.movedBy accepts known event, P c) ∧
      ∀ result ∈ (self.deliver accepts known event).log, result ∈ self.log ∨ P result.event := by
  rcases @forall_apply self event P accepts hevent with ⟨hmoves, hlog⟩
  rcases forall_drain accepts self.buffer.items.length (holds_apply hholds) with
    ⟨hdrained, hrest⟩
  constructor
  · intro c hc
    unfold movedBy drainedBy at hc
    split_ifs at hc
    · exact (List.mem_append.mp hc).elim (hmoves c) (hdrained c)
    · cases hc
  · intro result
    unfold deliver hold
    split_ifs
    · exact forall_note .duplicate hevent result
    · exact forall_note .stale hevent result
    · exact forall_note .rejected hevent result
    · exact forall_note .buffered hevent result
    · exact fun hmem => (hrest result hmem).elim (hlog result) Or.inr

theorem apply_congr
    (h : ∀ c ∈ self.moves event, c.eventType = .completed → accepts c = true) :
    self.apply accepts event = self.apply (fun _ => true) event := by
  by_cases hconflict : self.Conflicts event
  · rw [apply_of_conflicts hconflict, apply_of_conflicts hconflict]
  · rw [moves, if_neg hconflict] at h
    rw [apply_of_accepted hconflict (h event (List.mem_singleton_self event)),
      apply_of_accepted hconflict fun _ => rfl]

theorem drain_congr (rounds : Nat)
    (h : ∀ c ∈ self.drained accepts rounds, c.eventType = .completed → accepts c = true) :
    self.drain accepts rounds = self.drain (fun _ => true) rounds ∧
      self.drained accepts rounds = self.drained (fun _ => true) rounds := by
  induction rounds generalizing self with
  | zero => exact ⟨rfl, rfl⟩
  | succ rounds ih =>
      cases hget : self.buffer.get? self.expected with
      | none =>
          rw [(drain_of_none accepts _ hget).1, (drain_of_none accepts _ hget).2,
            (drain_of_none _ _ hget).1, (drain_of_none _ _ hget).2]
          exact ⟨rfl, rfl⟩
      | some later =>
          rw [(drain_of_some accepts rounds hget).2] at h
          have hfirst := apply_congr fun c hc => h c (List.mem_append_left _ hc)
          have hrest := ih fun c hc => h c (List.mem_append_right _ hc)
          rw [hfirst] at hrest
          rw [(drain_of_some accepts rounds hget).1, (drain_of_some accepts rounds hget).2,
            (drain_of_some _ rounds hget).1, (drain_of_some _ rounds hget).2, hfirst, hrest.1,
            hrest.2]
          exact ⟨rfl, rfl⟩

/-- Of the ledger, a delivery only asks about the completions it moves the
    payment to. -/
theorem deliver_congr (known : Bool)
    (h : ∀ c ∈ self.movedBy accepts known event, c.eventType = .completed → accepts c = true) :
    self.deliver accepts known event = self.deliver (fun _ => true) known event ∧
      self.movedBy accepts known event = self.movedBy (fun _ => true) known event := by
  by_cases hexpects : self.Expects known event
  · rw [movedBy, drainedBy, if_pos hexpects, if_pos hexpects] at h
    have hfirst := apply_congr fun c hc => h c (List.mem_append_left _ hc)
    have hrest := drain_congr _ fun c hc => h c (List.mem_append_right _ hc)
    rw [hfirst] at hrest
    constructor
    · unfold deliver
      rw [hfirst, hrest.1]
    · unfold movedBy drainedBy
      rw [hfirst, hrest.2]
  · -- Nothing is moved to, and the ledger is not asked.
    constructor
    · unfold deliver
      split_ifs with hknown hstale hlater
      · rfl
      · rfl
      · rfl
      · refine absurd ⟨?_, by omega, by omega, by omega⟩ hexpects
        simpa using hknown
    · unfold movedBy drainedBy
      simp only [if_neg hexpects]

end Log

end Lane

end BankSim
