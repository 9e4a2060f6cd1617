import BankSim.Core.Ordering
import BankSim.Theory.Posting

/-!
# Event Ordering as a Transition System

What a delivery does to the processor, with the bookkeeping left out.

The decision history, the counters and the defaults that reading leaves in a
dictionary have no influence on what happens next. `OrderingView` keeps the
rest: the ledger, the state of every payment, what is buffered for it, and
the identifiers already processed. On it, a delivery that returns is one of
the three cases of `Received`, and the last of them ends in a sequence of
`DrainStep`s, one for each event taken out of the buffer.

A delivery raises only where the ledger refuses a settlement, and which
settlement it is can be told from the view before the delivery. `Completes`
follows the chain from the event in hand through the buffer to the completion
at its end, and `Accepted` says that the ledger would take that completion.
`receive_refines` is the statement that these two describe the code.

## Main definitions

* `OrderingView`: The part of a processor that decides what happens next.
* `PaymentEvent.Settleable`: The ledger takes the settlement of an event.
* `OrderingView.Applied`: Applying one event.
* `OrderingView.DrainStep`: Taking one event out of the buffer.
* `OrderingView.Received`: One delivery.
* `OrderingView.Completes`: The completion an event sets off.
* `OrderingView.Accepted`: No settlement a delivery sets off is refused.
* `OrderedEventProcessor.view`: The view of a processor.
* `OrderedEventProcessor.Drains`: A program that empties a buffer in order.

## Theorems

* `apply_refines`: What the code does with one event.
* `apply_then_drains`: What it does with one event and the buffer after it.
* `drainRounds_drains`: The loop has enough rounds.
* `receive_refines`: What the code does with one delivery.
-/

namespace BankSim

open Exec

namespace PaymentEvent

/-- The debit that settles a payment. -/
def settlementPosting (event : PaymentEvent) : Posting where
  entryId := event.paymentId ++ "-SETTLEMENT"
  accountId := "HCCU-DEMO-001"
  cents := event.amount.cents
  entryType := .debit
  description := "Ordered payment settlement"
  postedAt := event.arrivalOrder

/-- The ledger takes the settlement: its identifier is new and nothing is
    posted after the arrival of the event. -/
def Settleable (event : PaymentEvent) (ledger : Ledger) : Prop :=
  event.paymentId ++ "-SETTLEMENT" ∉ ledger.entryIds ∧ ledger.lastPostedAt ≤ event.arrivalOrder

instance (event : PaymentEvent) (ledger : Ledger) : Decidable (event.Settleable ledger) :=
  inferInstanceAs (Decidable (_ ∧ _))

theorem sequence_lt_of_open {event : PaymentEvent} (hopen : event.eventType ≠ .completed) :
    event.sequence.value < 4 :=
  lt_of_le_of_ne event.sequence_le ((not_congr event.completed_iff).mp hopen)

/-- An entry is the settlement of an event. -/
structure Settles (event : PaymentEvent) (entry : LedgerEntry) : Prop where
  entryId : entry.entryId = event.paymentId ++ "-SETTLEMENT"
  accountId : entry.accountId = "HCCU-DEMO-001"
  amount : entry.amount = event.amount
  entryType : entry.entryType = .debit
  postedAt : entry.postedAt = event.arrivalOrder

/-- Everything else the ledger asks for, an event guarantees. -/
theorem fits_iff_settleable (event : PaymentEvent) (ledger : Ledger) :
    event.settlementPosting.Fits ledger ↔ event.Settleable ledger := by
  constructor
  · intro h
    exact ⟨h.fresh, h.last_le⟩
  · intro h
    have harrival := event.arrivalOrder_pos
    exact
      { cents_pos := event.amount.cents_pos
        entryId_nonblank := isBlank_append_of_suffix _ _ (by decide)
        accountId_nonblank := (by decide : isBlank "HCCU-DEMO-001" = false)
        description_nonblank := (by decide : isBlank "Ordered payment settlement" = false)
        postedAt_nonneg := le_of_lt harrival
        originalTransferId_nonblank := rfl
        achReturnId_nonblank := rfl
        fresh := h.1
        last_le := h.2 }

theorem settles_entry {event : PaymentEvent} {ledger : Ledger}
    (h : event.settlementPosting.Fits ledger) : event.Settles (Posting.entry h) :=
  ⟨rfl, rfl, rfl, rfl, rfl⟩

end PaymentEvent

/-- The part of a processor that decides what happens next. -/
@[ext]
structure OrderingView where
  ledger : Ledger
  states : String → PaymentOrderingState
  buffers : String → Int → Option PaymentEvent
  processed : Finset String

namespace OrderingView

variable (v : OrderingView) (event : PaymentEvent) (owner : String)

/-- The position a payment has reached. -/
def last : Int :=
  (v.states owner).lastSequence

/-- A payment moves to an event. -/
def advanced : OrderingView :=
  { v with
    states := Function.update v.states owner
      { lastSequence := event.sequence.value
        lastRevision := event.revision.value
        finalState := event.eventType.value
        amount := some event.amount }
    processed := insert event.eventId v.processed }

/-- An entry is posted. -/
def pushed (entry : LedgerEntry) : OrderingView :=
  { v with ledger := v.ledger.push entry }

/-- What is buffered at one position changes. -/
def buffering (position : Int) (held : Option PaymentEvent) : OrderingView :=
  { v with
    buffers := Function.update v.buffers owner (Function.update (v.buffers owner) position held) }

/-- The payment has had an event of another amount. -/
def Conflicts : Prop :=
  (v.states owner).amount.any (fun amount => amount ≠ event.amount) = true

/-- Applying one event returns. -/
inductive Applied : OrderingView → Prop
  | conflict (h : v.Conflicts event owner) : Applied v
  | advanced (h : ¬ v.Conflicts event owner) (hopen : event.eventType ≠ .completed) :
      Applied (v.advanced event owner)
  | settled (h : ¬ v.Conflicts event owner) (hdone : event.eventType = .completed)
      (entry : LedgerEntry) (hsettles : event.Settles entry)
      (haccept : v.ledger.refusal entry = none) :
      Applied ((v.advanced event owner).pushed entry)

/-- The next event of a payment is taken out of the buffer and applied. -/
def DrainStep (w : OrderingView) : Prop :=
  ∃ event, v.buffers owner (v.last owner + 1) = some event ∧
    (v.buffering owner (v.last owner + 1) none).Applied event owner w

/-- Nothing in the buffer of a payment can be applied. -/
def Exhausted : Prop :=
  v.buffers owner (v.last owner + 1) = none

/-- Events are buffered for their payment and under their position. -/
def Keyed : Prop :=
  ∀ owner position event, v.buffers owner position = some event →
    event.paymentId = owner ∧ event.sequence.value = position

/-- One delivery returns. -/
inductive Received : OrderingView → Prop
  | ignored (h : event.eventId ∈ v.processed ∨ event.sequence.value ≤ v.last event.paymentId ∨
      v.buffers event.paymentId event.sequence.value ≠ none) : Received v
  | held (hlater : v.last event.paymentId + 1 < event.sequence.value)
      (hfree : v.buffers event.paymentId event.sequence.value = none) :
      Received (v.buffering event.paymentId event.sequence.value (some event))
  | applied (hfresh : event.eventId ∉ v.processed)
      (hnext : event.sequence.value = v.last event.paymentId + 1) (u w : OrderingView)
      (hfirst : v.Applied event event.paymentId u)
      (hrest : Relation.ReflTransGen (fun x y => x.DrainStep event.paymentId y) u w)
      (hend : w.Exhausted event.paymentId) : Received w

/-- Applying `event` to a payment leads, through the buffer, to applying the
    completion `c`: no amount is in conflict and no position is missing. -/
def Completes (c : PaymentEvent) : Prop :=
  ¬ v.Conflicts event owner ∧
    (∀ position, event.sequence.value < position → position ≤ 4 →
      ∃ later, v.buffers owner position = some later ∧ later.amount = event.amount) ∧
    if event.sequence.value = 4 then c = event else v.buffers owner 4 = some c

/-- No settlement a delivery sets off is refused by the ledger. -/
def Accepted : Prop :=
  event.eventId ∉ v.processed → event.sequence.value = v.last event.paymentId + 1 →
    ∀ c, v.Completes event event.paymentId c → c.Settleable v.ledger

/-- The buffer of a payment leads to a completion that the ledger refuses. -/
def DrainFails : Prop :=
  ∃ event c, v.buffers owner (v.last owner + 1) = some event ∧ v.Completes event owner c ∧
    ¬ c.Settleable v.ledger

variable {v event owner}

theorem conflicts_iff : v.Conflicts event owner ↔
    ∃ amount, (v.states owner).amount = some amount ∧ amount ≠ event.amount := by
  unfold Conflicts
  cases (v.states owner).amount with
  | none => simp
  | some amount => simp

theorem buffers_buffering (position : Int) (held : Option PaymentEvent) (paymentId : String)
    (n : Int) : (v.buffering owner position held).buffers paymentId n =
      if paymentId = owner ∧ n = position then held else v.buffers paymentId n := by
  simp only [buffering, Function.update_apply]
  by_cases howner : paymentId = owner
  · simp only [howner, if_true, Function.update_apply, true_and]
  · simp only [howner, if_false, false_and]

/-- Events stay under their keys when one is put where it belongs or taken
    out. -/
theorem keyed_buffering (h : v.Keyed) (owner : String) (position : Int)
    (held : Option PaymentEvent)
    (hheld : ∀ later, held = some later →
      later.paymentId = owner ∧ later.sequence.value = position) :
    (v.buffering owner position held).Keyed := by
  intro paymentId n later hlater
  rw [buffers_buffering] at hlater
  split_ifs at hlater with hplace
  · rw [hplace.1, hplace.2]
    exact hheld later hlater
  · exact h paymentId n later hlater

theorem keyed_applied {w : OrderingView} (h : v.Keyed) (happlied : v.Applied event owner w) :
    w.Keyed := by
  cases happlied <;> exact h

/-- What is buffered at the position of the event itself does not matter. -/
theorem completes_buffering (held : Option PaymentEvent) (c : PaymentEvent) :
    (v.buffering owner event.sequence.value held).Completes event owner c ↔
      v.Completes event owner c := by
  have hbuffer : ∀ n, n ≠ event.sequence.value →
      (v.buffering owner event.sequence.value held).buffers owner n = v.buffers owner n := by
    intro n hn
    rw [buffers_buffering, if_neg fun hplace => hn hplace.2]
  unfold Completes
  refine and_congr Iff.rfl (and_congr ?_ ?_)
  · refine forall_congr' fun n => forall_congr' fun hlt => ?_
    rw [hbuffer n (by omega)]
  · by_cases hlast : event.sequence.value = 4
    · simp only [hlast, if_true]
    · simp only [hlast, if_false, hbuffer 4 (Ne.symm hlast)]

theorem not_drainFails_of_exhausted (h : v.Exhausted owner) : ¬ v.DrainFails owner := by
  rintro ⟨event, c, hevent, -⟩
  rw [h] at hevent
  cases hevent

/-- A buffer that holds the next event fails when that event does. -/
theorem drainFails_iff_of_next (hevent : v.buffers owner (v.last owner + 1) = some event)
    (hposition : event.sequence.value = v.last owner + 1) (held : Option PaymentEvent) :
    v.DrainFails owner ↔ ∃ c, (v.buffering owner (v.last owner + 1) held).Completes event owner c ∧
      ¬ c.Settleable v.ledger := by
  rw [← hposition] at hevent ⊢
  simp only [completes_buffering]
  unfold DrainFails
  rw [← hposition, hevent]
  constructor
  · rintro ⟨later, c, hlater, hcompletes, hrefused⟩
    rw [← Option.some.inj hlater] at hcompletes
    exact ⟨c, hcompletes, hrefused⟩
  · rintro ⟨c, hcompletes, hrefused⟩
    exact ⟨event, c, rfl, hcompletes, hrefused⟩

/-- The event that follows leads to the same completion, since the chain to it
    has one link less and the amounts are the same. -/
theorem completes_advanced_iff {later : PaymentEvent} (hkeyed : v.Keyed)
    (hagree : ¬ v.Conflicts event owner) (hopen : event.eventType ≠ .completed)
    (hlater : v.buffers owner (event.sequence.value + 1) = some later) (c : PaymentEvent) :
    (v.advanced event owner).Completes later owner c ↔ v.Completes event owner c := by
  have hlt := PaymentEvent.sequence_lt_of_open hopen
  have hposition : later.sequence.value = event.sequence.value + 1 :=
    (hkeyed owner _ later hlater).2
  have hconflict : ¬ (v.advanced event owner).Conflicts later owner ↔
      later.amount = event.amount := by
    simp only [conflicts_iff, OrderingView.advanced, Function.update_self, Option.some.injEq,
      exists_eq_left', ne_eq, not_not]
    exact eq_comm
  -- Both chains end in the same place, whether or not `later` is that end.
  have hend : (if later.sequence.value = 4 then c = later else v.buffers owner 4 = some c) ↔
      if event.sequence.value = 4 then c = event else v.buffers owner 4 = some c := by
    rw [if_neg (by omega : event.sequence.value ≠ 4)]
    by_cases hfour : later.sequence.value = 4
    · rw [if_pos hfour, show (4 : Int) = event.sequence.value + 1 by omega, hlater,
        Option.some.injEq, eq_comm]
    · rw [if_neg hfour]
  constructor
  · rintro ⟨hamount, hchain, hcompletes⟩
    rw [hconflict] at hamount
    refine ⟨hagree, fun n hn hle => ?_, hend.mp hcompletes⟩
    by_cases hfirst : n = event.sequence.value + 1
    · exact ⟨later, hfirst ▸ hlater, hamount⟩
    · rcases hchain n (by omega) hle with ⟨f, hf, hsame⟩
      exact ⟨f, hf, hsame.trans hamount⟩
  · rintro ⟨-, hchain, hcompletes⟩
    rcases hchain (event.sequence.value + 1) (by omega) (by omega) with ⟨first, hfirst, hamount⟩
    rw [hlater, Option.some.injEq] at hfirst
    rw [← hfirst] at hamount
    refine ⟨hconflict.mpr hamount, fun n hn hle => ?_, hend.mpr hcompletes⟩
    rcases hchain n (by omega) hle with ⟨f, hf, hsame⟩
    exact ⟨f, hf, hsame.trans hamount.symm⟩

/-- Applying an event moves a failure of the buffer one position on. -/
theorem drainFails_applied {w : OrderingView} (hkeyed : v.Keyed)
    (hnext : event.sequence.value = v.last owner + 1)
    (hfree : v.buffers owner event.sequence.value = none) (happlied : v.Applied event owner w)
    (hsettled : ¬ v.Conflicts event owner → event.eventType = .completed →
      event.Settleable v.ledger) :
    w.DrainFails owner ↔ ∃ c, v.Completes event owner c ∧ ¬ c.Settleable v.ledger := by
  cases happlied with
  | conflict h =>
      constructor
      · rintro ⟨later, c, hlater, -⟩
        rw [← hnext, hfree] at hlater
        cases hlater
      · rintro ⟨c, hcompletes, -⟩
        exact absurd h hcompletes.1
  | advanced h hopen =>
      have hlt := PaymentEvent.sequence_lt_of_open hopen
      have hlast : (v.advanced event owner).last owner = event.sequence.value := by
        simp only [last, OrderingView.advanced, Function.update_self]
      unfold DrainFails
      rw [hlast]
      constructor
      · rintro ⟨later, c, hlater, hcompletes, hrefused⟩
        exact ⟨c, (completes_advanced_iff hkeyed h hopen hlater c).mp hcompletes, hrefused⟩
      · rintro ⟨c, hcompletes, hrefused⟩
        -- The chain to the completion begins right after the event.
        rcases hcompletes.2.1 (event.sequence.value + 1) (by omega) (by omega) with
          ⟨later, hlater, -⟩
        exact ⟨later, c, hlater, (completes_advanced_iff hkeyed h hopen hlater c).mpr hcompletes,
          hrefused⟩
  | settled h hdone entry hsettles haccept =>
      have hfour := event.completed_iff.mp hdone
      constructor
      · -- Nothing is buffered past the last position.
        rintro ⟨later, c, hlater, -⟩
        have hposition := (hkeyed owner _ later hlater).2
        have hle := later.sequence_le
        simp only [last, pushed, OrderingView.advanced, Function.update_self] at hposition
        omega
      · rintro ⟨c, ⟨-, -, hend⟩, hrefused⟩
        rw [if_pos hfour] at hend
        rw [hend] at hrefused
        exact absurd (hsettled h hdone) hrefused

end OrderingView

namespace OrderedEventProcessor

/-- What decides about the next delivery. -/
def view (self : OrderedEventProcessor) : OrderingView where
  ledger := self.ledger
  states := self.stateOf
  buffers paymentId position := (self.bufferOf paymentId).get? position
  processed := self.processedEventIds

theorem view_advanced (self : OrderedEventProcessor) (event : PaymentEvent) (owner : String) :
    (self.advanced event owner).view = self.view.advanced event owner := by
  ext paymentId : 2
  · rfl
  · simp only [view, stateOf, advanced, OrderingView.advanced, Dict.get?_set, Function.update_apply]
    split_ifs <;> rfl
  · rfl
  · rfl

theorem buffers_withBuffer (self : OrderedEventProcessor) (owner : String)
    (buffer : Dict Int PaymentEvent) (paymentId : String) :
    (self.withBuffer owner buffer).bufferOf paymentId =
      if paymentId = owner then buffer else self.bufferOf paymentId := by
  simp only [bufferOf, withBuffer, Dict.get?_set]
  split_ifs <;> rfl

theorem view_withBuffer (self : OrderedEventProcessor) (owner : String)
    (buffer : Dict Int PaymentEvent) (position : Int) (held : Option PaymentEvent)
    (hbuffer : ∀ n, buffer.get? n = if n = position then held else (self.bufferOf owner).get? n) :
    (self.withBuffer owner buffer).view = self.view.buffering owner position held := by
  ext paymentId : 2
  · rfl
  · rfl
  · funext n
    simp only [view, buffers_withBuffer, OrderingView.buffering, Function.update_apply]
    by_cases howner : paymentId = owner
    · simp only [howner, if_true, hbuffer n, Function.update_apply]
    · simp only [howner, if_false]
  · rfl

/-- Taking an event out of a buffer. -/
theorem view_erase (self : OrderedEventProcessor) (owner : String) (position : Int) :
    (self.withBuffer owner ((self.bufferOf owner).erase position)).view
      = self.view.buffering owner position none :=
  self.view_withBuffer owner _ position none fun n => Dict.get?_erase _ position n

/-- Putting an event into a buffer. -/
theorem view_set (self : OrderedEventProcessor) (owner : String) (position : Int)
    (event : PaymentEvent) :
    (self.withBuffer owner ((self.bufferOf owner).set position event)).view
      = self.view.buffering owner position (some event) :=
  self.view_withBuffer owner _ position (some event) fun n => Dict.get?_set _ position n event

/-- Defaults that reading leaves behind are not seen. -/
theorem view_setdefault_states (self : OrderedEventProcessor) (paymentId : String) :
    ({ self with states := self.states.setdefault paymentId .new } : OrderedEventProcessor).view
      = self.view := by
  ext owner : 2
  · rfl
  · exact Dict.getD_get?_setdefault self.states paymentId owner .new
  · rfl
  · rfl

theorem bufferOf_setdefault (self : OrderedEventProcessor) (paymentId owner : String) :
    ({ self with buffers := self.buffers.setdefault paymentId Dict.empty } :
      OrderedEventProcessor).bufferOf owner = self.bufferOf owner :=
  Dict.getD_get?_setdefault self.buffers paymentId owner Dict.empty

theorem view_setdefault_buffers (self : OrderedEventProcessor) (paymentId : String) :
    ({ self with buffers := self.buffers.setdefault paymentId Dict.empty } :
      OrderedEventProcessor).view = self.view := by
  ext owner : 2
  · rfl
  · rfl
  · funext n
    exact congrArg (fun buffer => buffer.get? n) (self.bufferOf_setdefault paymentId owner)
  · rfl

theorem settle_eq (event : PaymentEvent) : settle event = (do
    ledgerOf.zoom event.settlementPosting.post
    modify fun self => { self with ledgerEntriesCreated := self.ledgerEntriesCreated + 1 }) := by
  have hamount : Money.new event.settlementPosting.cents = .ok event.amount :=
    Money.new_of_pos _ event.amount.cents_pos
  simp only [Posting.zoom_post, hamount, lift_ok, pure_bind, bind_assoc]
  rfl

/-- A settlement the ledger takes is one more entry, and is counted. -/
theorem settle_of_settleable {event : PaymentEvent} {s : OrderedEventProcessor}
    (h : event.Settleable s.ledger) : ∃ entry, event.Settles entry ∧
      s.ledger.refusal entry = none ∧ (settle event).run s = .ok ()
        { s with
          ledger := s.ledger.push entry
          ledgerEntriesCreated := s.ledgerEntriesCreated + 1 } := by
  have hfits := (event.fits_iff_settleable s.ledger).mpr h
  have hpost : (ledgerOf.zoom event.settlementPosting.post).run s
      = .ok () { s with ledger := s.ledger.push (Posting.entry hfits) } :=
    Component.zoom_run_ok (Posting.post_of_fits hfits)
  rw [settle_eq]
  exact ⟨Posting.entry hfits, PaymentEvent.settles_entry hfits, Posting.refusal_entry hfits,
    run_bind_of_ok hpost⟩

/-- One that it refuses changes nothing. -/
theorem settle_of_refused {event : PaymentEvent} {s : OrderedEventProcessor}
    (h : ¬ event.Settleable s.ledger) : ∃ e, (settle event).run s = .error e s := by
  rw [← event.fits_iff_settleable] at h
  rcases Posting.post_of_not_fits h with ⟨e, hpost⟩
  have hrun : (ledgerOf.zoom event.settlementPosting.post).run s = .error e s :=
    Component.zoom_run_error hpost
  rw [settle_eq]
  exact ⟨e, run_bind_of_error hrun⟩

/-- The financial effect of a completion: the ledger takes one entry, or
    nothing happens. -/
theorem settle_cases (event : PaymentEvent) (s : OrderedEventProcessor) :
    (event.Settleable s.ledger ∧ ∃ entry t, event.Settles entry ∧
        s.ledger.refusal entry = none ∧ (settle event).run s = .ok () t ∧
        t.view = s.view.pushed entry ∧ t.buffers = s.buffers) ∨
      (¬ event.Settleable s.ledger ∧ ∃ e, (settle event).run s = .error e s) := by
  by_cases hsettleable : event.Settleable s.ledger
  · rcases settle_of_settleable hsettleable with ⟨entry, hsettles, haccept, hrun⟩
    exact Or.inl ⟨hsettleable, entry, _, hsettles, haccept, hrun, rfl, rfl⟩
  · exact Or.inr ⟨hsettleable, settle_of_refused hsettleable⟩

section Apply

variable {event : PaymentEvent} {owner : String} {s : OrderedEventProcessor}

theorem conflicts_iff : s.view.Conflicts event owner ↔
    ((s.stateOf owner).amount.any fun amount => amount ≠ event.amount) = true :=
  Iff.rfl

theorem apply_of_conflict (h : s.view.Conflicts event owner) : (apply event owner).run s
    = (record event .rejected ((s.stateOf owner).lastSequence + 1)).run s := by
  rw [conflicts_iff] at h
  change EStateM.run (ite (Option.any _ (s.stateOf owner).amount = true) _ _) s = _
  rw [if_pos h]

theorem apply_of_open (h : ¬ s.view.Conflicts event owner) (hopen : event.eventType ≠ .completed) :
    (apply event owner).run s
      = (record event .processed ((s.stateOf owner).lastSequence + 1)).run
        (s.advanced event owner) := by
  rw [conflicts_iff] at h
  change EStateM.run (ite (Option.any _ (s.stateOf owner).amount = true) _ _) s = _
  rw [if_neg h, run_bind_modify]
  simp only [hopen, if_false]

theorem apply_of_completed (h : ¬ s.view.Conflicts event owner)
    (hdone : event.eventType = .completed) :
    (apply event owner).run s = (do
      settle event
      record event .processed ((s.stateOf owner).lastSequence + 1)).run
        (s.advanced event owner) := by
  rw [conflicts_iff] at h
  change EStateM.run (ite (Option.any _ (s.stateOf owner).amount = true) _ _) s = _
  rw [if_neg h, run_bind_modify]
  simp only [hdone, if_true]

end Apply

theorem drainRounds_of_none {owner : String} {s : OrderedEventProcessor} (rounds : Nat)
    (h : (s.bufferOf owner).get? ((s.stateOf owner).lastSequence + 1) = none) :
    (drainRounds owner rounds).run s = .ok () s := by
  cases rounds with
  | zero => rfl
  | succ rounds =>
      rw [drainRounds, run_bind_get]
      simp only [h]
      rfl

theorem drainRounds_of_some {owner : String} {s : OrderedEventProcessor} {event : PaymentEvent}
    (rounds : Nat)
    (h : (s.bufferOf owner).get? ((s.stateOf owner).lastSequence + 1) = some event) :
    (drainRounds owner (rounds + 1)).run s = (do
      apply event owner
      drainRounds owner rounds).run (s.withBuffer owner
        ((s.bufferOf owner).erase ((s.stateOf owner).lastSequence + 1))) := by
  rw [drainRounds, run_bind_get]
  simp only [h]
  rfl

/-- Applying one event returns as the model says, or it is a completion and
    the ledger refuses its settlement. Then the payment has already moved. -/
theorem apply_refines (event : PaymentEvent) (owner : String) (s : OrderedEventProcessor) :
    (∃ t, (apply event owner).run s = .ok () t ∧ s.view.Applied event owner t.view ∧
        t.buffers = s.buffers ∧ (¬ s.view.Conflicts event owner → event.eventType = .completed →
          event.Settleable s.ledger)) ∨
      (¬ s.view.Conflicts event owner ∧ event.eventType = .completed ∧
        ¬ event.Settleable s.ledger ∧
        ∃ e t, (apply event owner).run s = .error e t ∧ t.view = s.view.advanced event owner) := by
  have hadvanced := s.view_advanced event owner
  by_cases hconflict : s.view.Conflicts event owner
  · exact Or.inl ⟨_, apply_of_conflict hconflict, .conflict hconflict, rfl,
      fun h => absurd hconflict h⟩
  by_cases hdone : event.eventType = .completed
  · -- Only a completion goes to the ledger.
    rw [apply_of_completed hconflict hdone]
    rcases settle_cases event (s.advanced event owner) with
      ⟨hsettleable, entry, t, hsettles, haccept, hrun, hview, hbuffers⟩ | ⟨hrefused, e, hrun⟩
    · refine Or.inl ⟨_, run_bind_of_ok hrun, ?_, hbuffers, fun _ _ => hsettleable⟩
      change s.view.Applied event owner t.view
      rw [hview, hadvanced]
      exact .settled hconflict hdone entry hsettles haccept
    · exact Or.inr ⟨hconflict, hdone, hrefused, e, _, run_bind_of_error hrun, hadvanced⟩
  · refine Or.inl ⟨_, apply_of_open hconflict hdone, ?_, rfl, fun _ h => absurd h hdone⟩
    change s.view.Applied event owner (s.advanced event owner).view
    rw [hadvanced]
    exact .advanced hconflict hdone

/-- A program drains the buffer of a payment: it runs until nothing more can
    be applied, or until the ledger refuses the completion the buffer leads
    to. -/
def Drains (m : Action OrderedEventProcessor Unit) (owner : String) (s : OrderedEventProcessor) :
    Prop :=
  (¬ s.view.DrainFails owner ∧ ∃ t, m.run s = .ok () t ∧
      Relation.ReflTransGen (fun v w => v.DrainStep owner w) s.view t.view ∧
      t.view.Exhausted owner) ∨
    (s.view.DrainFails owner ∧ ∃ e t, m.run s = .error e t ∧ t.view.last owner = 4)

/-- Applying the next event and draining what it makes ready returns exactly
    when the ledger takes the completion at the end of the chain. -/
theorem apply_then_drains (event : PaymentEvent) (owner : String) (s : OrderedEventProcessor)
    (rest : Action OrderedEventProcessor Unit) (hkeyed : s.view.Keyed)
    (hnext : event.sequence.value = s.view.last owner + 1)
    (hfree : s.view.buffers owner event.sequence.value = none)
    (hrest : ∀ t : OrderedEventProcessor, t.view.Keyed → t.buffers = s.buffers →
      Drains rest owner t) :
    ((∀ c, s.view.Completes event owner c → c.Settleable s.ledger) ∧
        ∃ t u : OrderedEventProcessor, s.view.Applied event owner t.view ∧
          (do apply event owner; rest).run s = .ok () u ∧
          Relation.ReflTransGen (fun v w => v.DrainStep owner w) t.view u.view ∧
          u.view.Exhausted owner) ∨
      ((∃ c, s.view.Completes event owner c ∧ ¬ c.Settleable s.ledger) ∧
        ∃ e u, (do apply event owner; rest).run s = .error e u ∧ u.view.last owner = 4) := by
  rcases apply_refines event owner s with
    ⟨t, hrun, happlied, hbuffers, hsettled⟩ | ⟨hagree, hdone, hrefused, e, t, hrun, hmoved⟩
  · have hfails := OrderingView.drainFails_applied hkeyed hnext hfree happlied hsettled
    rw [run_bind_of_ok hrun]
    rcases hrest t (OrderingView.keyed_applied hkeyed happlied) hbuffers with
      ⟨hok, u, hrun', hsteps, hend⟩ | ⟨herror, e, u, hrun', hlast⟩
    · refine Or.inl ⟨fun c hcompletes => ?_, t, u, happlied, hrun', hsteps, hend⟩
      by_contra hrefused
      exact hok (hfails.mpr ⟨c, hcompletes, hrefused⟩)
    · exact Or.inr ⟨hfails.mp herror, e, u, hrun', hlast⟩
  · -- The event is itself the completion that the ledger refuses.
    have hfour := event.completed_iff.mp hdone
    have hle := event.sequence_le
    refine Or.inr ⟨⟨event, ⟨hagree, fun n hn hn' => by omega, by rw [if_pos hfour]⟩, hrefused⟩,
      e, t, run_bind_of_error hrun, ?_⟩
    rw [hmoved]
    simp only [OrderingView.last, OrderingView.advanced, Function.update_self, hfour]

/-- The loop drains the buffer when it has as many rounds as the buffer has
    events. -/
theorem drainRounds_drains (owner : String) (rounds : Nat) (s : OrderedEventProcessor)
    (hkeyed : s.view.Keyed) (hrounds : (s.bufferOf owner).items.length ≤ rounds) :
    Drains (drainRounds owner rounds) owner s := by
  induction rounds generalizing s with
  | zero =>
      cases hget : (s.bufferOf owner).get? ((s.stateOf owner).lastSequence + 1) with
      | none =>
          exact Or.inl ⟨OrderingView.not_drainFails_of_exhausted hget, s,
            drainRounds_of_none _ hget, .refl, hget⟩
      | some event =>
          have hlt := Dict.length_erase_lt _ _ ((Dict.mem_iff _ _).mpr ⟨event, hget⟩)
          omega
  | succ rounds ih =>
      cases hget : (s.bufferOf owner).get? ((s.stateOf owner).lastSequence + 1) with
      | none =>
          exact Or.inl ⟨OrderingView.not_drainFails_of_exhausted hget, s,
            drainRounds_of_none _ hget, .refl, hget⟩
      | some event =>
          have hlt := Dict.length_erase_lt _ _ ((Dict.mem_iff _ _).mpr ⟨event, hget⟩)
          have hposition := (hkeyed owner _ event hget).2
          have hfails := OrderingView.drainFails_iff_of_next (v := s.view) hget hposition none
          rw [Drains, drainRounds_of_some rounds hget]
          have hview : (s.withBuffer owner ((s.bufferOf owner).erase
              ((s.stateOf owner).lastSequence + 1))).view
                = s.view.buffering owner (s.view.last owner + 1) none := s.view_erase owner _
          have hbuffer := s.buffers_withBuffer owner
            ((s.bufferOf owner).erase ((s.stateOf owner).lastSequence + 1)) owner
          rw [if_pos rfl] at hbuffer
          generalize s.withBuffer owner ((s.bufferOf owner).erase
            ((s.stateOf owner).lastSequence + 1)) = popped at hview hbuffer ⊢
          have hledger : s.view.ledger = popped.ledger := (congrArg OrderingView.ledger hview).symm
          rw [← hview, hledger] at hfails
          -- the loop continues on a buffer that lacks the event taken out
          have hstep := apply_then_drains event owner popped (drainRounds owner rounds)
            (by
              rw [hview]
              exact OrderingView.keyed_buffering hkeyed _ _ none (fun _ h => by cases h))
            (by rw [hview]; exact hposition)
            (by rw [hview, OrderingView.buffers_buffering, if_pos ⟨rfl, hposition⟩])
            (fun t hkeyed' hbuffers => ih t hkeyed' (by
              have hsame : t.bufferOf owner = popped.bufferOf owner := by
                rw [bufferOf, bufferOf, hbuffers]
              rw [hsame, hbuffer]
              omega))
          rcases hstep with ⟨hok, t, u, happlied, hrun, hsteps, hend⟩ | ⟨herror, e, u, hrun, hlast⟩
          · refine Or.inl ⟨fun h => ?_, u, hrun, ?_, hend⟩
            · rcases hfails.mp h with ⟨c, hcompletes, hrefused⟩
              exact hrefused (hok c hcompletes)
            · refine Relation.ReflTransGen.head ⟨event, hget, ?_⟩ hsteps
              rw [← hview]
              exact happlied
          · exact Or.inr ⟨hfails.mpr herror, e, u, hrun, hlast⟩

theorem drain_drains (owner : String) (s : OrderedEventProcessor) (hkeyed : s.view.Keyed) :
    Drains (drain owner) owner s := by
  have hrun : (drain owner).run s = (drainRounds owner
      (({ s with buffers := s.buffers.setdefault owner Dict.empty } :
        OrderedEventProcessor).bufferOf owner).items.length).run
      { s with buffers := s.buffers.setdefault owner Dict.empty } := rfl
  have hview := s.view_setdefault_buffers owner
  rw [Drains, hrun, ← hview]
  exact drainRounds_drains owner _ _ (hview ▸ hkeyed) le_rfl

/-- Keeping an event for later, or rejecting it where the position is
    taken. -/
theorem hold_refines (event : PaymentEvent) (expected : Int) (s : OrderedEventProcessor)
    (hlater : s.view.last event.paymentId + 1 < event.sequence.value) :
    ∃ t, (hold event expected).run s = .ok () t ∧ s.view.Received event t.view := by
  have hview := s.view_setdefault_buffers event.paymentId
  have hrun : (hold event expected).run s = (do
      let self ← get
      if event.sequence.value ∈ self.bufferOf event.paymentId then
        record event .rejected expected
      else do
        modify fun self =>
          { self.withBuffer event.paymentId
              ((self.bufferOf event.paymentId).set event.sequence.value event) with
            outOfOrder := self.outOfOrder + 1
            buffered := self.buffered + 1 }
        record event .buffered expected : Action OrderedEventProcessor Unit).run
      { s with buffers := s.buffers.setdefault event.paymentId Dict.empty } := rfl
  rw [hrun, run_bind_get]
  generalize ({ s with buffers := s.buffers.setdefault event.paymentId Dict.empty } :
    OrderedEventProcessor) = s' at hview ⊢
  by_cases htaken : event.sequence.value ∈ s'.bufferOf event.paymentId
  · rw [if_pos htaken]
    refine ⟨_, rfl, ?_⟩
    change s.view.Received event s'.view
    rw [hview]
    -- The position is taken, and a rejection changes nothing that counts.
    refine .ignored (Or.inr (Or.inr fun hfree => ?_))
    rw [← hview] at hfree
    exact (Dict.not_mem_iff _ _).mpr hfree htaken
  · rw [if_neg htaken]
    refine ⟨_, rfl, ?_⟩
    change s.view.Received event (s'.withBuffer event.paymentId _).view
    rw [view_set, hview]
    refine .held hlater ?_
    rw [← hview]
    exact (Dict.not_mem_iff _ _).mp htaken

/-- What one decision does. -/
theorem dispatch_refines (event : PaymentEvent) (s : OrderedEventProcessor)
    (hkeyed : s.view.Keyed) (hend : s.view.Exhausted event.paymentId)
    (hrevision : (s.stateOf event.paymentId).lastRevision
      = (s.stateOf event.paymentId).lastSequence) :
    (s.view.Accepted event ∧ ∃ t, (dispatch event).run s = .ok () t ∧
        s.view.Received event t.view) ∨
      (¬ s.view.Accepted event ∧ s.view.last event.paymentId < 4 ∧
        ∃ e t, (dispatch event).run s = .error e t ∧ t.view.last event.paymentId = 4) := by
  have hposition := event.revision_eq_sequence
  have hle := event.sequence_le
  rw [dispatch, run_bind_get]
  by_cases hdone : event.eventId ∈ s.processedEventIds
  · rw [if_pos hdone]
    exact Or.inl ⟨fun hfresh => absurd hdone hfresh, _, rfl, .ignored (Or.inl hdone)⟩
  rw [if_neg hdone]
  by_cases hstale : event.sequence.value ≤ (s.stateOf event.paymentId).lastSequence ∨
      event.revision.value ≤ (s.stateOf event.paymentId).lastRevision
  · rw [if_pos hstale]
    have hold : event.sequence.value ≤ s.view.last event.paymentId := by
      change event.sequence.value ≤ (s.stateOf event.paymentId).lastSequence
      omega
    exact Or.inl ⟨fun _ hnext => by omega, _, rfl, .ignored (Or.inr (Or.inl hold))⟩
  rw [if_neg hstale]
  by_cases hlater : event.sequence.value > (s.stateOf event.paymentId).lastSequence + 1
  · rw [if_pos hlater]
    refine Or.inl ⟨fun _ hnext => ?_, hold_refines event _ s hlater⟩
    change event.sequence.value = (s.stateOf event.paymentId).lastSequence + 1 at hnext
    omega
  rw [if_neg hlater]
  have hnext : event.sequence.value = s.view.last event.paymentId + 1 := by
    change event.sequence.value = (s.stateOf event.paymentId).lastSequence + 1
    omega
  -- What is left is the event the payment is waiting for.
  rcases apply_then_drains event event.paymentId s (drain event.paymentId) hkeyed hnext
      (hnext ▸ hend) (fun t hkeyed' _ => drain_drains event.paymentId t hkeyed') with
    ⟨hok, t, u, happlied, hrun, hsteps, hend'⟩ | ⟨⟨c, hcompletes, hrefused⟩, e, u, hrun, hlast⟩
  · exact Or.inl ⟨fun _ _ => hok, u, hrun, .applied hdone hnext _ _ happlied hsteps hend'⟩
  · exact Or.inr ⟨fun h => hrefused (h hdone hnext c hcompletes), by omega, e, u, hrun, hlast⟩

/-- What one delivery does. It returns exactly when the ledger takes the
    completion it sets off, if it sets one off, and then it is one of the
    deliveries of the model. Otherwise the payment is left at the end of its
    workflow. -/
theorem receive_refines (event : PaymentEvent) (s : OrderedEventProcessor)
    (hkeyed : s.view.Keyed) (hend : s.view.Exhausted event.paymentId)
    (hrevision : (s.stateOf event.paymentId).lastRevision
      = (s.stateOf event.paymentId).lastSequence) :
    (s.view.Accepted event ∧ ∃ results t, (receive event).run s = .ok results t ∧
        s.view.Received event t.view) ∨
      (¬ s.view.Accepted event ∧ s.view.last event.paymentId < 4 ∧
        ∃ e t, (receive event).run s = .error e t ∧ t.view.last event.paymentId = 4) := by
  have hrun : (receive event).run s = (do
      dispatch event
      return (← get).results.drop s.results.length :
        Action OrderedEventProcessor (List EventProcessingResult)).run
      { s with
        eventsReceived := s.eventsReceived + 1
        states := s.states.setdefault event.paymentId PaymentOrderingState.new } := rfl
  have hview : ({ s with
      eventsReceived := s.eventsReceived + 1
      states := s.states.setdefault event.paymentId PaymentOrderingState.new } :
        OrderedEventProcessor).view = s.view := s.view_setdefault_states event.paymentId
  rw [hrun]
  -- A fresh state for a new payment is what the view shows anyway.
  generalize ({ s with
    eventsReceived := s.eventsReceived + 1
    states := s.states.setdefault event.paymentId PaymentOrderingState.new } :
      OrderedEventProcessor) = s' at hview ⊢
  have hstate : s'.stateOf event.paymentId = s.stateOf event.paymentId :=
    congrFun (congrArg OrderingView.states hview) event.paymentId
  rw [← hview] at hkeyed hend ⊢
  rw [← hstate] at hrevision
  rcases dispatch_refines event s' hkeyed hend hrevision with
    ⟨hok, t, hdispatch, hreceived⟩ | ⟨herror, hlt, e, t, hdispatch, hlast⟩
  · refine Or.inl ⟨hok, t.results.drop s.results.length, t, ?_, hreceived⟩
    rw [run_bind_of_ok hdispatch]
    rfl
  · exact Or.inr ⟨herror, hlt, e, t, run_bind_of_error hdispatch, hlast⟩

end OrderedEventProcessor

end BankSim
