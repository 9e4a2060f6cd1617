import BankSim.Theory.DeadLetters

/-!
# The Finality of Isolation

A payment that was isolated is never attempted again. Here works may do anything
with the processor that callers can do, and they may raise at any point. So there
is no account of what is left to do as in the other modules, only an invariant
that every piece of an attempt keeps on its own.

The calls of works are told apart by the number of the submission. `Sound` says
that a payment is called only when its script has run out, and isolated only if
it has a permanent reason or a message for its last attempt. These exclude each
other, whatever other payments share its identifier.

It is not final for the identifier. The closures look at the flag of their own
payment, and `submit` does not look at the dead-letter queue. So another payment
under the identifier of one that was isolated is processed like any other.

## Main definitions

* `PaymentQueue.Holds`: The closures in a queue and on its scheduler.
* `PaymentQueue.Persists`: What keeps an invariant when works raise.
* `DeadLetterProcessor.Sound`: The invariant.

## Theorems

* `PaymentQueue.Persists.runNext`: One event, whatever it raises.
* `DeadLetterProcessor.Sound.steps`: The invariant holds at any moment.
* `DeadLetterProcessor.isolation_final`: Isolated payments stay out of work.
* `DeadLetterProcessor.isolated_identifier_runs`: Their identifiers do not.
-/

namespace BankSim

open Exec PaymentQueue Places

/-! ### Closures that a queue holds -/

namespace PaymentQueue

variable {γ θ ξ σ : Type} [Attempting γ θ]

/-- The closure of an attempt that a callback carries. -/
def carriedBy : QueueCallback γ (RetryCallback θ ξ) → Option γ
  | .enqueue _ _ task => some task
  | .other (.retry timer) => some (closure timer)
  | .other (.other _) | .tick => none

/-- The closure is in the queue, or on its scheduler. -/
def Holds (self : AttemptQueue γ θ ξ) (task : γ) : Prop :=
  (∃ item ∈ self.waiting, item.work = task) ∨
    ∃ event ∈ self.scheduler.queue, carriedBy event.callback = some task

variable {self : AttemptQueue γ θ ξ} {task : γ}

theorem holds_scheduled {time : Int} {callback : QueueCallback γ (RetryCallback θ ξ)}
    (h : Holds { self with scheduler := self.scheduler.scheduled time callback } task) :
    Holds self task ∨ carriedBy callback = some task := by
  rcases h with hwaits | ⟨event, hmem, hcarried⟩
  · exact Or.inl (Or.inl hwaits)
  · rcases (EventScheduler.mem_scheduled_iff _ _ _ _).mp hmem with rfl | hold
    · exact Or.inr hcarried
    · exact Or.inl (Or.inr ⟨event, hold, hcarried⟩)

theorem holds_awoken (h : Holds (self.awoken .tick) task) : Holds self task := by
  rcases h with hwaits | ⟨event, hmem, hcarried⟩
  · rw [awoken_waiting] at hwaits
    exact Or.inl hwaits
  · refine Or.inr ⟨event, (passes_awoken self).mem hmem ?_, hcarried⟩
    cases hcallback : event.callback with
    | tick => rw [hcallback] at hcarried; cases hcarried
    | enqueue _ _ _ => rfl
    | other _ => rfl

theorem holds_arrived {paymentId : String} {paymentType : PaymentType} {work : γ}
    (h : Holds ((self.arrived paymentId paymentType work).awoken .tick) task) :
    Holds self task ∨ work = task := by
  rcases holds_awoken h with ⟨item, hmem, hwork⟩ | hevent
  · rcases List.mem_append.mp hmem with hold | hnew
    · exact Or.inl (Or.inl ⟨item, hold, hwork⟩)
    · rw [List.mem_singleton.mp hnew] at hwork
      exact Or.inr hwork
  · exact Or.inl (Or.inr hevent)

theorem holds_ready {event : Event _} {rest : List (Event _)}
    (hqueue : self.scheduler.queue = event :: rest) {scheduler : EventScheduler _}
    (hrest : scheduler.queue = rest) (h : Holds { self with scheduler } task) :
    Holds self task := by
  rcases h with hwaits | ⟨other, hmem, hcarried⟩
  · exact Or.inl hwaits
  · refine Or.inr ⟨other, ?_, hcarried⟩
    rw [hqueue]
    exact List.mem_cons_of_mem event (hrest ▸ hmem)

/-! ### Invariants that survive exceptions -/

/-- An invariant of a world with such a queue in it, and what is known of the
    closures that the queue holds. Works may raise. The invariant does not look at
    the queue except for the closures, and attempts and other callbacks keep it. -/
structure Persists (queue : Component σ (AttemptQueue γ θ ξ)) (attempt : γ → Action σ Unit)
    (other : RetryCallback θ ξ → Action σ Unit) (J : σ → Prop) (Good : σ → γ → Prop) : Prop where
  good : ∀ {s task}, J s → Holds (queue.get s) task → Good s task
  still : ∀ {s task} later, Good s task → Good (queue.set later s) task
  change : ∀ {s later}, J s → (∀ task, Holds later task → Good s task) → J (queue.set later s)
  attempt : ∀ {s task}, J s → Good s task → J (after (attempt task) s)
  other : ∀ {s callback}, J s → (∀ task, carriedBy (.other callback) = some task → Good s task) →
    J (after (other callback) s)

namespace Persists

variable {queue : Component σ (AttemptQueue γ θ ξ)} {attempt : γ → Action σ Unit}
  {other : RetryCallback θ ξ → Action σ Unit} {J : σ → Prop} {Good : σ → γ → Prop}
  (h : Persists queue attempt other J Good) {s : σ}

include h

/-- The queue may lose closures. -/
theorem requeue (hs : J s) {later : AttemptQueue γ θ ξ}
    (hholds : ∀ task, Holds later task → Holds (queue.get s) task) : J (queue.set later s) :=
  h.change hs fun task htask => h.good hs (hholds task htask)

theorem processItem (hs : J s) : J (after (QueueWorker.processItem queue attempt) s) := by
  cases hwaiting : (queue.get s).waiting with
  | nil =>
      -- There is nothing to take, which raises and changes nothing.
      rw [after_of_error (processItem_empty hwaiting)]
      exact hs
  | cons item waiting =>
      have htaken : (queue.get s).taken = some (item, { queue.get s with
          waiting
          events := (queue.get s).events ++ [⟨(queue.get s).scheduler.clock.time, .processing,
            item.paymentId, waiting.length⟩] }) := by
        unfold taken
        rw [hwaiting]
      have hgood : Good s item.work := by
        refine h.good hs (Or.inl ⟨item, ?_, rfl⟩)
        rw [hwaiting]
        exact List.mem_cons_self
      have hbegun : J (queue.set { queue.get s with
          waiting
          events := (queue.get s).events ++ [⟨(queue.get s).scheduler.clock.time, .processing,
            item.paymentId, waiting.length⟩] } s) := by
        refine h.requeue hs fun task hholds => ?_
        rcases hholds with ⟨other, hmem, hwork⟩ | hevent
        · refine Or.inl ⟨other, ?_, hwork⟩
          rw [hwaiting]
          exact List.mem_cons_of_mem item hmem
        · exact Or.inr hevent
      have hattempt := h.attempt hbegun (h.still _ hgood)
      have hround : (QueueWorker.processItem queue attempt).run s = _ := processItem_taken htaken
      -- The work returns or raises, and what follows it holds no closure.
      cases hrun : (attempt item.work).run (queue.set { queue.get s with
          waiting
          events := (queue.get s).events ++ [⟨(queue.get s).scheduler.clock.time, .processing,
            item.paymentId, waiting.length⟩] } s) with
      | error e t =>
          rw [hrun] at hround
          rw [after_of_error hround]
          rwa [after_of_error hrun] at hattempt
      | ok _ t =>
          rw [hrun] at hround
          rw [after_of_ok hrun] at hattempt
          rw [after_of_ok hround]
          exact h.requeue hattempt fun task hholds => hholds

theorem processItems (rounds : Nat) :
    ∀ {s}, J s → J (after (QueueWorker.processItems queue attempt rounds) s) := by
  induction rounds with
  | zero => exact fun {s} hs => hs
  | succ rounds ih =>
      intro s hs
      have hround := h.processItem hs
      unfold QueueWorker.processItems
      cases hrun : (QueueWorker.processItem queue attempt).run s with
      | error e t =>
          rw [after_bind_error hrun]
          rwa [after_of_error hrun] at hround
      | ok _ t =>
          rw [after_bind_ok hrun]
          rw [after_of_ok hrun] at hround
          exact ih hround

theorem processTick (hs : J s) :
    J (after (QueueWorker.processTick queue attempt .tick) s) := by
  have hkeeps : Within (Keeps J) (QueueWorker.processTick queue attempt .tick) := by
    refine within_bind (fun s hs => h.requeue hs fun task hholds => hholds) fun _ =>
      within_bind within_get fun self => within_bind (fun s hs => h.processItems _ hs) fun _ =>
        within_bind within_get fun self => ?_
    by_cases hwaits : ¬ (queue.get self).waiting.isEmpty
    · rw [if_pos hwaits]
      intro s hs
      rw [Component.after_zoom, after_of_ok (wake_run _ _)]
      exact h.requeue hs fun task hholds => holds_awoken hholds
    · rw [if_neg hwaits]
      exact within_pure _
  exact hkeeps s hs

/-- One event of the scheduler, whatever it raises. -/
theorem runNext (hs : J s) :
    J (after (EventScheduler.runNext (queue.comp schedulerOf)
      (QueueCallback.call queue attempt other)) s) := by
  rcases EventScheduler.after_runNext (queue.comp schedulerOf)
    (QueueCallback.call queue attempt other) s with
    ⟨-, hafter⟩ | ⟨event, rest, hqueue, -, hafter⟩ |
      ⟨event, rest, clock, history, hqueue, -, -, hafter⟩
  · rw [hafter]
    exact hs
  · -- The event was late, and it is dropped.
    rw [hafter]
    exact h.requeue hs fun task hholds => holds_ready hqueue rfl hholds
  · rw [hafter]
    refine h.requeue ?_ fun task hholds => hholds
    have hready : J ((queue.comp schedulerOf).set
        (((queue.comp schedulerOf).get s).ready clock rest) s) :=
      h.requeue hs fun task hholds => holds_ready hqueue rfl hholds
    have hgood : ∀ task, carriedBy event.callback = some task →
        Good ((queue.comp schedulerOf).set (((queue.comp schedulerOf).get s).ready clock rest) s)
          task := by
      intro task hcarried
      refine h.still _ (h.good hs (Or.inr ⟨event, ?_, hcarried⟩))
      change event ∈ ((queue.comp schedulerOf).get s).queue
      rw [hqueue]
      exact List.mem_cons_self
    cases hcallback : event.callback with
    | tick => exact h.processTick hready
    | enqueue paymentId paymentType work =>
        rw [hcallback] at hgood
        rw [QueueCallback.call, after_discard, Component.after_zoom]
        cases hid : isBlank paymentId with
        | true =>
            rw [after_of_error (enqueue_of_blank _ hid paymentType work _), queue.set_get]
            exact hready
        | false =>
            rw [after_of_ok (enqueue_of_nonblank _ hid paymentType work _)]
            refine h.change hready fun task hholds => ?_
            rcases holds_arrived hholds with hold | rfl
            · exact h.good hready hold
            · exact hgood _ rfl
    | other callback =>
        rw [hcallback] at hgood
        exact h.other hready hgood

end Persists

end PaymentQueue

/-! ### Numbered submissions -/

/-- The submission with its number next to its work, so that calls of works tell
    what submission they belong to. -/
def DeadLetterRow.numbered {κ : Type} (row : DeadLetterRow κ) (number : Nat) :
    DeadLetterRow (κ × Nat) where
  paymentId := row.paymentId
  requestId := row.requestId
  work := (row.work, number)
  failures := row.failures
  permanentReason := row.permanentReason
  originalState := row.originalState
  diagnostic := row.diagnostic

namespace DeadLetterProcessor

variable {κ ξ σ : Type}

/-- A submission, numbered by the place of its payment. -/
def submitNumbered (row : DeadLetterRow κ) : Action (DeadLetterProcessor (κ × Nat) ξ) Unit := do
  let self ← get
  submitRow (row.numbered self.payments.length)

/-- A processor under observation that numbers its submissions. -/
abbrev Numbered (κ ξ : Type) :=
  Watched (DeadLetterProcessor (κ × Nat) ξ) (DeadLetterRow κ) (κ × Nat)

/-- The closure belongs to the submission with its number. -/
def Belongs (submitted : List (DeadLetterRow κ)) (task : DeadLetterWork (κ × Nat)) : Prop :=
  ∃ row, submitted[task.payment]? = some row ∧
    task = (row.numbered task.payment).closureAt task.payment

theorem Belongs.mono {submitted later : List (DeadLetterRow κ)} {task : DeadLetterWork (κ × Nat)}
    (h : Belongs submitted task) (hextends : submitted <+: later) : Belongs later task := by
  rcases h with ⟨row, hrow, htask⟩
  rcases hextends with ⟨more, rfl⟩
  exact ⟨row, getElem?_append_of_some hrow _, htask⟩

/-- A payment that was isolated had a permanent reason, or a message for its last
    attempt. -/
def Condemned (row : DeadLetterRow κ) (payment : DeadLetterPayment) : Prop :=
  row.permanentReason ≠ none ∨ payment.attempts ≤ row.failures.length

/-- What holds at any moment of any run, where some payments were isolated long
    ago: isolated payments are condemned, and those whose works were called are
    not. -/
structure Sound (initial : List DeadLetterEntry) (marked : Nat → String → Prop)
    (watched : Numbered κ ξ) :
    Prop where
  length : watched.engine.payments.length = watched.submitted.length
  visible : ∀ row ∈ watched.submitted, isBlank row.paymentId = false
  payments : ∀ (i : Nat) (payment : DeadLetterPayment) (row : DeadLetterRow κ),
    watched.engine.payments[i]? = some payment → watched.submitted[i]? = some row →
      payment.paymentId = row.paymentId ∧
      (payment.isolated = true → Condemned row payment)
  invoked : ∀ call ∈ watched.invoked, ∃ row payment, watched.submitted[call.1.2]? = some row ∧
    watched.engine.payments[call.1.2]? = some payment ∧ ¬ Condemned row payment
  holds : ∀ task, Holds watched.engine.queue task → Belongs watched.submitted task
  entries : ∀ entry ∈ watched.engine.deadLetters.entries, entry ∈ initial ∨
    ∃ (i : Nat) (payment : DeadLetterPayment), watched.engine.payments[i]? = some payment ∧
      payment.isolated = true ∧ payment.paymentId = entry.paymentId
  marked : ∀ i paymentId, marked i paymentId → ∃ payment,
    watched.engine.payments[i]? = some payment ∧ payment.isolated = true ∧
      payment.paymentId = paymentId

section Sound

variable {initial : List DeadLetterEntry} {marked : Nat → String → Prop} {self : Numbered κ ξ}
  {task : DeadLetterWork (κ × Nat)}

/-- The payment may have made more attempts, and it may have been isolated. -/
def Follows (payment later : DeadLetterPayment) : Prop :=
  later.paymentId = payment.paymentId ∧ payment.attempts ≤ later.attempts ∧
    (payment.isolated = true → later.isolated = true)

theorem Follows.refl {payment : DeadLetterPayment} : Follows payment payment :=
  ⟨rfl, le_refl _, id⟩

/-- A payment that is not condemned is not condemned later. -/
theorem Follows.not_condemned {row : DeadLetterRow κ} {payment later : DeadLetterPayment}
    (h : Follows payment later) (hnot : ¬ Condemned row payment) : ¬ Condemned row later := by
  unfold Condemned at *
  have := h.2.1
  rw [not_or] at hnot ⊢
  exact ⟨hnot.1, by omega⟩

/-- One payment changes, and it is condemned if it is isolated. -/
theorem Sound.change (h : Sound initial marked self) {i : Nat} {payment : DeadLetterPayment}
    {row : DeadLetterRow κ} (hpayment : self.engine.payments[i]? = some payment)
    (hrow : self.submitted[i]? = some row) {engine : DeadLetterProcessor (κ × Nat) ξ}
    {change : DeadLetterPayment → DeadLetterPayment}
    (hpayments : engine.payments = self.engine.payments.modify i change)
    (hfollows : Follows payment (change payment))
    (hcondemned : (change payment).isolated = true → Condemned row (change payment))
    (hholds : ∀ task, Holds engine.queue task → Belongs self.submitted task)
    (hentries : ∀ entry ∈ engine.deadLetters.entries, entry ∈ self.engine.deadLetters.entries ∨
      ((change payment).isolated = true ∧ entry.paymentId = payment.paymentId)) :
    Sound initial marked { self with engine } := by
  have hsame : engine.payments[i]? = some (change payment) := by
    rw [hpayments, List.getElem?_modify_eq, hpayment]
    rfl
  have hother : ∀ j : Nat, j ≠ i → engine.payments[j]? = self.engine.payments[j]? := by
    intro j hj
    rw [hpayments, List.getElem?_modify_ne _ _ (Ne.symm hj)]
  -- What is known of a payment is known of the one it has become.
  have hlater : ∀ (j : Nat) (payment : DeadLetterPayment),
      self.engine.payments[j]? = some payment →
        ∃ later, engine.payments[j]? = some later ∧ Follows payment later := by
    intro j other hfound
    by_cases hj : j = i
    · subst hj
      cases hpayment.symm.trans hfound
      exact ⟨_, hsame, hfollows⟩
    · exact ⟨other, (hother j hj).trans hfound, .refl⟩
  refine ⟨?_, h.visible, fun j later other hfound hother' => ?_, fun call hmem => ?_, hholds,
    fun entry hmem => ?_, fun j paymentId hj => ?_⟩
  · rw [hpayments, List.length_modify]
    exact h.length
  · by_cases hj : j = i
    · subst hj
      cases hsame.symm.trans hfound
      cases hrow.symm.trans hother'
      exact ⟨hfollows.1.trans (h.payments j payment row hpayment hrow).1, hcondemned⟩
    · exact h.payments j later other ((hother j hj).symm.trans hfound) hother'
  · rcases h.invoked call hmem with ⟨other, before, hother', hbefore, hnot⟩
    rcases hlater _ before hbefore with ⟨later, hfound, hfollow⟩
    exact ⟨other, later, hother', hfound, hfollow.not_condemned hnot⟩
  · rcases hentries entry hmem with hold | ⟨hisolated, hid⟩
    · rcases h.entries entry hold with hfirst | ⟨j, before, hbefore, hisolated, hid⟩
      · exact Or.inl hfirst
      · rcases hlater j before hbefore with ⟨later, hfound, hfollow⟩
        exact Or.inr ⟨j, later, hfound, hfollow.2.2 hisolated, hfollow.1.trans hid⟩
    · exact Or.inr ⟨i, _, hsame, hisolated, hfollows.1.trans hid.symm⟩
  · rcases h.marked j paymentId hj with ⟨before, hbefore, hisolated, hid⟩
    rcases hlater j before hbefore with ⟨later, hfound, hfollow⟩
    exact ⟨later, hfound, hfollow.2.2 hisolated, hfollow.1.trans hid⟩

/-- Nothing changes but the queue, and what it holds belongs to submissions. -/
theorem Sound.requeue (h : Sound initial marked self) {engine : DeadLetterProcessor (κ × Nat) ξ}
    (hpayments : engine.payments = self.engine.payments)
    (hletters : engine.deadLetters = self.engine.deadLetters)
    (hholds : ∀ task, Holds engine.queue task → Belongs self.submitted task) :
    Sound initial marked { self with engine } where
  length := by rw [hpayments]; exact h.length
  visible := h.visible
  payments := by rw [hpayments]; exact h.payments
  invoked := by rw [hpayments]; exact h.invoked
  holds := hholds
  entries := by rw [hletters, hpayments]; exact h.entries
  marked := by rw [hpayments]; exact h.marked

/-- The payment and the submission of a closure. -/
theorem Sound.find (h : Sound initial marked self) (hbelongs : Belongs self.submitted task) :
    ∃ row payment, self.submitted[task.payment]? = some row ∧
      self.engine.payments[task.payment]? = some payment ∧ payment.paymentId = row.paymentId ∧
      isBlank payment.paymentId = false ∧
      task = (row.numbered task.payment).closureAt task.payment := by
  rcases hbelongs with ⟨row, hrow, htask⟩
  have hlt : task.payment < self.engine.payments.length := by
    rw [h.length]
    exact (List.getElem?_eq_some_iff.mp hrow).1
  have hpayment := List.getElem?_eq_getElem hlt
  have hid := (h.payments _ _ row hpayment hrow).1
  refine ⟨row, _, hrow, hpayment, hid, ?_, htask⟩
  rw [hid]
  exact h.visible row (List.mem_of_getElem? hrow)

/-- The attempt at hand has begun. -/
theorem Sound.begun (h : Sound initial marked self) {row : DeadLetterRow κ}
    {payment : DeadLetterPayment} (hrow : self.submitted[task.payment]? = some row)
    (hpayment : self.engine.payments[task.payment]? = some payment)
    (hopen : payment.isolated = false) :
    Sound initial marked { self with engine := self.engine.begun task.payment } := by
  refine h.change hpayment hrow rfl ⟨rfl, Nat.le_succ _, id⟩ (fun hisolated => ?_) h.holds
    fun entry hmem => Or.inl hmem
  rw [show payment.isolated = true from hisolated] at hopen
  cases hopen

/-- A payment that is condemned may be isolated. -/
theorem Sound.isolate (h : Sound initial marked self) {i : Nat} {row : DeadLetterRow κ}
    {payment : DeadLetterPayment} (hrow : self.submitted[i]? = some row)
    (hpayment : self.engine.payments[i]? = some payment) (hcondemned : Condemned row payment)
    (reason : DeadLetterReason) (diagnostic : String) :
    ∃ engine, (isolate i reason diagnostic).run self.engine = .ok () engine ∧
      Sound initial marked { self with engine } := by
  by_cases hknown : payment.paymentId ∈ self.engine.deadLetters.paymentIds
  · exact ⟨_, isolate_known hpayment reason diagnostic hknown, h⟩
  · refine ⟨_, isolate_new hpayment reason diagnostic hknown, ?_⟩
    refine h.change hpayment hrow rfl ⟨rfl, le_refl _, fun _ => rfl⟩ (fun _ => hcondemned) h.holds
      fun entry hmem => ?_
    have hentries := (@DeadLetterQueue.isolate_new self.engine.deadLetters
      (self.engine.entryOf payment reason diagnostic) hknown).2
    change entry ∈ (self.engine.deadLetters.isolated _).entries at hmem
    rw [hentries] at hmem
    rcases List.mem_append.mp hmem with hold | hnew
    · exact Or.inl hold
    · rw [List.mem_singleton.mp hnew]
      exact Or.inr ⟨rfl, rfl⟩

/-- An attempt that has failed with a message of the script is followed by another
    one, or the payment is condemned and isolated. -/
theorem Sound.fail (h : Sound initial marked self) (hbelongs : Belongs self.submitted task)
    {row : DeadLetterRow κ} {payment : DeadLetterPayment}
    (hrow : self.submitted[task.payment]? = some row)
    (hpayment : self.engine.payments[task.payment]? = some payment)
    (hisolated : payment.isolated = false) (hfailed : payment.attempts ≤ row.failures.length)
    (message : String) :
    ∃ engine, (fail task payment message).run self.engine = .ok () engine ∧
      Sound initial marked { self with engine } := by
  by_cases hretries : payment.retryCount < self.engine.maximumRetries
  · refine ⟨_, fail_again self.engine task payment message hretries, ?_⟩
    refine h.change hpayment hrow rfl ⟨rfl, le_refl _, id⟩ (fun hnow => ?_)
      (fun other hholds => ?_) fun entry hmem => Or.inl hmem
    · rw [show payment.isolated = true from hnow] at hisolated
      cases hisolated
    · rcases holds_scheduled hholds with hold | hnew
      · exact h.holds other hold
      · cases hnew
        exact hbelongs
  · -- There are no retries left.
    rcases h.isolate hrow hpayment (Or.inr hfailed) .retryLimitExceeded message with
      ⟨engine, hisolate, hsound⟩
    exact ⟨engine,
      (fail_last self.engine task payment message (not_lt.mp hretries)).trans hisolate, hsound⟩

/-- An attempt up to the call of the work returns. If it comes to the call, the
    payment is not condemned. -/
theorem Sound.tryAttempt (h : Sound initial marked self) (hbelongs : Belongs self.submitted task) :
    ∃ calls engine, (tryAttempt task).run self.engine = .ok calls engine ∧
      Sound initial marked { self with engine } ∧
      (calls = true → ∃ row payment, self.submitted[task.payment]? = some row ∧
        engine.payments[task.payment]? = some payment ∧ ¬ Condemned row payment) := by
  rcases h.find hbelongs with ⟨row, payment, hrow, hpayment, -, -, htask⟩
  by_cases hopen : (payment.isolated || payment.completed) = false
  · have hrun := tryAttempt_run hpayment hopen
    have hisolated : payment.isolated = false := (Bool.or_eq_false_iff.mp hopen).1
    have hbegun := h.begun hrow hpayment hisolated
    have hpayment' := begun_payment hpayment
    have hreason : task.permanentReason = row.permanentReason := by rw [htask]; rfl
    have hfailures : task.failures = row.failures := by rw [htask]; rfl
    cases hpermanent : task.permanentReason with
    | some reason =>
        -- There is a permanent reason.
        rw [hpermanent] at hrun hreason
        rcases hbegun.isolate hrow hpayment' (Or.inl (by rw [← hreason]; simp)) reason
          (diagnosticOr task.diagnostic reason) with ⟨engine, hisolate, hsound⟩
        exact ⟨false, engine, hrun.trans (run_bind_of_ok hisolate), hsound,
          fun hcalls => nomatch hcalls⟩
    | none =>
        rw [hpermanent] at hrun hreason
        simp only at hrun
        cases hmessage : task.failures[payment.attempts]? with
        | some message =>
            rw [hmessage] at hrun
            simp only at hrun
            have hlt : payment.attempts < row.failures.length := by
              rw [← hfailures]
              exact (List.getElem?_eq_some_iff.mp hmessage).1
            rcases hbegun.fail hbelongs hrow hpayment' hisolated hlt message with
              ⟨engine, hfail, hsound⟩
            exact ⟨false, engine, hrun.trans (run_bind_of_ok hfail), hsound,
              fun hcalls => nomatch hcalls⟩
        | none =>
            -- The script has run out, and the work is to be called.
            rw [hmessage] at hrun
            have hle : row.failures.length ≤ payment.attempts := by
              rw [← hfailures]
              exact List.getElem?_eq_none_iff.mp hmessage
            refine ⟨true, _, hrun, hbegun, fun _ => ⟨row, _, hrow, hpayment', ?_⟩⟩
            rintro (hpermanent' | hattempts)
            · exact hpermanent' hreason.symm
            · change payment.attempts + 1 ≤ _ at hattempts
              omega
  · -- The payment is done with, and nothing happens.
    refine ⟨false, self.engine, ?_, h, fun hcalls => nomatch hcalls⟩
    unfold DeadLetterProcessor.tryAttempt
    rw [run_bind_get, run_bind_lift_ok (payment_eq hpayment),
      if_pos (Bool.not_eq_false _ ▸ hopen)]
    rfl

/-- A payment whose work returned is completed. -/
theorem Sound.succeed (h : Sound initial marked self) (hbelongs : Belongs self.submitted task) :
    ∃ engine, (succeed task).run self.engine = .ok () engine ∧
      Sound initial marked { self with engine } := by
  rcases h.find hbelongs with ⟨row, payment, hrow, hpayment, -, -, -⟩
  refine ⟨_, succeed_run hpayment, h.change hpayment hrow rfl ⟨rfl, le_refl _, id⟩ ?_ h.holds
    fun entry hmem => Or.inl hmem⟩
  exact (h.payments _ payment row hpayment hrow).2

/-- A timer puts the next attempt into the queue, unless the payment is done with. -/
theorem Sound.retry (h : Sound initial marked self) (hbelongs : Belongs self.submitted task) :
    ∃ engine, (retry task).run self.engine = .ok () engine ∧
      Sound initial marked { self with engine } := by
  rcases h.find hbelongs with ⟨row, payment, -, hpayment, -, hid, -⟩
  by_cases hopen : (payment.isolated || payment.completed) = false
  · refine ⟨_, retry_run hpayment hopen hid, h.requeue rfl rfl fun other hholds => ?_⟩
    rcases holds_arrived hholds with hold | rfl
    · exact h.holds other hold
    · exact hbelongs
  · refine ⟨{ self.engine with pendingRetries := self.engine.pendingRetries - 1 }, ?_,
      h.requeue rfl rfl h.holds⟩
    have hfound : ({ self.engine with pendingRetries := self.engine.pendingRetries - 1 } :
        DeadLetterProcessor (κ × Nat) ξ).payment task.payment = .ok payment := payment_eq hpayment
    unfold DeadLetterProcessor.retry enqueueAttempt
    rw [run_bind_modify, run_bind_get]
    refine (run_bind_lift_ok hfound).trans ?_
    rw [if_pos (Bool.not_eq_false _ ▸ hopen)]
    rfl

/-- The call of a work is recorded. -/
theorem Sound.calling (h : Sound initial marked self) {row : DeadLetterRow κ}
    {payment : DeadLetterPayment} {work : κ × Nat} (hrow : self.submitted[work.2]? = some row)
    (hpayment : self.engine.payments[work.2]? = some payment) (hnot : ¬ Condemned row payment) :
    Sound initial marked (self.calling queueOf work) :=
  { h with
    invoked := fun call hmem => by
      rcases List.mem_append.mp hmem with hold | hnew
      · exact h.invoked call hold
      · rw [List.mem_singleton.mp hnew]
        exact ⟨row, payment, hrow, hpayment, hnot⟩ }

theorem submitNumbered_run (row : DeadLetterRow κ) (self : DeadLetterProcessor (κ × Nat) ξ) :
    (submitNumbered row).run self
      = (submitRow (row.numbered self.payments.length)).run self := by
  unfold submitNumbered
  rw [run_bind_get]

theorem atomic_submitNumbered (row : DeadLetterRow κ) (self : DeadLetterProcessor (κ × Nat) ξ) :
    Atomic (submitNumbered row) self := by
  intro e t herror
  rw [submitNumbered_run] at herror
  rcases submitRow_run (row.numbered self.payments.length) self with ⟨-, hrun⟩ | ⟨-, e', hrun⟩
  · rw [hrun] at herror
    cases herror
  · rw [hrun] at herror
    cases herror
    rfl

/-- A submission is accepted. -/
theorem Sound.accept (h : Sound initial marked self) (row : DeadLetterRow κ)
    (hvisible : isBlank row.paymentId = false) :
    Sound initial marked { self with
      engine := self.engine.admitted (row.numbered self.engine.payments.length)
      submitted := self.submitted ++ [row] } := by
  have hold : ∀ (i : Nat) (payment : DeadLetterPayment), self.engine.payments[i]? = some payment →
      (self.engine.admitted (row.numbered self.engine.payments.length)).payments[i]?
        = some payment := fun i payment hpayment => getElem?_append_of_some hpayment _
  have hextends : self.submitted <+: self.submitted ++ [row] := List.prefix_append _ _
  refine ⟨?_, List.forall_mem_append.mpr ⟨h.visible, List.forall_mem_singleton.mpr hvisible⟩,
    fun i payment other hpayment hother => ?_, fun call hmem => ?_, fun task hholds => ?_,
    fun entry hmem => ?_, fun i paymentId hi => ?_⟩
  · change (self.engine.payments ++ [_]).length = (self.submitted ++ [row]).length
    rw [List.length_append, List.length_append, h.length]
    rfl
  · change (self.engine.payments ++ [_])[i]? = some payment at hpayment
    rw [getElem?_snoc] at hpayment hother
    rw [h.length] at hpayment
    by_cases hi : i = self.submitted.length
    · rw [if_pos hi] at hpayment hother
      cases hpayment
      cases hother
      exact ⟨rfl, fun hisolated => nomatch hisolated⟩
    · rw [if_neg hi] at hpayment hother
      exact h.payments i payment other hpayment hother
  · rcases h.invoked call hmem with ⟨other, payment, hother, hpayment, hnot⟩
    exact ⟨other, payment, getElem?_append_of_some hother _, hold _ payment hpayment, hnot⟩
  · rcases holds_arrived hholds with hmem | rfl
    · exact (h.holds task hmem).mono hextends
    · refine ⟨row, ?_, rfl⟩
      change (self.submitted ++ [row])[self.engine.payments.length]? = some row
      rw [h.length]
      exact List.getElem?_concat_length
  · rcases h.entries entry hmem with hfirst | ⟨i, payment, hpayment, hisolated, hid⟩
    · exact Or.inl hfirst
    · exact Or.inr ⟨i, payment, hold i payment hpayment, hisolated, hid⟩
  · rcases h.marked i paymentId hi with ⟨payment, hpayment, hisolated⟩
    exact ⟨payment, hold i payment hpayment, hisolated⟩

/-- Whatever is done with a processor. -/
theorem Sound.use (h : Sound initial marked self) (how : Watched.Use (DeadLetterRow κ) ξ) :
    Sound initial marked (after (Watched.exec submitNumbered queueOf how) self) ∧
      self.submitted <+: (after (Watched.exec submitNumbered queueOf how) self).submitted := by
  rcases @Watched.exec_cases _ _ _ _ _ _ submitNumbered queueOf self
    (fun row => atomic_submitNumbered row self.engine) how with
    hsame | ⟨time, callback, -, hafter⟩ | ⟨row, engine, -, hrun, hafter⟩ | ⟨-, clock, hafter⟩
  · rw [hsame]
    exact ⟨h, List.prefix_rfl⟩
  · rw [hafter]
    refine ⟨h.requeue rfl rfl fun task hholds => ?_, List.prefix_rfl⟩
    rcases holds_scheduled hholds with hold | hnew
    · exact h.holds task hold
    · cases hnew
  · rw [hafter]
    rw [submitNumbered_run] at hrun
    rcases submitRow_run (row.numbered self.engine.payments.length) self.engine with
      ⟨haccepted, haccept⟩ | ⟨-, e, hrefuse⟩
    · cases haccept.symm.trans hrun
      exact ⟨h.accept row (DeadLetterRow.visible _ haccepted), List.prefix_append _ _⟩
    · rw [hrefuse] at hrun
      cases hrun
  · rw [hafter]
    exact ⟨h.requeue rfl rfl fun task hholds => h.holds task hholds, List.prefix_rfl⟩

end Sound

section Runs

variable {watched : Component σ (Numbered κ ξ)} {program : κ × Nat → Action σ Unit}
  {other : ξ → Action σ Unit} {initial : List DeadLetterEntry} {marked : Nat → String → Prop}

/-- A program that only uses the processor, whether it returns or raises. -/
theorem Sound.run {m : Action σ Unit}
    (hm : OnlyMakes watched (Watched.exec submitNumbered queueOf) (fun _ => True) m) {s : σ}
    (hs : Sound initial marked (watched.get s)) :
    Sound initial marked (watched.get (after m s)) ∧
      (watched.get s).submitted <+: (watched.get (after m s)).submitted :=
  hm.keeps (I := fun self => Sound initial marked self ∧
      (watched.get s).submitted <+: self.submitted)
    (fun _ how ⟨hself, hextends⟩ _ =>
      ⟨(hself.use how).1, hextends.trans (hself.use how).2⟩) ⟨hs, List.prefix_rfl⟩

variable (hprogram : ∀ work, OnlyMakes watched (Watched.exec submitNumbered queueOf)
    (fun _ => True) (program work))
  (hother : ∀ callback, OnlyMakes watched (Watched.exec submitNumbered queueOf)
    (fun _ => True) (other callback))

include hprogram

theorem Sound.attempt {s : σ} {task : DeadLetterWork (κ × Nat)}
    (hs : Sound initial marked (watched.get s))
    (hbelongs : Belongs (watched.get s).submitted task) :
    Sound initial marked (watched.get (after (attempt (watched.comp Watched.engineOf)
      (Watched.perform queueOf watched program) task) s)) := by
  rcases hs.tryAttempt hbelongs with ⟨calls, engine, htry, hsound, hcalls⟩
  have hrun := Component.zoom_run_ok (p := watched.comp Watched.engineOf) htry
  unfold DeadLetterProcessor.attempt
  rw [after_bind_ok hrun]
  cases calls with
  | false =>
      rw [if_neg Bool.false_ne_true]
      change Sound initial marked (watched.get (watched.set { watched.get s with engine } s))
      rw [watched.get_set]
      exact hsound
  | true =>
      rw [if_pos rfl]
      rcases hcalls rfl with ⟨row, payment, hrow, hpayment, hnot⟩
      have hwork : task.work.2 = task.payment := by
        rcases hbelongs with ⟨_, _, htask⟩
        rw [htask]
        rfl
      rw [← hwork] at hrow hpayment
      have hcalled := hsound.calling hrow hpayment hnot
      -- The work is called on the processor that has recorded the call.
      have hcall : (watched.zoom (modify fun self => self.calling queueOf task.work) :
          Action σ Unit).run (watched.set { watched.get s with engine } s) = .ok ()
            (watched.set ({ watched.get s with engine }.calling queueOf task.work) s) := by
        rw [watched.zoom_modify_run, watched.get_set, watched.set_set]
      have hbegins : Sound initial marked (watched.get (watched.set
          ({ watched.get s with engine }.calling queueOf task.work) s)) := by
        rw [watched.get_set]
        exact hcalled
      rcases hbegins.run (hprogram task.work) with ⟨hworked, hextends⟩
      rw [watched.get_set] at hextends
      change Sound initial marked (watched.get (after (do
        Watched.perform queueOf watched program task.work
        (watched.comp Watched.engineOf).zoom (DeadLetterProcessor.succeed task) : Action σ Unit)
        (watched.set { watched.get s with engine } s)))
      unfold Watched.perform
      rw [bind_assoc, after_bind_ok hcall]
      cases hwork : (program task.work).run
          (watched.set ({ watched.get s with engine }.calling queueOf task.work) s) with
      | error e t =>
          rw [after_bind_error hwork]
          rwa [after_of_error hwork] at hworked
      | ok _ t =>
          rw [after_of_ok hwork] at hworked hextends
          rw [after_bind_ok hwork, Component.after_zoom]
          rcases hworked.succeed (hbelongs.mono hextends) with ⟨engine', hsucceed, hdone⟩
          change Sound initial marked (watched.get (watched.set
            { watched.get t with
              engine := after (DeadLetterProcessor.succeed task) (watched.get t).engine } t))
          rw [watched.get_set, after_of_ok hsucceed]
          exact hdone

include hother

/-- What is sound persists, whatever the works raise. -/
theorem persists : Persists (watched.comp (Watched.engineOf.comp queueOf))
    (attempt (watched.comp Watched.engineOf) (Watched.perform queueOf watched program))
    (RetryCallback.call (fun task => (watched.comp Watched.engineOf).zoom (retry task)) other)
    (fun s => Sound initial marked (watched.get s))
    (fun s task => Belongs (watched.get s).submitted task) where
  good hs hholds := hs.holds _ hholds
  still := by
    intro s task later hbelongs
    rw [watched.get_comp_set]
    exact hbelongs
  change := by
    intro s later hs hholds
    rw [watched.get_comp_set]
    exact hs.requeue rfl rfl hholds
  attempt hs hbelongs := hs.attempt hprogram hbelongs
  other := by
    rintro s callback hs hgood
    cases callback with
    | retry task =>
        rcases hs.retry (hgood task rfl) with ⟨engine, hrun, hsound⟩
        change Sound initial marked (watched.get (after ((watched.comp Watched.engineOf).zoom
          (retry task)) s))
        rw [Component.after_zoom]
        change Sound initial marked (watched.get (watched.set
          { watched.get s with engine := after (retry task) (watched.get s).engine } s))
        rw [watched.get_set, after_of_ok hrun]
        exact hsound
    | other callback => exact (hs.run (hother callback)).1

/-- Any run, with the exceptions caught. -/
theorem Sound.steps {s : σ} (hs : Sound initial marked (watched.get s))
    (steps : List (Watched.Step (DeadLetterRow κ) ξ)) :
    Sound initial marked (watched.get (finalState (Watched.Step.exec submitNumbered queueOf watched
      (call (watched.comp Watched.engineOf) (Watched.perform queueOf watched program) other))
      s steps)) := by
  refine invariant_finalState (I := fun s => Sound initial marked (watched.get s))
    (fun s step hs => ?_) hs steps
  cases step with
  | use how =>
      rw [Watched.Step.exec, Component.after_zoom, watched.get_set]
      exact (hs.use how).1
  | runNext =>
      rw [Watched.Step.exec, after_discard]
      exact (persists hprogram hother).runNext hs

end Runs

/-! ### Isolation is final -/

section Final

variable (watched : Component σ (Numbered κ ξ)) (program : κ × Nat → Action σ Unit)
  (other : ξ → Action σ Unit)

/-- The processor under observation after some steps. -/
def ran (s : σ) (steps : List (Watched.Step (DeadLetterRow κ) ξ)) : Numbered κ ξ :=
  watched.get (finalState (Watched.Step.exec submitNumbered queueOf watched
    (call (watched.comp Watched.engineOf) (Watched.perform queueOf watched program) other)) s steps)

variable {watched program other}

/-- A fresh processor is sound. -/
theorem sound_new (limit : Nat) {retryDelay : Int} (hdelay : 0 < retryDelay)
    (deadLetters : DeadLetterQueue) (clock : VirtualClock) {capacity : Int}
    {queue : AttemptQueue (DeadLetterWork (κ × Nat)) (DeadLetterWork (κ × Nat)) ξ}
    (hnew : PaymentQueue.new (EventScheduler.new clock) capacity = .ok queue) :
    Sound deadLetters.entries (fun _ _ => False)
      (Watched.new ⟨queue, deadLetters, limit, retryDelay, [], [], 0, hdelay⟩ : Numbered κ ξ) where
  length := rfl
  visible row hmem := absurd hmem List.not_mem_nil
  payments i payment row hpayment := nomatch hpayment
  invoked call hmem := absurd hmem List.not_mem_nil
  holds task hholds := by
    rcases PaymentQueue.new_ok hnew with ⟨worker, -, rfl⟩
    rcases hholds with ⟨item, hmem, -⟩ | ⟨event, hmem, -⟩
    · exact absurd hmem List.not_mem_nil
    · exact absurd hmem List.not_mem_nil
  entries entry hmem := Or.inl hmem
  marked i paymentId hi := hi.elim

/-- What is isolated at some moment may be marked from then on. -/
theorem Sound.mark {initial : List DeadLetterEntry} {self : Numbered κ ξ}
    (h : Sound initial (fun _ _ => False) self) :
    Sound initial (fun i paymentId => ∃ payment, self.engine.payments[i]? = some payment ∧
      payment.isolated = true ∧ payment.paymentId = paymentId) self :=
  { h with marked := fun _ _ hi => hi }

/-- The work of a payment that is isolated was not called. -/
theorem Sound.not_invoked {initial : List DeadLetterEntry} {marked : Nat → String → Prop}
    {self : Numbered κ ξ} (h : Sound initial marked self) {i : Nat} {paymentId : String}
    (hi : marked i paymentId) : ∀ call ∈ self.invoked, call.1.2 ≠ i := by
  rintro call hmem rfl
  rcases h.invoked call hmem with ⟨row, payment, hrow, hpayment, hnot⟩
  rcases h.marked _ _ hi with ⟨same, hsame, hisolated, -⟩
  cases hpayment.symm.trans hsame
  exact hnot ((h.payments _ payment row hpayment hrow).2 hisolated)

variable (watched program other) in
/-- Isolation is final for the submission that was isolated. Any steps, with works
    that may raise and that may submit more. Once a payment is isolated, its work is
    never called, and it was not called before. An entry that was not there at first
    is that of an isolated payment. Once an identifier has an entry, and if there is
    only one submission under it, no work that was submitted under it is called. -/
theorem isolation_final
    (hprogram : ∀ work, OnlyMakes watched (Watched.exec submitNumbered queueOf) (fun _ => True)
      (program work))
    (hother : ∀ callback, OnlyMakes watched (Watched.exec submitNumbered queueOf) (fun _ => True)
      (other callback))
    (clock : VirtualClock) (capacity : Int)
    (queue : AttemptQueue (DeadLetterWork (κ × Nat)) (DeadLetterWork (κ × Nat)) ξ)
    (hnew : PaymentQueue.new (EventScheduler.new clock) capacity = .ok queue)
    (deadLetters : DeadLetterQueue) (maximumRetries retryDelay : Int)
    (engine : DeadLetterProcessor (κ × Nat) ξ)
    (hengine : new queue deadLetters maximumRetries retryDelay = .ok engine) (s : σ)
    (hs : watched.get s = Watched.new engine)
    (steps later : List (Watched.Step (DeadLetterRow κ) ξ)) :
    let before := ran watched program other s steps
    let self := ran watched program other s (steps ++ later)
    (∀ i payment, before.engine.payments[i]? = some payment → payment.isolated = true →
      ∀ call ∈ self.invoked, call.1.2 ≠ i) ∧
    (∀ call ∈ self.invoked, ∃ row, self.submitted[call.1.2]? = some row) ∧
    (∀ entry ∈ before.engine.deadLetters.entries, entry ∈ deadLetters.entries ∨
      ∃ payment ∈ before.engine.payments, payment.isolated = true ∧
        payment.paymentId = entry.paymentId) ∧
    ∀ entry ∈ before.engine.deadLetters.entries, entry ∉ deadLetters.entries →
      ¬ List.Duplicate entry.paymentId (self.submitted.map (·.paymentId)) →
      ∀ call ∈ self.invoked, ∀ row, self.submitted[call.1.2]? = some row →
        row.paymentId ≠ entry.paymentId := by
  intro before self
  rcases DeadLetterProcessor.new_ok hengine with ⟨limit, hdelay, rfl, -⟩
  have hstart : Sound deadLetters.entries (fun _ _ => False) (watched.get s) := by
    rw [hs]
    exact sound_new limit hdelay deadLetters clock hnew
  have hbefore : Sound deadLetters.entries (fun _ _ => False) before :=
    hstart.steps hprogram hother steps
  -- Those that are isolated now are marked for the rest of the run.
  have hself := hbefore.mark.steps hprogram hother later
  rw [← finalState_append] at hself
  change Sound _ _ self at hself
  refine ⟨fun i payment hpayment hisolated => hself.not_invoked
    ⟨payment, hpayment, hisolated, rfl⟩,
    fun call hmem => ?_, fun entry hmem => ?_, fun entry hmem hnew honce call hcall row hrow hid =>
      ?_⟩
  · rcases hself.invoked call hmem with ⟨row, -, hrow, -, -⟩
    exact ⟨row, hrow⟩
  · rcases hbefore.entries entry hmem with hfirst | ⟨i, payment, hpayment, hisolated, hid⟩
    · exact Or.inl hfirst
    · exact Or.inr ⟨payment, List.mem_of_getElem? hpayment, hisolated, hid⟩
  · rcases hbefore.entries entry hmem with hfirst | ⟨i, payment, hpayment, hisolated, hsame⟩
    · exact hnew hfirst
    · -- The submission that was isolated is another one under the same identifier.
      have hother := hself.not_invoked ⟨payment, hpayment, hisolated, hsame⟩ call hcall
      rcases hself.marked i _ ⟨payment, hpayment, hisolated, hsame⟩ with ⟨same, hfound, -, hsame⟩
      have hlt : i < self.submitted.length := by
        rw [← hself.length]
        exact (List.getElem?_eq_some_iff.mp hfound).1
      have hrow' := List.getElem?_eq_getElem hlt
      have hid' := (hself.payments i same _ hfound hrow').1.symm.trans hsame
      refine honce (duplicate_of_places hother ?_ ?_)
      · rw [List.getElem?_map, hrow, Option.map_some, hid]
      · rw [List.getElem?_map, hrow', Option.map_some, hid']

end Final

/-! ### Two runs -/

/-- Works that post their names. -/
def posted (work : String × Nat) : Action (Numbered String Empty × List String) Unit :=
  modify fun s => (s.1, s.2 ++ [work.1])

/-- A processor that does not retry. -/
def unforgiving : DeadLetterProcessor (String × Nat) Empty :=
  ⟨oneAMinute _ _, .new, 0, 1, [], [], 0, numeral_pos passes⟩

/-- What it does. -/
def unforgivingRan (steps : List (Watched.Step (DeadLetterRow String) Empty)) :
    Numbered String Empty :=
  ran Component.first posted Empty.elim (Watched.new unforgiving, []) steps

/-- A payment that is not valid, and the step that isolates it. -/
def invalidPayment : List (Watched.Step (DeadLetterRow String) Empty) :=
  [.use (.submit
      { paymentId := "PAY-1", requestId := "REQ-1", work := "post 1",
        permanentReason := some .invalidPayment }),
    .runNext]

/-- A payment without failures. -/
def validPayment (paymentId : String) : List (Watched.Step (DeadLetterRow String) Empty) :=
  [.use (.submit { paymentId, requestId := "REQ-2", work := "post 2" }), .runNext]

theorem isolation_final_invalidPayment :
    (unforgivingRan (invalidPayment ++ validPayment "PAY-2")).invoked ≠ [] ∧
      ∀ entry ∈ (unforgivingRan invalidPayment).engine.deadLetters.entries,
        ∀ call ∈ (unforgivingRan (invalidPayment ++ validPayment "PAY-2")).invoked,
          ∀ row, (unforgivingRan (invalidPayment ++ validPayment "PAY-2")).submitted[call.1.2]?
            = some row → row.paymentId ≠ entry.paymentId := by
  refine ⟨by decide +kernel, fun entry hentry => ?_⟩
  rcases isolation_final Component.first posted Empty.elim
    (fun work s => ⟨[], fun how hmem => absurd hmem List.not_mem_nil, rfl⟩)
    (fun callback => callback.elim) ⟨0, by decide⟩ 1 (oneAMinute _ _) rfl .new 0 1 unforgiving rfl
    (Watched.new unforgiving, []) rfl invalidPayment (validPayment "PAY-2") with ⟨-, -, -, hfinal⟩
  have honce : ∀ entry ∈ (unforgivingRan invalidPayment).engine.deadLetters.entries,
      ¬ List.Duplicate entry.paymentId
        ((unforgivingRan (invalidPayment ++ validPayment "PAY-2")).submitted.map
          (·.paymentId)) := by
    decide +kernel
  exact hfinal entry hentry List.not_mem_nil (honce entry hentry)

/-- Another payment under the identifier of one that was isolated is processed. -/
theorem isolated_identifier_runs :
    ¬ ∀ entry ∈ (unforgivingRan invalidPayment).engine.deadLetters.entries,
      ∀ call ∈ (unforgivingRan (invalidPayment ++ validPayment "PAY-1")).invoked.drop
          (unforgivingRan invalidPayment).invoked.length,
        ((unforgivingRan (invalidPayment ++ validPayment "PAY-1")).submitted[call.1.2]?.map
          (·.paymentId)) ≠ some entry.paymentId := by
  decide +kernel

end DeadLetterProcessor

end BankSim
