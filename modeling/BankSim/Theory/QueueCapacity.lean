import BankSim.Library.Places
import BankSim.Theory.QueueWaits

/-!
# More Capacity Delays a Payment by a Minute at Most

Two queues are given the same payments up front, and the one takes more of them
a minute than the other. Both promise every payment the time at which a service
with so many servers would start it. In such a service more servers delay
nobody. But what a queue promises rests on when its ticks come, and these depend
on when its worker last had nothing to do. A payment that arrives just before a
tick is started within the minute. If the worker with more capacity is done
earlier, it has no tick to come then, and the payment wakes it for the next
minute.

So more capacity may delay a payment, though by no more than a minute. A worker
that takes one payment at a time cannot be better off by its tick, since that
tick is for a payment that came before.

## Main definitions

* `PaymentQueue.Timed`: Every payment is completed when it was promised.
* `PaymentQueue.CompletedWithin`: The same payment is completed not much later.

## Theorems

* `timed_within`: Promises of two capacities compared.
* `capacity_delays_little`: The runs of two capacities compared.
* `capacity_delays_fourth`: A payment that more capacity does delay.
-/

namespace BankSim

open Exec

namespace EventScheduler

variable {κ σ : Type}

/-- A run that came to an end has nothing more to do in further rounds. -/
theorem run_ended (scheduler : Component σ (EventScheduler κ)) (call : κ → Action σ Unit)
    {rounds : Nat} {s t : σ} (h : (run scheduler call rounds).run s = .ok true t) (more : Nat) :
    (run scheduler call (rounds + more)).run s = .ok true t := by
  induction rounds generalizing s with
  | zero => cases h
  | succ rounds ih =>
      rw [Nat.succ_add]
      unfold run at h ⊢
      cases hnext : (runNext scheduler call).run s with
      | error e u =>
          rw [run_bind_of_error hnext] at h
          cases h
      | ok ran u =>
          rw [run_bind_of_ok hnext] at h ⊢
          cases ran with
          | true => exact ih h
          | false => exact h

/-- However many rounds it was given, it ended in the same state. -/
theorem run_ended_unique (scheduler : Component σ (EventScheduler κ)) (call : κ → Action σ Unit)
    {rounds rounds' : Nat} {s t t' : σ} (h : (run scheduler call rounds).run s = .ok true t)
    (h' : (run scheduler call rounds').run s = .ok true t') : t = t' := by
  have hmore := run_ended scheduler call h rounds'
  have hmore' := run_ended scheduler call h' rounds
  rw [Nat.add_comm, hmore] at hmore'
  cases hmore'
  rfl

end EventScheduler

namespace PaymentQueue

variable {ω κ ξ σ : Type}

/-! ### Work that spares the queue -/

/-- What else was put on the scheduler, a program may have put there by fair uses
    that leave the clock alone. -/
theorem uses_of_joined {self : PaymentQueue ω (QueueCallback ω ξ)}
    {scheduler : EventScheduler (QueueCallback ω ξ)}
    (h : EventScheduler.Joined ownCallback self.scheduler scheduler) :
    ∃ uses : List (Use ω ξ), (∀ how ∈ uses, how.Timely) ∧
      { self with scheduler } = finalState Use.exec self uses := by
  induction h with
  | refl => exact ⟨[], fun how hmem => absurd hmem List.not_mem_nil, rfl⟩
  | @tail before scheduler _ hstep ih =>
      rcases ih with ⟨uses, htimely, hfinal⟩
      rcases hstep with ⟨time, callback, hkind, htime, rfl⟩
      refine ⟨uses ++ [.scheduleAt time callback], ?_, ?_⟩
      · intro how hmem
        rcases List.mem_append.mp hmem with hearlier | hlast
        · exact htimely how hearlier
        · rw [List.mem_singleton.mp hlast]
          refine ⟨?_, trivial⟩
          cases callback with
          | tick => cases hkind
          | enqueue paymentId paymentType work => rfl
          | other callback => rfl
      · rw [finalState_append, ← hfinal, finalState_cons, finalState_nil, Use.exec,
          Component.after_zoom]
        exact congrArg (schedulerOf.set · { self with scheduler := before })
          (after_of_ok (EventScheduler.scheduleAt_of_le callback htime)).symm

/-- Work that returns and spares the queue uses it like that. -/
theorem onlyMakes_of_spares {queue : Component σ (PaymentQueue ω (QueueCallback ω ξ))}
    {m : Action σ Unit}
    (h : ∀ s, ∃ t, m.run s = .ok () t ∧ Spares queue schedulerOf ownCallback s t) :
    OnlyMakes queue Use.exec Use.Timely m := by
  intro s
  rcases h s with ⟨t, hrun, scheduler, hjoined, hsame⟩
  rcases uses_of_joined hjoined with ⟨uses, htimely, hfinal⟩
  refine ⟨uses, htimely, ?_⟩
  rw [after_of_ok hrun, hsame]
  exact hfinal

theorem not_raises_of_spares {queue : Component σ (PaymentQueue ω (QueueCallback ω ξ))}
    {m : Action σ Unit}
    (h : ∀ s, ∃ t, m.run s = .ok () t ∧ Spares queue schedulerOf ownCallback s t) (s : σ) :
    ¬ Raises m s := by
  rintro ⟨e, u, herror⟩
  rcases h s with ⟨t, hrun, -⟩
  rw [hrun] at herror
  cases herror

/-- Scheduling payments up front keeps what every change keeps. -/
theorem Kept.scheduleEach {J : PaymentQueue ω (QueueCallback ω ξ) → Prop}
    {K : Int → Nat → List (QueuedPayment ω) → PaymentQueue ω (QueueCallback ω ξ) → Prop}
    (h : Kept J K) (items : List (Int × QueueCallback ω ξ))
    (hkinds : ∀ item ∈ items, item.2.isTick = false) :
    ∀ (self : PaymentQueue ω (QueueCallback ω ξ))
      (scheduler : EventScheduler (QueueCallback ω ξ)),
      (EventScheduler.scheduleEach items).run self.scheduler = .ok () scheduler →
        Between True self ∧ J self →
          Between True { self with scheduler } ∧ J { self with scheduler } := by
  induction items with
  | nil =>
      intro self scheduler hrun hself
      cases hrun
      exact hself
  | cons item items ih =>
      intro self scheduler hrun hself
      unfold EventScheduler.scheduleEach at hrun
      cases hfirst : (EventScheduler.scheduleAt item.1 item.2).run self.scheduler with
      | error e u =>
          rw [run_bind_of_error hfirst] at hrun
          cases hrun
      | ok value u =>
          rw [run_bind_of_ok hfirst] at hrun
          have htimely : (Use.scheduleAt item.1 item.2).Timely :=
            ⟨hkinds item List.mem_cons_self, trivial⟩
          have huse := h.use htimely hself
          rw [Use.exec, Component.after_zoom] at huse
          have hafter : after (EventScheduler.scheduleAt item.1 item.2) (schedulerOf.get self)
              = u := after_of_ok hfirst
          rw [hafter] at huse
          exact ih (fun other hmem => hkinds other (List.mem_cons_of_mem item hmem))
            (schedulerOf.set u self) scheduler hrun huse

theorem Kept.scheduleArrivals {J : PaymentQueue ω (QueueCallback ω ξ) → Prop}
    {K : Int → Nat → List (QueuedPayment ω) → PaymentQueue ω (QueueCallback ω ξ) → Prop}
    (h : Kept J K) {queue : Component σ (PaymentQueue ω (QueueCallback ω ξ))}
    {rows : List (Arrival ω)} {s received : σ}
    (hrun : ((queue.comp schedulerOf).zoom (scheduleArrivals arrivalCallback rows)).run s
      = .ok () received) (hs : Between True (queue.get s) ∧ J (queue.get s)) :
    Between True (queue.get received) ∧ J (queue.get received) := by
  rw [Component.zoom_run] at hrun
  cases hscheduled : (BankSim.scheduleArrivals arrivalCallback rows).run
      ((queue.comp schedulerOf).get s) with
  | error e u =>
      rw [hscheduled] at hrun
      cases hrun
  | ok value u =>
      rw [hscheduled] at hrun
      cases hrun
      rw [queue.get_comp_set]
      refine h.scheduleEach _ (fun item hmem => ?_) (queue.get s) u hscheduled hs
      rcases List.mem_map.mp hmem with ⟨row, -, rfl⟩
      rfl

/-! ### Promises of two capacities -/

section Promised

variable {arrival ready ready' : Nat → Int} {capacity capacity' count : Nat}

/-- Payments that are ready a minute later at most are promised a time that is a
    minute later at most. -/
theorem promised_le_add_one (hpos : 0 < capacity) (hle : capacity ≤ capacity')
    (hmono : ∀ i j, i ≤ j → j < count → ready i ≤ ready j)
    (hready : ∀ i < count, arrival i ≤ ready i) (hready' : ∀ i < count, ready' i ≤ arrival i + 1) :
    ∀ i < count, promised capacity' ready' i ≤ promised capacity ready i + 1 := by
  intro i hi
  calc promised capacity' ready' i
      ≤ promised capacity' ready i + 1 := Servers.start_le_add fun j hj => by
        have hlower := hready j (lt_of_le_of_lt hj hi)
        have hupper := hready' j (lt_of_le_of_lt hj hi)
        omega
    _ ≤ promised capacity ready i + 1 := by
        have hanti := @Servers.start_anti capacity 1 ready count capacity' hpos hle hmono i hi
        exact Int.add_le_add_right hanti 1

/-- If with capacity one no payment is served in the minute in which it arrives,
    then no payment is promised a later time with more. -/
theorem promised_le_one (hpos : 0 < capacity')
    (hsorted : ∀ i j, i ≤ j → j < count → arrival i ≤ arrival j)
    (hlate : ∀ i < count, arrival i < promised 1 ready i)
    (hready' : ∀ i < count, ready' i ≤ arrival i + 1) :
    ∀ i < count, promised capacity' ready' i ≤ promised 1 ready i := by
  intro i hi
  calc promised capacity' ready' i
      ≤ promised capacity' (fun j => arrival j + 1) i := Servers.start_le_start i fun j hj =>
        (hready' j (lt_of_le_of_lt hj hi)).trans Servers.arrival_le_start
    _ ≤ promised 1 (fun j => arrival j + 1) i :=
        Servers.start_anti Nat.one_pos hpos
          (fun j k hjk hk => Int.add_le_add_right (hsorted j k hjk hk) 1) i hi
    _ ≤ promised 1 ready i := Servers.start_le_start i fun j hj =>
        Int.add_one_le_of_lt (hlate j (lt_of_le_of_lt hj hi))

end Promised

/-- The payments that arrived are completed in order, each when it was promised.
    Each was ready within a minute of its arrival. -/
def Timed (capacity : Nat) (arrivals : List (Arrival ω)) (self : PaymentQueue ω κ) : Prop :=
  ∃ ready : Nat → Int,
    (∀ i j, i ≤ j → j < arrivals.length → ready i ≤ ready j) ∧
    (∀ i < arrivals.length, arrivalTime arrivals i ≤ ready i ∧
      ready i ≤ arrivalTime arrivals i + 1) ∧
    (capacity = 1 → ∀ i < arrivals.length, arrivalTime arrivals i < promised capacity ready i) ∧
    List.Forall₂ (fun i item => Records arrivals i item ∧
      item.completedAt = some (promised capacity ready i)) (List.range arrivals.length)
      self.completed

/-- The same payment is completed no more than so many minutes later. -/
def CompletedWithin (minutes : Int) (item other : QueuedPayment ω) : Prop :=
  item.arrivalOrder = other.arrivalOrder ∧ item.paymentId = other.paymentId ∧
    ∃ finish finish', item.completedAt = some finish ∧ other.completedAt = some finish' ∧
      finish ≤ finish' + minutes

theorem CompletedWithin.mono {minutes minutes' : Int} {item other : QueuedPayment ω}
    (h : CompletedWithin minutes item other) (hle : minutes ≤ minutes') :
    CompletedWithin minutes' item other := by
  rcases h with ⟨horder, hid, finish, finish', hfinish, hfinish', hwithin⟩
  exact ⟨horder, hid, finish, finish', hfinish, hfinish', by omega⟩

theorem Timed.refl {capacity : Nat} {arrivals : List (Arrival ω)} {self : PaymentQueue ω κ}
    (h : Timed capacity arrivals self) :
    List.Forall₂ (CompletedWithin 0) self.completed self.completed := by
  rcases h with ⟨ready, -, -, -, hcompleted⟩
  refine List.forall₂_same.mpr fun item hmem => ?_
  rcases List.mem_iff_get.mp hmem with ⟨i, rfl⟩
  have hlength := hcompleted.length_eq
  have hfinish := (hcompleted.get (by rw [hlength]; exact i.2) i.2).2
  exact ⟨rfl, rfl, _, _, hfinish, hfinish, (Int.add_zero _).ge⟩

theorem records_same {arrivals : List (Arrival ω)} {i : Nat} {item other : QueuedPayment ω}
    (h : Records arrivals i item) (h' : Records arrivals i other) :
    item.arrivalOrder = other.arrivalOrder ∧ item.paymentId = other.paymentId := by
  rcases h with ⟨arrival, hget, hid, -, -, -, horder⟩
  rcases h' with ⟨arrival', hget', hid', -, -, -, horder'⟩
  cases hget.symm.trans hget'
  exact ⟨horder.trans horder'.symm, hid.trans hid'.symm⟩

theorem Timed.compare {κ' : Type} {capacity capacity' : Nat} {arrivals : List (Arrival ω)}
    {self : PaymentQueue ω κ} {self' : PaymentQueue ω κ'} (h : Timed capacity arrivals self)
    (h' : Timed capacity' arrivals self') (hpos : 0 < capacity) (hle : capacity ≤ capacity')
    (hsorted : arrivals.Pairwise fun a b => a.time ≤ b.time) :
    List.Forall₂ (CompletedWithin (if capacity = 1 then 0 else 1)) self'.completed
      self.completed := by
  rcases h with ⟨ready, hmono, hready, hone, hcompleted⟩
  rcases h' with ⟨ready', hmono', hready', -, hcompleted'⟩
  refine Places.forall₂_of_places hcompleted' hcompleted ?_
  rintro i hi item other ⟨hrecords', hfinish'⟩ ⟨hrecords, hfinish⟩
  rcases records_same hrecords' hrecords with ⟨horder, hid⟩
  refine ⟨horder, hid, _, _, hfinish', hfinish, ?_⟩
  by_cases hcapacity : capacity = 1
  · have hlate := hone hcapacity
    rw [if_pos hcapacity, Int.add_zero, hcapacity]
    rw [hcapacity] at hlate
    exact promised_le_one (hpos.trans_le hle) (arrivalTime_mono hsorted) hlate
      (fun j hj => (hready' j hj).2) i hi
  · rw [if_neg hcapacity]
    exact promised_le_add_one hpos hle hmono (fun j hj => (hready j hj).1)
      (fun j hj => (hready' j hj).2) i hi

/-- A payment that is served alone in its minute is not served in the minute in
    which it arrives. -/
theorem Promise.after_one {ready : Nat → Int} {item : QueuedPayment ω}
    (h : Promise 1 ready item) : item.queuedAt < promised 1 ready item.arrivalOrder := by
  have hpos := h.position_pos
  have hsoonest := h.soonest
  rw [Nat.div_one] at hsoonest
  by_cases hfirst : item.queuePosition = 1
  · exact h.alone hfirst
  · omega

/-- When the arrivals are completed, they were completed as promised. -/
theorem Prompt.timed {capacity : Nat} {arrivals : List (Arrival ω)}
    {self : PaymentQueue ω (QueueCallback ω ξ)} (h : Prompt capacity self)
    (hbetween : Between True self)
    (hdone : List.Forall₂ (Records arrivals) (List.range arrivals.length) self.completed) :
    Timed capacity arrivals self := by
  rcases h with ⟨hsame, ready, next, hpromises, -⟩
  have horder := hbetween.tally.nextOrder_eq
  have hlength := hdone.length_eq
  rw [List.length_range] at hlength
  -- The payment in a place is the one that arrived there, and it was promised its time.
  have hplace : ∀ i (hi : i < arrivals.length), ∃ item ∈ self.completed,
      item.arrivalOrder = i ∧ item.queuedAt = arrivalTime arrivals i ∧
        Promise capacity ready item := by
    intro i hi
    have hrecords := hdone.get (by simpa using hi) (hlength ▸ hi)
    simp only [List.get_eq_getElem, List.getElem_range] at hrecords
    rcases hrecords with ⟨arrival, hget, -, -, -, hqueued, hnumber⟩
    have hmem := List.get_mem self.completed ⟨i, hlength ▸ hi⟩
    refine ⟨_, hmem, hnumber, hqueued.trans (arrivalTime_eq hget).symm, ?_⟩
    rw [← hsame]
    exact hpromises.promise _ (by simp)
  refine ⟨ready, fun i j hij hj => hpromises.ready_mono i j hij (by omega), ?_, ?_, ?_⟩
  · intro i hi
    rcases hplace i hi with ⟨item, -, rfl, hqueued, hpromise⟩
    rw [← hqueued]
    exact ⟨hpromise.ready_ge, hpromise.ready_le⟩
  · rintro rfl i hi
    rcases hplace i hi with ⟨item, -, rfl, hqueued, hpromise⟩
    rw [← hqueued]
    exact hpromise.after_one
  · refine List.forall₂_iff_get.mpr ⟨hdone.length_eq, fun i hi hi' => ?_⟩
    have hrecords := hdone.get hi hi'
    have hfinish := (hpromises.completed _ (List.get_mem self.completed ⟨i, hi'⟩)).2
    simp only [List.get_eq_getElem, List.getElem_range] at hrecords hfinish ⊢
    refine ⟨hrecords, hfinish.trans ?_⟩
    rcases hrecords with ⟨-, -, -, -, -, -, hnumber⟩
    rw [hsame, hnumber]

/-! ### Runs of two capacities -/

section Runs

variable {queue : Component σ (PaymentQueue ω (QueueCallback ω ξ))} {perform : ω → Action σ Unit}
  {other : ξ → Action σ Unit}

variable (queue) in
/-- The world between two events of such a run. -/
def Underway (capacity : Nat) (arrivals : List (Arrival ω)) (s : σ) : Prop :=
  (∃ k c, Progress arrivals queue (fun _ _ _ => True) k c s) ∧
    Between True (queue.get s) ∧ Prompt capacity (queue.get s)

variable
  (hperform : ∀ work s, ∃ t, (perform work).run s = .ok () t ∧
    Spares queue schedulerOf ownCallback s t)
  (hother : ∀ callback s, ∃ t, (other callback).run s = .ok () t ∧
    Spares queue schedulerOf ownCallback s t)

include hperform hother

theorem underway_step {capacity : Nat} {arrivals : List (Arrival ω)}
    (hids : ∀ arrival ∈ arrivals, isBlank arrival.paymentId = false) {s : σ}
    (hs : Underway queue capacity arrivals s) :
    ((queue.comp schedulerOf).get s).queue = [] ∨
      ∃ t, (EventScheduler.runNext (queue.comp schedulerOf)
          (QueueCallback.call queue perform other)).run s = .ok true t ∧
        Underway queue capacity arrivals t := by
  rcases hs with ⟨⟨k, c, hprogress⟩, hs⟩
  rcases progress_step (undisturbed_of_spares hperform hother arrivals) hids hprogress with
    hnil | ⟨t, hnext, hcases⟩
  · exact Or.inl hnil
  · have ht := (prompt_kept capacity).runNext (fun work => onlyMakes_of_spares (hperform work))
      (fun work => not_raises_of_spares (hperform work))
      (fun callback => onlyMakes_of_spares (hother callback)) hs
    rw [after_of_ok hnext] at ht
    refine Or.inr ⟨t, hnext, ?_, ht⟩
    rcases hcases with ⟨-, hlater⟩ | ⟨-, hlater⟩ | ⟨done, -, -, hlater⟩
    · exact ⟨k, c, hlater⟩
    · exact ⟨k + 1, c, hlater⟩
    · exact ⟨k, done, hlater⟩

/-- A fresh queue with payments scheduled up front comes to complete them, in
    order and when promised. -/
theorem queue_timed (clock : VirtualClock) {rows : List (Arrival ω)}
    (htimes : ∀ row ∈ rows, clock.time ≤ row.time)
    (hids : ∀ row ∈ rows, isBlank row.paymentId = false) {capacity : Int} {s : σ}
    (hnew : PaymentQueue.new (EventScheduler.new clock) capacity = .ok (queue.get s)) :
    ∃ received, ((queue.comp schedulerOf).zoom (scheduleArrivals arrivalCallback rows)).run s
        = .ok () received ∧
      RunsTo (queue.comp schedulerOf) (QueueCallback.call queue perform other) (IsEmpty ξ)
        (fun final => List.Forall₂ (Records (sortedBy (·.time) rows))
          (List.range (sortedBy (·.time) rows).length) (queue.get final).completed) received ∧
      ∀ rounds final, (EventScheduler.run (queue.comp schedulerOf)
          (QueueCallback.call queue perform other) rounds).run received = .ok true final →
        Timed capacity.toNat (sortedBy (·.time) rows) (queue.get final) := by
  have hids' : ∀ arrival ∈ sortedBy (·.time) rows, isBlank arrival.paymentId = false :=
    fun arrival hmem => hids arrival ((sortedBy_perm _ rows).mem_iff.mp hmem)
  have hI := undisturbed_of_spares hperform hother (sortedBy (·.time) rows)
  rcases progress_new clock hI htimes hnew trivial with ⟨received, hreceived, hprogress⟩
  have hstart := (prompt_kept capacity.toNat).scheduleArrivals hreceived
    ⟨between_new True clock hnew, (prompt_new clock hnew).2⟩
  refine ⟨received, hreceived, (queue_run hI hids' hprogress).imp _ _ fun _ ht => ht.1, ?_⟩
  intro rounds final hfinal
  rcases EventScheduler.run_keeps (queue.comp schedulerOf) (QueueCallback.call queue perform other)
    (fun _ hs => underway_step hperform hother hids' hs) rounds received
    ⟨⟨0, 0, hprogress⟩, hstart⟩ with
    ⟨ended, t, hrun, ⟨⟨k, c, ht⟩, hbetween, hprompt⟩, hend⟩
  cases hrun.symm.trans hfinal
  exact hprompt.timed hbetween (ht.done (hend rfl)).1

end Runs

/-- With work that neither raises nor enqueues, payments scheduled up front are
    all completed, and with more capacity none is completed more than a minute
    later. None is completed later at all than with capacity one, or than with
    the same capacity. -/
theorem capacity_delays_little (queue : Component σ (PaymentQueue ω (QueueCallback ω ξ)))
    (perform : ω → Action σ Unit) (other : ξ → Action σ Unit)
    (hperform : ∀ work s, ∃ t, (perform work).run s = .ok () t ∧
      Spares queue schedulerOf ownCallback s t)
    (hother : ∀ callback s, ∃ t, (other callback).run s = .ok () t ∧
      Spares queue schedulerOf ownCallback s t)
    (clock : VirtualClock) (rows : List (Arrival ω)) (htimes : ∀ row ∈ rows, clock.time ≤ row.time)
    (hids : ∀ row ∈ rows, isBlank row.paymentId = false) (capacity capacity' : Int)
    (hle : capacity ≤ capacity') (self self' : PaymentQueue ω (QueueCallback ω ξ))
    (hnew : PaymentQueue.new (EventScheduler.new clock) capacity = .ok self)
    (hnew' : PaymentQueue.new (EventScheduler.new clock) capacity' = .ok self') (s : σ) :
    let arrivals := sortedBy (·.time) rows
    let scheduled := (queue.comp schedulerOf).zoom (scheduleArrivals arrivalCallback rows)
    let run := EventScheduler.run (queue.comp schedulerOf) (QueueCallback.call queue perform other)
    let completes := RunsTo (queue.comp schedulerOf) (QueueCallback.call queue perform other)
      (IsEmpty ξ) fun final => List.Forall₂ (Records arrivals) (List.range arrivals.length)
        (queue.get final).completed
    ∃ received received', scheduled.run (queue.set self s) = .ok () received ∧
      scheduled.run (queue.set self' s) = .ok () received' ∧
      completes received ∧ completes received' ∧
      ∀ rounds rounds' final final', (run rounds).run received = .ok true final →
        (run rounds').run received' = .ok true final' →
          List.Forall₂ (CompletedWithin 1) (queue.get final').completed
            (queue.get final).completed ∧
          (capacity = 1 ∨ capacity' = capacity → List.Forall₂ (CompletedWithin 0)
            (queue.get final').completed (queue.get final).completed) := by
  intro arrivals scheduled run completes
  have hpos := (prompt_new clock hnew).1
  have hsorted : arrivals.Pairwise fun a b => a.time ≤ b.time := sortedBy_pairwise _ rows
  have hfirst : PaymentQueue.new (EventScheduler.new clock) capacity
      = .ok (queue.get (queue.set self s)) := by rw [queue.get_set, hnew]
  have hsecond : PaymentQueue.new (EventScheduler.new clock) capacity'
      = .ok (queue.get (queue.set self' s)) := by rw [queue.get_set, hnew']
  rcases queue_timed hperform hother clock htimes hids hfirst with
    ⟨received, hreceived, hcompletes, htimed⟩
  rcases queue_timed hperform hother clock htimes hids hsecond with
    ⟨received', hreceived', hcompletes', htimed'⟩
  refine ⟨received, received', hreceived, hreceived', hcompletes, hcompletes', ?_⟩
  intro rounds rounds' final final' hfinal hfinal'
  have hcompare := (htimed rounds final hfinal).compare (htimed' rounds' final' hfinal')
    (by omega) (by omega) hsorted
  constructor
  · refine hcompare.imp fun item other hwithin => hwithin.mono ?_
    split_ifs <;> decide
  · rintro (hone | hsame)
    · rw [if_pos (by omega)] at hcompare
      exact hcompare
    · -- The two runs are one and the same.
      subst hsame
      cases hnew.symm.trans hnew'
      cases hreceived.symm.trans hreceived'
      cases EventScheduler.run_ended_unique _ _ hfinal hfinal'
      exact (htimed rounds final hfinal).refl

/-- A fresh queue that serves so many payments a minute. -/
def ofCapacity (capacity : Nat) (hpos : 0 < capacity) :
    PaymentQueue Unit (QueueCallback Unit Empty) :=
  ⟨EventScheduler.new, [], [], [], 0, 0, ⟨capacity, false, hpos⟩⟩

/-- Three payments that arrive together, and one that arrives with the second
    tick after them. -/
def fourArrivals : List (Arrival Unit) :=
  [⟨0, "PAY-1", .achTransfer, ()⟩, ⟨0, "PAY-2", .achTransfer, ()⟩, ⟨0, "PAY-3", .achTransfer, ()⟩,
    ⟨2, "PAY-4", .achTransfer, ()⟩]

theorem capacity_delays_little_four :
    let queue : Component (PaymentQueue Unit (QueueCallback Unit Empty)) _ := Component.whole
    let arrivals := sortedBy (·.time) fourArrivals
    let scheduled := (queue.comp schedulerOf).zoom (scheduleArrivals arrivalCallback fourArrivals)
    let run := EventScheduler.run (queue.comp schedulerOf)
      (QueueCallback.call queue (fun _ => pure ()) Empty.elim)
    let completes := RunsTo (queue.comp schedulerOf)
      (QueueCallback.call queue (fun _ => pure ()) Empty.elim) (IsEmpty Empty) fun final =>
        List.Forall₂ (Records arrivals) (List.range arrivals.length) (queue.get final).completed
    ∃ received received', scheduled.run (ofCapacity 2 (by decide)) = .ok () received ∧
      scheduled.run (ofCapacity 3 (by decide)) = .ok () received' ∧
      completes received ∧ completes received' ∧
      ∀ rounds rounds' final final', (run rounds).run received = .ok true final →
        (run rounds').run received' = .ok true final' →
          List.Forall₂ (CompletedWithin 1) (queue.get final').completed
            (queue.get final).completed ∧
          ((2 : Int) = 1 ∨ (3 : Int) = 2 → List.Forall₂ (CompletedWithin 0)
            (queue.get final').completed (queue.get final).completed) :=
  capacity_delays_little Component.whole (fun _ => pure ()) Empty.elim
    (fun _ s => ⟨s, rfl, s.scheduler, .refl, rfl⟩) (fun callback => callback.elim)
    ⟨0, by decide⟩ fourArrivals (by decide) (by decide) 2 3 (by decide) (ofCapacity 2 (by decide))
    (ofCapacity 3 (by decide)) rfl rfl (ofCapacity 2 (by decide))

/-- The queue when these payments are done, whose work is nothing. -/
def afterFour (capacity : Nat) (hpos : 0 < capacity) :
    Option (PaymentQueue Unit (QueueCallback Unit Empty)) :=
  let steps : Action (PaymentQueue Unit (QueueCallback Unit Empty)) Bool := do
    schedulerOf.zoom (scheduleArrivals arrivalCallback fourArrivals)
    EventScheduler.run (Component.whole.comp schedulerOf)
      (QueueCallback.call Component.whole (fun _ => pure ()) Empty.elim) 8
  match steps.run (ofCapacity capacity hpos) with
  | .ok true final => some final
  | _ => none

/-- With capacity three the fourth payment is completed a minute later than with
    capacity two. -/
theorem capacity_delays_fourth :
    ∃ final final', afterFour 2 (by decide) = some final ∧ afterFour 3 (by decide) = some final' ∧
      ¬ List.Forall₂ (CompletedWithin 0) final'.completed final.completed := by
  have hfewer : (afterFour 2 (by decide)).map (fun queue => queue.completed.map (·.completedAt))
      = some [some 1, some 1, some 2, some 2] := by decide +kernel
  have hmore : (afterFour 3 (by decide)).map (fun queue => queue.completed.map (·.completedAt))
      = some [some 1, some 1, some 1, some 3] := by decide +kernel
  rcases Option.map_eq_some_iff.mp hfewer with ⟨final, hfinal, htimes⟩
  rcases Option.map_eq_some_iff.mp hmore with ⟨final', hfinal', htimes'⟩
  refine ⟨final, final', hfinal, hfinal', fun hall => ?_⟩
  -- If each were within the time of the other, so would be the fourth.
  have hwithin : List.Forall₂ (fun late early : Option Int => ∀ finish ∈ late, ∀ finish' ∈ early,
      finish ≤ finish') (final'.completed.map (·.completedAt))
      (final.completed.map (·.completedAt)) := by
    rw [List.forall₂_map_left_iff, List.forall₂_map_right_iff]
    refine hall.imp fun item other h finish hfinish finish' hfinish' => ?_
    rcases h with ⟨-, -, time, time', htime, htime', hle⟩
    cases htime.symm.trans hfinish
    cases htime'.symm.trans hfinish'
    omega
  rw [htimes, htimes'] at hwithin
  simp at hwithin

end PaymentQueue

end BankSim
