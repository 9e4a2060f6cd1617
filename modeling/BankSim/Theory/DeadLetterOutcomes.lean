import BankSim.Theory.DeadLetters

/-!
# Outcomes of Isolation

What is to be seen of a dead-letter processor when all payments are done with.
If no two payments that are bound to fail share an identifier, exactly these are
isolated, and otherwise the second of two is lost: it is neither completed nor
isolated, and the statistics do not add up.

## Main definitions

* `DeadLetterProcessor.Fails`: A submission that is bound to fail.
* `DeadLetterProcessor.paymentFor`, `DeadLetterProcessor.entryFor`: What becomes of
  a submission.
* `DeadLetterProcessor.Settled`: What is to be seen in the end.
* `DeadLetterProcessor.Accounted`: All payments are accounted for.

## Theorems

* `DeadLetterProcessor.Moves.places`: Exactly the payments that fail are isolated.
* `DeadLetterProcessor.dead_letter_outcomes`: Payments with distinct identifiers.
* `DeadLetterProcessor.payments_accounted_iff`: Payments with any identifiers.
* `DeadLetterProcessor.failsTwice_not_accounted`: Two that fail under one.
-/

namespace BankSim

open Exec PaymentQueue Places

namespace DeadLetterProcessor

variable {ω ξ σ : Type} {limit : Nat} {delay : Int} {initial : List DeadLetterEntry}
  {left : Nat → Nat} {moves : List (Nat × Int)} {self : Observed ω ξ} {i : Nat}
  {row : DeadLetterRow ω}

/-- The submission is bound to fail for good. -/
def Fails (limit : Nat) (row : DeadLetterRow ω) : Bool :=
  row.permanentReason.isSome || decide (limit < row.failures.length)

theorem recovers_eq (limit : Nat) (row : DeadLetterRow ω) :
    row.recovers limit = !Fails limit row := by
  unfold Fails DeadLetterRow.recovers
  cases row.permanentReason with
  | some reason => rfl
  | none => simp [← decide_not]

theorem fails_iff (limit : Nat) (row : DeadLetterRow ω) :
    Fails limit row = true ↔ row.recovers limit = false := by
  rw [recovers_eq, Bool.not_eq_false']

/-- The payment that an entry was made for. -/
theorem Moves.moved (h : Moves limit [] left moves self) {paymentId : String}
    (hid : paymentId ∈ self.engine.deadLetters.paymentIds) :
    ∃ i row, i ∈ moves.map Prod.fst ∧ self.submitted[i]? = some row ∧
      Fails limit row = true ∧ row.paymentId = paymentId := by
  rw [self.engine.deadLetters.paymentIds_eq, h.entries, List.nil_append] at hid
  rcases List.mem_map.mp hid with ⟨entry, hentry, rfl⟩
  rcases List.mem_filterMap.mp hentry with ⟨move, hmove, hmade⟩
  rcases h.failed move.1 (List.mem_map_of_mem hmove) with ⟨-, row, hrow, hfails⟩
  rw [hrow] at hmade
  cases hmade
  exact ⟨move.1, row, List.mem_map_of_mem hmove, hrow, (fails_iff limit row).mpr hfails, rfl⟩

/-- A payment that has failed for good is isolated, provided that no two that are
    bound to fail share an identifier. -/
theorem Moves.mem_of_failed (h : Moves limit [] left moves self)
    (hids : ((self.submitted.filter (Fails limit)).map (·.paymentId)).Nodup)
    (hrow : self.submitted[i]? = some row) (hdone : left i = 0) (hfails : Fails limit row = true) :
    i ∈ moves.map Prod.fst := by
  have hknown := h.known i row hrow hdone ((fails_iff limit row).mp hfails)
  rcases h.moved hknown with ⟨j, other, hj, hother, hfails', hsame⟩
  rw [eq_of_key hids hrow hother hfails hfails' hsame.symm]
  exact hj

/-- When all is done, exactly the payments that fail were isolated, provided that
    no two of them share an identifier. -/
theorem Moves.places (h : Moves limit [] left moves self) (hdone : ∀ i, left i = 0)
    (hids : ((self.submitted.filter (Fails limit)).map (·.paymentId)).Nodup) (i : Nat) :
    i ∈ moves.map Prod.fst ↔ ∃ row, self.submitted[i]? = some row ∧ Fails limit row = true := by
  constructor
  · intro hmem
    rcases (h.failed i hmem).2 with ⟨row, hrow, hfails⟩
    exact ⟨row, hrow, (fails_iff limit row).mpr hfails⟩
  · rintro ⟨row, hrow, hfails⟩
    exact h.mem_of_failed hids hrow (hdone i) hfails

/-- The payments when all is done. -/
theorem Books.done (h : Books limit delay none left (moves.map Prod.fst) self)
    (hdone : ∀ i, left i = 0) (i : Nat) :
    self.engine.payments[i]? = self.submitted[i]?.map fun row : DeadLetterRow ω =>
      row.after limit 0 false (i ∈ moves.map Prod.fst) := by
  rw [h.payments, hdone i]
  rfl

/-- The same, when exactly those were isolated that fail. -/
theorem Books.settled (h : Books limit delay none left (moves.map Prod.fst) self)
    (hdone : ∀ i, left i = 0)
    (hplaces : ∀ i, i ∈ moves.map Prod.fst ↔
      ∃ row, self.submitted[i]? = some row ∧ Fails limit row = true) :
    self.engine.payments
      = self.submitted.map fun row => row.after limit 0 false (Fails limit row) := by
  refine List.ext_getElem? fun i => ?_
  rw [h.done hdone, List.getElem?_map]
  cases hrow : self.submitted[i]? with
  | none => rfl
  | some row =>
      have hmoved : decide (i ∈ moves.map Prod.fst) = Fails limit row := by
        rw [Bool.eq_iff_iff, decide_eq_true_eq, hplaces i, hrow]
        simp
      exact congrArg (fun isolated => some (row.after limit 0 false isolated)) hmoved

/-- The submissions that were isolated, in order. -/
theorem Moves.submissions (h : Moves limit initial left moves self) :
    ∃ moved : List (DeadLetterRow ω × Int),
      moved.map Prod.fst = (moves.map Prod.fst).filterMap (self.submitted[·]?) ∧
      moved.map Prod.snd = moves.map Prod.snd ∧
      entriesFor limit self.submitted moves
        = moved.map (fun move => move.1.entryAt limit move.2) := by
  refine ⟨moves.filterMap fun move => self.submitted[move.1]?.map (·, move.2), ?_, ?_, ?_⟩
  · rw [List.map_filterMap, List.filterMap_map]
    refine List.filterMap_congr fun move _ => ?_
    cases hrow : self.submitted[move.1]? <;> simp [hrow]
  · have hsome : ∀ move ∈ moves, ∃ row, self.submitted[move.1]? = some row := fun move hmem => by
      rcases (h.failed move.1 (List.mem_map_of_mem hmem)).2 with ⟨row, hrow, -⟩
      exact ⟨row, hrow⟩
    rw [List.map_filterMap, ← List.filterMap_eq_map]
    refine List.filterMap_congr fun move hmem => ?_
    rcases hsome move hmem with ⟨row, hrow⟩
    rw [hrow]
    rfl
  · unfold entriesFor
    rw [List.map_filterMap]
    refine List.filterMap_congr fun move _ => ?_
    cases self.submitted[move.1]? <;> rfl

/-! ### Fresh processors -/

theorem law_new (limit : Nat) {retryDelay : Int} (hdelay : 0 < retryDelay)
    (deadLetters : DeadLetterQueue) (clock : VirtualClock) {capacity : Int}
    {queue : AttemptQueue (DeadLetterWork ω) (DeadLetterWork ω) ξ}
    (hnew : PaymentQueue.new (EventScheduler.new clock) capacity = .ok queue) :
    Law limit retryDelay deadLetters.entries .free (fun _ => 0)
      (Watched.new ⟨queue, deadLetters, limit, retryDelay, [], [], 0, hdelay⟩ : Observed ω ξ) := by
  refine ⟨[], ⟨rfl, rfl, fun _ => rfl, fun i row hrow => (nomatch hrow),
    fun row hmem => absurd hmem List.not_mem_nil, fun i hbusy => (nomatch hbusy), paid_nil _ _ _⟩,
    ⟨(List.append_nil _).symm, fun i hmem => absurd hmem List.not_mem_nil, List.nodup_nil,
      List.Pairwise.nil, fun time hmem => absurd hmem List.not_mem_nil,
      fun i row hrow => (nomatch hrow)⟩,
    tokens_new _ clock hnew, ?_⟩
  rcases PaymentQueue.new_ok hnew with ⟨worker, -, rfl⟩
  rfl

/-! ### Distinct identifiers -/

/-- What becomes of a payment. A permanent reason comes first, whatever the
    transient failures. -/
def paymentFor (limit : Nat) (row : DeadLetterRow ω) : DeadLetterPayment :=
  let payment : DeadLetterPayment :=
    { paymentId := row.paymentId
      requestId := row.requestId
      originalState := row.originalState }
  match row.permanentReason with
  | some _ => { payment with attempts := 1, isolated := true }
  | none =>
      if row.failures.length ≤ limit then
        { payment with
          attempts := row.failures.length + 1
          retryCount := row.failures.length
          completed := true }
      else
        { payment with attempts := limit + 1, retryCount := limit, isolated := true }

/-- The entry of a payment that is isolated. -/
def entryFor (limit : Nat) (row : DeadLetterRow ω) (time : Int) : DeadLetterEntry where
  paymentId := row.paymentId
  requestId := row.requestId
  reason := row.permanentReason.getD .retryLimitExceeded
  retryCount := if row.permanentReason.isSome then 0 else limit
  isolatedAt := time
  originalState := row.originalState
  diagnosticMessage := match row.permanentReason with
    | some reason => diagnosticOr row.diagnostic reason
    | none => row.failures[limit]?.getD ""

theorem after_eq_paymentFor (limit : Nat) (row : DeadLetterRow ω) :
    row.after limit 0 false (Fails limit row) = paymentFor limit row := by
  unfold DeadLetterRow.after paymentFor Fails DeadLetterRow.total DeadLetterRow.recovers
  cases row.permanentReason with
  | some reason => rfl
  | none =>
      by_cases hle : row.failures.length ≤ limit
      · simp [hle]
      · simp [hle, Nat.min_eq_right (Nat.le_of_not_le hle), Nat.lt_of_not_le hle]

theorem entryAt_eq_entryFor (hfails : Fails limit row = true) (time : Int) :
    row.entryAt limit time = entryFor limit row time := by
  rcases row.of_fails ((fails_iff limit row).mp hfails) with
    ⟨reason, hreason, htotal⟩ | ⟨hreason, htotal, -⟩
  · simp [DeadLetterRow.entryAt, entryFor, DeadLetterRow.reason, DeadLetterRow.message, hreason,
      htotal]
  · simp [DeadLetterRow.entryAt, entryFor, DeadLetterRow.reason, DeadLetterRow.message, hreason,
      htotal]

/-- What there is to be seen of payments that are all done with, if no two share an
    identifier. -/
structure Settled (limit : Nat) (rows : List (DeadLetterRow ω)) (self : Observed ω ξ) :
    Prop where
  payments : self.engine.payments = rows.map (paymentFor limit)
  entries : ∃ moved : List (DeadLetterRow ω × Int),
    (moved.map Prod.fst).Perm (rows.filter (Fails limit)) ∧
    self.engine.deadLetters.entries = moved.map (fun move => entryFor limit move.1 move.2) ∧
    (moved.map Prod.snd).Pairwise (· ≤ ·)
  invoked : (self.invoked.map Prod.fst).Perm
    ((rows.filter fun row => !Fails limit row).map (·.work))
  active : self.engine.statistics.activeQueueSize = 0

theorem Law.settled (h : Law limit delay [] .free left self) (hdone : ∀ i, left i = 0)
    (hwaiting : self.engine.queue.waiting = []) (hqueue : self.engine.queue.scheduler.queue = [])
    (hids : (self.submitted.map (·.paymentId)).Nodup) : Settled limit self.submitted self := by
  rcases h with ⟨moves, hbooks, hmoves, -, hpending⟩
  have hplaces := hmoves.places hdone (hids.sublist (List.filter_sublist.map _))
  rcases hmoves.submissions with ⟨moved, hrows, htimes, hentries⟩
  have hperm : (moved.map Prod.fst).Perm (self.submitted.filter (Fails limit)) := by
    rw [hrows]
    exact perm_filter hmoves.nodup hplaces
  refine ⟨?_, ⟨moved, hperm, ?_, ?_⟩, ?_, ?_⟩
  · rw [hbooks.settled hdone hplaces]
    exact List.map_congr_left fun row _ => after_eq_paymentFor limit row
  · rw [hmoves.entries, List.nil_append, hentries]
    refine List.map_congr_left fun move hmem => ?_
    have hmove := hperm.mem_iff.mp (List.mem_map_of_mem hmem)
    exact entryAt_eq_entryFor (List.mem_filter.mp hmove).2 move.2
  · rw [htimes]
    exact hmoves.times
  · have hall := hbooks.paid.all hdone
    simp only [recovers_eq] at hall
    exact hall
  · change (self.engine.queue.waiting.length : Int) + self.engine.pendingRetries = 0
    rw [hpending, hwaiting]
    unfold PaymentQueue.pendingTimers
    rw [hqueue]
    rfl

/-- Submissions under distinct identifiers to a processor with a fresh dead-letter
    queue, with works that neither raise nor submit anything. When the run has
    ended the payments are settled, and it does end if nothing else is scheduled. -/
theorem dead_letter_outcomes (watched : Component σ (Observed ω ξ)) (program : ω → Action σ Unit)
    (other : ξ → Action σ Unit)
    (hprogram : ∀ work, OnlyMakes watched (Watched.exec submitRow queueOf) Watched.Use.Quiet
      (program work))
    (hother : ∀ callback, OnlyMakes watched (Watched.exec submitRow queueOf) Watched.Use.Quiet
      (other callback))
    (hreturns : ∀ work s, ¬ Raises (program work) s)
    (hothers : ∀ callback s, ¬ Raises (other callback) s) (clock : VirtualClock) (capacity : Int)
    (queue : AttemptQueue (DeadLetterWork ω) (DeadLetterWork ω) ξ)
    (hnew : PaymentQueue.new (EventScheduler.new clock) capacity = .ok queue)
    (maximumRetries retryDelay : Int) (engine : DeadLetterProcessor ω ξ)
    (hengine : new queue DeadLetterQueue.new maximumRetries retryDelay = .ok engine)
    (rows : List (DeadLetterRow ω)) (hids : (rows.map (·.paymentId)).Nodup) (s : σ) :
    (∀ rounds, ∃ ended t,
      (EventScheduler.run ((watched.comp (Watched.engineOf.comp queueOf)).comp schedulerOf)
          (call (watched.comp Watched.engineOf) (Watched.perform queueOf watched program) other)
          rounds).run (watched.set (Watched.given submitRow queueOf engine rows) s)
        = .ok ended t ∧
      (ended = true → Settled maximumRetries.toNat (rows.filter DeadLetterRow.accepted)
        (watched.get t))) ∧
    (IsEmpty ξ → ∃ t enough, ∀ rounds, enough ≤ rounds →
      (EventScheduler.run ((watched.comp (Watched.engineOf.comp queueOf)).comp schedulerOf)
          (call (watched.comp Watched.engineOf) (Watched.perform queueOf watched program) other)
          rounds).run (watched.set (Watched.given submitRow queueOf engine rows) s)
        = .ok true t) := by
  rcases new_ok hengine with ⟨limit, hdelay, rfl, rfl⟩
  rcases (lawful limit hdelay [] watched program).run_given hprogram hother hreturns hothers
    (fun how => Watched.Use.Quiet.keepsTime) (between_new True clock hnew)
    (law_new limit hdelay DeadLetterQueue.new clock hnew) rows s with ⟨hruns, hends⟩
  refine ⟨fun rounds => ?_, fun hempty => hends (fun how hhow => hhow) hempty⟩
  rcases hruns rounds with ⟨ended, t, hrun, left, hlaw, -, hsame, hended⟩
  refine ⟨ended, t, hrun, fun hdone => ?_⟩
  rcases hended hdone with ⟨hwaiting, hqueue, hnone⟩
  have hrows : (watched.get t).submitted = rows.filter DeadLetterRow.accepted :=
    hsame fun how hhow => hhow
  rw [← hrows, Int.toNat_natCast]
  refine hlaw.settled hnone hwaiting hqueue ?_
  rw [hrows]
  exact hids.sublist (List.filter_sublist.map _)

/-- Works that post their names. -/
def posting (work : String) : Action (Observed String Empty × List String) Unit :=
  modify fun s => (s.1, s.2 ++ [work])

/-- A processor that retries once. -/
def retryingOnce (deadLetters : DeadLetterQueue) : DeadLetterProcessor String Empty :=
  ⟨oneAMinute _ _, deadLetters, 1, 2, [], [], 0, numeral_pos passes⟩

/-- One payment that is never refused, one that is refused too often, and one that
    is not valid. -/
def threePayments : List (DeadLetterRow String) :=
  [{ paymentId := "PAY-1", requestId := "REQ-1", work := "post 1" },
    { paymentId := "PAY-2", requestId := "REQ-2", work := "post 2",
      failures := ["timeout", "timeout"] },
    { paymentId := "PAY-3", requestId := "REQ-3", work := "post 3", failures := ["timeout"],
      permanentReason := some .invalidPayment }]

theorem dead_letter_outcomes_threePayments :
    ∃ rounds t, (EventScheduler.run ((Component.first.comp (Watched.engineOf.comp queueOf)).comp
          schedulerOf)
        (call (Component.first.comp Watched.engineOf)
          (Watched.perform queueOf Component.first posting) Empty.elim) rounds).run
        (Watched.given submitRow queueOf (retryingOnce .new) threePayments, []) = .ok true t ∧
      Settled 1 threePayments t.1 := by
  rcases dead_letter_outcomes Component.first posting Empty.elim
    (fun work s => ⟨[], fun how hmem => absurd hmem List.not_mem_nil, rfl⟩)
    (fun callback => callback.elim) (fun work s ⟨e, t, herror⟩ => nomatch herror)
    (fun callback => callback.elim) ⟨0, by decide⟩ 1 (oneAMinute _ _) rfl 1 2 (retryingOnce .new)
    rfl threePayments (by decide) (Watched.new (retryingOnce .new), []) with ⟨hruns, hends⟩
  rcases hends inferInstance with ⟨t, enough, hend⟩
  rcases hruns enough with ⟨ended, u, hrun, hsettled⟩
  cases (hend enough (le_refl _)).symm.trans hrun
  exact ⟨enough, t, hrun, hsettled rfl⟩

/-! ### Any identifiers -/

/-- Each payment is completed or isolated, and not both, and the statistics add up. -/
def Accounted (self : DeadLetterProcessor ω ξ) : Prop :=
  (∀ payment ∈ self.payments, (payment.completed = true ∨ payment.isolated = true) ∧
    ¬ (payment.completed = true ∧ payment.isolated = true)) ∧
  self.statistics.itemsProcessed
    = self.statistics.successfulPayments + self.statistics.dlqEntries

/-- There are as many entries as payments that fail. -/
theorem Moves.count (h : Moves limit initial left moves self)
    (hplaces : ∀ i, i ∈ moves.map Prod.fst ↔
      ∃ row, self.submitted[i]? = some row ∧ Fails limit row = true) :
    self.engine.deadLetters.entries.length
        = initial.length + (self.submitted.filter (Fails limit)).length ∧
      ((self.submitted.filter (Fails limit)).map (·.paymentId)).Nodup := by
  rcases h.submissions with ⟨moved, hrows, -, hentries⟩
  have hperm : (moved.map Prod.fst).Perm (self.submitted.filter (Fails limit)) := by
    rw [hrows]
    exact perm_filter h.nodup hplaces
  have hall := h.entries
  rw [hentries] at hall
  constructor
  · rw [hall, List.length_append, ← hperm.length_eq, List.length_map, List.length_map]
  · -- No two entries have one identifier.
    have hnodup := self.engine.deadLetters.nodup
    rw [self.engine.deadLetters.paymentIds_eq, hall, List.map_append] at hnodup
    refine (hperm.map (·.paymentId)).nodup_iff.mp ?_
    have hids : (moved.map fun move => move.1.entryAt limit move.2).map (·.paymentId)
        = (moved.map Prod.fst).map (·.paymentId) := by
      rw [List.map_map, List.map_map]
      rfl
    rw [← hids]
    exact (List.nodup_append.mp hnodup).2.1

/-- When all is done, the payments are accounted for exactly when the dead-letter
    queue was fresh and those that fail have distinct identifiers. -/
theorem Law.accounted_iff (h : Law limit delay initial .free left self)
    (hdone : ∀ i, left i = 0) :
    Accounted self.engine ↔
      initial = [] ∧ ((self.submitted.filter (Fails limit)).map (·.paymentId)).Nodup := by
  rcases h with ⟨moves, hbooks, hmoves, -, -⟩
  have hlength := hbooks.length
  -- If exactly those are isolated that fail, the number of entries decides.
  have hcount : (∀ i, i ∈ moves.map Prod.fst ↔
      ∃ row, self.submitted[i]? = some row ∧ Fails limit row = true) →
      (self.engine.statistics.itemsProcessed = self.engine.statistics.successfulPayments
        + self.engine.statistics.dlqEntries ↔ initial = []) := by
    intro hplaces
    have hsplit := List.length_eq_countP_add_countP (Fails limit) (l := self.submitted)
    have hsuccesses : self.engine.statistics.successfulPayments
        = self.submitted.countP fun row => !Fails limit row := by
      change self.engine.payments.countP (·.completed) = _
      rw [hbooks.settled hdone hplaces, List.countP_map]
      refine List.countP_congr fun row _ => ?_
      simp [DeadLetterRow.after, recovers_eq]
    change self.engine.payments.length = _ + self.engine.deadLetters.entries.length ↔ _
    rw [hlength, hsuccesses, (hmoves.count hplaces).1, ← List.countP_eq_length_filter,
      ← List.length_eq_zero_iff]
    simp only [Bool.not_eq_true, Bool.decide_eq_false] at hsplit
    omega
  constructor
  · rintro ⟨hall, hsum⟩
    have hplaces : ∀ i, i ∈ moves.map Prod.fst ↔
        ∃ row, self.submitted[i]? = some row ∧ Fails limit row = true := by
      intro i
      constructor
      · intro hmem
        rcases (hmoves.failed i hmem).2 with ⟨row, hrow, hfails⟩
        exact ⟨row, hrow, (fails_iff limit row).mpr hfails⟩
      · -- It is not completed, so it is isolated.
        rintro ⟨row, hrow, hfails⟩
        have hpayment := hbooks.done hdone i
        rw [hrow] at hpayment
        rcases (hall _ (List.mem_of_getElem? hpayment)).1 with hcompleted | hisolated
        · simp [DeadLetterRow.after, recovers_eq, hfails] at hcompleted
        · exact of_decide_eq_true hisolated
    exact ⟨(hcount hplaces).mp hsum, (hmoves.count hplaces).2⟩
  · rintro ⟨rfl, hids⟩
    have hplaces := hmoves.places hdone hids
    refine ⟨fun payment hmem => ?_, (hcount hplaces).mpr rfl⟩
    rw [hbooks.settled hdone hplaces] at hmem
    rcases List.mem_map.mp hmem with ⟨row, -, rfl⟩
    cases hfails : Fails limit row <;> simp [DeadLetterRow.after, recovers_eq, hfails]

/-- Any submissions, with works that return. They may submit more. The run does not
    raise, and when it has ended the payments are accounted for exactly when the
    dead-letter queue was empty at first and no two submissions that are bound to
    fail share an identifier. -/
theorem payments_accounted_iff (watched : Component σ (Observed ω ξ))
    (program : ω → Action σ Unit) (other : ξ → Action σ Unit)
    (allowed : Watched.Use (DeadLetterRow ω) ξ → Prop)
    (hallowed : ∀ how, allowed how → how.KeepsTime)
    (hprogram : ∀ work, OnlyMakes watched (Watched.exec submitRow queueOf) allowed (program work))
    (hother : ∀ callback, OnlyMakes watched (Watched.exec submitRow queueOf) allowed
      (other callback))
    (hreturns : ∀ work s, ¬ Raises (program work) s)
    (hothers : ∀ callback s, ¬ Raises (other callback) s) (clock : VirtualClock) (capacity : Int)
    (queue : AttemptQueue (DeadLetterWork ω) (DeadLetterWork ω) ξ)
    (hnew : PaymentQueue.new (EventScheduler.new clock) capacity = .ok queue)
    (deadLetters : DeadLetterQueue) (maximumRetries retryDelay : Int)
    (engine : DeadLetterProcessor ω ξ)
    (hengine : new queue deadLetters maximumRetries retryDelay = .ok engine)
    (rows : List (DeadLetterRow ω)) (s : σ) (rounds : Nat) :
    ∃ ended t,
      (EventScheduler.run ((watched.comp (Watched.engineOf.comp queueOf)).comp schedulerOf)
          (call (watched.comp Watched.engineOf) (Watched.perform queueOf watched program) other)
          rounds).run (watched.set (Watched.given submitRow queueOf engine rows) s)
        = .ok ended t ∧
      rows.filter DeadLetterRow.accepted <+: (watched.get t).submitted ∧
      ((∀ how, allowed how → how.Quiet) →
        (watched.get t).submitted = rows.filter DeadLetterRow.accepted) ∧
      (ended = true → (Accounted (watched.get t).engine ↔ deadLetters.entries = [] ∧
        (((watched.get t).submitted.filter (Fails maximumRetries.toNat)).map
          (·.paymentId)).Nodup)) := by
  rcases new_ok hengine with ⟨limit, hdelay, rfl, rfl⟩
  rcases (lawful limit hdelay deadLetters.entries watched program).run_given hprogram hother
    hreturns hothers hallowed (between_new True clock hnew)
    (law_new limit hdelay deadLetters clock hnew) rows s with ⟨hruns, -⟩
  rcases hruns rounds with ⟨ended, t, hrun, left, hlaw, hextends, hsame, hended⟩
  refine ⟨ended, t, hrun, hextends, hsame, fun hdone => ?_⟩
  rw [Int.toNat_natCast]
  exact hlaw.accounted_iff (hended hdone).2.2

/-- Two submissions under one identifier that are bound to fail. -/
def failsTwice : List (DeadLetterRow String) :=
  [{ paymentId := "PAY-1", requestId := "REQ-1", work := "post 1",
     permanentReason := some .invalidPayment },
    { paymentId := "PAY-1", requestId := "REQ-2", work := "post 2",
      permanentReason := some .staleEvent }]

theorem payments_accounted_iff_failsTwice :
    ∃ ended t, (EventScheduler.run ((Component.first.comp (Watched.engineOf.comp queueOf)).comp
          schedulerOf)
        (call (Component.first.comp Watched.engineOf)
          (Watched.perform queueOf Component.first posting) Empty.elim) 8).run
        (Watched.given submitRow queueOf (retryingOnce .new) failsTwice, []) = .ok ended t ∧
      (ended = true → (Accounted t.1.engine ↔ (DeadLetterQueue.new).entries = [] ∧
        ((t.1.submitted.filter (Fails 1)).map (·.paymentId)).Nodup)) := by
  rcases payments_accounted_iff Component.first posting Empty.elim Watched.Use.KeepsTime
    (fun how hhow => hhow) (fun work s => ⟨[], fun how hmem => absurd hmem List.not_mem_nil, rfl⟩)
    (fun callback => callback.elim) (fun work s ⟨e, t, herror⟩ => nomatch herror)
    (fun callback => callback.elim) ⟨0, by decide⟩ 1 (oneAMinute _ _) rfl .new 1 2
    (retryingOnce .new) rfl failsTwice (Watched.new (retryingOnce .new), []) 8 with
    ⟨ended, t, hrun, -, -, hiff⟩
  exact ⟨ended, t, hrun, hiff⟩

/-- The second of them is neither completed nor isolated. -/
theorem failsTwice_not_accounted :
    ∃ rounds t, (EventScheduler.run ((Component.first.comp (Watched.engineOf.comp queueOf)).comp
          schedulerOf)
        (call (Component.first.comp Watched.engineOf)
          (Watched.perform queueOf Component.first posting) Empty.elim) rounds).run
        (Watched.given submitRow queueOf (retryingOnce .new) failsTwice, []) = .ok true t ∧
      ¬ Accounted t.1.engine := by
  have hfresh : PaymentQueue.new (EventScheduler.new ⟨0, by decide⟩) 1
      = .ok (oneAMinute (DeadLetterWork String)
        (RetryCallback (DeadLetterWork String) Empty)) := rfl
  have hdelay : (0 : Int) < 2 := by decide
  rcases (lawful 1 hdelay [] Component.first posting).run_given
    (fun work s => ⟨[], fun how hmem => absurd hmem List.not_mem_nil, rfl⟩)
    (fun callback => callback.elim) (fun work s ⟨e, t, herror⟩ => nomatch herror)
    (fun callback => callback.elim) (fun how => Watched.Use.Quiet.keepsTime)
    (between_new True _ hfresh) (law_new 1 hdelay .new _ hfresh) failsTwice
    (Watched.new (retryingOnce .new), []) with ⟨hruns, hends⟩
  rcases hends (fun how hhow => hhow) inferInstance with ⟨t, enough, hend⟩
  rcases hruns enough with ⟨ended, u, hrun, left, hlaw, -, hsame, hended⟩
  cases (hend enough (le_refl _)).symm.trans hrun
  refine ⟨enough, t, hrun, fun haccounted => ?_⟩
  have hids := ((hlaw.accounted_iff (hended rfl).2.2).mp haccounted).2
  rw [hsame fun how hhow => hhow] at hids
  revert hids
  decide

end DeadLetterProcessor

end BankSim
