import BankSim.Theory.Engines
import BankSim.Theory.LockStep

/-!
# Engines that Agree

Two lawful engines that make the same of their submissions stay together, whatever
a client does with them. The client is one program for both. What it does when a
work or another callback is called is an `Errand`: it asks for one thing after the
other, is told whether it was granted, and goes on accordingly. It knows the time
and it has a memory, but it does not look inside the engine.

`Agree` relates the two engines with as many attempts left for each payment. An
attempt has the same end with both, because that depends on no more than this and
on the terms. The two laws give what each end does to the queues, and so the
outlines remain the same.

## Main definitions

* `Request`, `Errand`, `Client`: What callers do.
* `ClientStep`: A step of a run.
* `SameTerms`: Engines that make the same of submissions.
* `Agree`: The relation.

## Theorems

* `Errand.onlyMakes`, `Errand.not_raises`: Errands make requests and return.
* `Agree.grant`, `Agree.call`: Requests and callers.
* `Agree.run_work`, `Agree.run_attempt`, `Agree.run_event`: Attempts and events.
* `agree_steps`: The engines agree after any steps.
-/

namespace BankSim

open Exec PaymentQueue

/-! ### Errands -/

/-- What a caller can ask of an engine without moving its clock. -/
inductive Request (row ξ : Type)
  | submit (row : row)
  | scheduleAt (time : Int) (callback : ξ)
  | scheduleAfter (delay : Int) (callback : ξ)

/-- The request to an engine that has submissions of its own kind. -/
def Request.use {row row' ξ : Type} (f : row → row') : Request row ξ → Watched.Use row' ξ
  | .submit row => .submit (f row)
  | .scheduleAt time callback => .scheduleAt time callback
  | .scheduleAfter delay callback => .scheduleAfter delay callback

theorem Request.keepsTime {row row' ξ : Type} (f : row → row') (request : Request row ξ) :
    (request.use f).KeepsTime := by
  cases request <;> trivial

/-- What a caller does when it is called: it asks for things, one after the other,
    is told whether they were granted, and leaves a memory behind. -/
inductive Errand (row ξ ρ : Type)
  | done (memory : ρ)
  | ask (request : Request row ξ) (next : Bool → Errand row ξ ρ)

namespace Errand

variable {row ξ ρ τ : Type}

/-- The errand next to what grants the requests. Exceptions are caught. -/
def run (grant : Request row ξ → Action τ Unit) : Errand row ξ ρ → Action (τ × ρ) Unit
  | .done memory => modify fun s => (s.1, memory)
  | .ask request next => do
      let granted ← caught (Component.first.zoom (grant request))
      (next granted).run grant

variable (grant : Request row ξ → Action τ Unit)

theorem not_raises (errand : Errand row ξ ρ) : ∀ s, ¬ Raises (errand.run grant) s := by
  induction errand with
  | done memory => exact fun s => not_raises_pure () (s.1, memory)
  | ask request next ih =>
      rintro s ⟨e, t, herror⟩
      rcases caught_run (Component.first.zoom (grant request)) s with ⟨granted, hrun⟩
      rw [run, run_bind_of_ok hrun] at herror
      exact ih granted _ ⟨e, t, herror⟩

/-- An errand makes its requests, and no other calls. -/
theorem onlyMakes {κ : Type} {exec : κ → Action τ Unit} {allowed : κ → Prop}
    (how : Request row ξ → κ)
    (hgrant : ∀ request, grant request = exec (how request) ∧ allowed (how request))
    (errand : Errand row ξ ρ) : OnlyMakes Component.first exec allowed (errand.run grant) := by
  induction errand with
  | done memory => exact fun s => ⟨[], fun call hmem => absurd hmem List.not_mem_nil, rfl⟩
  | ask request next ih =>
      intro s
      rcases caught_run (Component.first.zoom (grant request)) s with ⟨granted, hrun⟩
      rcases ih granted (after (Component.first.zoom (grant request)) s) with
        ⟨calls, hcalls, hafter⟩
      refine ⟨how request :: calls, fun call hmem => ?_, ?_⟩
      · rcases List.mem_cons.mp hmem with rfl | hmem
        · exact (hgrant request).2
        · exact hcalls call hmem
      · rw [run, after_bind_ok hrun, hafter, Component.after_zoom, Component.first.get_set,
          (hgrant request).1]
        rfl

end Errand

/-- What is called in the course of a run: the works of payments and the other
    callbacks. What they do depends on the time and on their memory. -/
structure Client (row ω ξ ρ : Type) where
  perform : ω → Int → ρ → Errand row ξ ρ
  other : ξ → Int → ρ → Errand row ξ ρ

namespace Client

variable {row row' ω ξ ρ δ γ θ : Type} (f : row → row') (submit : row' → Action δ Unit)
  (queueOf : Component δ (AttemptQueue γ θ ξ))

/-- An engine under observation grants a request. -/
def grant (request : Request row ξ) : Action (Watched δ row' ω) Unit :=
  Watched.exec submit queueOf (request.use f)

/-- The errand of a caller, at the time it is. -/
def call (errand : Int → ρ → Errand row ξ ρ) : Action (Watched δ row' ω × ρ) Unit := do
  let s ← get
  (errand (s.1.now queueOf) s.2).run (grant f submit queueOf)

variable {f submit queueOf} (errand : Int → ρ → Errand row ξ ρ)

theorem call_run (s : Watched δ row' ω × ρ) :
    (call f submit queueOf errand).run s
      = ((errand (s.1.now queueOf) s.2).run (grant f submit queueOf)).run s := by
  unfold call
  rw [run_bind_get]

theorem not_raises (s : Watched δ row' ω × ρ) : ¬ Raises (call f submit queueOf errand) s := by
  rintro ⟨e, t, herror⟩
  rw [call_run] at herror
  exact Errand.not_raises _ _ s ⟨e, t, herror⟩

theorem onlyMakes : OnlyMakes Component.first (Watched.exec submit queueOf)
    Watched.Use.KeepsTime (call f submit queueOf errand : Action (Watched δ row' ω × ρ) Unit) := by
  intro s
  have hafter : after (call f submit queueOf errand) s
      = after ((errand (s.1.now queueOf) s.2).run (grant f submit queueOf)) s := by
    unfold after
    rw [call_run]
  rw [hafter]
  exact Errand.onlyMakes _ (Request.use f) (fun request => ⟨rfl, request.keepsTime f⟩) _ s

end Client

/-- A step of a run: the caller asks for something from outside, or an event is
    run. -/
inductive ClientStep (row ξ : Type)
  | ask (request : Request row ξ)
  | runNext

namespace ClientStep

variable {row row' ω ξ ρ δ γ θ : Type}

/-- The step with an engine. -/
def exec (f : row → row') (submit : row' → Action δ Unit)
    (queueOf : Component δ (AttemptQueue γ θ ξ)) (client : Client row ω ξ ρ)
    (attempt : γ → Action (Watched δ row' ω × ρ) Unit) (retry : θ → Action δ Unit) :
    ClientStep row ξ → Action (Watched δ row' ω × ρ) Unit
  | .ask request => Component.first.zoom (Client.grant f submit queueOf request)
  | .runNext => do
      let _ ← EventScheduler.runNext
        ((Component.first.comp (Watched.engineOf.comp queueOf)).comp PaymentQueue.schedulerOf)
        (Watched.call queueOf Component.first attempt retry fun callback =>
          Client.call f submit queueOf (client.other callback))

end ClientStep

/-! ### Two engines -/

/-- Two engines make the same of submissions that correspond to each other. -/
structure SameTerms {row row₁ row₂ ω : Type} (f : row → row₁) (f' : row → row₂)
    (terms : Terms row₁ ω) (terms' : Terms row₂ ω) : Prop where
  accepted : ∀ row, terms.accepted (f row) = terms'.accepted (f' row)
  paymentId : ∀ row, terms.paymentId (f row) = terms'.paymentId (f' row)
  work : ∀ row, terms.work (f row) = terms'.work (f' row)
  total : ∀ row, terms.total (f row) = terms'.total (f' row)
  recovers : ∀ row, terms.recovers (f row) = terms'.recovers (f' row)

section Agree

variable {row row₁ row₂ ω ξ ρ δ δ' γ γ' θ θ' : Type} [Attempting γ θ] [Attempting γ' θ']

/-- Two engines at the same moment of two runs: they have the same submissions and
    as many attempts left for each payment, their queues have the same outline,
    they have called the same works at the same times, and the memory of the client
    is the same. -/
structure Agree (f : row → row₁) (f' : row → row₂) (queueOf : Component δ (AttemptQueue γ θ ξ))
    (queueOf' : Component δ' (AttemptQueue γ' θ' ξ))
    (Law : Hand → (Nat → Nat) → Watched δ row₁ ω → Prop)
    (Law' : Hand → (Nat → Nat) → Watched δ' row₂ ω → Prop) (hand : Hand) (left : Nat → Nat)
    (rows : List row) (s : Watched δ row₁ ω × ρ) (t : Watched δ' row₂ ω × ρ) : Prop where
  law : Law hand left s.1
  law' : Law' hand left t.1
  submitted : s.1.submitted = rows.map f
  submitted' : t.1.submitted = rows.map f'
  invoked : s.1.invoked = t.1.invoked
  outline : (s.1.queue queueOf).outline = (t.1.queue queueOf').outline
  memory : s.2 = t.2

variable {f : row → row₁} {f' : row → row₂} {queueOf : Component δ (AttemptQueue γ θ ξ)}
  {queueOf' : Component δ' (AttemptQueue γ' θ' ξ)}
  {Law : Hand → (Nat → Nat) → Watched δ row₁ ω → Prop}
  {Law' : Hand → (Nat → Nat) → Watched δ' row₂ ω → Prop} {submit : row₁ → Action δ Unit}
  {submit' : row₂ → Action δ' Unit} {terms : Terms row₁ ω} {terms' : Terms row₂ ω} {delay : Int}
  {attempt : γ → Action (Watched δ row₁ ω × ρ) Unit}
  {attempt' : γ' → Action (Watched δ' row₂ ω × ρ) Unit} {retry : θ → Action δ Unit}
  {retry' : θ' → Action δ' Unit} {Fits : List row₁ → γ → Prop} {Fits' : List row₂ → γ' → Prop}
  {client : Client row ω ξ ρ} {hand : Hand} {left : Nat → Nat} {rows : List row}
  {s : Watched δ row₁ ω × ρ} {t : Watched δ' row₂ ω × ρ}

/-- The engines agree, and there may be more submissions than these. -/
def AgreeLater (f : row → row₁) (f' : row → row₂) (queueOf : Component δ (AttemptQueue γ θ ξ))
    (queueOf' : Component δ' (AttemptQueue γ' θ' ξ))
    (Law : Hand → (Nat → Nat) → Watched δ row₁ ω → Prop)
    (Law' : Hand → (Nat → Nat) → Watched δ' row₂ ω → Prop) (hand : Hand) (rows : List row)
    (s : Watched δ row₁ ω × ρ) (t : Watched δ' row₂ ω × ρ) : Prop :=
  ∃ left later, Agree f f' queueOf queueOf' Law Law' hand left later s t ∧ rows <+: later

variable
  (h : Lawful terms delay submit queueOf Component.first
    (fun work => Client.call f submit queueOf (client.perform work)) attempt retry Fits Law)
  (h' : Lawful terms' delay submit' queueOf' Component.first
    (fun work => Client.call f' submit' queueOf' (client.perform work)) attempt' retry' Fits' Law')

include h h'

/-- Something else is scheduled in both. -/
theorem Agree.scheduling (hagree : Agree f f' queueOf queueOf' Law Law' hand left rows s t)
    (time : Int) (callback : ξ) :
    Agree f f' queueOf queueOf' Law Law' hand left rows
      (s.1.scheduling queueOf time callback, s.2) (t.1.scheduling queueOf' time callback, t.2) where
  law := h.scheduling hagree.law time callback
  law' := h'.scheduling hagree.law' time callback
  submitted := hagree.submitted
  submitted' := hagree.submitted'
  invoked := hagree.invoked
  outline := by
    change PaymentQueue.outline (queueOf.get (queueOf.set _ _))
      = PaymentQueue.outline (queueOf'.get (queueOf'.set _ _))
    rw [queueOf.get_set, queueOf'.get_set, outline_scheduled, outline_scheduled]
    exact congrArg (fun queue : PaymentQueue Nat _ => { queue with
      scheduler := queue.scheduler.scheduled time (.other (.other callback)) }) hagree.outline
  memory := hagree.memory

variable (hterms : SameTerms f f' terms terms')

include hterms

/-- A submission is accepted by both. -/
theorem Agree.accept (hagree : Agree f f' queueOf queueOf' Law Law' hand left rows s t)
    (hheld : hand.held = none) {row : row} (haccepted : terms.accepted (f row) = true) :
    ∃ engine engine' left', (submit (f row)).run s.1.engine = .ok () engine ∧
      (submit' (f' row)).run t.1.engine = .ok () engine' ∧
      Agree f f' queueOf queueOf' Law Law' hand left' (rows ++ [row])
        ({ s.1 with engine, submitted := s.1.submitted ++ [f row] }, s.2)
        ({ t.1 with engine := engine', submitted := t.1.submitted ++ [f' row] }, t.2) := by
  rcases h.accept hagree.law hheld haccepted with ⟨engine, task, hrun, hlaw, hplace, hqueue⟩
  rcases h'.accept hagree.law' hheld (hterms.accepted row ▸ haccepted) with
    ⟨engine', task', hrun', hlaw', hplace', hqueue'⟩
  have hlength : s.1.submitted.length = t.1.submitted.length := by
    rw [hagree.submitted, hagree.submitted', List.length_map, List.length_map]
  refine ⟨engine, engine', _, hrun, hrun', hlaw, ?_, ?_, ?_, hagree.invoked, ?_, hagree.memory⟩
  · rw [hlength, hterms.total row]
    exact hlaw'
  · change s.1.submitted ++ [f row] = _
    rw [hagree.submitted, List.map_append]
    rfl
  · change t.1.submitted ++ [f' row] = _
    rw [hagree.submitted', List.map_append]
    rfl
  · change PaymentQueue.outline (queueOf.get engine) = PaymentQueue.outline (queueOf'.get engine')
    rw [hqueue, hqueue', outline_awoken, outline_awoken, outline_arrived, outline_arrived,
      hagree.outline, hterms.paymentId, hplace, hplace', hlength]

/-- A request is granted by both or by neither. -/
theorem Agree.grant (hagree : Agree f f' queueOf queueOf' Law Law' hand left rows s t)
    (hheld : hand.held = none) (request : Request row ξ) :
    Alike (fun _ => AgreeLater f f' queueOf queueOf' Law Law' hand rows)
      (AgreeLater f f' queueOf queueOf' Law Law' hand rows)
      (Component.first.zoom (Client.grant f submit queueOf request))
      (Component.first.zoom (Client.grant f' submit' queueOf' request)) s t := by
  have hclock : (s.1.queue queueOf).scheduler.clock = (t.1.queue queueOf').scheduler.clock :=
    clock_of_outline hagree.outline
  -- Where both refuse, nothing changes on either side.
  have hsame : AgreeLater f f' queueOf queueOf' Law Law' hand rows s t :=
    ⟨left, rows, hagree, List.prefix_rfl⟩
  cases request with
  | submit row =>
      cases haccepted : terms.accepted (f row) with
      | false =>
          rcases h.refuse haccepted s.1.engine with ⟨e, hrun⟩
          rcases h'.refuse (hterms.accepted row ▸ haccepted) t.1.engine with ⟨e', hrun'⟩
          exact alike_of_error
            (Component.zoom_run_error (p := Component.first)
              (run_bind_of_error (Component.zoom_run_error (p := Watched.engineOf) hrun)))
            (Component.zoom_run_error (p := Component.first)
              (run_bind_of_error (Component.zoom_run_error (p := Watched.engineOf) hrun'))) hsame
      | true =>
          rcases hagree.accept h h' hterms hheld haccepted with
            ⟨engine, engine', left', hrun, hrun', hlater⟩
          exact alike_of_ok
            (Component.zoom_run_ok (p := Component.first)
              (run_bind_of_ok (Component.zoom_run_ok (p := Watched.engineOf) hrun)))
            (Component.zoom_run_ok (p := Component.first)
              (run_bind_of_ok (Component.zoom_run_ok (p := Watched.engineOf) hrun')))
            ⟨left', _, hlater, List.prefix_append _ _⟩
  | scheduleAt time callback =>
      by_cases htime : (s.1.queue queueOf).scheduler.clock.time ≤ time
      · exact alike_of_ok
          (Component.zoom_run_ok (p := Component.first)
            (s.1.scheduling_run (EventScheduler.scheduleAt_of_le _ htime)))
          (Component.zoom_run_ok (p := Component.first)
            (t.1.scheduling_run (EventScheduler.scheduleAt_of_le _ (hclock ▸ htime))))
          ⟨left, rows, hagree.scheduling h h' time callback, List.prefix_rfl⟩
      · rcases @EventScheduler.scheduleAt_of_lt _ (s.1.queue queueOf).scheduler time
          (.other (.other callback)) (not_le.mp htime) with ⟨e, -, hrun⟩
        rcases @EventScheduler.scheduleAt_of_lt _ (t.1.queue queueOf').scheduler time
          (.other (.other callback)) (hclock ▸ not_le.mp htime) with ⟨e', -, hrun'⟩
        exact alike_of_error
          (Component.zoom_run_error (p := Component.first) (s.1.refused_run hrun))
          (Component.zoom_run_error (p := Component.first) (t.1.refused_run hrun')) hsame
  | scheduleAfter delay callback =>
      by_cases hdelay : 0 ≤ delay
      · refine alike_of_ok
          (Component.zoom_run_ok (p := Component.first)
            (s.1.scheduling_run (EventScheduler.scheduleAfter_of_nonneg _ hdelay)))
          (Component.zoom_run_ok (p := Component.first)
            (t.1.scheduling_run (EventScheduler.scheduleAfter_of_nonneg _ hdelay)))
          ⟨left, rows, ?_, List.prefix_rfl⟩
        rw [← hclock]
        exact hagree.scheduling h h' _ callback
      · rcases @EventScheduler.scheduleAfter_of_neg _ (s.1.queue queueOf).scheduler delay
          (.other (.other callback)) (not_le.mp hdelay) with ⟨e, hrun⟩
        rcases @EventScheduler.scheduleAfter_of_neg _ (t.1.queue queueOf').scheduler delay
          (.other (.other callback)) (not_le.mp hdelay) with ⟨e', hrun'⟩
        exact alike_of_error
          (Component.zoom_run_error (p := Component.first) (s.1.refused_run hrun))
          (Component.zoom_run_error (p := Component.first) (t.1.refused_run hrun')) hsame

/-- An errand is the same on both sides. -/
theorem Agree.errand (hagree : Agree f f' queueOf queueOf' Law Law' hand left rows s t)
    (hheld : hand.held = none) (errand : Errand row ξ ρ) {E : _ → _ → Prop} :
    Alike (fun _ => AgreeLater f f' queueOf queueOf' Law Law' hand rows) E
      (errand.run (Client.grant f submit queueOf)) (errand.run (Client.grant f' submit' queueOf'))
      s t := by
  induction errand generalizing left rows s t with
  | done memory =>
      exact alike_of_ok rfl rfl ⟨left, rows, ⟨hagree.law, hagree.law', hagree.submitted,
        hagree.submitted', hagree.invoked, hagree.outline, rfl⟩, List.prefix_rfl⟩
  | ask request next ih =>
      refine (alike_caught (hagree.grant h h' hterms hheld request)).bind ?_
      rintro granted s t ⟨left', later, hlater, hprefix⟩
      refine (ih granted hlater).mono ?_ fun _ _ hend => hend
      rintro _ s t ⟨left'', last, hlast, hprefix'⟩
      exact ⟨left'', last, hlast, hprefix.trans hprefix'⟩

/-- A caller is called on both sides. -/
theorem Agree.call (hagree : Agree f f' queueOf queueOf' Law Law' hand left rows s t)
    (hheld : hand.held = none) (errand : Int → ρ → Errand row ξ ρ) {E : _ → _ → Prop} :
    Alike (fun _ => AgreeLater f f' queueOf queueOf' Law Law' hand rows) E
      (Client.call f submit queueOf errand) (Client.call f' submit' queueOf' errand) s t := by
  have hnow : s.1.now queueOf = t.1.now queueOf' :=
    congrArg VirtualClock.time (clock_of_outline hagree.outline)
  refine alike_congr (Client.call_run errand s) (Client.call_run errand t) ?_
  rw [hnow, hagree.memory]
  exact hagree.errand h h' hterms hheld _

/-- The engines agree, and if attempts were taken out of their queues these are
    attempts at one payment. -/
def AgreeHolding (f : row → row₁) (f' : row → row₂) (queueOf : Component δ (AttemptQueue γ θ ξ))
    (queueOf' : Component δ' (AttemptQueue γ' θ' ξ))
    (Law : Hand → (Nat → Nat) → Watched δ row₁ ω → Prop)
    (Law' : Hand → (Nat → Nat) → Watched δ' row₂ ω → Prop) (Fits : List row₁ → γ → Prop)
    (Fits' : List row₂ → γ' → Prop) (held : Option (γ × γ')) (s : Watched δ row₁ ω × ρ)
    (t : Watched δ' row₂ ω × ρ) : Prop :=
  ∃ left rows, Agree f f' queueOf queueOf' Law Law'
      (held.elim .free fun tasks => .taken (place tasks.1)) left rows s t ∧
    ∀ tasks ∈ held, Fits s.1.submitted tasks.1 ∧ Fits' t.1.submitted tasks.2 ∧
      place tasks.1 = place tasks.2

omit h h' hterms in
theorem Agree.free (hagree : Agree f f' queueOf queueOf' Law Law' .free left rows s t) :
    AgreeHolding f f' queueOf queueOf' Law Law' Fits Fits' none s t :=
  ⟨left, rows, hagree, fun _ hnone => nomatch hnone⟩

omit h h' hterms in
/-- The submissions in a place correspond to each other. -/
theorem Agree.at_place (hagree : Agree f f' queueOf queueOf' Law Law' hand left rows s t) {i : Nat}
    {row : row} (hrow : rows[i]? = some row) :
    s.1.submitted[i]? = some (f row) ∧ t.1.submitted[i]? = some (f' row) := by
  rw [hagree.submitted, hagree.submitted', List.getElem?_map, List.getElem?_map, hrow]
  exact ⟨rfl, rfl⟩

omit h h' hterms in
theorem Agree.exists_row (hagree : Agree f f' queueOf queueOf' Law Law' hand left rows s t)
    {i : Nat} (hsubmitted : ∃ row₁, s.1.submitted[i]? = some row₁) :
    ∃ row, rows[i]? = some row := by
  rcases hsubmitted with ⟨row₁, hrow₁⟩
  rw [hagree.submitted, List.getElem?_map, Option.map_eq_some_iff] at hrow₁
  rcases hrow₁ with ⟨row, hrow, -⟩
  exact ⟨row, hrow⟩

omit h h' hterms in
/-- The engines agree after a step that leaves their queues with the same outline. -/
theorem Agree.withEngine (hagree : Agree f f' queueOf queueOf' Law Law' hand left rows s t)
    {hand' : Hand} {left' : Nat → Nat} {engine : δ} {engine' : δ'}
    (hlaw : Law hand' left' { s.1 with engine })
    (hlaw' : Law' hand' left' { t.1 with engine := engine' })
    (houtline : PaymentQueue.outline (queueOf.get engine)
      = PaymentQueue.outline (queueOf'.get engine')) :
    Agree f f' queueOf queueOf' Law Law' hand' left' rows
      ({ s.1 with engine }, s.2) ({ t.1 with engine := engine' }, t.2) :=
  ⟨hlaw, hlaw', hagree.submitted, hagree.submitted', hagree.invoked, houtline, hagree.memory⟩

omit h h' hterms in
/-- They agree with other queues of the same outline. -/
theorem Agree.withQueue (hagree : Agree f f' queueOf queueOf' Law Law' hand left rows s t)
    {hand' : Hand} {queue : AttemptQueue γ θ ξ} {queue' : AttemptQueue γ' θ' ξ}
    (hlaw : Law hand' left (s.1.withQueue queueOf queue))
    (hlaw' : Law' hand' left (t.1.withQueue queueOf' queue'))
    (houtline : queue.outline = queue'.outline) :
    Agree f f' queueOf queueOf' Law Law' hand' left rows
      (s.1.withQueue queueOf queue, s.2) (t.1.withQueue queueOf' queue', t.2) := by
  refine hagree.withEngine hlaw hlaw' ?_
  rw [queueOf.get_set, queueOf'.get_set]
  exact houtline

omit h h' hterms in
/-- The call of a work is recorded on both sides. -/
theorem Agree.calling (hagree : Agree f f' queueOf queueOf' Law Law' hand left rows s t)
    {hand' : Hand} {left' : Nat → Nat} {engine : δ} {engine' : δ'} {work : ω}
    (hqueue : queueOf.get engine = s.1.queue queueOf)
    (hqueue' : queueOf'.get engine' = t.1.queue queueOf')
    (hlaw : Law hand' left' ({ s.1 with engine }.calling queueOf work))
    (hlaw' : Law' hand' left' ({ t.1 with engine := engine' }.calling queueOf' work)) :
    Agree f f' queueOf queueOf' Law Law' hand' left' rows
      ({ s.1 with engine }.calling queueOf work, s.2)
      ({ t.1 with engine := engine' }.calling queueOf' work, t.2) where
  law := hlaw
  law' := hlaw'
  submitted := hagree.submitted
  submitted' := hagree.submitted'
  invoked := by
    change s.1.invoked ++ [(_, (queueOf.get engine).scheduler.clock.time)]
      = t.1.invoked ++ [(_, (queueOf'.get engine').scheduler.clock.time)]
    rw [hqueue, hqueue', hagree.invoked, clock_of_outline hagree.outline]
  outline := by
    change PaymentQueue.outline (queueOf.get engine) = PaymentQueue.outline (queueOf'.get engine')
    rw [hqueue, hqueue']
    exact hagree.outline
  memory := hagree.memory

/-- An attempt that comes to the work goes alike. -/
theorem Agree.run_work {task : γ} {task' : γ'}
    (hagree : Agree f f' queueOf queueOf' Law Law' (.taken (place task)) left rows s t)
    (hfits : Fits s.1.submitted task) (hfits' : Fits' t.1.submitted task')
    (hplace : place task = place task') (hlast : left (place task) = 1) {row : row}
    (hrow : rows[place task]? = some row) (hrecovers : terms.recovers (f row) = true) :
    Alike (fun _ => AgreeHolding f f' queueOf queueOf' Law Law' Fits Fits' none)
      (AgreeHolding f f' queueOf queueOf' Law Law' Fits Fits' none) (attempt task) (attempt' task')
      s t := by
  rcases hagree.at_place hrow with ⟨hrow₁, hrow₂⟩
  rw [hplace] at hrow₂
  rcases h.work hagree.law hfits hlast hrow₁ hrecovers with
    ⟨engine, finish, hrun, hworking, hqueue, hfinish⟩
  rcases h'.work (hplace ▸ hagree.law') hfits' (hplace ▸ hlast) hrow₂
    (hterms.recovers row ▸ hrecovers) with
    ⟨engine', finish', hrun', hworking', hqueue', hfinish'⟩
  rw [← hplace, ← hterms.work] at hworking'
  rw [← hplace] at hfinish'
  refine alike_congr hrun hrun' ?_
  unfold Watched.perform
  rw [bind_assoc, bind_assoc]
  refine alike_congr (run_bind_of_ok (Component.first.zoom_modify_run _ _))
    (run_bind_of_ok (Component.first.zoom_modify_run _ _)) ?_
  rw [Component.first.get_set, Component.first.get_set, Component.first.set_set,
    Component.first.set_set, ← hterms.work]
  -- The work is done on both sides, and the payment is closed.
  refine ((hagree.calling hqueue hqueue' hworking hworking').call h h' hterms rfl
    (client.perform (terms.work (f row)))).bind ?_
  rintro _ s' t' ⟨left', later, hlater, more, rfl⟩
  have hrow' : (rows ++ more)[place task]? = some row :=
    Places.getElem?_append_of_some hrow more
  rcases hfinish left' s'.1 hlater.law (hlater.at_place hrow').1 with ⟨last, hdone, hfree, hqueue⟩
  rcases hfinish' left' t'.1 hlater.law' (hlater.at_place hrow').2 with
    ⟨last', hdone', hfree', hqueue'⟩
  refine alike_of_ok
    (Component.zoom_run_ok (p := Component.first.comp Watched.engineOf) hdone)
    (Component.zoom_run_ok (p := Component.first.comp Watched.engineOf) hdone')
    (hlater.withEngine hfree hfree' ?_).free
  rw [hqueue, hqueue', hlater.outline]

/-- An attempt goes alike. -/
theorem Agree.run_attempt {task : γ} {task' : γ'}
    (hagree : Agree f f' queueOf queueOf' Law Law' (.taken (place task)) left rows s t)
    (hfits : Fits s.1.submitted task) (hfits' : Fits' t.1.submitted task')
    (hplace : place task = place task') :
    Alike (fun _ => AgreeHolding f f' queueOf queueOf' Law Law' Fits Fits' none)
      (AgreeHolding f f' queueOf queueOf' Law Law' Fits Fits' none) (attempt task) (attempt' task')
      s t := by
  have hlaw' : Law' (.taken (place task')) left t.1 := hplace ▸ hagree.law'
  have hpos := (h.tokens hagree.law).held_pos.1
  have houtline : ((Component.first.get s).queue queueOf).outline
      = ((Component.first.get t).queue queueOf').outline := hagree.outline
  have hclock := clock_of_outline houtline
  rcases hagree.exists_row (h.fits hfits) with ⟨row, hrow⟩
  rcases hagree.at_place hrow with ⟨hrow₁, hrow₂⟩
  rw [hplace] at hrow₂
  by_cases hmore : 1 < left (place task)
  · -- Both schedule the next attempt.
    rcases h.again hagree.law hfits hmore with ⟨engine, timer, hrun, hfree, htimer, hqueue⟩
    rcases h'.again hlaw' hfits' (hplace ▸ hmore) with
      ⟨engine', timer', hrun', hfree', htimer', hqueue'⟩
    rw [← hplace] at hfree'
    refine alike_of_ok hrun hrun' (hagree.withEngine hfree hfree' ?_).free
    rw [hqueue, hqueue', outline_scheduled, outline_scheduled, houtline, hclock]
    simp only [QueueCallback.outline, htimer, htimer', hplace]
  · have hlast : left (place task) = 1 := by omega
    cases hrecovers : terms.recovers (f row) with
    | false =>
        -- Both fail for good.
        rcases h.giveUp hagree.law hfits hlast hrow₁ hrecovers with ⟨engine, hrun, hfree, hqueue⟩
        rcases h'.giveUp hlaw' hfits' (hplace ▸ hlast) hrow₂ (hterms.recovers row ▸ hrecovers) with
          ⟨engine', hrun', hfree', hqueue'⟩
        rw [← hplace] at hfree'
        refine alike_of_ok hrun hrun' (hagree.withEngine hfree hfree' ?_).free
        rw [hqueue, hqueue', houtline]
    | true => exact hagree.run_work h h' hterms hfits hfits' hplace hlast hrow hrecovers

omit [Attempting γ θ] h h' hterms in
/-- A timer that fires on one of the engines. -/
theorem run_timer {self : Watched δ row₁ ω} {timer : θ} {queue : AttemptQueue γ θ ξ} {engine : δ}
    (hrun : (retry timer).run (queueOf.set queue self.engine) = .ok () engine) (memory : ρ) :
    ((Component.first.comp Watched.engineOf).zoom (retry timer) :
        Action (Watched δ row₁ ω × ρ) Unit).run (self.withQueue queueOf queue, memory)
      = .ok () ({ self with engine }, memory) :=
  Component.zoom_run_ok (p := Component.first.comp Watched.engineOf) hrun

/-- An event other than a tick goes alike. -/
theorem Agree.run_event (hagree : Agree f f' queueOf queueOf' Law Law' .free left rows s t)
    {event : Event (QueueCallback γ (RetryCallback θ ξ))}
    {event' : Event (QueueCallback γ' (RetryCallback θ' ξ))}
    {rest : List (Event (QueueCallback γ (RetryCallback θ ξ)))}
    {rest' : List (Event (QueueCallback γ' (RetryCallback θ' ξ)))} {clock : VirtualClock}
    (hqueue : (s.1.queue queueOf).scheduler.queue = event :: rest)
    (hqueue' : (t.1.queue queueOf').scheduler.queue = event' :: rest')
    (hevent : event.mapped QueueCallback.outline = event'.mapped QueueCallback.outline)
    (hrest : rest.map (Event.mapped QueueCallback.outline)
      = rest'.map (Event.mapped QueueCallback.outline))
    (hkind : event.callback.isTick = false)
    (hdue : (s.1.queue queueOf).scheduler.clock.time ≤ event.time)
    (hclock : clock.time = event.time) :
    Alike (fun _ => AgreeHolding f f' queueOf queueOf' Law Law' Fits Fits' none)
      (AgreeHolding f f' queueOf queueOf' Law Law' Fits Fits' none)
      (Watched.call queueOf Component.first attempt retry
        (fun callback => Client.call f submit queueOf (client.other callback)) event.callback)
      (Watched.call queueOf' Component.first attempt' retry'
        (fun callback => Client.call f' submit' queueOf' (client.other callback)) event'.callback)
      (s.1.withQueue queueOf { s.1.queue queueOf with
        scheduler := (s.1.queue queueOf).scheduler.ready clock rest }, s.2)
      (t.1.withQueue queueOf' { t.1.queue queueOf' with
        scheduler := (t.1.queue queueOf').scheduler.ready clock rest' }, t.2) := by
  have hclocks := clock_of_outline hagree.outline
  have htime : event.time = event'.time := congrArg Event.time hevent
  have hcallbacks : event.callback.outline = event'.callback.outline :=
    congrArg Event.callback hevent
  have hdue' : (t.1.queue queueOf').scheduler.clock.time ≤ event'.time := by
    rw [← hclocks, ← htime]
    exact hdue
  have hready := congrArg₂ (fun (queue : PaymentQueue Nat _) rest => { queue with
    scheduler := queue.scheduler.ready clock rest }) hagree.outline hrest
  cases hcallback : event.callback with
  | tick =>
      rw [hcallback] at hkind
      cases hkind
  | enqueue _ _ _ =>
      -- No engine schedules such an event.
      have hown := (h.tokens hagree.law).own event (by rw [hqueue]; exact List.mem_cons_self)
      rw [hcallback] at hown
      cases hown
  | other callback =>
      cases callback with
      | retry timer =>
          -- It is the timer of the same payment, whose next attempt joins the queue.
          rw [hcallback] at hcallbacks
          rcases outline_eq_retry hcallbacks.symm with ⟨timer', hcallback', hplace⟩
          rcases hagree.exists_row (h.fits ((h.tokens hagree.law).timers event
            (by rw [hqueue]; exact List.mem_cons_self) timer hcallback)) with ⟨row, hrow⟩
          rcases hagree.at_place hrow with ⟨hrow₁, hrow₂⟩
          rw [← hplace] at hrow₂
          rcases h.fire hagree.law hqueue hcallback hdue hclock hrow₁ with
            ⟨engine, hrun, hfree, hsame⟩
          rcases h'.fire hagree.law' hqueue' hcallback' hdue' (hclock.trans htime) hrow₂ with
            ⟨engine', hrun', hfree', hsame'⟩
          rw [hcallback']
          refine alike_of_ok (run_timer hrun s.2) (run_timer hrun' t.2)
            (hagree.withEngine hfree hfree' ?_).free
          rw [hsame, hsame', outline_awoken, outline_awoken, outline_arrived, outline_arrived,
            hplace, hterms.paymentId]
          exact congrArg (fun queue : PaymentQueue Nat _ =>
            (queue.arrived _ _ _).awoken _) hready
      | other callback =>
          rw [hcallback] at hcallbacks
          rw [outline_eq_other hcallbacks.symm]
          have hpopped : Agree f f' queueOf queueOf' Law Law' .free left rows
              (s.1.withQueue queueOf { s.1.queue queueOf with
                scheduler := (s.1.queue queueOf).scheduler.ready clock rest }, s.2)
              (t.1.withQueue queueOf' { t.1.queue queueOf' with
                scheduler := (t.1.queue queueOf').scheduler.ready clock rest' }, t.2) :=
            hagree.withQueue
              (h.popped hagree.law hqueue (by rw [hcallback]; rfl) hdue hclock)
              (h'.popped hagree.law' hqueue' (by rw [outline_eq_other hcallbacks.symm]; rfl) hdue'
                (hclock.trans htime)) hready
          refine (hpopped.call h h' hterms rfl (client.other callback)).mono ?_ fun _ _ hend => hend
          rintro _ s' t' ⟨left', later, hlater, -⟩
          exact hlater.free

/-- The two engines keep pace. -/
theorem paces :
    Paces (Component.first.comp (Watched.engineOf.comp queueOf))
      (Component.first.comp (Watched.engineOf.comp queueOf')) attempt attempt'
      (RetryCallback.call (fun timer => (Component.first.comp Watched.engineOf).zoom (retry timer))
        fun callback => Client.call f submit queueOf (client.other callback))
      (RetryCallback.call (fun timer => (Component.first.comp Watched.engineOf).zoom (retry' timer))
        fun callback => Client.call f' submit' queueOf' (client.other callback))
      (AgreeHolding f f' queueOf queueOf' Law Law' Fits Fits' (ρ := ρ)) where
  outline := fun ⟨_, _, hagree, _⟩ => hagree.outline
  pass := by
    rintro held s t later later' ⟨left, rows, hagree, hfits⟩ hpass hpass' houtline
    exact ⟨left, rows, hagree.withQueue (h.pass hagree.law hpass) (h'.pass hagree.law' hpass')
      houtline, hfits⟩
  take := by
    rintro s t item item' waiting waiting' ⟨left, rows, hagree, -⟩ hwaiting hwaiting' hitem hrest
    rcases h.take hagree.law hwaiting with ⟨htaken, hfits⟩
    rcases h'.take hagree.law' hwaiting' with ⟨htaken', hfits'⟩
    have hplace : place item.work = place item'.work := congrArg QueuedPayment.work hitem
    rw [← hplace] at htaken'
    refine ⟨left, rows, hagree.withQueue htaken htaken' ?_, ?_⟩
    · exact congrArg₂ (fun (queue : PaymentQueue Nat _) waiting => { queue with waiting })
        hagree.outline hrest
    · rintro tasks htasks
      cases htasks
      exact ⟨hfits, hfits', hplace⟩
  attempt := by
    rintro task task' s t ⟨left, rows, hagree, hfits⟩
    rcases hfits (task, task') rfl with ⟨htask, htask', hplace⟩
    exact hagree.run_attempt h h' hterms htask htask' hplace
  event := by
    rintro s t event event' rest rest' clock ⟨left, rows, hagree, -⟩ hqueue hqueue' hevent hrest
      hkind hdue hclock
    exact hagree.run_event h h' hterms hqueue hqueue' hevent hrest hkind hdue hclock

/-- Between two steps. -/
def AgreeBetween (f : row → row₁) (f' : row → row₂) (queueOf : Component δ (AttemptQueue γ θ ξ))
    (queueOf' : Component δ' (AttemptQueue γ' θ' ξ))
    (Law : Hand → (Nat → Nat) → Watched δ row₁ ω → Prop)
    (Law' : Hand → (Nat → Nat) → Watched δ' row₂ ω → Prop) (s : Watched δ row₁ ω × ρ)
    (t : Watched δ' row₂ ω × ρ) : Prop :=
  Between True (s.1.queue queueOf) ∧ Between True (t.1.queue queueOf') ∧
    ∃ left rows, Agree f f' queueOf queueOf' Law Law' .free left rows s t

omit h' hterms in
/-- The queue of one engine after a step of its scheduler. -/
theorem between_runNext (hbetween : Between True (s.1.queue queueOf)) (hlaw : Law .free left s.1) :
    Between True ((after (ClientStep.runNext.exec f submit queueOf client attempt retry) s).1.queue
      queueOf) := by
  rw [ClientStep.exec, after_discard]
  have hother : ∀ callback, OnlyMakes Component.first (Watched.exec submit queueOf)
      Watched.Use.KeepsTime (Client.call f submit queueOf (client.other callback) :
        Action (Watched δ row₁ ω × ρ) Unit) :=
    fun callback => Client.onlyMakes (client.other callback)
  have hcarries := h.carries (fun work => Client.onlyMakes (client.perform work)) hother
    (fun work s => Client.not_raises (client.perform work) s)
    (fun callback s => Client.not_raises (client.other callback) s) (fun _ hkeeps => hkeeps)
    s.1.submitted
  rcases carried_step hcarries hbetween ⟨left, hlaw, fun _ hnone => (nomatch hnone),
    List.prefix_rfl, fun _ => rfl, rfl⟩ with hnil | ⟨later, less, hrun, hlater, -⟩
  · rw [after_of_ok (EventScheduler.runNext_nil _ _ hnil)]
    exact hbetween
  · rw [after_of_ok hrun]
    exact hlater

/-- The engines agree after any step. -/
theorem agree_step (hagree : AgreeBetween f f' queueOf queueOf' Law Law' s t)
    (step : ClientStep row ξ) :
    AgreeBetween f f' queueOf queueOf' Law Law'
      (after (step.exec f submit queueOf client attempt retry) s)
      (after (step.exec f' submit' queueOf' client attempt' retry') t) := by
  rcases hagree with ⟨hbetween, hbetween', left, rows, hagree⟩
  cases step with
  | ask request =>
      rcases (hagree.grant h h' hterms rfl request).after with ⟨left', later, hlater, -⟩
      rcases h.use hagree.law rfl (request.keepsTime f) with ⟨-, -, hused, -⟩
      rcases h'.use hagree.law' rfl (request.keepsTime f') with ⟨-, -, hused', -⟩
      refine ⟨?_, ?_, left', later, hlater⟩
      · rw [ClientStep.exec, Component.after_zoom]
        exact hbetween.used hused
      · rw [ClientStep.exec, Component.after_zoom]
        exact hbetween'.used hused'
  | runNext =>
      have hdue : ∀ event ∈ (s.1.queue queueOf).scheduler.queue,
          (s.1.queue queueOf).scheduler.clock.time ≤ event.time := by
        rcases hbetween.paced trivial with ⟨last, hpaced⟩
        exact hpaced.orderly.le_queued
      have halike := ((paces h h' hterms).runNext (Agree.free hagree) hdue).after
      refine ⟨between_runNext h hbetween hagree.law, between_runNext h' hbetween' hagree.law', ?_⟩
      rw [ClientStep.exec, ClientStep.exec, after_discard, after_discard]
      rcases halike with ⟨left', later, hlater, -⟩
      exact ⟨left', later, hlater⟩

/-- The engines agree after any steps. -/
theorem agree_steps (hagree : AgreeBetween f f' queueOf queueOf' Law Law' s t)
    (steps : List (ClientStep row ξ)) :
    AgreeBetween f f' queueOf queueOf' Law Law'
      (finalState (ClientStep.exec f submit queueOf client attempt retry) s steps)
      (finalState (ClientStep.exec f' submit' queueOf' client attempt' retry') t steps) :=
  related_finalState (R := AgreeBetween f f' queueOf queueOf' Law Law')
    (fun _ _ step hbefore => agree_step h h' hterms hbefore step) hagree steps

end Agree

end BankSim
