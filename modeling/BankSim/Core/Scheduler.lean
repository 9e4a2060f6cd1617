import BankSim.Core.Basic

/-!
# Virtual Time and the Scheduler

`clock.py` and `scheduler.py`: an integer clock that never moves backward,
and a queue of callbacks ordered by time and then by insertion.

A callback closes over the object it will change, so its type is a parameter
here, and `runNext` takes what running one means: a program on the world that
holds the scheduler. The scheduler is a component of that world, which is how
a callback can schedule further events on the scheduler that is running it.

The heap is kept as a sorted list. No two events share an insertion order, so
`heapq` and the list agree on the next event.

An event leaves the queue, and the clock moves, before its callback runs. If
the callback raises, neither is undone and the history does not record it.

## Main definitions

* `VirtualClock`: A nonnegative time.
* `VirtualClock.advanceTo`, `VirtualClock.advanceBy`: Move time forward.
* `EventScheduler`: The clock, the queue and the history.
* `EventScheduler.scheduleAt`, `EventScheduler.scheduleAfter`: Queue an event.
* `EventScheduler.runNext`: Run the next event, if there is one.
* `EventScheduler.run`: Run events until none remain.
-/

namespace BankSim

open Exec

/-- A monotonic clock measured in integer simulation units. -/
@[ext]
structure VirtualClock where
  time : Int
  time_nonneg : 0 ≤ time := by exact numeral_nonneg

instance : DecidableEq VirtualClock :=
  fun _ _ => decidable_of_iff _ VirtualClock.ext_iff.symm

namespace VirtualClock

def new (initialTime : Int := 0) : Except Raised VirtualClock :=
  if h : initialTime < 0 then
    .error (valueError "virtual time must be a nonnegative integer")
  else
    .ok ⟨initialTime, by omega⟩

/-- Advance to a new time and return it; moving backward is prohibited. -/
def advanceTo (newTime : Int) : Action VirtualClock Int := do
  let self ← get
  if h : newTime < 0 then
    throw (valueError "virtual time must be a nonnegative integer")
  else
    if newTime < self.time then
      throw (valueError "virtual time cannot move backward")
    set (⟨newTime, by omega⟩ : VirtualClock)
    return newTime

/-- Advance by a nonnegative amount and return the new time. -/
def advanceBy (amount : Int) : Action VirtualClock Int := do
  if amount < 0 then
    throw (valueError "virtual time must be a nonnegative integer")
  let self ← get
  advanceTo (self.time + amount)

end VirtualClock

/-- A queued callback, with the two fields events are ordered by. -/
structure Event (κ : Type) where
  time : Int
  order : Nat
  callback : κ
  deriving DecidableEq

/-- The order of events: by time, then by insertion order. -/
def Event.le {κ : Type} (a b : Event κ) : Prop :=
  a.time < b.time ∨ (a.time = b.time ∧ a.order ≤ b.order)

instance {κ : Type} : DecidableRel (Event.le (κ := κ)) :=
  fun a b => inferInstanceAs (Decidable (a.time < b.time ∨ (a.time = b.time ∧ a.order ≤ b.order)))

/-- A successfully completed event. -/
structure Execution where
  time : Int
  order : Nat
  deriving DecidableEq

/-- A deterministic, synchronous event scheduler. -/
structure EventScheduler (κ : Type) where
  clock : VirtualClock
  queue : List (Event κ)
  nextOrder : Nat
  history : List Execution
  deriving DecidableEq

namespace EventScheduler

variable {κ σ : Type}

def new (clock : VirtualClock := { time := 0 }) : EventScheduler κ :=
  ⟨clock, [], 0, []⟩

def clockOf : Component (EventScheduler κ) VirtualClock where
  get self := self.clock
  set clock self := { self with clock }
  get_set _ _ := rfl
  set_get _ := rfl
  set_set _ _ _ := rfl

/-- Schedule a callback at a time not earlier than the clock. -/
def scheduleAt (time : Int) (callback : κ) : Action (EventScheduler κ) Unit := do
  let self ← get
  if time < 0 then
    throw (valueError "event time must be a nonnegative integer")
  if time < self.clock.time then
    throw (valueError "cannot schedule an event in the past")
  modify fun self =>
    { self with
      queue := self.queue.orderedInsert Event.le ⟨time, self.nextOrder, callback⟩
      nextOrder := self.nextOrder + 1 }

/-- Schedule a callback after a nonnegative delay. -/
def scheduleAfter (delay : Int) (callback : κ) : Action (EventScheduler κ) Unit := do
  if delay < 0 then
    throw (valueError "event delay must be a nonnegative integer")
  let self ← get
  scheduleAt (self.clock.time + delay) callback

/-- Take the least event out of the queue. -/
def heappop : Action (EventScheduler κ) (Option (Event κ)) := do
  let self ← get
  match self.queue with
  | [] => return none
  | event :: queue =>
      set { self with queue }
      return some event

/-- Run one event, returning false when the queue is empty. `scheduler` is
    where the world keeps this scheduler, and `call` runs a callback. -/
def runNext (scheduler : Component σ (EventScheduler κ)) (call : κ → Action σ Unit) :
    Action σ Bool := do
  match ← scheduler.zoom heappop with
  | none => return false
  | some event =>
      let _ ← (scheduler.comp clockOf).zoom (VirtualClock.advanceTo event.time)
      call event.callback
      scheduler.zoom (modify fun self =>
        { self with history := self.history ++ [⟨event.time, event.order⟩] })
      return true

/-- Run queued events until none remain or a callback raises. The loop of the
    source has no bound. This one goes around at most `rounds` times and says
    whether it came to an end. -/
def run (scheduler : Component σ (EventScheduler κ)) (call : κ → Action σ Unit) :
    Nat → Action σ Bool
  | 0 => return false
  | rounds + 1 => do
      if ← runNext scheduler call then
        run scheduler call rounds
      else
        return true

end EventScheduler

end BankSim
