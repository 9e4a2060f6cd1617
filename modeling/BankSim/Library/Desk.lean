import Mathlib

/-!
# The Log of a Service

Customers arrive, wait in line, are called to a desk and are served. Whoever runs
the service writes a note of each of these, with the time, the name, the desk and
how many are left waiting. This is about what can be read off such a log alone.

Reading is strict. A note has to name the customer it is about and to have the
number of those waiting right, or the log is not accepted. A desk to which somebody
is called while it still has a customer has lost that one.

A log that is accepted leaves a book behind: who waits, who is at which desk, who
was served and when, who was lost, how deep the line was at most, and for how long
it was how deep. In every such book those who arrived are accounted for, each once,
and whoever is gone from the line was in front of everyone who is in it.

## Main definitions

* `Desk.Ticket`, `Desk.Note`: What is known of a customer, and what is written down.
* `Desk.Book`: What a log tells.
* `Desk.Book.note`, `Desk.read`: Reading a note and a log.
* `Desk.Book.Accounted`: Everyone who arrived is somewhere, once.

## Theorems

* `read_append`: A log is read piece by piece.
* `Book.note_accounted`, `read_accounted`: What is read accounts for everyone.
-/

namespace Desk

variable {ν δ : Type}

/-- What is known of one customer. -/
structure Ticket (ν : Type) where
  name : ν
  position : Nat
  order : Nat
  arrivedAt : Int
  calledAt : Option Int := none
  servedAt : Option Int := none
  deriving DecidableEq, Repr

/-- How long a customer who was called had waited. -/
def Ticket.wait (ticket : Ticket ν) : Option Int :=
  ticket.calledAt.map fun calledAt => calledAt - ticket.arrivedAt

/-- What is written down, with the number of those who wait then. -/
inductive Note (ν δ : Type)
  | arrived (time : Int) (name : ν) (depth : Nat)
  | called (time : Int) (name : ν) (desk : δ) (depth : Nat)
  | served (time : Int) (name : ν) (desk : δ) (depth : Nat)

/-- What a log tells. -/
structure Book (ν δ : Type) where
  waiting : List (Ticket ν)
  called : List (δ × Ticket ν)
  served : List (δ × Ticket ν)
  lost : List (Ticket ν)
  arrivals : Nat
  deepest : Nat
  /-- The depths of the line, each times how long it was that deep. -/
  waited : Int
  since : Int
  opened : Option Int

/-- Before anything is written. -/
def Book.empty (time : Int) : Book ν δ :=
  ⟨[], [], [], [], 0, 0, 0, time, none⟩

section Reading

variable [DecidableEq δ] (book : Book ν δ)

namespace Book

/-- Who is at a desk. -/
def atDesk (desk : δ) : List (Ticket ν) :=
  (book.called.filter fun entry => entry.1 = desk).map (·.2)

/-- Who is at any of the others. -/
def elsewhere (desk : δ) : List (δ × Ticket ν) :=
  book.called.filter fun entry => entry.1 ≠ desk

/-- How many were served at a desk. -/
def servings (desk : δ) : Nat :=
  book.served.countP fun entry => entry.1 = desk

/-- Time has passed with the line as it is. -/
def passed (time : Int) : Book ν δ :=
  { book with
    waited := book.waited + book.waiting.length * (time - book.since)
    since := time }

/-- A customer joins the line. -/
def arrive (time : Int) (name : ν) : Book ν δ :=
  { book.passed time with
    waiting := book.waiting ++
      [{ name, position := book.waiting.length + 1, order := book.arrivals, arrivedAt := time }]
    arrivals := book.arrivals + 1
    deepest := max book.deepest (book.waiting.length + 1)
    opened := some (book.opened.getD time) }

/-- The first in line goes to a desk. -/
def call (time : Int) (ticket : Ticket ν) (desk : δ) (waiting : List (Ticket ν)) : Book ν δ :=
  { book.passed time with
    waiting
    called := book.elsewhere desk ++ [(desk, { ticket with calledAt := some time })]
    lost := book.lost ++ book.atDesk desk }

/-- A customer leaves a desk. -/
def serve (time : Int) (ticket : Ticket ν) (desk : δ) : Book ν δ :=
  { book with
    called := book.elsewhere desk
    served := book.served ++ [(desk, { ticket with servedAt := some time })] }

end Book

end Reading

section Log

variable [DecidableEq ν] [DecidableEq δ] (book : Book ν δ)

/-- Read one note, if it is right. -/
def Book.note : Note ν δ → Option (Book ν δ)
  | .arrived time name depth =>
      if depth = book.waiting.length + 1 then some (book.arrive time name) else none
  | .called time name desk depth =>
      match book.waiting with
      | [] => none
      | ticket :: waiting =>
          if ticket.name = name ∧ depth = waiting.length then
            some (book.call time ticket desk waiting)
          else
            none
  | .served time name desk depth =>
      match book.atDesk desk with
      | [ticket] =>
          if ticket.name = name ∧ depth = book.waiting.length then
            some (book.serve time ticket desk)
          else
            none
      | _ => none

/-- Read a log. -/
def read (notes : List (Note ν δ)) : Option (Book ν δ) :=
  notes.foldlM Book.note book

theorem read_append (notes more : List (Note ν δ)) :
    read book (notes ++ more) = (read book notes).bind fun later => read later more := by
  unfold read
  rw [List.foldlM_append]
  rfl

theorem read_concat {later : Book ν δ} {notes : List (Note ν δ)} (h : read book notes = some later)
    (note : Note ν δ) : read book (notes ++ [note]) = later.note note := by
  rw [read_append, h, Option.bind_some]
  unfold read
  rw [List.foldlM_cons]
  exact Option.bind_fun_some _

namespace Book

variable {book}

theorem note_arrived (time : Int) (name : ν) :
    book.note (.arrived time name (book.waiting.length + 1)) = some (book.arrive time name) :=
  if_pos rfl

theorem note_called {ticket : Ticket ν} {waiting : List (Ticket ν)}
    (h : book.waiting = ticket :: waiting) (time : Int) (desk : δ) :
    book.note (.called time ticket.name desk waiting.length)
      = some (book.call time ticket desk waiting) := by
  rw [Book.note, h]
  exact if_pos ⟨rfl, rfl⟩

theorem note_served {ticket : Ticket ν} {desk : δ} (h : book.atDesk desk = [ticket]) (time : Int) :
    book.note (.served time ticket.name desk book.waiting.length)
      = some (book.serve time ticket desk) := by
  rw [Book.note, h]
  exact if_pos ⟨rfl, rfl⟩

end Book

end Log

/-! ### Who is at a desk -/

namespace Book

section AtDesk

variable [DecidableEq δ] {book : Book ν δ}

theorem filter_elsewhere_self (desk : δ) :
    ((book.elsewhere desk).filter fun entry => entry.1 = desk) = [] := by
  unfold elsewhere
  rw [List.filter_filter]
  exact List.filter_eq_nil_iff.mpr fun entry _ => by simp

theorem filter_elsewhere_other {desk other : δ} (h : other ≠ desk) :
    ((book.elsewhere desk).filter fun entry => entry.1 = other)
      = book.called.filter fun entry => entry.1 = other := by
  unfold elsewhere
  rw [List.filter_filter]
  refine List.filter_congr fun entry _ => ?_
  by_cases hentry : entry.1 = other
  · simp [hentry, h]
  · simp [hentry]

theorem atDesk_call (time : Int) (ticket : Ticket ν) (desk : δ) (waiting : List (Ticket ν))
    (other : δ) : (book.call time ticket desk waiting).atDesk other
      = if other = desk then [{ ticket with calledAt := some time }] else book.atDesk other := by
  unfold Book.atDesk call
  rw [List.filter_append]
  by_cases h : other = desk
  · subst h
    rw [if_pos rfl, filter_elsewhere_self]
    simp
  · rw [if_neg h, filter_elsewhere_other h]
    simp [Ne.symm h]

theorem atDesk_serve (time : Int) (ticket : Ticket ν) (desk other : δ) :
    (book.serve time ticket desk).atDesk other
      = if other = desk then [] else book.atDesk other := by
  unfold Book.atDesk serve
  by_cases h : other = desk
  · subst h
    rw [if_pos rfl, filter_elsewhere_self]
    rfl
  · rw [if_neg h, filter_elsewhere_other h]

theorem servings_serve (time : Int) (ticket : Ticket ν) (desk other : δ) :
    (book.serve time ticket desk).servings other
      = book.servings other + if desk = other then 1 else 0 := by
  unfold servings serve
  simp [List.countP_append, List.countP_singleton]

end AtDesk

/-! ### Everyone is accounted for -/

variable {book : Book ν δ}

/-- Those who are gone from the line. -/
def gone (book : Book ν δ) : List (Ticket ν) :=
  book.served.map (·.2) ++ book.lost ++ book.called.map (·.2)

/-- Everyone who arrived is gone or waits, once, and who is gone was in front of
    who waits. -/
def Accounted (book : Book ν δ) : Prop :=
  ∃ before, (book.gone.map (·.order)).Perm (List.range before) ∧
    book.waiting.map (·.order) = List.range' before book.waiting.length ∧
    book.arrivals = before + book.waiting.length

theorem accounted_empty (time : Int) : (empty time : Book ν δ).Accounted :=
  ⟨0, List.Perm.refl _, rfl, rfl⟩

theorem Accounted.arrive (h : book.Accounted) (time : Int) (name : ν) :
    (book.arrive time name).Accounted := by
  rcases h with ⟨before, hgone, hwaiting, harrivals⟩
  refine ⟨before, hgone, ?_, ?_⟩
  · change (book.waiting ++ [(_ : Ticket ν)]).map (fun ticket => ticket.order)
      = List.range' before (book.waiting ++ [(_ : Ticket ν)]).length
    rw [List.map_append, hwaiting, List.length_append, List.length_singleton,
      List.range'_1_concat, harrivals]
    rfl
  · change book.arrivals + 1 = before + (book.waiting ++ [(_ : Ticket ν)]).length
    rw [List.length_append, List.length_singleton]
    omega

variable [DecidableEq δ]

/-- The tickets at all desks are the one at this desk and those elsewhere. -/
theorem called_perm (desk : δ) :
    (book.called.map (·.2)).Perm (book.atDesk desk ++ (book.elsewhere desk).map (·.2)) := by
  unfold Book.atDesk elsewhere
  rw [← List.map_append]
  refine List.Perm.map _ ?_
  have hsplit := List.filter_append_perm (fun entry : δ × Ticket ν => decide (entry.1 = desk))
    book.called
  simp only [← decide_not] at hsplit
  exact hsplit.symm

theorem Accounted.call (h : book.Accounted) {ticket : Ticket ν} {waiting : List (Ticket ν)}
    (hwaiting : book.waiting = ticket :: waiting) (time : Int) (desk : δ) :
    (book.call time ticket desk waiting).Accounted := by
  rcases h with ⟨before, hgone, horder, harrivals⟩
  rw [hwaiting, List.map_cons, List.length_cons, List.range'_succ] at horder
  rcases List.cons.inj horder with ⟨hfirst, hrest⟩
  refine ⟨before + 1, ?_, hrest, ?_⟩
  · -- Whoever was at the desk is lost, and the first in line is there.
    have hmoved : (book.call time ticket desk waiting).gone.Perm
        (book.gone ++ [{ ticket with calledAt := some time }]) := by
      unfold gone Book.call
      simp only [List.map_append, List.append_assoc]
      refine List.Perm.append_left _ (List.Perm.append_left _ ?_)
      rw [← List.append_assoc]
      exact (called_perm desk).symm.append_right _
    have horders := hmoved.map (·.order)
    rw [List.map_append, List.map_singleton, hfirst] at horders
    rw [List.range_succ]
    exact horders.trans (hgone.append_right [before])
  · change book.arrivals = before + 1 + waiting.length
    rw [hwaiting, List.length_cons] at harrivals
    omega

theorem Accounted.serve (h : book.Accounted) {ticket : Ticket ν} {desk : δ}
    (hat : book.atDesk desk = [ticket]) (time : Int) : (book.serve time ticket desk).Accounted := by
  rcases h with ⟨before, hgone, horder, harrivals⟩
  refine ⟨before, List.Perm.trans ?_ hgone, horder, harrivals⟩
  have hsplit : (book.called.map (·.2)).Perm
      (book.atDesk desk ++ (book.elsewhere desk).map (·.2)) := called_perm desk
  have hcalled := hsplit.map (·.order)
  rw [hat] at hcalled
  unfold gone Book.serve
  simp only [List.map_append, List.append_assoc]
  refine List.Perm.append_left _ ?_
  -- The ticket moves from the desk to the front.
  refine (List.perm_append_comm_assoc _ _ _).trans (List.Perm.append_left _ ?_)
  simpa using hcalled.symm

variable [DecidableEq ν]

/-- A note keeps account of everyone. -/
theorem note_accounted (h : book.Accounted) {note : Note ν δ} {later : Book ν δ}
    (hnote : book.note note = some later) : later.Accounted := by
  cases note with
  | arrived time name depth =>
      simp only [Book.note, Option.ite_none_right_eq_some, Option.some.injEq] at hnote
      rw [← hnote.2]
      exact h.arrive time name
  | called time name desk depth =>
      cases hwaiting : book.waiting with
      | nil => simp [Book.note, hwaiting] at hnote
      | cons ticket waiting =>
          simp only [Book.note, hwaiting, Option.ite_none_right_eq_some, Option.some.injEq] at hnote
          rw [← hnote.2]
          exact h.call hwaiting time desk
  | served time name desk depth =>
      simp only [Book.note] at hnote
      split at hnote
      · rename_i ticket hdesk
        simp only [Option.ite_none_right_eq_some, Option.some.injEq] at hnote
        rw [← hnote.2]
        exact h.serve hdesk time
      · cases hnote

end Book

/-- What is read accounts for everyone. -/
theorem read_accounted [DecidableEq ν] [DecidableEq δ] {book later : Book ν δ}
    (h : book.Accounted) {notes : List (Note ν δ)} (hread : read book notes = some later) :
    later.Accounted := by
  induction notes generalizing book with
  | nil =>
      cases hread
      exact h
  | cons note notes ih =>
      unfold read at hread
      rw [List.foldlM_cons] at hread
      rcases Option.bind_eq_some_iff.mp hread with ⟨next, hnext, hrest⟩
      exact ih (Book.note_accounted h hnext) hrest

end Desk
