import BankSim.Library.Guarded
import BankSim.Core.Ledger

/-!
# The Ledger as a Guarded Log

`refusal` is the error `append` would raise, as a function of the ledger and
the entry, and `push` is what it does otherwise. `append_eq_step` says that
`append` is the guarded step of the two, and `appendBatch_eq_together` that
`append_batch`, with its own loop and its own running copies, is the
all-or-nothing version of the same guard. The loop invariant behind the
second is that the three copies always describe a ledger: the one the
entries checked so far would have produced.

From there the representation invariant is an invariant of `push`, and
everything a run of the two methods can do follows from it.

## Main definitions

* `Ledger.refusal`: The error an append would raise.
* `Ledger.push`: The ledger with one more entry.
* `Ledger.WellFormed`: The representation invariant.
* `LedgerCall`: A call of one of the two methods.
* `Ledger.Reachable`: A ledger some run of calls produces.
* `Ledger.appendEach`: Appending entries one by one.

## Theorems

* `append_eq_step`: An append is a guarded step.
* `appendBatch_eq_together`: A batch is a guarded step of all its entries.
* `entries_exec`: What a call writes.
* `wellFormed_push`: An accepted entry keeps the representation invariant.
* `reachable_wellFormed`: Every reachable ledger is well formed.
* `entries_prefix_finalState`: A run only ever extends the entries.
* `replay_eq_sum`: Replaying a well formed ledger adds up its entries.
* `ledger_representation`: The representation invariant over whole runs.
* `appendBatch_refines_appendEach`: A batch refines repeated appends.
-/

namespace BankSim

open Exec

namespace Ledger

/-- The error `append` raises on an entry, if it raises one. -/
def refusal (ledger : Ledger) (entry : LedgerEntry) : Option Raised :=
  if entry.sequence ≠ ledger.entries.length + 1 then
    some (ledgerError
      s!"sequence must be {(ledger.entries.length + 1 : Int)}, received {entry.sequence}")
  else if entry.entryId ∈ ledger.entryIds then
    some (ledgerError "entry identifier must be unique")
  else if entry.postedAt < ledger.lastPostedAt then
    some (ledgerError "posting time cannot move backward")
  else none

/-- The ledger with one more entry. -/
def push (ledger : Ledger) (entry : LedgerEntry) : Ledger :=
  { entries := ledger.entries ++ [entry], entryIds := insert entry.entryId ledger.entryIds }

/-- The next entry has a positive sequence number. -/
theorem next_sequence_pos (ledger : Ledger) : (0 : Int) < ledger.entries.length + 1 := by
  omega

@[simp] theorem push_entries (ledger : Ledger) (entry : LedgerEntry) :
    (ledger.push entry).entries = ledger.entries ++ [entry] := rfl

@[simp] theorem push_entryIds (ledger : Ledger) (entry : LedgerEntry) :
    (ledger.push entry).entryIds = insert entry.entryId ledger.entryIds := rfl

@[simp] theorem push_lastPostedAt (ledger : Ledger) (entry : LedgerEntry) :
    (ledger.push entry).lastPostedAt = entry.postedAt := by
  simp only [lastPostedAt, push_entries, List.getLast?_append, List.getLast?_singleton,
    Option.some_or]

/-- An entry's posting time is never negative, so on an empty ledger the
    comparison with zero that a batch makes agrees with the skipped one. -/
theorem any_last_iff (ledger : Ledger) (entry : LedgerEntry) :
    ledger.entries.getLast?.any (fun last => entry.postedAt < last.postedAt) = true ↔
      entry.postedAt < ledger.lastPostedAt := by
  unfold lastPostedAt
  cases ledger.entries.getLast? with
  | some last => simp only [Option.any_some, decide_eq_true_eq]
  | none =>
      have h := entry.postedAt_nonneg
      simp only [Option.any_none, Bool.false_eq_true, false_iff]
      omega

theorem refusal_eq_none_iff (ledger : Ledger) (entry : LedgerEntry) :
    ledger.refusal entry = none ↔ entry.sequence = ledger.entries.length + 1 ∧
      entry.entryId ∉ ledger.entryIds ∧ ledger.lastPostedAt ≤ entry.postedAt := by
  unfold refusal
  split_ifs with h1 h2 h3 <;> simp_all

theorem append_eq_step (entry : LedgerEntry) :
    append entry = Guarded.step refusal push entry := by
  funext ledger
  change (append entry).run ledger = _
  rw [Guarded.step, refusal, append]
  simp only [EStateM.run_bind, EStateM.run_get]
  -- Both sides make the three checks in the same order.
  by_cases hs : entry.sequence = ledger.entries.length + 1
  · by_cases hi : entry.entryId ∈ ledger.entryIds
    · simp only [hs, hi, ne_eq, not_true_eq_false, if_false, if_true]
      rfl
    · by_cases hp : entry.postedAt < ledger.lastPostedAt
      · simp only [hs, hi, (any_last_iff ledger entry).mpr hp, hp, ne_eq, not_true_eq_false,
          if_false, if_true]
        rfl
      · simp only [hs, hi, (any_last_iff ledger entry).not.mpr hp, hp, ne_eq,
          not_true_eq_false, if_false]
        rfl
  · simp only [hs, ne_eq, not_false_eq_true, if_true]
    rfl

/-- The loop of `append_batch`, started on copies that describe a ledger,
    finds the first refusal met when the entries are pushed onto that ledger.
    The copies describe the pushed ledger again after each round. -/
theorem checkBatch_run (entries : List LedgerEntry) (ledger s : Ledger) :
    (checkBatch entries (ledger.entries.length + 1) ledger.entryIds ledger.lastPostedAt).run s
      = match Guarded.firstRefusal refusal push ledger entries with
        | some e => .error e s
        | none => .ok () s := by
  induction entries generalizing ledger with
  | nil => rfl
  | cons entry entries ih =>
      simp only [checkBatch, Guarded.firstRefusal, refusal]
      by_cases hs : entry.sequence = ledger.entries.length + 1
      · by_cases hi : entry.entryId ∈ ledger.entryIds
        · simp only [hs, hi, ne_eq, not_true_eq_false, if_false, if_true]
          rfl
        · by_cases hp : entry.postedAt < ledger.lastPostedAt
          · simp only [hs, hi, hp, ne_eq, not_true_eq_false, if_false, if_true]
            rfl
          · -- The loop goes on with the copies that describe the pushed ledger.
            have hrest := ih (ledger.push entry)
            have hlen : ((ledger.push entry).entries.length : Int) + 1
                = (ledger.entries.length : Int) + 1 + 1 := by
              simp only [push_entries, List.length_append, List.length_singleton]
              omega
            rw [hlen, push_entryIds, push_lastPostedAt] at hrest
            simp only [hs, hi, hp, ne_eq, not_true_eq_false, if_false]
            exact hrest
      · simp only [hs, ne_eq, not_false_eq_true, if_true]
        rfl

theorem foldl_push (entries : List LedgerEntry) (ledger : Ledger) :
    entries.foldl push ledger =
      { entries := ledger.entries ++ entries
        entryIds := ledger.entryIds ∪ (entries.map (·.entryId)).toFinset } := by
  induction entries generalizing ledger with
  | nil =>
      simp only [List.foldl_nil, List.append_nil, List.map_nil, List.toFinset_nil,
        Finset.union_empty]
  | cons entry entries ih =>
      rw [List.foldl_cons, ih]
      simp only [push_entries, push_entryIds, List.append_assoc, List.singleton_append,
        List.map_cons, List.toFinset_cons, Finset.insert_union, Finset.union_insert]

theorem appendBatch_eq_together (entries : List LedgerEntry) (hne : entries ≠ []) :
    appendBatch entries = Guarded.together refusal push entries := by
  funext ledger
  change (appendBatch entries).run ledger = (Guarded.together refusal push entries).run ledger
  have hcheck := checkBatch_run entries ledger ledger
  rw [Guarded.together_run, appendBatch]
  simp only [hne, if_false, EStateM.run_bind, EStateM.run_get, hcheck]
  cases Guarded.firstRefusal refusal push ledger entries with
  | some e => rfl
  | none =>
      rw [foldl_push]
      rfl

theorem appendBatch_nil_run (ledger : Ledger) : (appendBatch []).run ledger =
    .error (ledgerError "ledger batch must be a nonempty tuple") ledger := rfl

/-- Append the entries one by one, stopping at the first that raises. -/
def appendEach : List LedgerEntry → Action Ledger Unit
  | [] => pure ()
  | entry :: entries => do
      append entry
      appendEach entries

theorem appendEach_eq_each (entries : List LedgerEntry) :
    appendEach entries = Guarded.each refusal push entries := by
  induction entries with
  | nil => rfl
  | cons entry entries ih => rw [appendEach, ih, append_eq_step, Guarded.each]

theorem append_run (entry : LedgerEntry) (ledger : Ledger) : (append entry).run ledger =
    match ledger.refusal entry with
    | some e => .error e ledger
    | none => .ok () (ledger.push entry) := by
  rw [append_eq_step, Guarded.step_run]
  cases ledger.refusal entry <;> rfl

theorem atomic_append (entry : LedgerEntry) (ledger : Ledger) : Atomic (append entry) ledger := by
  rw [append_eq_step]
  exact Guarded.atomic_step refusal push entry ledger

theorem atomic_appendBatch (entries : List LedgerEntry) (ledger : Ledger) :
    Atomic (appendBatch entries) ledger := by
  by_cases hne : entries = []
  · intro e t h
    rw [hne, appendBatch_nil_run] at h
    cases h
    rfl
  · rw [appendBatch_eq_together entries hne]
    exact Guarded.atomic_together refusal push entries ledger

/-- The representation invariant: entries are numbered from one, identifiers
    are distinct and are exactly the set kept beside them, and posting times
    never decrease. -/
structure WellFormed (ledger : Ledger) : Prop where
  sequence_eq : ∀ i (h : i < ledger.entries.length), ledger.entries[i].sequence = i + 1
  ids_nodup : (ledger.entries.map (·.entryId)).Nodup
  ids_eq : ledger.entryIds = (ledger.entries.map (·.entryId)).toFinset
  posted_sorted : (ledger.entries.map (·.postedAt)).Pairwise (· ≤ ·)

theorem wellFormed_new : WellFormed new where
  sequence_eq := fun i h => absurd h (Nat.not_lt_zero i)
  ids_nodup := List.nodup_nil
  ids_eq := rfl
  posted_sorted := List.Pairwise.nil

/-- An identifier is new if neither the entries up to some point nor those
    since then have it. -/
theorem WellFormed.fresh {ledger : Ledger} (hwf : ledger.WellFormed)
    {opening entries : List LedgerEntry} (hentries : ledger.entries = opening ++ entries)
    {entryId : String} (hopening : ∀ entry ∈ opening, entry.entryId ≠ entryId)
    (hsince : ∀ entry ∈ entries, entry.entryId ≠ entryId) : entryId ∉ ledger.entryIds := by
  rw [hwf.ids_eq, List.mem_toFinset, hentries]
  intro hmem
  rcases List.mem_map.mp hmem with ⟨entry, hentry, hid⟩
  rcases List.mem_append.mp hentry with hentry | hentry
  · exact hopening entry hentry hid
  · exact hsince entry hentry hid

/-- In a list sorted by posting time, every entry is posted no later than the
    last one. -/
theorem WellFormed.le_lastPostedAt {ledger : Ledger} (hwf : ledger.WellFormed)
    (entry : LedgerEntry) (hmem : entry ∈ ledger.entries) :
    entry.postedAt ≤ ledger.lastPostedAt := by
  have hsorted := hwf.posted_sorted
  unfold lastPostedAt
  rcases List.eq_nil_or_concat' ledger.entries with hnil | ⟨front, last, happ⟩
  · rw [hnil] at hmem
    exact absurd hmem List.not_mem_nil
  · rw [happ] at hmem hsorted ⊢
    simp only [List.getLast?_append, List.getLast?_singleton, Option.some_or]
    rw [List.map_append, List.pairwise_append] at hsorted
    rcases List.mem_append.mp hmem with hfront | hlast
    · exact hsorted.2.2 _ (List.mem_map_of_mem hfront) _
        (List.mem_map_of_mem (List.mem_singleton_self last))
    · rw [List.mem_singleton.mp hlast]

theorem wellFormed_push (ledger : Ledger) (entry : LedgerEntry) (hwf : ledger.WellFormed)
    (haccept : ledger.refusal entry = none) : (ledger.push entry).WellFormed := by
  rcases (refusal_eq_none_iff ledger entry).mp haccept with ⟨hseq, hid, hposted⟩
  refine ⟨?_, ?_, ?_, ?_⟩
  · -- The old entries keep their numbers, and the guard gives the new one its.
    intro i h
    simp only [push_entries, List.length_append, List.length_singleton] at h
    simp only [push_entries, List.getElem_append]
    split_ifs with hi
    · exact hwf.sequence_eq i hi
    · have hlen : i = ledger.entries.length := by omega
      simp only [List.getElem_singleton, hseq, hlen]
  · -- The guard asks the set, which holds exactly the identifiers of the entries.
    rw [hwf.ids_eq, List.mem_toFinset] at hid
    rw [push_entries, List.map_append, List.nodup_append]
    refine ⟨hwf.ids_nodup, List.nodup_singleton _, ?_⟩
    intro a ha b hb hab
    rw [List.map_singleton, List.mem_singleton] at hb
    exact hid (by rwa [hab, hb] at ha)
  · rw [push_entries, push_entryIds, hwf.ids_eq, List.map_append, List.toFinset_append,
      List.map_singleton, List.toFinset_cons, List.toFinset_nil, Finset.union_insert,
      Finset.union_empty]
  · -- The guard compares with the last entry only, and that one is the latest.
    rw [push_entries, List.map_append, List.pairwise_append]
    refine ⟨hwf.posted_sorted, List.pairwise_singleton _ _, ?_⟩
    intro a ha b hb
    rcases List.mem_map.mp ha with ⟨earlier, hearlier, rfl⟩
    rw [List.map_singleton, List.mem_singleton] at hb
    rw [hb]
    exact le_trans (hwf.le_lastPostedAt earlier hearlier) hposted

end Ledger

/-- A call of one of the ledger's two mutating methods. -/
inductive LedgerCall
  | append (entry : LedgerEntry)
  | appendBatch (entries : List LedgerEntry)

/-- Make the call. -/
def LedgerCall.exec : LedgerCall → Action Ledger Unit
  | .append entry => Ledger.append entry
  | .appendBatch entries => Ledger.appendBatch entries

/-- The entries a call has written once it returned. -/
def LedgerCall.written {α : Type} (call : LedgerCall) : Except Raised α → List LedgerEntry
  | .ok _ =>
      match call with
      | .append entry => [entry]
      | .appendBatch entries => entries
  | .error _ => []

namespace Ledger

/-- A ledger that some sequence of calls produces, raising or not. -/
def Reachable (ledger : Ledger) : Prop :=
  ∃ calls, ledger = finalState LedgerCall.exec new calls

theorem atomic_exec (call : LedgerCall) (ledger : Ledger) : Atomic call.exec ledger := by
  cases call with
  | append entry => exact atomic_append entry ledger
  | appendBatch entries => exact atomic_appendBatch entries ledger

/-- What one call can do: leave the ledger alone, or push accepted entries
    one after the other. -/
theorem exec_cases (call : LedgerCall) (ledger : Ledger) :
    after call.exec ledger = ledger ∨ ∃ entries,
      Guarded.firstRefusal refusal push ledger entries = none ∧
        after call.exec ledger = entries.foldl push ledger := by
  cases hrun : call.exec.run ledger with
  | error e t =>
      rw [after_of_error hrun]
      exact Or.inl (atomic_exec call ledger e t hrun)
  | ok a t =>
      rw [after_of_ok hrun]
      cases call with
      | append entry =>
          rw [LedgerCall.exec, append_eq_step] at hrun
          rcases (Guarded.step_ok_iff _ _ _ _ _).mp hrun with ⟨haccept, hpush⟩
          refine Or.inr ⟨[entry], ?_, hpush⟩
          exact (Guarded.firstRefusal_cons_eq_none_iff _ _ _ _ _).mpr ⟨haccept, rfl⟩
      | appendBatch entries =>
          by_cases hne : entries = []
          · -- The empty batch raises, so it is not the one that returned.
            rw [LedgerCall.exec, hne, appendBatch_nil_run] at hrun
            cases hrun
          · rw [LedgerCall.exec, appendBatch_eq_together entries hne] at hrun
            exact Or.inr ⟨entries, (Guarded.together_run_ok_iff _ _ _ _ _).mp hrun⟩

/-- The entries a call asks for are written exactly if it returns. -/
theorem entries_exec (call : LedgerCall) (ledger : Ledger) :
    (after call.exec ledger).entries
      = ledger.entries ++ call.written (outcome call.exec ledger) := by
  cases hrun : call.exec.run ledger with
  | error e t =>
      rw [after_of_error hrun, outcome_of_error hrun, atomic_exec call ledger e t hrun]
      exact (List.append_nil _).symm
  | ok a t =>
      rw [after_of_ok hrun, outcome_of_ok hrun]
      cases call with
      | append entry =>
          rw [LedgerCall.exec, append_run] at hrun
          cases haccept : ledger.refusal entry with
          | some e =>
              rw [haccept] at hrun
              cases hrun
          | none =>
              rw [haccept, EStateM.Result.ok.injEq] at hrun
              rw [← hrun.2]
              rfl
      | appendBatch entries =>
          by_cases hne : entries = []
          · rw [LedgerCall.exec, hne, appendBatch_nil_run] at hrun
            cases hrun
          · rw [LedgerCall.exec, appendBatch_eq_together entries hne] at hrun
            rw [((Guarded.together_run_ok_iff _ _ _ _ _).mp hrun).2, foldl_push]
            rfl

theorem wellFormed_exec (ledger : Ledger) (call : LedgerCall) (hwf : ledger.WellFormed) :
    (after call.exec ledger).WellFormed := by
  rcases exec_cases call ledger with hsame | ⟨entries, hnone, hpush⟩
  · rw [hsame]
    exact hwf
  · rw [hpush]
    exact Guarded.firstRefusal_none_invariant refusal push (fun l e _ => wellFormed_push l e) hwf
      hnone

theorem reachable_wellFormed {ledger : Ledger} (hreach : ledger.Reachable) :
    ledger.WellFormed := by
  rcases hreach with ⟨calls, rfl⟩
  exact invariant_finalState wellFormed_exec wellFormed_new calls

theorem entries_prefix_exec (call : LedgerCall) (ledger : Ledger) :
    ledger.entries <+: (after call.exec ledger).entries := by
  rcases exec_cases call ledger with hsame | ⟨entries, -, hpush⟩
  · rw [hsame]
  · rw [hpush, foldl_push]
    exact List.prefix_append _ _

/-- A run only ever extends the entries. -/
theorem entries_prefix_finalState (calls : List LedgerCall) (ledger : Ledger) :
    ledger.entries <+: (finalState LedgerCall.exec ledger calls).entries := by
  induction calls generalizing ledger with
  | nil => exact List.prefix_rfl
  | cons call calls ih => exact (entries_prefix_exec call ledger).trans (ih _)

end Ledger

/-- What a list of entries adds to a balance. -/
def totalCents (entries : List LedgerEntry) : Int :=
  (entries.map (·.signedCents)).sum

@[simp] theorem totalCents_append (entries more : List LedgerEntry) :
    totalCents (entries ++ more) = totalCents entries + totalCents more := by
  simp only [totalCents, List.map_append, List.sum_append]

theorem replayFrom_eq_sum (entries : List LedgerEntry) (start balance : Int)
    (hseq : ∀ i (h : i < entries.length), entries[i].sequence = start + i) :
    replayFrom start balance entries = .ok (balance + totalCents entries) := by
  induction entries generalizing start balance with
  | nil => simp only [replayFrom, totalCents, List.map_nil, List.sum_nil, Int.add_zero]
  | cons entry entries ih =>
      have hhead : entry.sequence = start := by
        have h := hseq 0 (by simp only [List.length_cons]; omega)
        simpa using h
      have htail : ∀ i (h : i < entries.length), entries[i].sequence = start + 1 + i := by
        intro i h
        have hi := hseq (i + 1) (by simp only [List.length_cons]; omega)
        rw [List.getElem_cons_succ] at hi
        rw [hi]
        push_cast
        ring
      rw [replayFrom, if_neg (not_not.mpr hhead), ih _ _ htail]
      simp only [totalCents, List.map_cons, List.sum_cons]
      congr 1
      ring

/-- Replaying a well formed ledger does not raise, and adds up its entries. -/
theorem replay_eq_sum {ledger : Ledger} (hwf : ledger.WellFormed) :
    replay ledger.entries = .ok (totalCents ledger.entries) := by
  rw [replay, replayFrom_eq_sum, Int.zero_add]
  intro i h
  rw [hwf.sequence_eq i h]
  ring

/-- The representation invariant over whole runs: in the state after any
    sequence of calls, succeeding or raising, the ledger is well formed, every
    earlier snapshot is a prefix of its entries, no further call can raise and
    change it, and replaying it does not raise. -/
theorem ledger_representation (calls : List LedgerCall) :
    (finalState LedgerCall.exec Ledger.new calls).WellFormed ∧
      (∀ earlier, earlier <+: calls →
        (finalState LedgerCall.exec Ledger.new earlier).entries <+:
          (finalState LedgerCall.exec Ledger.new calls).entries) ∧
      (∀ call : LedgerCall,
        Atomic call.exec (finalState LedgerCall.exec Ledger.new calls)) ∧
      ∃ balance, replay (finalState LedgerCall.exec Ledger.new calls).entries = .ok balance := by
  have hwf := Ledger.reachable_wellFormed ⟨calls, rfl⟩
  refine ⟨hwf, ?_, fun call => Ledger.atomic_exec call _, _, replay_eq_sum hwf⟩
  rintro earlier ⟨later, rfl⟩
  rw [finalState_append]
  exact Ledger.entries_prefix_finalState later _

/-- A batch refines repeated appends: it succeeds exactly when appending its
    entries one by one does, with the same final ledger, and otherwise raises
    the first error of the repeated appends and changes nothing. -/
theorem appendBatch_refines_appendEach (ledger : Ledger) (entries : List LedgerEntry)
    (hne : entries ≠ []) :
    (∀ final, (Ledger.appendBatch entries).run ledger = .ok () final ↔
        (Ledger.appendEach entries).run ledger = .ok () final) ∧
      ∀ e final, (Ledger.appendBatch entries).run ledger = .error e final ↔
        final = ledger ∧ ∃ stopped, (Ledger.appendEach entries).run ledger = .error e stopped := by
  rw [Ledger.appendBatch_eq_together entries hne, Ledger.appendEach_eq_each]
  exact ⟨Guarded.together_ok_iff _ _ entries ledger,
    fun e final => Guarded.together_error_iff _ _ entries ledger final e⟩

/-- The entries of the Chapter 3 teaching ledger. -/
def chapterEntries : List LedgerEntry :=
  [ { entryId := "LE-0001", accountId := "HCCU-DEMO-001", amount := { cents := 100000 }
      entryType := .credit, description := "Opening ledger fact", sequence := 1
      postedAt := 100 },
    { entryId := "LE-0002", accountId := "HCCU-DEMO-001", amount := { cents := 12000 }
      entryType := .debit, description := "First debit fact", sequence := 2
      postedAt := 200 },
    { entryId := "LE-0003", accountId := "HCCU-DEMO-001", amount := { cents := 5525 }
      entryType := .debit, description := "Second debit fact", sequence := 3
      postedAt := 300 } ]

/-- Appended as a batch, the teaching entries give the ledger that appending
    them one by one gives. -/
theorem appendBatch_chapterEntries : (Ledger.appendBatch chapterEntries).run Ledger.new
    = .ok () ⟨chapterEntries, {"LE-0003", "LE-0002", "LE-0001"}⟩ :=
  ((appendBatch_refines_appendEach Ledger.new chapterEntries (by decide)).1 _).mpr rfl

end BankSim
