import BankSim.Theory.Ledger

/-!
# Posting the Next Entry

Every workflow ends the same way: it builds an entry from its own data and
the next sequence number, and appends it. The steps can fail one after the
other, in the constructors of the amount and of the entry and in the append.

`Posting` is the data of an entry without its sequence number, and `post` the
common last step. `Posting.Fits` collects the tests of all three stages in
one condition on the data and the ledger, and `post_of_fits` and
`post_of_not_fits` say that it decides the outcome. A failed post changes
nothing, so whatever goes wrong after one was done by the caller before it.

## Main definitions

* `Posting`: The data of an entry that has no sequence number yet.
* `Posting.post`: Build the next entry and append it.
* `Posting.Fits`: The posting is valid and the ledger accepts it.
* `Posting.entry`: The entry a fitting posting becomes.
* `Posting.Matches`: An entry records the posting.

## Theorems

* `refusal_entry`: The ledger accepts the entry of a fitting posting.
* `post_of_fits`: A fitting posting is appended.
* `post_of_not_fits`: Any other raises and changes nothing.
* `post_ok`: A post that returns had a fitting posting.
* `fits_of_push`: What fits after an append fitted before.
-/

namespace BankSim

open Exec

/-- The data of an entry that has no sequence number yet. -/
structure Posting where
  entryId : String
  accountId : String
  cents : Int
  entryType : EntryType
  description : String
  postedAt : Int
  originalTransferId : Option String := none
  achReturnId : Option String := none

namespace Posting

/-- Build the next entry and append it. -/
def post (posting : Posting) : Action Ledger Unit := do
  let ledger ← get
  let amount ← Money.new posting.cents
  let entry ← LedgerEntry.new posting.entryId posting.accountId amount posting.entryType
    posting.description (ledger.entries.length + 1) posting.postedAt posting.originalTransferId
    posting.achReturnId
  Ledger.append entry

/-- Posting to a ledger held in a larger state, written out: the sequence
    number is read from that state. -/
theorem zoom_post {σ : Type} (p : Component σ Ledger) (posting : Posting) :
    p.zoom posting.post = (do
      let self ← get
      let amount ← Money.new posting.cents
      let entry ← LedgerEntry.new posting.entryId posting.accountId amount posting.entryType
        posting.description ((p.get self).entries.length + 1) posting.postedAt
        posting.originalTransferId posting.achReturnId
      p.zoom (Ledger.append entry)) := by
  simp only [post, Component.zoom_bind, Component.zoom_get, Component.zoom_lift, bind_assoc,
    pure_bind]

/-- The data is valid, its identifier is new, and no entry is posted later. -/
structure Fits (posting : Posting) (ledger : Ledger) : Prop where
  cents_pos : 0 < posting.cents
  entryId_nonblank : isBlank posting.entryId = false
  accountId_nonblank : isBlank posting.accountId = false
  description_nonblank : isBlank posting.description = false
  postedAt_nonneg : 0 ≤ posting.postedAt
  originalTransferId_nonblank : posting.originalTransferId.any isBlank = false
  achReturnId_nonblank : posting.achReturnId.any isBlank = false
  fresh : posting.entryId ∉ ledger.entryIds
  last_le : ledger.lastPostedAt ≤ posting.postedAt

instance (posting : Posting) (ledger : Ledger) : Decidable (posting.Fits ledger) :=
  decidable_of_iff
    (0 < posting.cents ∧ isBlank posting.entryId = false ∧ isBlank posting.accountId = false ∧
      isBlank posting.description = false ∧ 0 ≤ posting.postedAt ∧
      posting.originalTransferId.any isBlank = false ∧ posting.achReturnId.any isBlank = false ∧
      posting.entryId ∉ ledger.entryIds ∧ ledger.lastPostedAt ≤ posting.postedAt)
    ⟨fun ⟨a, b, c, d, e, f, g, h, i⟩ => ⟨a, b, c, d, e, f, g, h, i⟩,
      fun ⟨a, b, c, d, e, f, g, h, i⟩ => ⟨a, b, c, d, e, f, g, h, i⟩⟩

variable {posting : Posting} {ledger : Ledger}

/-- The entry a fitting posting becomes. -/
def entry (h : posting.Fits ledger) : LedgerEntry where
  entryId := posting.entryId
  accountId := posting.accountId
  amount := ⟨posting.cents, h.cents_pos⟩
  entryType := posting.entryType
  description := posting.description
  sequence := ledger.entries.length + 1
  postedAt := posting.postedAt
  originalTransferId := posting.originalTransferId
  achReturnId := posting.achReturnId
  entryId_nonblank := h.entryId_nonblank
  accountId_nonblank := h.accountId_nonblank
  description_nonblank := h.description_nonblank
  sequence_pos := ledger.next_sequence_pos
  postedAt_nonneg := h.postedAt_nonneg
  originalTransferId_nonblank := h.originalTransferId_nonblank
  achReturnId_nonblank := h.achReturnId_nonblank

/-- An entry records the posting: it has its identifier, account, amount and
    direction. -/
def Matches (posting : Posting) (entry : LedgerEntry) : Prop :=
  entry.entryId = posting.entryId ∧ entry.accountId = posting.accountId ∧
    entry.amount.cents = posting.cents ∧ entry.entryType = posting.entryType

theorem matches_entry (h : posting.Fits ledger) : posting.Matches (entry h) :=
  ⟨rfl, rfl, rfl, rfl⟩

/-- The ledger accepts the entry of a fitting posting. -/
theorem refusal_entry (h : posting.Fits ledger) : ledger.refusal (entry h) = none :=
  (Ledger.refusal_eq_none_iff ledger (entry h)).mpr ⟨rfl, h.fresh, h.last_le⟩

/-- A fitting posting is appended. -/
theorem post_of_fits (h : posting.Fits ledger) :
    posting.post.run ledger = .ok () (ledger.push (entry h)) := by
  rw [post, run_bind_get, run_bind_lift_ok (Money.new_of_pos posting.cents h.cents_pos)]
  refine (run_bind_lift_ok (LedgerEntry.new_self (entry h))).trans ?_
  rw [Ledger.append_run, refusal_entry h]

theorem atomic_post (posting : Posting) (ledger : Ledger) : Atomic posting.post ledger :=
  atomic_bind within_get fun _ _ => atomic_bind (within_lift _) fun _ _ =>
    atomic_bind (within_lift _) fun entry _ => Ledger.atomic_append entry ledger

/-- What the constructors let through fits a ledger that has nothing against
    its identifier and its time: between them they check all the fields. -/
theorem fits_of_built {amount : Money} {sequence : Int} {built : LedgerEntry}
    (hmoney : Money.new posting.cents = .ok amount)
    (hbuilt : LedgerEntry.new posting.entryId posting.accountId amount posting.entryType
      posting.description sequence posting.postedAt posting.originalTransferId
      posting.achReturnId = .ok built)
    (hfresh : posting.entryId ∉ ledger.entryIds)
    (hlast : ledger.lastPostedAt ≤ posting.postedAt) : posting.Fits ledger := by
  rcases (LedgerEntry.new_ok_iff _ _ _ _ _ _ _ _ _ _).mp hbuilt with
    ⟨hid, hac, -, -, hde, -, hpo, hor, hre⟩
  have hcents : 0 < posting.cents := by
    unfold Money.new at hmoney
    split_ifs at hmoney
    omega
  exact
    { cents_pos := hcents
      entryId_nonblank := hid ▸ built.entryId_nonblank
      accountId_nonblank := hac ▸ built.accountId_nonblank
      description_nonblank := hde ▸ built.description_nonblank
      postedAt_nonneg := hpo ▸ built.postedAt_nonneg
      originalTransferId_nonblank := hor ▸ built.originalTransferId_nonblank
      achReturnId_nonblank := hre ▸ built.achReturnId_nonblank
      fresh := hfresh
      last_le := hlast }

/-- A post that returns had a fitting posting: each stage it passed checked
    some of the fields. -/
theorem fits_of_post_ok {final : Ledger} (hrun : posting.post.run ledger = .ok () final) :
    posting.Fits ledger := by
  simp only [post, run_bind_get, run_bind_lift_ok_iff] at hrun
  rcases hrun with ⟨amount, hmoney, entry, hentry, happend⟩
  rcases (LedgerEntry.new_ok_iff _ _ _ _ _ _ _ _ _ _).mp hentry with
    ⟨hid, -, -, -, -, -, hpo, -, -⟩
  rw [Ledger.append_eq_step] at happend
  have haccept := ((Guarded.step_ok_iff _ _ _ _ _).mp happend).1
  rcases (Ledger.refusal_eq_none_iff ledger entry).mp haccept with ⟨-, hfresh, hlast⟩
  exact fits_of_built hmoney hentry (hid ▸ hfresh) (hpo ▸ hlast)

/-- A post that returns appended the entry of its posting. -/
theorem post_ok {final : Ledger} (hrun : posting.post.run ledger = .ok () final) :
    ∃ h : posting.Fits ledger, final = ledger.push (entry h) := by
  have h := fits_of_post_ok hrun
  rw [post_of_fits h, EStateM.Result.ok.injEq] at hrun
  exact ⟨h, hrun.2.symm⟩

/-- A posting that does not fit raises and changes nothing. -/
theorem post_of_not_fits (h : ¬ posting.Fits ledger) :
    ∃ e, posting.post.run ledger = .error e ledger := by
  cases hrun : posting.post.run ledger with
  | ok _ final => exact absurd (fits_of_post_ok hrun) h
  | error e final =>
      rw [atomic_post posting ledger e final hrun]
      exact ⟨e, rfl⟩

/-- An accepted entry only makes it harder to fit: identifiers accumulate and
    posting times do not decrease. -/
theorem fits_of_push {accepted : LedgerEntry} (haccept : ledger.refusal accepted = none)
    (h : posting.Fits (ledger.push accepted)) : posting.Fits ledger := by
  have hlast := ((Ledger.refusal_eq_none_iff ledger accepted).mp haccept).2.2
  have hafter := h.last_le
  rw [Ledger.push_lastPostedAt] at hafter
  refine { h with fresh := fun hmem => h.fresh ?_, last_le := by omega }
  rw [Ledger.push_entryIds]
  exact Finset.mem_insert_of_mem hmem

end Posting

end BankSim
