import BankSim.Library.Run

/-!
# Machines that Keep a Journal

A machine that writes down every change it makes. Each call has at most one
record to write. It is accepted when the journal, with that record added, is
still in some language of journals, and then the record is written; otherwise
it is refused and nothing changes.

For such a machine nothing has to be said about runs any more: `journal_iff`
says that the journals it can reach are the extensions of its journal that are
in the language. What a maintainer reads off a journal is then a fact about
the language alone, and what the language allows some run does.

The invariant is a parameter. It is what ties the rest of the state to the
journal, and it is all that is needed to know which calls are accepted.

## Main definitions

* `Journalled`: Calls are accepted as a language of journals has it.

## Theorems

* `Journalled.keeps`: A call keeps the invariant and the language.
* `Journalled.grows`: What a run writes stays in the language.
* `Journalled.journal_iff`: The journals a machine can reach.
-/

namespace Exec

variable {ε σ κ α ρ : Type}

/-- Under the invariant, a call is accepted exactly when the journal it would
    leave is in the language, and a refused call changes nothing. -/
structure Journalled (exec : κ → EStateM ε σ α) (journal : σ → List ρ) (I : σ → Prop)
    (writes : κ → Option ρ) (Language : List ρ → Prop) : Prop where
  accepts : ∀ s c r, I s → Language (journal s) → writes c = some r →
    Language (journal s ++ [r]) →
      I (after (exec c) s) ∧ journal (after (exec c) s) = journal s ++ [r]
  refuses : ∀ s c, I s → Language (journal s) →
    (∀ r, writes c = some r → ¬ Language (journal s ++ [r])) → after (exec c) s = s
  writable : ∀ l r, l ≠ [] → Language (l ++ [r]) → ∃ c, writes c = some r

namespace Journalled

variable {exec : κ → EStateM ε σ α} {journal : σ → List ρ} {I : σ → Prop}
    {writes : κ → Option ρ} {Language : List ρ → Prop}

/-- Whatever a call does, it extends the journal within the language. -/
theorem keeps (h : Journalled exec journal I writes Language) {s : σ} (hs : I s)
    (hl : Language (journal s)) (c : κ) :
    (I (after (exec c) s) ∧ Language (journal (after (exec c) s))) ∧
      journal s <+: journal (after (exec c) s) := by
  by_cases haccept : ∃ r, writes c = some r ∧ Language (journal s ++ [r])
  · obtain ⟨r, hr, hlr⟩ := haccept
    have hafter := h.accepts s c r hs hl hr hlr
    rw [hafter.2]
    exact ⟨⟨hafter.1, hlr⟩, List.prefix_append _ _⟩
  · have hafter : after (exec c) s = s :=
      h.refuses s c hs hl fun r hr hlr => haccept ⟨r, hr, hlr⟩
    rw [hafter]
    exact ⟨⟨hs, hl⟩, List.prefix_rfl⟩

/-- A run extends the journal within the language. -/
theorem grows (h : Journalled exec journal I writes Language) {s : σ} (hs : I s)
    (hl : Language (journal s)) (calls : List κ) :
    (I (finalState exec s calls) ∧ Language (journal (finalState exec s calls))) ∧
      journal s <+: journal (finalState exec s calls) := by
  induction calls generalizing s with
  | nil => exact ⟨⟨hs, hl⟩, List.prefix_rfl⟩
  | cons c calls ih =>
      obtain ⟨⟨hs', hl'⟩, hstep⟩ := h.keeps hs hl c
      obtain ⟨hkept, hrest⟩ := ih hs' hl'
      exact ⟨hkept, hstep.trans hrest⟩

/-- The journals a machine can reach are the extensions of its journal that
    are in the language, when the language has what they grow from as well. -/
theorem journal_iff (h : Journalled exec journal I writes Language) {s : σ} (hs : I s)
    (hl : Language (journal s)) (hne : journal s ≠ [])
    (hclosed : ∀ l r, l ≠ [] → Language (l ++ [r]) → Language l) (rs : List ρ) :
    (∃ calls, journal (finalState exec s calls) = journal s ++ rs) ↔
      Language (journal s ++ rs) := by
  constructor
  · rintro ⟨calls, hcalls⟩
    rw [← hcalls]
    exact (h.grows hs hl calls).1.2
  · intro hlr
    -- The last record is written by a call after what comes before it.
    induction rs using List.reverseRecOn with
    | nil => exact ⟨[], by rw [List.append_nil, finalState_nil]⟩
    | append_singleton rs r ih =>
        rw [← List.append_assoc] at hlr ⊢
        have hne' : journal s ++ rs ≠ [] := List.append_ne_nil_of_left_ne_nil hne rs
        obtain ⟨calls, hcalls⟩ := ih (hclosed _ r hne' hlr)
        obtain ⟨c, hc⟩ := h.writable _ r hne' hlr
        have hkept := (h.grows hs hl calls).1
        rw [← hcalls] at hlr
        have hwritten := h.accepts _ c r hkept.1 hkept.2 hc hlr
        refine ⟨calls ++ [c], ?_⟩
        rw [finalState_append, finalState_cons, finalState_nil, hwritten.2, hcalls]

end Journalled

end Exec
