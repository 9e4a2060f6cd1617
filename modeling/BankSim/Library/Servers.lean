import Mathlib

/-!
# First-In First-Out Service with Several Servers

Items arrive in order and are served in order, each for the same duration, by
a number of servers. The item in place `i` starts when it arrives, if there is
a server that never served before, and otherwise when it has arrived and the
item so many places before it as there are servers is done.

Later items do not start earlier, and no item starts later when there are more
servers. The second holds because with more servers the item one waits for is
an earlier one.

Arrivals matter only up to the time at which their items would start anyway.
So a schedule is compared with another one by comparing the arrivals of the one
with the starts of the other.

## Main definitions

* `Servers.start`: When an item starts.

## Theorems

* `start_mono`: Later items do not start earlier.
* `start_anti`: More servers do not delay any item.
* `start_le_start`: Items that arrive before others start do not start later.
* `start_add`, `start_le_add`: Items that all arrive later start so much later,
  and those that arrive up to so much later start up to so much later.
* `start_fold_le`, `le_start_fold`: Servers compared with several times as many
  that take several times as long.
-/

namespace Servers

/-- When the item in place `i` starts. -/
def start (servers : Nat) (duration : Int) (arrival : Nat → Int) (i : Nat) : Int :=
  if _h : 0 < servers ∧ servers ≤ i then
    max (arrival i) (start servers duration arrival (i - servers) + duration)
  else
    arrival i
termination_by i
decreasing_by omega

variable {servers : Nat} {duration : Int} {arrival : Nat → Int} {i : Nat}

theorem start_of_lt (h : i < servers) : start servers duration arrival i = arrival i := by
  unfold start
  rw [dif_neg (by omega)]

theorem start_of_le (hpos : 0 < servers) (h : servers ≤ i) :
    start servers duration arrival i
      = max (arrival i) (start servers duration arrival (i - servers) + duration) := by
  conv_lhs => unfold start
  rw [dif_pos ⟨hpos, h⟩]

theorem arrival_le_start : arrival i ≤ start servers duration arrival i := by
  unfold start
  by_cases h : 0 < servers ∧ servers ≤ i
  · rw [dif_pos h]
    exact le_max_left _ _
  · rw [dif_neg h]

/-- Only the arrivals up to the item count. -/
theorem start_congr {other : Nat → Int} :
    ∀ i, (∀ j ≤ i, arrival j = other j) →
      start servers duration arrival i = start servers duration other i := by
  intro i
  induction i using Nat.strong_induction_on with
  | _ i ih =>
      intro h
      by_cases hle : 0 < servers ∧ servers ≤ i
      · have hbefore := ih (i - servers) (by omega) fun j hj => h j (by omega)
        rw [start_of_le hle.1 hle.2, start_of_le hle.1 hle.2, hbefore, h i le_rfl]
      · unfold start
        rw [dif_neg hle, dif_neg hle, h i le_rfl]

/-- Items that arrive no later than the items of another schedule start do not
    start later. -/
theorem start_le_start {other : Nat → Int} :
    ∀ i, (∀ j ≤ i, other j ≤ start servers duration arrival j) →
      start servers duration other i ≤ start servers duration arrival i := by
  intro i
  induction i using Nat.strong_induction_on with
  | _ i ih =>
      intro h
      have hself := h i le_rfl
      by_cases hle : 0 < servers ∧ servers ≤ i
      · have hbefore := ih (i - servers) (by omega) fun j hj => h j (by omega)
        have hwaits := @start_of_le servers duration arrival i hle.1 hle.2
        rw [start_of_le hle.1 hle.2]
        omega
      · have hnow : start servers duration other i = other i := by
          unfold start
          rw [dif_neg hle]
        rw [hnow]
        exact hself

/-- Where all items arrive so much later, they start so much later. -/
theorem start_add (delay : Int) :
    ∀ i, start servers duration (fun j => arrival j + delay) i
      = start servers duration arrival i + delay := by
  intro i
  induction i using Nat.strong_induction_on with
  | _ i ih =>
      by_cases hle : 0 < servers ∧ servers ≤ i
      · rw [start_of_le hle.1 hle.2, start_of_le hle.1 hle.2, ih (i - servers) (by omega)]
        omega
      · unfold start
        rw [dif_neg hle, dif_neg hle]

/-- Items that arrive no more than so much later start no more than so much
    later. -/
theorem start_le_add {other : Nat → Int} {delay : Int} {i : Nat}
    (h : ∀ j ≤ i, other j ≤ arrival j + delay) :
    start servers duration other i ≤ start servers duration arrival i + delay := by
  rw [← start_add delay i]
  exact start_le_start i fun j hj => (h j hj).trans arrival_le_start

/-- As long as items arrive in order, they start in order. -/
theorem start_mono (duration : Int) {count : Nat} (hpos : 0 < servers)
    (harrival : ∀ i j, i ≤ j → j < count → arrival i ≤ arrival j) :
    ∀ j i, i ≤ j → j < count →
      start servers duration arrival i ≤ start servers duration arrival j := by
  intro j
  induction j using Nat.strong_induction_on with
  | _ j ih =>
      intro i hij hj
      have hle := harrival i j hij hj
      by_cases hi : servers ≤ i
      · -- Both wait for an item, and the later one for the later of the two.
        have hbefore := ih (j - servers) (by omega) (i - servers) (by omega) (by omega)
        rw [start_of_le hpos hi, start_of_le hpos (le_trans hi hij)]
        omega
      · rw [start_of_lt (not_le.mp hi)]
        exact le_trans hle arrival_le_start

/-- No item starts later when there are more servers. -/
theorem start_anti {count more : Nat} (hpos : 0 < servers) (hmore : servers ≤ more)
    (harrival : ∀ i j, i ≤ j → j < count → arrival i ≤ arrival j) :
    ∀ i, i < count →
      start more duration arrival i ≤ start servers duration arrival i := by
  intro i
  induction i using Nat.strong_induction_on with
  | _ i ih =>
      intro hi
      by_cases hle : more ≤ i
      · have hfewer := ih (i - more) (by omega) (by omega)
        -- With more servers the item that has to be done is an earlier one.
        have hearlier := start_mono duration hpos harrival (i - servers) (i - more) (by omega)
          (by omega)
        rw [start_of_le (by omega) hle, start_of_le hpos (by omega)]
        omega
      · rw [start_of_lt (not_le.mp hle)]
        exact arrival_le_start

/-! ### Speed and number

Several times as many servers that take so much longer come to the same
throughput. They start no item later, since there are more of them, and they are
done with none earlier, since each takes its time. -/

/-- So many rounds before, an item started that much earlier. -/
theorem start_rounds_le (hpos : 0 < servers) (rounds : Nat) :
    ∀ i, rounds * servers ≤ i →
      start servers duration arrival (i - rounds * servers) + duration * rounds
        ≤ start servers duration arrival i := by
  induction rounds with
  | zero =>
      intro i _
      simp
  | succ rounds ih =>
      intro i h
      rw [Nat.succ_mul] at h
      have hbefore := ih (i - servers) (by omega)
      have hplace : i - servers - rounds * servers = i - (rounds + 1) * servers := by
        rw [Nat.succ_mul]
        omega
      rw [hplace] at hbefore
      rw [start_of_le (i := i) hpos (by omega), Nat.cast_succ, mul_add_one]
      omega

/-- Items of the first so many rounds are done when as many have passed. -/
theorem start_first_le {count : Nat} (hpos : 0 < servers) (hduration : 0 ≤ duration)
    (harrival : ∀ i j, i ≤ j → j < count → arrival i ≤ arrival j) (rounds : Nat) :
    ∀ i, i < count → i < rounds * servers →
      start servers duration arrival i + duration ≤ arrival i + duration * rounds := by
  induction rounds with
  | zero =>
      intro i _ h
      omega
  | succ rounds ih =>
      intro i hi h
      have hpassed : 0 ≤ duration * (rounds : Int) := mul_nonneg hduration (Int.natCast_nonneg _)
      rw [Nat.succ_mul] at h
      rw [Nat.cast_succ, mul_add_one]
      by_cases hfirst : i < servers
      · rw [start_of_lt hfirst]
        omega
      · have hbefore := ih (i - servers) (by omega) (by omega)
        have hsooner := harrival (i - servers) i (Nat.sub_le _ _) hi
        rw [start_of_le hpos (not_lt.mp hfirst)]
        omega

/-- An item waits for its own arrival or for the item so many rounds before. -/
theorem start_le_rounds {count : Nat} (hpos : 0 < servers) (hduration : 0 ≤ duration)
    (harrival : ∀ i j, i ≤ j → j < count → arrival i ≤ arrival j) (rounds : Nat) :
    ∀ i, i < count → rounds * servers ≤ i →
      start servers duration arrival i + duration ≤ max (arrival i)
        (start servers duration arrival (i - rounds * servers) + duration)
          + duration * rounds := by
  induction rounds with
  | zero =>
      intro i _ _
      simp
  | succ rounds ih =>
      intro i hi h
      rw [Nat.succ_mul] at h
      have hbefore := ih (i - servers) (by omega) (by omega)
      have hplace : i - servers - rounds * servers = i - (rounds + 1) * servers := by
        rw [Nat.succ_mul]
        omega
      have hpassed : 0 ≤ duration * (rounds : Int) := mul_nonneg hduration (Int.natCast_nonneg _)
      have hsooner := harrival (i - servers) i (Nat.sub_le _ _) hi
      rw [hplace] at hbefore
      rw [start_of_le (i := i) hpos (by omega), Nat.cast_succ, mul_add_one]
      omega

/-- So many times as many servers that take so many times as long start no item
    later. -/
theorem start_fold_le (hpos : 0 < servers) {fold : Nat} (hfold : 0 < fold) :
    ∀ i, start (servers * fold) (duration * fold) arrival i
      ≤ start servers duration arrival i := by
  intro i
  induction i using Nat.strong_induction_on with
  | _ i ih =>
      have hmany : 0 < servers * fold := Nat.mul_pos hpos hfold
      by_cases hfirst : i < servers * fold
      · rw [start_of_lt hfirst]
        exact arrival_le_start
      · -- The item they wait for is as many rounds before.
        have hbefore := ih (i - servers * fold) (by omega)
        have hrounds := @start_rounds_le servers duration arrival hpos fold i
          (by rw [Nat.mul_comm]; exact not_lt.mp hfirst)
        have harrived := @arrival_le_start servers duration arrival i
        rw [Nat.mul_comm fold] at hrounds
        rw [start_of_le hmany (not_lt.mp hfirst)]
        omega

/-- And they are done with none earlier. -/
theorem le_start_fold {count : Nat} (hpos : 0 < servers) (hduration : 0 ≤ duration)
    (harrival : ∀ i j, i ≤ j → j < count → arrival i ≤ arrival j) {fold : Nat} (hfold : 0 < fold) :
    ∀ i, i < count → start servers duration arrival i + duration
      ≤ start (servers * fold) (duration * fold) arrival i + duration * fold := by
  intro i
  induction i using Nat.strong_induction_on with
  | _ i ih =>
      intro hi
      have hmany : 0 < servers * fold := Nat.mul_pos hpos hfold
      by_cases hfirst : i < servers * fold
      · rw [start_of_lt hfirst]
        exact start_first_le hpos hduration harrival fold i hi (by rw [Nat.mul_comm]; exact hfirst)
      · have hbefore := ih (i - servers * fold) (by omega) (by omega)
        have hrounds := start_le_rounds hpos hduration harrival fold i hi
          (by rw [Nat.mul_comm]; exact not_lt.mp hfirst)
        rw [Nat.mul_comm fold] at hrounds
        rw [start_of_le hmany (not_lt.mp hfirst)]
        omega

end Servers
