import Mathlib.Data.List.Basic
import Mathlib.Data.Nat.Notation
import Mathlib.Tactic.TypeStar

/-!
# Ring buffers

A ring of `n` slots holds a list that begins at some slot and goes on behind the last slot at the
first. `ringContents slot n start count` is the list of `count` entries from `start` on. What is
stored behind the last entry or in front of the first one is at the end or at the front of the list
then (`ringContents_back`, `ringContents_front`).
-/

namespace WLink.Lib

variable {α : Type*}

/-- The entries of `count` slots from `start` on. -/
def ringContents (slot : ℕ → α) (n start count : ℕ) : List α :=
  (List.range count).map fun i => slot ((start + i) % n)

variable {slot slot' : ℕ → α} {n start start' count : ℕ} {v : α}

@[simp] theorem length_ringContents : (ringContents slot n start count).length = count := by
  simp [ringContents]

theorem ringContents_congr
    (h : ∀ i < count, slot' ((start + i) % n) = slot ((start + i) % n)) :
    ringContents slot' n start count = ringContents slot n start count :=
  List.map_congr_left fun i hi => h i (List.mem_range.mp hi)

/-- Only the slot of the start counts. -/
theorem ringContents_start (h : start % n = start' % n) :
    ringContents slot n start count = ringContents slot n start' count := by
  apply List.map_congr_left
  intro i _
  rw [Nat.add_mod start, h, ← Nat.add_mod]

theorem ringContents_cons : ringContents slot n start (count + 1) =
    slot (start % n) :: ringContents slot n (start + 1) count := by
  unfold ringContents
  rw [List.range_succ_eq_map, List.map_cons, List.map_map, Nat.add_zero]
  congr 1
  apply List.map_congr_left
  intro i _
  show slot ((start + (i + 1)) % n) = _
  rw [Nat.add_right_comm, Nat.add_assoc]

theorem ringContents_concat : ringContents slot n start (count + 1) =
    ringContents slot n start count ++ [slot ((start + count) % n)] := by
  unfold ringContents
  rw [List.range_succ, List.map_append]
  rfl

/-- Fewer than `n` slots further on there is another slot. -/
theorem ring_ne {i j : ℕ} (hij : i < j) (hj : j < i + n) : (start + i) % n ≠ (start + j) % n := by
  intro h
  have hdvd : n ∣ start + j - (start + i) :=
    Nat.dvd_of_mod_eq_zero (Nat.sub_mod_eq_zero_of_mod_eq h.symm)
  have hle := Nat.le_of_dvd (by omega) hdvd
  omega

theorem ringContents_back (hcount : count < n) (hv : slot' ((start + count) % n) = v)
    (hother : ∀ k, k ≠ (start + count) % n → slot' k = slot k) :
    ringContents slot' n start (count + 1) = ringContents slot n start count ++ [v] := by
  rw [ringContents_concat, hv]
  congr 1
  apply ringContents_congr
  intro i hi
  exact hother _ (ring_ne hi (by omega))

theorem ringContents_front (hcount : count < n) (hv : slot' (start % n) = v)
    (hother : ∀ k, k ≠ start % n → slot' k = slot k) :
    ringContents slot' n start (count + 1) = v :: ringContents slot n (start + 1) count := by
  rw [ringContents_cons, hv]
  congr 1
  apply ringContents_congr
  intro i hi
  apply hother
  have h : (start + 0) % n ≠ (start + (i + 1)) % n := ring_ne (by omega) (by omega)
  rw [Nat.add_zero] at h
  rw [Nat.add_assoc, Nat.add_comm 1 i]
  exact h.symm

end WLink.Lib
