import Mathlib.Data.Finset.Card
import Mathlib.Data.Set.Function
import Mathlib.Order.Interval.Finset.Nat
import Mathlib.Logic.Function.Iterate

/-!
# The first stop of a deterministic walk

A walk goes from `x` to `f x` until it comes to a place where it stops. A place visited twice
in front of the stop would be visited forever (`iterate_injOn_of_first`), so a walk among
finitely many places stops within their number or never does (`first_lt_card`).
-/

namespace WLink.Lib

section

variable {α : Type} {f : α → α} {x : α} {Stop : α → Prop} {k : ℕ}

/-- A walk that stops has not been at the same place twice before. -/
theorem iterate_injOn_of_first (hstop : Stop (f^[k] x)) (hfirst : ∀ i < k, ¬ Stop (f^[i] x)) :
    Set.InjOn (fun i => f^[i] x) (Finset.range (k + 1)) := by
  -- a return from `i` to `j` would bring the stop forward by `j - i` rounds
  have hreturn : ∀ i j, i < j → j ≤ k → f^[i] x ≠ f^[j] x := by
    intro i j hij hjk heq
    refine hfirst (k - j + i) (by omega) ?_
    have hlast : f^[k - j + i] x = f^[k] x := by
      calc f^[k - j + i] x = f^[k - j] (f^[i] x) := Function.iterate_add_apply f (k - j) i x
        _ = f^[k - j] (f^[j] x) := by rw [heq]
        _ = f^[k - j + j] x := (Function.iterate_add_apply f (k - j) j x).symm
        _ = f^[k] x := by rw [Nat.sub_add_cancel hjk]
    rw [hlast]
    exact hstop
  intro i hi j hj heq
  have hik : i ≤ k := by
    have := Finset.mem_range.mp hi
    omega
  have hjk : j ≤ k := by
    have := Finset.mem_range.mp hj
    omega
  rcases Nat.lt_trichotomy i j with hlt | rfl | hlt
  · exact absurd heq (hreturn i j hlt hjk)
  · rfl
  · exact absurd heq.symm (hreturn j i hlt hik)

/-- A walk that stops at all among the places of `s` does so before it has seen them all. -/
theorem first_lt_card (s : Finset α) (hstop : Stop (f^[k] x))
    (hfirst : ∀ i < k, ¬ Stop (f^[i] x)) (hmem : ∀ i ≤ k, f^[i] x ∈ s) : k < s.card := by
  have hcard := Finset.card_le_card_of_injOn (s := Finset.range (k + 1)) (t := s)
    (fun i => f^[i] x) (fun i hi => hmem i (by
      have := Finset.mem_range.mp hi
      omega)) (iterate_injOn_of_first hstop hfirst)
  rw [Finset.card_range] at hcard
  omega

end

end WLink.Lib
