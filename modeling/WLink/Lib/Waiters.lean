import Mathlib.Data.List.Dedup
import Mathlib.Data.Nat.Count

/-!
# Those who want something and those who wait for it

Of the numbers below `n`, `Nat.count p n` have `p`: they want something. Some of them are in a list,
where they wait. `count_notMem` counts the others, which are on their way.
-/

namespace WLink.Lib

variable {p p' : ℕ → Prop} [DecidablePred p] [DecidablePred p'] {n t : ℕ} {waiting : List ℕ}

/-- One that may stop wanting. -/
theorem count_le_succ_count (h : ∀ u, u ≠ t → p u → p' u) : Nat.count p n ≤ Nat.count p' n + 1 := by
  induction n with
  | zero => simp
  | succ n ih =>
    rw [Nat.count_succ, Nat.count_succ]
    by_cases hn : n = t
    · -- below `n` nobody stops
      have hle : Nat.count p n ≤ Nat.count p' n := by
        apply Nat.count_mono_left
        intro u hu
        exact h u (by omega)
      split_ifs <;> omega
    · have hmono := h n hn
      split_ifs <;> first | omega | tauto

/-- Those who want something are waiting or on their way. -/
theorem count_notMem (hnodup : waiting.Nodup) (h : ∀ t ∈ waiting, t < n ∧ p t) :
    Nat.count (fun t => p t ∧ t ∉ waiting) n + waiting.length = Nat.count p n := by
  have hsub : waiting.toFinset ⊆ {t ∈ Finset.range n | p t} := by
    intro t ht
    rw [List.mem_toFinset] at ht
    rw [Finset.mem_filter, Finset.mem_range]
    exact h t ht
  have hsdiff : {t ∈ Finset.range n | p t ∧ t ∉ waiting} =
      {t ∈ Finset.range n | p t} \ waiting.toFinset := by
    ext t
    simp [and_assoc]
  have hcard := Finset.card_sdiff_add_card_eq_card hsub
  rw [List.toFinset_card_of_nodup hnodup] at hcard
  rw [Nat.count_eq_card_filter_range, Nat.count_eq_card_filter_range, hsdiff]
  exact hcard

theorem length_le_count (hnodup : waiting.Nodup) (h : ∀ t ∈ waiting, t < n ∧ p t) :
    waiting.length ≤ Nat.count p n := by
  have hcount := count_notMem hnodup h
  omega

end WLink.Lib
