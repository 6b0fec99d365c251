import Mathlib.Data.List.Count
import Mathlib.Data.List.Perm.Basic
import Mathlib.Data.Nat.Notation
import Mathlib.Logic.Function.Basic

/-!
# A ledger of allocations

Who has a heap block to give back is a matter of counting: `Ledger` numbers the blocks that have
been allocated and counts how often each of them has been freed. `Balanced l held` says that the
pointers in `held` are exactly what is left: every block has been freed once or is held once, and
never both. Nothing is then lost and nothing is freed twice. `Balanced.malloc` and
`Balanced.free` are the rules for the two operations, `Balanced.perm` moves a pointer to the
front; pointers that an operation knows nothing of stand at the end of the list.
-/

namespace WLink.Lib

/-- The blocks with numbers below `next` have been allocated, and `b` was freed `freed b` times. -/
structure Ledger where
  next : ℕ
  freed : ℕ → ℕ

namespace Ledger

def empty : Ledger := ⟨0, fun _ => 0⟩

/-- Allocate a block: the one with the number `l.next`. -/
def malloc (l : Ledger) : Ledger := { l with next := l.next + 1 }

def free (l : Ledger) (b : ℕ) : Ledger :=
  { l with freed := Function.update l.freed b (l.freed b + 1) }

@[simp] theorem next_malloc (l : Ledger) : l.malloc.next = l.next + 1 := rfl

@[simp] theorem freed_malloc (l : Ledger) : l.malloc.freed = l.freed := rfl

@[simp] theorem next_free (l : Ledger) (b : ℕ) : (l.free b).next = l.next := rfl

theorem freed_free (l : Ledger) (b c : ℕ) :
    (l.free b).freed c = l.freed c + if c = b then 1 else 0 := by
  unfold free
  by_cases h : c = b
  · subst h
    simp
  · simp [h]

end Ledger

/-- Every allocated block has been freed once or is held once. -/
def Balanced (l : Ledger) (held : List ℕ) : Prop :=
  ∀ b, l.freed b + held.count b = if b < l.next then 1 else 0

theorem balanced_empty : Balanced Ledger.empty [] := fun _ => rfl

namespace Balanced

variable {l : Ledger} {held : List ℕ} {b : ℕ}

theorem perm {held' : List ℕ} (h : Balanced l held) (hperm : held.Perm held') :
    Balanced l held' := by
  intro b
  rw [← hperm.count_eq]
  exact h b

theorem malloc (h : Balanced l held) : Balanced l.malloc (l.next :: held) := by
  intro b
  have hb := h b
  rw [List.count_cons, Ledger.freed_malloc, Ledger.next_malloc]
  by_cases heq : l.next = b
  · subst heq
    simp only [Nat.lt_irrefl, if_false] at hb
    simp
    omega
  · simp only [beq_iff_eq, heq, if_false]
    split at hb <;> split <;> omega

theorem free (h : Balanced l (b :: held)) : Balanced (l.free b) held := by
  intro c
  have hc := h c
  rw [List.count_cons] at hc
  rw [Ledger.freed_free, Ledger.next_free]
  by_cases heq : b = c
  · subst heq
    simp only [beq_self_eq_true, if_true] at hc ⊢
    omega
  · simp only [beq_iff_eq, heq, Ne.symm heq, if_false] at hc ⊢
    omega

/-- A block that nobody holds has been freed. -/
theorem freed_eq_one (h : Balanced l held) (hlt : b < l.next) (hb : b ∉ held) :
    l.freed b = 1 := by
  have hcount := h b
  rw [if_pos hlt, List.count_eq_zero_of_not_mem hb] at hcount
  exact hcount

theorem freed_eq_zero (h : Balanced l held) (hb : b ∈ held) : l.freed b = 0 := by
  have hcount := h b
  have hpos : 0 < held.count b := List.count_pos_iff.mpr hb
  split at hcount <;> omega

/-- What is held has been allocated. -/
theorem lt_next (h : Balanced l held) (hb : b ∈ held) : b < l.next := by
  have hcount := h b
  have hpos : 0 < held.count b := List.count_pos_iff.mpr hb
  split at hcount
  · assumption
  · omega

end Balanced

end WLink.Lib
