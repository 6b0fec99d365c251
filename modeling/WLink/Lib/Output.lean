import Mathlib.Algebra.Order.Ring.Int
import Mathlib.Data.Nat.Notation
import Mathlib.Logic.Function.Basic

/-!
# Output through a pointer

A C function that writes to memory through a pointer that it moves on: `Output` has the place of the
pointer, counted from where the memory begins, and the cells that have been written. The end of the
memory is not known to it, and what has been written behind an end `n` is what `Within n` says there
is none of. What is written from the front on is a list, and maybe a mark where the pointer is, such
as the NUL behind a string: `Output.of`.
-/

namespace WLink.Lib

structure Output (α : Type) where
  pos : ℕ
  cell : ℕ → Option α

namespace Output

variable {α : Type}

/-- Nothing has been written. -/
def start : Output α := ⟨0, fun _ => none⟩

/-- `*p = b` -/
def poke (b : α) (o : Output α) : Output α :=
  { o with cell := Function.update o.cell o.pos (some b) }

/-- `*p++ = b` -/
def put (b : α) (o : Output α) : Output α := { o.poke b with pos := o.pos + 1 }

/-- `memcpy` to the pointer, which is moved on. -/
def puts : List α → Output α → Output α
  | [], o => o
  | b :: bs, o => puts bs (o.put b)

/-- Nothing has been written from the `n`th cell on. -/
def Within (n : ℕ) (o : Output α) : Prop := ∀ i, n ≤ i → o.cell i = none

/-- What has been written stays written. -/
def Grows (o o' : Output α) : Prop := ∀ i, o'.cell i = none → o.cell i = none

/-- The list has been written, and the mark behind it, if there is one. -/
def of (l : List α) (mark : Option α) : Output α := ⟨l.length, fun i => (l ++ mark.toList)[i]?⟩

@[simp] theorem pos_poke (b : α) (o : Output α) : (o.poke b).pos = o.pos := rfl

@[simp] theorem pos_put (b : α) (o : Output α) : (o.put b).pos = o.pos + 1 := rfl

@[simp] theorem pos_of (l : List α) (mark : Option α) : (of l mark).pos = l.length := rfl

@[simp] theorem pos_puts (bs : List α) (o : Output α) : (puts bs o).pos = o.pos + bs.length := by
  induction bs generalizing o with
  | nil => rfl
  | cons b bs ih =>
    show (puts bs (o.put b)).pos = _
    rw [ih, pos_put, List.length_cons]
    omega

/-! ## The end of the memory -/

variable {n : ℕ} {o o' o'' : Output α}

theorem within_start : Within n (start : Output α) := fun _ _ => rfl

theorem Grows.refl (o : Output α) : Grows o o := fun _ h => h

theorem Grows.trans (h : Grows o o') (h' : Grows o' o'') : Grows o o'' := fun i hi => h i (h' i hi)

theorem Grows.within (h : Grows o o') (hw : Within n o') : Within n o := fun i hi => h i (hw i hi)

theorem grows_poke (b : α) (o : Output α) : Grows o (o.poke b) := by
  intro i hi
  by_cases hpos : i = o.pos
  · subst hpos
    exact absurd ((Function.update_self ..).symm.trans hi) (Option.some_ne_none b)
  · exact (Function.update_of_ne hpos ..).symm.trans hi

theorem grows_put (b : α) (o : Output α) : Grows o (o.put b) := grows_poke b o

theorem grows_puts (bs : List α) (o : Output α) : Grows o (puts bs o) := by
  induction bs generalizing o with
  | nil => exact Grows.refl o
  | cons b bs ih => exact (grows_put b o).trans (ih _)

/-- A write stays in the memory exactly if the pointer is in it. -/
theorem within_poke {b : α} : Within n (o.poke b) ↔ Within n o ∧ o.pos < n := by
  constructor
  · intro h
    refine ⟨(grows_poke b o).within h, Nat.lt_of_not_le fun hle => ?_⟩
    exact absurd ((Function.update_self ..).symm.trans (h o.pos hle)) (Option.some_ne_none b)
  · rintro ⟨h, hlt⟩ i hi
    have hne : i ≠ o.pos := by omega
    exact (Function.update_of_ne hne ..).trans (h i hi)

theorem within_put {b : α} : Within n (o.put b) ↔ Within n o ∧ o.pos < n := within_poke

theorem within_puts {bs : List α} (hfits : o.pos + bs.length ≤ n) :
    Within n (puts bs o) ↔ Within n o := by
  induction bs generalizing o with
  | nil => exact Iff.rfl
  | cons b bs ih =>
    rw [List.length_cons] at hfits
    show Within n (puts bs (o.put b)) ↔ _
    rw [ih (by rw [pos_put]; omega), within_put, and_iff_left (by omega)]

/-! ## What has been written -/

theorem of_nil : of ([] : List α) none = start := rfl

theorem poke_of (b : α) (l : List α) (mark : Option α) : (of l mark).poke b = of l (some b) := by
  unfold of poke
  congr 1
  funext i
  by_cases hi : i = l.length
  · subst hi
    rw [Function.update_self]
    simp
  · rw [Function.update_of_ne hi]
    show (l ++ mark.toList)[i]? = _
    rcases Nat.lt_or_gt_of_ne hi with hlt | hgt
    · rw [List.getElem?_append_left hlt, List.getElem?_append_left hlt]
    · rw [List.getElem?_eq_none, List.getElem?_eq_none]
      · rw [List.length_append]
        exact hgt
      · rw [List.length_append]
        cases mark with
        | none => exact Nat.le_of_lt hgt
        | some m => exact hgt

theorem put_of (b : α) (l : List α) (mark : Option α) :
    (of l mark).put b = of (l ++ [b]) none := by
  unfold put
  rw [poke_of]
  unfold of
  rw [List.length_append, Option.toList_none, List.append_nil]
  rfl

theorem puts_of {bs : List α} (hne : bs ≠ []) (l : List α) (mark : Option α) :
    puts bs (of l mark) = of (l ++ bs) none := by
  induction bs generalizing l mark with
  | nil => exact absurd rfl hne
  | cons b bs ih =>
    show puts bs ((of l mark).put b) = _
    rw [put_of]
    cases bs with
    | nil => rfl
    | cons c cs => rw [ih (List.cons_ne_nil c cs), List.append_assoc, List.singleton_append]

/-- A string with a mark behind it, be it empty or not. -/
theorem poke_puts_of (b : α) (bs l : List α) (mark : Option α) :
    (puts bs (of l mark)).poke b = of (l ++ bs) (some b) := by
  by_cases hne : bs = []
  · subst hne
    rw [List.append_nil]
    exact poke_of b l mark
  · rw [puts_of hne, poke_of]

end Output

end WLink.Lib
