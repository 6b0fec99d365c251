import Mathlib.Data.List.Sort
import Mathlib.Data.Nat.Notation
import Mathlib.Order.Basic

/-!
# Lists that are sorted by a key

An entry is inserted behind those with the same key (`pairwise_orderedInsert`), and the entries in
front whose key is small are all of those (`takeWhile_eq_filter`, `dropWhile_eq_filter`).
-/

namespace WLink.Lib

variable {α β : Type} [LinearOrder β] {key : α → β} {a : α} {c : β} {as : List α}

/-- The keys do not go down. -/
def SortedBy (key : α → β) (as : List α) : Prop := as.Pairwise fun a b => key a ≤ key b

theorem SortedBy.filter (p : α → Bool) (h : SortedBy key as) : SortedBy key (as.filter p) :=
  List.Pairwise.filter p h

theorem SortedBy.orderedInsert (h : SortedBy key as) :
    SortedBy key (as.orderedInsert (fun a b => key a < key b) a) := by
  induction as with
  | nil => exact List.pairwise_singleton _ a
  | cons b as ih =>
    have hb := (List.pairwise_cons.mp h).1
    rw [List.orderedInsert_cons]
    split_ifs with hlt
    · apply List.pairwise_cons.mpr
      refine ⟨?_, h⟩
      intro x hx
      rcases List.mem_cons.mp hx with rfl | hx
      · exact hlt.le
      · exact hlt.le.trans (hb x hx)
    · apply List.pairwise_cons.mpr
      refine ⟨?_, ih (List.pairwise_cons.mp h).2⟩
      intro x hx
      rw [List.mem_orderedInsert] at hx
      rcases hx with rfl | hx
      · exact not_lt.mp hlt
      · exact hb x hx

theorem SortedBy.concat (h : SortedBy key as) (hle : ∀ b ∈ as, key b ≤ key a) :
    SortedBy key (as ++ [a]) := by
  apply List.pairwise_append.mpr
  refine ⟨h, List.pairwise_singleton _ a, ?_⟩
  intro b hb x hx
  rw [List.mem_singleton.mp hx]
  exact hle b hb

theorem SortedBy.dropWhile_eq_filter (h : SortedBy key as) :
    as.dropWhile (fun a => key a ≤ c) = as.filter (fun a => c < key a) := by
  induction as with
  | nil => rfl
  | cons b as ih =>
    obtain ⟨hb, has⟩ := List.pairwise_cons.mp h
    by_cases hle : key b ≤ c
    · rw [List.dropWhile_cons_of_pos (by simpa using hle),
        List.filter_cons_of_neg (by simpa using hle), ih has]
    · have hlt : ∀ x ∈ b :: as, c < key x := by
        intro x hx
        rcases List.mem_cons.mp hx with rfl | hx
        · exact not_le.mp hle
        · exact (not_le.mp hle).trans_le (hb x hx)
      rw [List.dropWhile_cons_of_neg (by simpa using hle),
        List.filter_eq_self.mpr fun x hx => by simpa using hlt x hx]

theorem SortedBy.takeWhile_eq_filter (h : SortedBy key as) :
    as.takeWhile (fun a => key a ≤ c) = as.filter (fun a => key a ≤ c) := by
  induction as with
  | nil => rfl
  | cons b as ih =>
    obtain ⟨hb, has⟩ := List.pairwise_cons.mp h
    by_cases hle : key b ≤ c
    · rw [List.takeWhile_cons_of_pos (by simpa using hle),
        List.filter_cons_of_pos (by simpa using hle), ih has]
    · rw [List.takeWhile_cons_of_neg (by simpa using hle)]
      symm
      apply List.filter_eq_nil_iff.mpr
      intro x hx
      have hlt : c < key x := by
        rcases List.mem_cons.mp hx with rfl | hx
        · exact not_le.mp hle
        · exact (not_le.mp hle).trans_le (hb x hx)
      simpa using hlt

end WLink.Lib
