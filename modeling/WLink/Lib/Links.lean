import Mathlib.Data.List.Nodup
import Mathlib.Data.Nat.Notation

/-!
# Paths of links

A link is a function from addresses to addresses, and `Path next p l` says that it leads from `p`
through all of `l`. What the last of them links to is no part of the path (`Path.keep`).
-/

namespace WLink.Lib

/-- The link leads from `p` to the addresses, one after the other. -/
def Path (next : ℕ → ℕ) : ℕ → List ℕ → Prop
  | _, [] => True
  | p, q :: qs => next p = q ∧ Path next q qs

variable {next next' : ℕ → ℕ} {p : ℕ} {as bs : List ℕ}

theorem path_append :
    Path next p (as ++ bs) ↔ Path next p as ∧ Path next (as.getLastD p) bs := by
  induction as generalizing p with
  | nil => exact ⟨fun h => ⟨trivial, h⟩, fun h => h.2⟩
  | cons a as ih =>
    rw [List.getLastD_cons]
    constructor
    · rintro ⟨ha, h⟩
      obtain ⟨has, hbs⟩ := ih.mp h
      exact ⟨⟨ha, has⟩, hbs⟩
    · rintro ⟨⟨ha, has⟩, hbs⟩
      exact ⟨ha, ih.mpr ⟨has, hbs⟩⟩

theorem getLastD_mem_cons (p : ℕ) (as : List ℕ) : as.getLastD p ∈ p :: as := by
  rw [List.getLastD_eq_getLast?]
  cases h : as.getLast? with
  | none => exact List.mem_cons_self
  | some a => exact List.mem_cons_of_mem p (List.mem_of_getLast? h)

theorem Path.congr (h : Path next p as) (hsame : ∀ a ∈ p :: as, next' a = next a) :
    Path next' p as := by
  induction as generalizing p with
  | nil => trivial
  | cons a as ih =>
    obtain ⟨ha, h⟩ := h
    exact ⟨(hsame p List.mem_cons_self).trans ha,
      ih h fun b hb => hsame b (List.mem_cons_of_mem p hb)⟩

/-- A change of the last link leaves the path as it is. -/
theorem Path.keep (h : Path next p as) (hnodup : (p :: as).Nodup)
    (hsame : ∀ a ∈ p :: as, a ≠ as.getLastD p → next' a = next a) : Path next' p as := by
  induction as generalizing p with
  | nil => trivial
  | cons a as ih =>
    obtain ⟨ha, h⟩ := h
    obtain ⟨hp, hnodup⟩ := List.nodup_cons.mp hnodup
    rw [List.getLastD_cons] at hsame
    have hne : p ≠ as.getLastD a := by
      intro heq
      rw [heq] at hp
      exact hp (getLastD_mem_cons a as)
    exact ⟨(hsame p List.mem_cons_self hne).trans ha,
      ih h hnodup fun b hb => hsame b (List.mem_cons_of_mem p hb)⟩

end WLink.Lib
