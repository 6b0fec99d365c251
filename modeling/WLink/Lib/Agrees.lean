import WLink.Lib.Ownership

/-!
# Two computations side by side

`Agrees R x y` says that two computations do the same to the state and that their results are
related: the one says more about what the other returns. What one does with the heap, the other does
(`Agrees.transfers`), and if the one returns, so does the other (`Agrees.returns`).
-/

namespace WLink.Lib

open Exec

variable {σ α α' β β' : Type}

/-- The results are related, or the fault is the same. -/
def Related (R : α → β → Prop) : Except Fault α → Except Fault β → Prop
  | .ok a, .ok b => R a b
  | .error e, .error e' => e = e'
  | _, _ => False

/-- The two computations leave the same state behind, with related results. -/
def Agrees (R : α → β → Prop) (x : Exec σ α) (y : Exec σ β) : Prop :=
  ∀ s, (exec x s).2 = (exec y s).2 ∧ Related R (exec x s).1 (exec y s).1

namespace Agrees

variable {R : α → β → Prop} {R' : α' → β' → Prop} {x : Exec σ α} {y : Exec σ β}

theorem refl (x : Exec σ α) : Agrees Eq x x := by
  intro s
  refine ⟨rfl, ?_⟩
  cases (exec x s).1 with
  | error e => exact rfl
  | ok a => exact rfl

theorem pure {a : α} {b : β} (h : R a b) :
    Agrees R (pure a : Exec σ α) (pure b : Exec σ β) := fun _ => ⟨rfl, h⟩

/-- The rule for sequences. -/
theorem bind {f : α → Exec σ α'} {g : β → Exec σ β'} (h : Agrees R x y)
    (hf : ∀ a b, R a b → Agrees R' (f a) (g b)) : Agrees R' (x >>= f) (y >>= g) := by
  intro s
  obtain ⟨hstate, hresult⟩ := h s
  rw [exec_bind, exec_bind]
  rcases hx : exec x s with ⟨e | a, s'⟩ <;> rcases hy : exec y s with ⟨e' | b, s''⟩ <;>
    rw [hx, hy] at hstate hresult
  · exact ⟨hstate, hresult⟩
  · exact absurd hresult not_false
  · exact absurd hresult not_false
  · have hstate' : s' = s'' := hstate
    rw [hstate']
    exact hf a b hresult s''

/-- The same first step. -/
theorem bind_same {f : β → Exec σ α'} {g : β → Exec σ β'} (hf : ∀ b, Agrees R' (f b) (g b)) :
    Agrees R' (y >>= f) (y >>= g) :=
  (refl y).bind fun a b hab => by
    rw [hab]
    exact hf b

theorem ite {c c' : Prop} [Decidable c] [Decidable c'] {x' : Exec σ α} {y' : Exec σ β}
    (hc : c ↔ c') (h : c → Agrees R x y) (h' : ¬ c → Agrees R x' y') :
    Agrees R (if c then x else x') (if c' then y else y') := by
  by_cases hcond : c
  · rw [if_pos hcond, if_pos (hc.mp hcond)]
    exact h hcond
  · rw [if_neg hcond, if_neg (mt hc.mpr hcond)]
    exact h' hcond

theorem imp {R₂ : α → β → Prop} (h : Agrees R x y) (hR : ∀ a b, R a b → R₂ a b) :
    Agrees R₂ x y := by
  intro s
  obtain ⟨hstate, hresult⟩ := h s
  refine ⟨hstate, ?_⟩
  cases hx : (exec x s).1 with
  | error e =>
    rw [hx] at hresult
    cases hy : (exec y s).1 with
    | error e' =>
      rw [hy] at hresult
      exact hresult
    | ok b =>
      rw [hy] at hresult
      exact hresult.elim
  | ok a =>
    rw [hx] at hresult
    cases hy : (exec y s).1 with
    | error e' =>
      rw [hy] at hresult
      exact hresult.elim
    | ok b =>
      rw [hy] at hresult
      exact hR a b hresult

/-- A result of the one is the result of the other. -/
theorem exec_eq_ok (h : Agrees R x y) {s s' : σ} {b : β} (hy : exec y s = (.ok b, s')) :
    ∃ a, exec x s = (.ok a, s') ∧ R a b := by
  obtain ⟨hstate, hresult⟩ := h s
  rw [hy] at hstate hresult
  rcases hx : exec x s with ⟨e | a, s''⟩
  · rw [hx] at hresult
    exact hresult.elim
  · rw [hx] at hstate hresult
    have hstate' : s'' = s' := hstate
    exact ⟨a, by rw [hstate'], hresult⟩

theorem returns {P : β → Prop} (h : Agrees R x y) (hy : Returns y P) :
    Returns x fun a => ∃ b, R a b ∧ P b := by
  intro s
  obtain ⟨b, s', hexec, hb⟩ := hy s
  obtain ⟨a, hexec', hab⟩ := h.exec_eq_ok hexec
  exact ⟨a, s', hexec', b, hab, hb⟩

/-- The heap cannot tell the two apart. -/
theorem transfers {E : Fault → Prop} {pre : List ℕ} {x : HeapM σ α} {y : HeapM σ β}
    {post : α → List ℕ} {post' : β → List ℕ} (h : Agrees R x y) (hy : Transfers E pre y post')
    (hpost : ∀ a b, R a b → post a = post' b) : Transfers E pre x post := by
  intro s others hbal
  obtain ⟨hstate, hresult⟩ := h s
  obtain ⟨herror, hok⟩ := hy s others hbal
  constructor
  · intro e he
    rw [he] at hresult
    cases hout : (exec y s).1 with
    | error e' =>
      rw [hout] at hresult
      rw [show e = e' from hresult]
      exact herror e' hout
    | ok b =>
      rw [hout] at hresult
      exact hresult.elim
  · intro a ha
    rw [ha] at hresult
    cases hout : (exec y s).1 with
    | error e' =>
      rw [hout] at hresult
      exact hresult.elim
    | ok b =>
      rw [hout] at hresult
      rw [hstate, hpost a b hresult]
      exact hok b hout

end Agrees

end WLink.Lib
