import Mathlib.Algebra.Order.Ring.Int
import Mathlib.Data.List.Basic
import Mathlib.Data.Nat.Notation

/-!
# Runs of a step function

A system is a step function `step : σ → ε → σ` from states and events to states. `Always`
says that a property holds of every state a run goes through, `AllSteps` that every step of
it meets a condition on its event and on the state that the event finds. The rules turn a
fact about one step into a fact about runs: `always_of_allSteps` for a property that the
steps of a kind keep, `always_iff_allSteps` for a condition that is exactly what one step
needs to keep it, relative to an invariant that such steps keep. `foldl_range_cells` does the
same for a loop that works on one cell of the state after the other.
-/

namespace WLink.Lib

variable {σ ε : Type} (step : σ → ε → σ)

/-- The property holds of every state of the run, the first and the last included. -/
def Always (I : σ → Prop) : σ → List ε → Prop
  | s, [] => I s
  | s, e :: es => I s ∧ Always I (step s e) es

/-- Every step of the run meets the condition. -/
def AllSteps (P : σ → ε → Prop) : σ → List ε → Prop
  | _, [] => True
  | s, e :: es => P s e ∧ AllSteps P (step s e) es

variable {step} {I J : σ → Prop} {P : σ → ε → Prop}

theorem Always.head {s : σ} {es : List ε} (h : Always step I s es) : I s := by
  cases es with
  | nil => exact h
  | cons e es => exact h.1

/-- A weaker property holds along the run, too. -/
theorem Always.imp {s : σ} {es : List ε} (h : Always step J s es) (hJI : ∀ s, J s → I s) :
    Always step I s es := by
  induction es generalizing s with
  | nil => exact hJI s h
  | cons e es ih => exact ⟨hJI s h.1, ih h.2⟩

/-- What holds of every state of a run holds of the last. -/
theorem Always.last {s : σ} {es : List ε} (h : Always step I s es) : I (es.foldl step s) := by
  induction es generalizing s with
  | nil => exact h
  | cons e es ih => exact ih h.2

theorem Always.and {s : σ} {es : List ε} (hI : Always step I s es) (hJ : Always step J s es) :
    Always step (fun s => I s ∧ J s) s es := by
  induction es generalizing s with
  | nil => exact ⟨hI, hJ⟩
  | cons e es ih => exact ⟨⟨hI.1, hJ.1⟩, ih hI.2 hJ.2⟩

/-- Steps that meet a condition meet a weaker one. -/
theorem AllSteps.imp {Q : σ → ε → Prop} {s : σ} {es : List ε} (h : AllSteps step P s es)
    (hPQ : ∀ s e, P s e → Q s e) : AllSteps step Q s es := by
  induction es generalizing s with
  | nil => trivial
  | cons e es ih => exact ⟨hPQ s e h.1, ih h.2⟩

theorem AllSteps.and {Q : σ → ε → Prop} {s : σ} {es : List ε} (hP : AllSteps step P s es)
    (hQ : AllSteps step Q s es) : AllSteps step (fun s e => P s e ∧ Q s e) s es := by
  induction es generalizing s with
  | nil => trivial
  | cons e es ih => exact ⟨⟨hP.1, hQ.1⟩, ih hP.2 hQ.2⟩

/-- The invariant rule: what every step keeps holds all along a run. -/
theorem always_of_step (hstep : ∀ s e, J s → J (step s e)) {s : σ} (hs : J s) (es : List ε) :
    Always step J s es := by
  induction es generalizing s with
  | nil => exact hs
  | cons e es ih => exact ⟨hs, ih (hstep s e hs)⟩

/-- The invariant rule for runs whose steps all meet a condition. -/
theorem always_of_allSteps (hstep : ∀ s e, I s → P s e → I (step s e)) {s : σ} (hs : I s)
    {es : List ε} (h : AllSteps step P s es) : Always step I s es := by
  induction es generalizing s with
  | nil => exact hs
  | cons e es ih => exact ⟨hs, ih (hstep s e hs h.1) h.2⟩

/-- If from states with the invariant `J` and the property `I` the steps that meet `P` keep `J`,
and a step keeps `I` and meets `Q` exactly when it meets `P`, then `I` holds all along a run whose
steps meet `Q` exactly when all its steps meet `P`. -/
theorem always_and_allSteps_iff {Q : σ → ε → Prop} (hJ : ∀ s e, J s → I s → P s e → J (step s e))
    (hstep : ∀ s e, J s → I s → (I (step s e) ∧ Q s e ↔ P s e)) {s : σ} (hJs : J s) (hs : I s)
    (es : List ε) :
    Always step I s es ∧ AllSteps step Q s es ↔ AllSteps step P s es := by
  induction es generalizing s with
  | nil => exact ⟨fun _ => trivial, fun _ => ⟨hs, trivial⟩⟩
  | cons e es ih =>
    constructor
    · rintro ⟨hI, hQ⟩
      have hnext : I (step s e) := hI.2.head
      have hP : P s e := (hstep s e hJs hs).mp ⟨hnext, hQ.1⟩
      exact ⟨hP, (ih (hJ s e hJs hs hP) hnext).mp ⟨hI.2, hQ.2⟩⟩
    · intro h
      obtain ⟨hnext, hQ⟩ := (hstep s e hJs hs).mpr h.1
      have hrest := (ih (hJ s e hJs hs h.1) hnext).mpr h.2
      exact ⟨⟨hs, hrest.1⟩, hQ, hrest.2⟩

/-- The same for a property of states alone. -/
theorem always_iff_allSteps (hJ : ∀ s e, J s → I s → P s e → J (step s e))
    (hstep : ∀ s e, J s → I s → (I (step s e) ↔ P s e)) {s : σ} (hJs : J s) (hs : I s)
    (es : List ε) : Always step I s es ↔ AllSteps step P s es := by
  have hall : ∀ (es : List ε) (s : σ), AllSteps step (fun _ _ => True) s es := by
    intro es
    induction es with
    | nil => exact fun _ => trivial
    | cons e es ih => exact fun s => ⟨trivial, ih _⟩
  have hiff := always_and_allSteps_iff (Q := fun _ _ => True) hJ
    (fun s e hJs hs => by rw [and_true]; exact hstep s e hJs hs) hJs hs es
  exact ⟨fun h => hiff.mp ⟨h, hall es s⟩, fun h => (hiff.mpr h).1⟩

/-- Two conditions on steps are met by the same runs if they are the same from states with an
invariant, which the steps that meet them keep. -/
theorem allSteps_congr {Q : σ → ε → Prop} (hPQ : ∀ s e, J s → (P s e ↔ Q s e))
    (hJ : ∀ s e, J s → P s e → J (step s e)) {s : σ} (hJs : J s) (es : List ε) :
    AllSteps step P s es ↔ AllSteps step Q s es := by
  induction es generalizing s with
  | nil => exact Iff.rfl
  | cons e es ih =>
    constructor
    · intro h
      exact ⟨(hPQ s e hJs).mp h.1, (ih (hJ s e hJs h.1)).mp h.2⟩
    · intro h
      have hP : P s e := (hPQ s e hJs).mpr h.1
      exact ⟨hP, (ih (hJ s e hJs hP)).mpr h.2⟩

/-- A condition on the events alone is met by every step if every event meets it. -/
theorem allSteps_iff_forall (step : σ → ε → σ) (s : σ) {Q : ε → Prop} {es : List ε} :
    AllSteps step (fun _ e => Q e) s es ↔ ∀ e ∈ es, Q e := by
  induction es generalizing s with
  | nil => exact ⟨fun _ _ he => absurd he List.not_mem_nil, fun _ => trivial⟩
  | cons e es ih =>
    unfold AllSteps
    rw [List.forall_mem_cons, ih]

/-! ## Loops over the cells of a state -/

/-- A loop in which only the round of one index does anything. -/
theorem foldl_eq_of_only {ι : Type} {body : σ → ι → σ} {i : ι} {s : σ} {l : List ι}
    (hnodup : l.Nodup) (hi : i ∈ l) (hbefore : ∀ j ∈ l, j ≠ i → body s j = s)
    (hafter : ∀ j ∈ l, j ≠ i → body (body s i) j = body s i) : l.foldl body s = body s i := by
  have hstay : ∀ (l : List ι) (s : σ), (∀ j ∈ l, body s j = s) → l.foldl body s = s := by
    intro l
    induction l with
    | nil => exact fun _ _ => rfl
    | cons j l ih =>
      intro s h
      rw [List.foldl_cons, h j List.mem_cons_self]
      exact ih s fun k hk => h k (List.mem_cons_of_mem j hk)
  induction l with
  | nil => exact absurd hi List.not_mem_nil
  | cons j l ih =>
    obtain ⟨hj, hnodup⟩ := List.nodup_cons.mp hnodup
    rw [List.foldl_cons]
    by_cases hji : j = i
    · rw [hji] at hj ⊢
      exact hstay l _ fun k hk => hafter k (List.mem_cons_of_mem j hk) fun h => hj (h ▸ hk)
    · rw [hbefore j List.mem_cons_self hji]
      have hi' : i ∈ l := (List.mem_cons.mp hi).resolve_left fun h => hji h.symm
      exact ih hnodup hi' (fun k hk => hbefore k (List.mem_cons_of_mem j hk))
        fun k hk => hafter k (List.mem_cons_of_mem j hk)

/-- If the body of a loop changes the cell `i` in a way `R i` and no other cell, then the loop
changes every cell in that way. -/
theorem foldl_range_cells {γ : Type} (cell : σ → ℕ → γ) {body : σ → ℕ → σ} {n : ℕ}
    {R : ℕ → γ → γ → Prop}
    (hother : ∀ s i j, i < n → j < n → j ≠ i → cell (body s i) j = cell s j)
    (hown : ∀ s i, i < n → R i (cell s i) (cell (body s i) i)) (s : σ) {i : ℕ} (hi : i < n) :
    R i (cell s i) (cell ((List.range n).foldl body s) i) := by
  have hpart : ∀ m ≤ n, (i < m → R i (cell s i) (cell ((List.range m).foldl body s) i)) ∧
      (m ≤ i → cell ((List.range m).foldl body s) i = cell s i) := by
    intro m
    induction m with
    | zero => exact fun _ => ⟨fun h => absurd h (Nat.not_lt_zero i), fun _ => rfl⟩
    | succ m ih =>
      intro hm
      obtain ⟨hdone, hrest⟩ := ih (Nat.le_of_succ_le hm)
      rw [List.range_succ, List.foldl_append]
      show (i < m + 1 → R i _ (cell (body _ m) i)) ∧ (m + 1 ≤ i → cell (body _ m) i = _)
      rcases Nat.lt_trichotomy i m with h | rfl | h
      · rw [hother _ m i hm hi (Nat.ne_of_lt h)]
        exact ⟨fun _ => hdone h, fun h' => absurd h' (by omega)⟩
      · refine ⟨fun _ => ?_, fun h' => absurd h' (by omega)⟩
        have hown' := hown ((List.range i).foldl body s) i hi
        rw [hrest (Nat.le_refl _)] at hown'
        exact hown'
      · rw [hother _ m i hm hi (Nat.ne_of_gt h)]
        exact ⟨fun h' => absurd h' (by omega), fun _ => hrest (Nat.le_of_lt h)⟩
  exact (hpart n (Nat.le_refl _)).1 hi

end WLink.Lib
