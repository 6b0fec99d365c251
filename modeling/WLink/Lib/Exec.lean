import Mathlib.Algebra.Order.Ring.Int
import Mathlib.Tactic.TypeStar
import Mathlib.Logic.Basic

/-!
# Computations of a C function

A C function reads and writes a state and may leave the defined behaviour of the language:
`Exec σ α` is a computation over the state `σ` that returns an `α` or stops with a `Fault`.
The state is kept when a fault stops the computation, so what was done before the fault can
be spoken about. `exec` runs a computation; the lemmas `exec_*` are its rules, one for each
construct, and are what proofs about `do` blocks rewrite with.
-/

namespace WLink.Lib

/-- The ways in which a computation leaves the defined behaviour. -/
inductive Fault
  /-- A read outside the memory that belongs to the object. -/
  | read
  /-- A write outside the memory that belongs to the object. -/
  | write
  /-- A loop that never ends. -/
  | hang
deriving DecidableEq, Repr

/-- A sequence of fallible steps succeeds if all of them do. -/
theorem bind_eq_ok {ε α β : Type} {x : Except ε α} {f : α → Except ε β} {b : β} :
    x >>= f = .ok b ↔ ∃ a, x = .ok a ∧ f a = .ok b := by
  cases x with
  | error e =>
    constructor
    · intro h
      cases h
    · rintro ⟨a, h, -⟩
      cases h
  | ok a =>
    constructor
    · exact fun h => ⟨a, rfl, h⟩
    · rintro ⟨a', h, h'⟩
      cases h
      exact h'

theorem map_eq_ok {ε α β : Type} {x : Except ε α} {f : α → β} {b : β} :
    x.map f = .ok b ↔ ∃ a, x = .ok a ∧ f a = b := by
  cases x with
  | error e =>
    constructor
    · intro h
      cases h
    · rintro ⟨a, h, -⟩
      cases h
  | ok a =>
    constructor
    · intro h
      exact ⟨a, rfl, Except.ok.inj h⟩
    · rintro ⟨a', h, rfl⟩
      cases h
      rfl

/-- A computation over the state `σ` that may stop with a fault. -/
abbrev Exec (σ α : Type) := ExceptT Fault (StateM σ) α

namespace Exec

variable {σ α β : Type}

/-- Run a computation: its result, or the fault that stopped it, and the state left behind. -/
def exec (x : Exec σ α) (s : σ) : Except Fault α × σ := x.run.run s

/-- A computation that leaves the state alone. -/
def lift (x : Except Fault α) : Exec σ α := ExceptT.mk (pure x)

/-- Change the state. -/
def update (f : σ → σ) : Exec σ Unit := ExceptT.mk (fun s => (.ok (), f s))

/-- Read a part of the state. -/
def view (f : σ → α) : Exec σ α := ExceptT.mk (fun s => (.ok (f s), s))

/-- A computation of the state that may fault on it. -/
def viewE (f : σ → Except Fault α) : Exec σ α := ExceptT.mk (fun s => (f s, s))

/-- A computation of a part of the state, which `set` puts back in its place. -/
def zoom {τ : Type} (get : σ → τ) (set : σ → τ → σ) (x : Exec τ α) : Exec σ α :=
  ExceptT.mk fun s => ((x.run.run (get s)).1, set s (x.run.run (get s)).2)

theorem exec_mk (f : σ → Except Fault α × σ) (s : σ) :
    exec (ExceptT.mk f : Exec σ α) s = f s := rfl

@[simp] theorem exec_pure (a : α) (s : σ) : exec (pure a) s = (.ok a, s) := rfl

@[simp] theorem exec_lift (x : Except Fault α) (s : σ) : exec (lift x) s = (x, s) := rfl

@[simp] theorem exec_update (f : σ → σ) (s : σ) : exec (update f) s = (.ok (), f s) := rfl

@[simp] theorem exec_view (f : σ → α) (s : σ) : exec (view f) s = (.ok (f s), s) := rfl

@[simp] theorem exec_viewE (f : σ → Except Fault α) (s : σ) :
    exec (viewE f) s = (f s, s) := rfl

theorem exec_zoom {τ : Type} {get : σ → τ} {set : σ → τ → σ} {x : Exec τ α} {s : σ} {t : τ}
    {r : Except Fault α} (h : exec x (get s) = (r, t)) :
    exec (zoom get set x) s = (r, set s t) := by
  show ((exec x (get s)).1, set s (exec x (get s)).2) = _
  rw [h]

/-- Sequencing, by the outcome of the first computation. -/
theorem exec_bind (x : Exec σ α) (f : α → Exec σ β) (s : σ) :
    exec (x >>= f) s =
      match exec x s with
      | (.ok a, s') => exec (f a) s'
      | (.error e, s') => (.error e, s') := by
  change (match x.run.run s with
    | (r, s') => (ExceptT.bindCont f r).run s') = _
  unfold exec
  rcases x.run.run s with ⟨_ | _, _⟩ <;> rfl

/-- Sequencing after a computation that returns. -/
theorem exec_bind_ok {x : Exec σ α} {f : α → Exec σ β} {s s' : σ} {a : α}
    (h : exec x s = (.ok a, s')) : exec (x >>= f) s = exec (f a) s' := by
  rw [exec_bind, h]

/-- Sequencing after a computation that faults. -/
theorem exec_bind_error {x : Exec σ α} {f : α → Exec σ β} {s s' : σ} {e : Fault}
    (h : exec x s = (.error e, s')) : exec (x >>= f) s = (.error e, s') := by
  rw [exec_bind, h]

/-- A sequence ends well if both of its parts do. -/
theorem exec_bind_eq_ok {x : Exec σ α} {f : α → Exec σ β} {s s'' : σ} {b : β} :
    exec (x >>= f) s = (.ok b, s'') ↔
      ∃ a s', exec x s = (.ok a, s') ∧ exec (f a) s' = (.ok b, s'') := by
  rw [exec_bind]
  rcases exec x s with ⟨e | a, s'⟩
  · simp
  · constructor
    · exact fun h => ⟨a, s', rfl, h⟩
    · rintro ⟨a', t, h, h'⟩
      cases h
      exact h'

@[simp] theorem exec_ite (c : Prop) [Decidable c] (x y : Exec σ α) (s : σ) :
    exec (if c then x else y) s = if c then exec x s else exec y s := by
  split <;> rfl

/-- A property of the state that every outcome of `x` has, and that every continuation then
keeps, is a property of every outcome of the sequence. -/
theorem exec_bind_state {x : Exec σ α} {f : α → Exec σ β} {s : σ} {P : σ → Prop}
    (hx : P (exec x s).2) (hf : ∀ a s', exec x s = (.ok a, s') → P (exec (f a) s').2) :
    P (exec (x >>= f) s).2 := by
  rw [exec_bind]
  rcases h : exec x s with ⟨_ | a, s'⟩
  · rwa [h] at hx
  · exact hf a s' h

/-! ## What a computation keeps -/

/-- Every outcome of the computation has the same `f` as the state it started from. -/
def Keeps {γ : Type} (f : σ → γ) (x : Exec σ α) : Prop := ∀ s, f (exec x s).2 = f s

namespace Keeps

variable {γ : Type} {f : σ → γ}

theorem pure (a : α) : Keeps f (pure a : Exec σ α) := fun _ => rfl

theorem lift (x : Except Fault α) : Keeps f (lift x : Exec σ α) := fun _ => rfl

theorem view (g : σ → α) : Keeps f (Exec.view g) := fun _ => rfl

theorem viewE (g : σ → Except Fault α) : Keeps f (Exec.viewE g) := fun _ => rfl

theorem update {u : σ → σ} (h : ∀ s, f (u s) = f s) : Keeps f (Exec.update u) := h

/-- The frame rule for sequencing, with a property `Q` of the results of the first part. -/
theorem bind_of {x : Exec σ α} {g : α → Exec σ β} {Q : α → Prop} (hx : Keeps f x)
    (hQ : ∀ s a s', exec x s = (.ok a, s') → Q a) (hg : ∀ a, Q a → Keeps f (g a)) :
    Keeps f (x >>= g) := by
  intro s
  have hs := hx s
  rw [exec_bind]
  rcases h : exec x s with ⟨e | a, s'⟩
  · rw [h] at hs
    exact hs
  · rw [h] at hs
    exact (hg a (hQ s a s' h) s').trans hs

theorem bind {x : Exec σ α} {g : α → Exec σ β} (hx : Keeps f x) (hg : ∀ a, Keeps f (g a)) :
    Keeps f (x >>= g) :=
  hx.bind_of (Q := fun _ => True) (fun _ _ _ _ => trivial) fun a _ => hg a

theorem ite {c : Prop} [Decidable c] {x y : Exec σ α} (hx : Keeps f x) (hy : Keeps f y) :
    Keeps f (if c then x else y) := by
  split
  · exact hx
  · exact hy

/-- A computation that keeps `f` keeps what can be read off `f`. -/
theorem comp {δ : Type} {x : Exec σ α} (h : Keeps f x) (g : γ → δ) : Keeps (fun s => g (f s)) x :=
  fun s => congrArg g (h s)

end Keeps

/-! ## What a computation preserves -/

/-- Every outcome of the computation has a property that the state it started from has. -/
def Preserves (P : σ → Prop) (x : Exec σ α) : Prop := ∀ s, P s → P (exec x s).2

namespace Preserves

variable {P : σ → Prop}

theorem pure (a : α) : Preserves P (pure a : Exec σ α) := fun _ h => h

theorem lift (x : Except Fault α) : Preserves P (lift x : Exec σ α) := fun _ h => h

theorem viewE (g : σ → Except Fault α) : Preserves P (Exec.viewE g) := fun _ h => h

theorem update {u : σ → σ} (h : ∀ s, P s → P (u s)) : Preserves P (Exec.update u) := h

/-- What has the same `f` has the same properties of `f`. -/
theorem of_keeps {γ : Type} {f : σ → γ} {x : Exec σ α} (h : Keeps f x) (Q : γ → Prop) :
    Preserves (fun s => Q (f s)) x := by
  intro s hs
  rw [h s]
  exact hs

theorem bind {x : Exec σ α} {g : α → Exec σ β} (hx : Preserves P x) (hg : ∀ a, Preserves P (g a)) :
    Preserves P (x >>= g) := by
  intro s hs
  refine exec_bind_state (hx s hs) fun a s' h => hg a s' ?_
  have hs' := hx s hs
  rwa [h] at hs'

theorem ite {c : Prop} [Decidable c] {x y : Exec σ α} (hx : Preserves P x) (hy : Preserves P y) :
    Preserves P (if c then x else y) := by
  split
  · exact hx
  · exact hy

end Preserves

/-! ## Pre- and postconditions -/

/-- From a state with `P` the computation, if it returns, returns a result and a state with
`Q`. -/
def Triple (P : σ → Prop) (x : Exec σ α) (Q : α → σ → Prop) : Prop :=
  ∀ s a s', P s → exec x s = (.ok a, s') → Q a s'

namespace Triple

variable {P P' : σ → Prop} {Q Q' : α → σ → Prop} {R : β → σ → Prop}

theorem pure {a : α} (h : ∀ s, P s → Q a s) : Triple P (pure a) Q := by
  intro s b s' hs hexec
  cases hexec
  exact h s hs

theorem update {u : σ → σ} {Q : Unit → σ → Prop} (h : ∀ s, P s → Q () (u s)) :
    Triple P (Exec.update u) Q := by
  intro s b s' hs hexec
  cases hexec
  exact h s hs

theorem view {g : σ → α} (h : ∀ s, P s → Q (g s) s) : Triple P (Exec.view g) Q := by
  intro s b s' hs hexec
  cases hexec
  exact h s hs

theorem viewE (g : σ → Except Fault α) : Triple P (Exec.viewE g) (fun _ s => P s) := by
  intro s b s' hs hexec
  rw [← (Prod.mk.inj hexec).2]
  exact hs

theorem lift (x : Except Fault α) : Triple P (Exec.lift x) (fun _ s => P s) := by
  intro s b s' hs hexec
  cases hexec
  exact hs

/-- The rule for sequencing. -/
theorem bind {x : Exec σ α} {f : α → Exec σ β} (hx : Triple P x Q) (hf : ∀ a, Triple (Q a) (f a) R) :
    Triple P (x >>= f) R := by
  intro s b s'' hs hexec
  obtain ⟨a, s', hx', hf'⟩ := exec_bind_eq_ok.mp hexec
  exact hf a s' b s'' (hx s a s' hs hx') hf'

/-- Nothing has to be known of the first part. -/
theorem seq {x : Exec σ α} {f : α → Exec σ β} (hf : ∀ a, Triple (fun _ => True) (f a) R) :
    Triple P (x >>= f) R :=
  bind (Q := fun _ _ => True) (fun _ _ _ _ _ => trivial) hf

theorem ite {c : Prop} [Decidable c] {x y : Exec σ α} (hx : c → Triple P x Q)
    (hy : ¬ c → Triple P y Q) : Triple P (if c then x else y) Q := by
  split
  · next h => exact hx h
  · next h => exact hy h

/-- The rule of consequence. -/
theorem imp {x : Exec σ α} (h : Triple P x Q) (hP : ∀ s, P' s → P s) (hQ : ∀ a s, Q a s → Q' a s) :
    Triple P' x Q' :=
  fun s a s' hs hexec => hQ a s' (h s a s' (hP s hs) hexec)

/-- A computation that keeps `f` keeps what is known of `f`. -/
theorem of_keeps {γ : Type} {f : σ → γ} {x : Exec σ α} (h : Keeps f x) (I : γ → Prop) :
    Triple (fun s => I (f s)) x (fun _ s => I (f s)) := by
  intro s a s' hs hexec
  have hf := h s
  rw [hexec] at hf
  rwa [show f s' = f s from hf]

/-- The frame rule. -/
theorem frame {γ : Type} {f : σ → γ} {x : Exec σ α} (h : Triple P x Q) (hf : Keeps f x)
    (I : γ → Prop) : Triple (fun s => P s ∧ I (f s)) x (fun a s => Q a s ∧ I (f s)) :=
  fun s a s' hs hexec => ⟨h s a s' hs.1 hexec, of_keeps hf I s a s' hs.2 hexec⟩

end Triple

end Exec

end WLink.Lib
