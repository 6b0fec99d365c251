import Mathlib.Data.Nat.Notation
import Mathlib.Data.Nat.Find
import Mathlib.Order.Nat
import Mathlib.Tactic.Push

/-!
# Loops that poll

A `Poller` asks a device again and again: before each poll it may end, and an answer ends it or
changes its state. `Poller.Ends` says that it ends, after which polls, in which state and how. The
rules are `Poller.after_eq`, which replaces the loop by the states that it goes through,
`Poller.Ends.keeps` for invariants, and `Poller.Ends.unique`.

Of a device that is ready or not, `taken` and `waited` count what it has taken and for how many
polls in a row it has not been ready, and `TakesWithin` says that it takes a number of things
without such a row of a given length.
-/

namespace WLink.Lib

structure Poller (α σ ρ : Type) where
  /-- the loop ends in front of a poll -/
  test : σ → Option ρ
  /-- the loop ends, or goes on, with an answer -/
  ask : σ → α → Except ρ σ

inductive Polling (σ ρ : Type)
  | asks (s : σ)
  | done (polls : ℕ) (s : σ) (result : ρ)

section

variable {α σ ρ : Type}

/-- The loop comes to its test. -/
def Poller.enter (P : Poller α σ ρ) (p : ℕ) (s : σ) : Polling σ ρ :=
  match P.test s with
  | some result => .done p s result
  | none => .asks s

/-- The loop after some polls. -/
def Poller.after (P : Poller α σ ρ) (answers : ℕ → α) (s : σ) : ℕ → Polling σ ρ
  | 0 => P.enter 0 s
  | p + 1 =>
    match P.after answers s p with
    | .done q s' result => .done q s' result
    | .asks s' =>
      match P.ask s' (answers p) with
      | .error result => .done (p + 1) s' result
      | .ok s'' => P.enter (p + 1) s''

/-- The loop ends after `q` polls. -/
def Poller.Ends (P : Poller α σ ρ) (answers : ℕ → α) (s : σ) (q : ℕ) (s' : σ) (result : ρ) : Prop :=
  ∃ p, P.after answers s p = .done q s' result

end

section

variable {α σ ρ : Type} {P : Poller α σ ρ} {answers : ℕ → α} {s s' s'' : σ} {p q q' : ℕ}
variable {result result' : ρ}

theorem Poller.enter_none (h : P.test s = none) (p : ℕ) : P.enter p s = .asks s := by
  unfold Poller.enter
  rw [h]

theorem Poller.enter_some (h : P.test s = some result) (p : ℕ) :
    P.enter p s = .done p s result := by
  unfold Poller.enter
  rw [h]

theorem Poller.after_ok (h : P.after answers s p = .asks s')
    (hask : P.ask s' (answers p) = .ok s'') :
    P.after answers s (p + 1) = P.enter (p + 1) s'' := by
  rw [Poller.after, h]
  dsimp only
  rw [hask]

theorem Poller.after_error (h : P.after answers s p = .asks s')
    (hask : P.ask s' (answers p) = .error result) :
    P.after answers s (p + 1) = .done (p + 1) s' result := by
  rw [Poller.after, h]
  dsimp only
  rw [hask]

/-- A loop that has ended stays as it is. -/
theorem Poller.after_done (h : P.after answers s p = .done q s' result) (d : ℕ) :
    P.after answers s (p + d) = .done q s' result := by
  induction d with
  | zero => exact h
  | succ d ih =>
    rw [← Nat.add_assoc, Poller.after, ih]

theorem Poller.Ends.unique (h : P.Ends answers s q s' result)
    (h' : P.Ends answers s q' s'' result') : q = q' ∧ s' = s'' ∧ result = result' := by
  obtain ⟨p, hp⟩ := h
  obtain ⟨p', hp'⟩ := h'
  have hlater := Poller.after_done hp p'
  rw [Nat.add_comm, Poller.after_done hp' p] at hlater
  cases hlater
  exact ⟨rfl, rfl, rfl⟩

/-- A loop that ends after `q` polls has ended then. -/
theorem Poller.Ends.after (h : P.Ends answers s q s' result) :
    P.after answers s q = .done q s' result := by
  obtain ⟨p, hp⟩ := h
  -- the number of polls is noted at the test
  have henter : ∀ p s'', P.enter p s'' = .done q s' result → p = q := by
    intro p s'' henter
    unfold Poller.enter at henter
    split at henter
    · cases henter
      rfl
    · exact absurd henter nofun
  induction p with
  | zero =>
    obtain rfl := henter 0 s hp
    exact hp
  | succ p ih =>
    cases hafter : P.after answers s p with
    | done q'' s'' r =>
      rw [Poller.after_done hafter 1] at hp
      exact ih (hafter.trans hp)
    | asks s'' =>
      cases hask : P.ask s'' (answers p) with
      | error r =>
        have hdone := hp
        rw [Poller.after_error hafter hask] at hdone
        cases hdone
        exact hp
      | ok s₁ =>
        have hdone := hp
        rw [Poller.after_ok hafter hask] at hdone
        obtain rfl := henter _ _ hdone
        exact hp

/-- The loop goes through the states `state` for as long as it neither ends at its test nor with an
answer. -/
theorem Poller.after_eq (state : ℕ → σ) (h0 : state 0 = s)
    (hgo : ∀ i < p, P.test (state i) = none ∧ P.ask (state i) (answers i) = .ok (state (i + 1))) :
    P.after answers s p = P.enter p (state p) := by
  induction p with
  | zero =>
    rw [h0]
    rfl
  | succ p ih =>
    obtain ⟨htest, hask⟩ := hgo p (Nat.lt_succ_self p)
    have hasks := ih fun i hi => hgo i (by omega)
    rw [Poller.enter_none htest] at hasks
    exact Poller.after_ok hasks hask

/-- What holds of a loop that goes on, or that has ended at its test or with an answer. -/
def Poller.Kept (P : Poller α σ ρ) (answers : ℕ → α) (I : ℕ → σ → Prop) (p : ℕ) :
    Polling σ ρ → Prop
  | .asks x => I p x ∧ P.test x = none
  | .done q x r => (I q x ∧ P.test x = some r) ∨
      ∃ i, q = i + 1 ∧ I i x ∧ P.test x = none ∧ P.ask x (answers i) = .error r

theorem Poller.enter_kept {I : ℕ → σ → Prop} {x : σ} (hx : I p x) :
    P.Kept answers I p (P.enter p x) := by
  cases htest : P.test x with
  | none =>
    rw [Poller.enter_none htest]
    exact ⟨hx, htest⟩
  | some r =>
    rw [Poller.enter_some htest]
    exact .inl ⟨hx, htest⟩

/-- What each answer keeps holds as long as the loop goes on and where it ends. -/
theorem Poller.after_kept {I : ℕ → σ → Prop} (h0 : I 0 s)
    (hstep : ∀ i x x', I i x → P.test x = none → P.ask x (answers i) = .ok x' → I (i + 1) x')
    (p : ℕ) : P.Kept answers I p (P.after answers s p) := by
  induction p with
  | zero => exact Poller.enter_kept h0
  | succ p ih =>
    cases hafter : P.after answers s p with
    | done q x r =>
      rw [hafter] at ih
      rw [Poller.after_done hafter 1]
      exact ih
    | asks x =>
      rw [hafter] at ih
      obtain ⟨hx, htest⟩ := ih
      cases hask : P.ask x (answers p) with
      | error r =>
        rw [Poller.after_error hafter hask]
        exact .inr ⟨p, rfl, hx, htest, hask⟩
      | ok x' =>
        rw [Poller.after_ok hafter hask]
        exact Poller.enter_kept (hstep p x x' hx htest hask)

theorem Poller.Ends.keeps {I : ℕ → σ → Prop} (h : P.Ends answers s q s' result) (h0 : I 0 s)
    (hstep : ∀ i x x', I i x → P.test x = none → P.ask x (answers i) = .ok x' → I (i + 1) x') :
    (I q s' ∧ P.test s' = some result) ∨
      ∃ i, q = i + 1 ∧ I i s' ∧ P.test s' = none ∧ P.ask s' (answers i) = .error result := by
  obtain ⟨p, hp⟩ := h
  have hkept := Poller.after_kept h0 hstep p
  rw [hp] at hkept
  exact hkept

/-- It ends at its test. -/
theorem Poller.ends_of_test (h : P.after answers s p = P.enter p s')
    (htest : P.test s' = some result) : P.Ends answers s p s' result :=
  ⟨p, h.trans (Poller.enter_some htest p)⟩

/-- It ends with an answer. -/
theorem Poller.ends_of_ask (h : P.after answers s p = P.enter p s') (htest : P.test s' = none)
    (hask : P.ask s' (answers p) = .error result) : P.Ends answers s (p + 1) s' result :=
  ⟨p + 1, Poller.after_error (h.trans (Poller.enter_none htest p)) hask⟩

/-- A loop that always goes on does not end. -/
theorem Poller.not_ends (state : ℕ → σ) (h0 : state 0 = s)
    (hgo : ∀ i, P.test (state i) = none ∧ P.ask (state i) (answers i) = .ok (state (i + 1))) :
    ¬ P.Ends answers s q s' result := by
  rintro ⟨p, hp⟩
  rw [Poller.after_eq state h0 fun i _ => hgo i, Poller.enter_none (hgo p).1] at hp
  exact absurd hp nofun

end

/-! ## Devices that are ready or not -/

/-- What the device has taken in some polls. -/
def taken (ready : ℕ → Bool) : ℕ → ℕ
  | 0 => 0
  | p + 1 => if ready p = true then taken ready p + 1 else taken ready p

/-- The polls in a row, to the last one, at which the device has not been ready. -/
def waited (ready : ℕ → Bool) : ℕ → ℕ
  | 0 => 0
  | p + 1 => if ready p = true then 0 else waited ready p + 1

/-- The device takes `k` things, and is never not ready for `m` polls in a row until then. -/
def TakesWithin (m : ℕ) (ready : ℕ → Bool) (k : ℕ) : Prop :=
  ∃ p, taken ready p = k ∧ ∀ q ≤ p, waited ready q < m

section

variable {ready : ℕ → Bool} {m k p q : ℕ}

theorem taken_ready (h : ready p = true) : taken ready (p + 1) = taken ready p + 1 := if_pos h

theorem taken_not_ready (h : ready p = false) : taken ready (p + 1) = taken ready p :=
  if_neg (by simp [h])

theorem waited_ready (h : ready p = true) : waited ready (p + 1) = 0 := if_pos h

theorem waited_not_ready (h : ready p = false) : waited ready (p + 1) = waited ready p + 1 :=
  if_neg (by simp [h])

theorem taken_mono (h : p ≤ q) : taken ready p ≤ taken ready q := by
  induction q, h using Nat.le_induction with
  | base => exact le_rfl
  | succ q _ ih =>
    cases hq : ready q
    · rw [taken_not_ready hq]
      exact ih
    · rw [taken_ready hq]
      omega

/-- What has been taken has been taken one by one. -/
theorem exists_taken_eq (h : k ≤ taken ready p) : ∃ q ≤ p, taken ready q = k := by
  induction p with
  | zero => exact ⟨0, le_rfl, (Nat.le_zero.mp h).symm⟩
  | succ p ih =>
    rcases Nat.lt_or_eq_of_le h with hlt | heq
    · have hle : k ≤ taken ready p := by
        cases hp : ready p
        · rw [taken_not_ready hp] at hlt
          omega
        · rw [taken_ready hp] at hlt
          omega
      obtain ⟨q, hq, hk⟩ := ih hle
      exact ⟨q, by omega, hk⟩
    · exact ⟨p + 1, le_rfl, heq.symm⟩

/-- Each thing takes at most `m` polls. -/
theorem polls_le (h : ∀ q ≤ p, waited ready q < m) : p ≤ taken ready p * m + waited ready p := by
  induction p with
  | zero => exact Nat.zero_le _
  | succ p ih =>
    have hp := ih fun q hq => h q (by omega)
    have hlt := h p (by omega)
    cases hready : ready p
    · rw [taken_not_ready hready, waited_not_ready hready]
      omega
    · rw [taken_ready hready, waited_ready hready, Nat.add_mul]
      omega

/-- A row of polls at which the device is not ready, or as many things as one likes. -/
theorem exists_waits_or_takes (m : ℕ) (ready : ℕ → Bool) (k : ℕ) :
    (∃ p, m ≤ waited ready p) ∨ TakesWithin m ready k := by
  by_cases hwaits : ∃ p, m ≤ waited ready p
  · exact .inl hwaits
  · push Not at hwaits
    obtain ⟨p, hp⟩ : ∃ p, p = k * m + m := ⟨_, rfl⟩
    have hle := polls_le fun q (_ : q ≤ p) => hwaits q
    have htaken : k ≤ taken ready p := by
      -- otherwise there would have been time for one more
      by_contra hlt
      have hmul := Nat.mul_le_mul_right m (show taken ready p + 1 ≤ k by omega)
      rw [Nat.add_mul] at hmul
      have hlast := hwaits p
      omega
    obtain ⟨q, -, hq⟩ := exists_taken_eq htaken
    exact .inr ⟨q, hq, fun q' _ => hwaits q'⟩

/-- The first row of `m` polls at which the device is not ready. -/
theorem exists_first_wait (hm : 0 < m) (h : ∃ p, m ≤ waited ready p) :
    ∃ i, ready i = false ∧ waited ready (i + 1) = m ∧ ∀ q ≤ i, waited ready q < m := by
  obtain ⟨p, hp, hfirst⟩ : ∃ p, m ≤ waited ready p ∧ ∀ q < p, waited ready q < m :=
    ⟨Nat.find h, Nat.find_spec h, fun q hq => not_le.mp (Nat.find_min h hq)⟩
  cases p with
  | zero => exact absurd hp (not_le.mpr hm)
  | succ i =>
    have hlast := hfirst i (Nat.lt_succ_self i)
    cases hready : ready i
    · rw [waited_not_ready hready] at hp
      refine ⟨i, hready, ?_, fun q hq => hfirst q (by omega)⟩
      rw [waited_not_ready hready]
      omega
    · rw [waited_ready hready] at hp
      omega

/-- The poll at which the device takes the last one of `k` things. -/
theorem TakesWithin.first (h : TakesWithin m ready k) :
    ∃ p, taken ready p = k ∧ (∀ q < p, taken ready q < k) ∧ (∀ q ≤ p, waited ready q < m) ∧
      waited ready p = 0 := by
  obtain ⟨p₀, hp₀, hpatient⟩ := h
  have hex : ∃ p, taken ready p = k := ⟨p₀, hp₀⟩
  obtain ⟨p, hp, hfirst⟩ : ∃ p, taken ready p = k ∧ ∀ q < p, taken ready q ≠ k :=
    ⟨Nat.find hex, Nat.find_spec hex, fun q hq => Nat.find_min hex hq⟩
  have hle : p ≤ p₀ := not_lt.mp fun hlt => hfirst p₀ hlt hp₀
  refine ⟨p, hp, fun q hq => ?_, fun q hq => hpatient q (hq.trans hle), ?_⟩
  · have hmono := @taken_mono ready q p hq.le
    have hne := hfirst q hq
    omega
  · cases p with
    | zero => rfl
    | succ i =>
      cases hready : ready i
      · rw [taken_not_ready hready] at hp
        exact absurd hp (hfirst i (Nat.lt_succ_self i))
      · exact waited_ready hready

theorem waited_eq_self (h : ∀ i < p, ready i = false) : waited ready p = p := by
  induction p with
  | zero => rfl
  | succ p ih =>
    rw [waited_not_ready (h p (Nat.lt_succ_self p)), ih fun i hi => h i (by omega)]

theorem waited_le (ready : ℕ → Bool) (p : ℕ) : waited ready p ≤ p := by
  induction p with
  | zero => exact le_rfl
  | succ p ih =>
    rw [waited]
    split_ifs <;> omega

/-- Without patience the device has to be ready each time. -/
theorem takesWithin_one_iff : TakesWithin 1 ready k ↔ ∀ i < k, ready i = true := by
  have htaken : ∀ p, (∀ i < p, ready i = true) → taken ready p = p := by
    intro p h
    induction p with
    | zero => rfl
    | succ p ih => rw [taken_ready (h p (Nat.lt_succ_self p)), ih fun i hi => h i (by omega)]
  constructor
  · rintro ⟨p, hp, hwaited⟩ i hi
    have hready : ∀ i < p, ready i = true := by
      intro i hi
      by_contra hnot
      have hlt := hwaited (i + 1) hi
      rw [waited_not_ready (Bool.eq_false_iff.mpr hnot)] at hlt
      omega
    rw [htaken p hready] at hp
    exact hready i (by omega)
  · intro h
    refine ⟨k, htaken k h, fun q hq => ?_⟩
    cases q with
    | zero => exact Nat.zero_lt_one
    | succ q =>
      rw [waited_ready (h q hq)]
      exact Nat.zero_lt_one

end

end WLink.Lib
