import WLink.Lib.Heap
import WLink.Lib.Stops

/-!
# Who owns a block

Computations over a state with a `Ledger`, and who has to free what after them. `Transfers E pre x
post` says that `x` takes over the blocks in `pre` and hands over those in `post`: whatever else is
allocated stays so, and what `x` allocates for itself it frees. The faults that may stop `x` are
those in `E`. `Loses pre x post L` says the same of the runs from a state without `L`, and that
a run from a state with `L` returns and leaves blocks behind that nobody has a pointer to.

The rules are those for sequences (`Transfers.bind`, `Loses.bind`, `Loses.bind_transfers`), the
frame rule (`Transfers.frame`) and the rules for the two operations of the heap
(`transfers_alloc`, `transfers_release`).
-/

namespace WLink.Lib

open Exec

/-- A state with a heap. `mallocs` counts the calls of `malloc`, the failed ones as well. -/
structure Heaped (σ : Type) where
  base : σ
  ledger : Ledger
  mallocs : ℕ

abbrev HeapM (σ α : Type) := Exec (Heaped σ) α

section

variable {σ α β : Type}

/-- A computation that leaves the heap alone. -/
def onBase (x : Exec σ α) : HeapM σ α :=
  ExceptT.mk fun s => ((exec x s.base).1, { s with base := (exec x s.base).2 })

/-- `malloc`: the number of the new block, or `NULL`. -/
def alloc (succeeds : Heaped σ → Bool) : HeapM σ (Option ℕ) :=
  ExceptT.mk fun s =>
    if succeeds s then
      (.ok (some s.ledger.next), { s with ledger := s.ledger.malloc, mallocs := s.mallocs + 1 })
    else (.ok none, { s with mallocs := s.mallocs + 1 })

/-- `free` -/
def release (b : ℕ) : HeapM σ Unit := Exec.update fun s => { s with ledger := s.ledger.free b }

@[simp] theorem exec_onBase (x : Exec σ α) (s : Heaped σ) :
    exec (onBase x) s = ((exec x s.base).1, { s with base := (exec x s.base).2 }) := rfl

theorem exec_alloc (succeeds : Heaped σ → Bool) (s : Heaped σ) :
    exec (alloc succeeds) s = if succeeds s then
      (.ok (some s.ledger.next), { s with ledger := s.ledger.malloc, mallocs := s.mallocs + 1 })
    else (.ok none, { s with mallocs := s.mallocs + 1 }) := rfl

@[simp] theorem exec_release (b : ℕ) (s : Heaped σ) :
    exec (release b) s = (.ok (), { s with ledger := s.ledger.free b }) := rfl

/-! ## How a run finishes -/

/-- A fault is one of `E`, and a result and the state with it have `Q`. -/
structure Finishes (E : Fault → Prop) (out : Except Fault α × σ) (Q : α → σ → Prop) : Prop where
  error : ∀ e, out.1 = .error e → E e
  ok : ∀ a, out.1 = .ok a → Q a out.2

/-- The computation returns. -/
def noFault : Fault → Prop := fun _ => False

def anyFault : Fault → Prop := fun _ => True

/-- A run of `x` returns with `L`. -/
def Reaches (x : Exec σ α) (s : σ) (L : α → σ → Prop) : Prop :=
  ∃ a s', exec x s = (.ok a, s') ∧ L a s'

theorem reaches_lift (y : Except Fault α) (s : σ) (L : α → σ → Prop) :
    Reaches (Exec.lift y) s L ↔ ∃ a, y = .ok a ∧ L a s := by
  constructor
  · rintro ⟨a, s', hexec, hL⟩
    cases hexec
    exact ⟨a, rfl, hL⟩
  · rintro ⟨a, rfl, h⟩
    exact ⟨a, s, rfl, h⟩

theorem reaches_onBase_view (g : σ → α) (s : Heaped σ) (L : α → Heaped σ → Prop) :
    Reaches (onBase (Exec.view g)) s L ↔ L (g s.base) s := by
  constructor
  · rintro ⟨a, s', hexec, hL⟩
    cases hexec
    exact hL
  · exact fun h => ⟨g s.base, s, rfl, h⟩

/-- Every result of `x` has `P`. -/
def Yields (x : Exec σ α) (P : α → Prop) : Prop := ∀ s a s', exec x s = (.ok a, s') → P a

namespace Yields

variable {x : Exec σ α} {f : α → Exec σ β} {P : α → Prop} {R : β → Prop}

theorem pure {a : α} (h : P a) : Yields (pure a : Exec σ α) P := by
  intro s a' s' hexec
  cases hexec
  exact h

theorem lift {y : Except Fault α} (h : ∀ a, y = .ok a → P a) : Yields (lift y : Exec σ α) P :=
  fun _ a _ hexec => h a (congrArg Prod.fst hexec)

theorem bind (hx : Yields x P) (hf : ∀ a, P a → Yields (f a) R) : Yields (x >>= f) R := by
  intro s b s'' hexec
  obtain ⟨a, s', hx', hf'⟩ := exec_bind_eq_ok.mp hexec
  exact hf a (hx s a s' hx') s' b s'' hf'

/-- Nothing has to be known of the first part. -/
theorem seq (hf : ∀ a, Yields (f a) R) : Yields (x >>= f) R :=
  bind (P := fun _ => True) (fun _ _ _ _ => trivial) fun a _ => hf a

/-- A first part whose result is known. -/
theorem bind_lift {y : Except Fault α} {a : α} (hy : y = .ok a) (hf : Yields (f a) R) :
    Yields (Exec.lift y >>= f) R := by
  refine bind (P := fun b => y = .ok b) (lift fun b h => h) fun b hb => ?_
  cases hy.symm.trans hb
  exact hf

theorem ite {c : Prop} [Decidable c] {y : Exec σ α} (hx : c → Yields x P) (hy : ¬ c → Yields y P) :
    Yields (if c then x else y) P := by
  split
  · next h => exact hx h
  · next h => exact hy h

theorem imp {P' : α → Prop} (h : Yields x P) (hP : ∀ a, P a → P' a) : Yields x P' :=
  fun s a s' hexec => hP a (h s a s' hexec)

end Yields

/-- From every state `x` returns, and its result has `P`. -/
def Returns (x : Exec σ α) (P : α → Prop) : Prop := ∀ s, Reaches x s fun a _ => P a

namespace Returns

variable {x : Exec σ α} {f : α → Exec σ β} {P : α → Prop} {R : β → Prop}

theorem pure {a : α} (h : P a) : Returns (pure a : Exec σ α) P := fun s => ⟨a, s, rfl, h⟩

theorem lift {y : Except Fault α} {a : α} (hy : y = .ok a) (h : P a) :
    Returns (lift y : Exec σ α) P := by
  subst hy
  exact fun s => ⟨a, s, rfl, h⟩

theorem bind (hx : Returns x P) (hf : ∀ a, P a → Returns (f a) R) : Returns (x >>= f) R := by
  intro s
  obtain ⟨a, s', hx', ha⟩ := hx s
  obtain ⟨b, s'', hf', hb⟩ := hf a ha s'
  exact ⟨b, s'', by rw [exec_bind_ok hx', hf'], hb⟩

/-- A first part whose result is known. -/
theorem bind_lift {y : Except Fault α} {a : α} (hy : y = .ok a) (hf : Returns (f a) R) :
    Returns (Exec.lift y >>= f) R :=
  (lift (P := fun b => b = a) hy rfl).bind fun _ hb => hb ▸ hf

theorem imp {P' : α → Prop} (h : Returns x P) (hP : ∀ a, P a → P' a) : Returns x P' := by
  intro s
  obtain ⟨a, s', hexec, ha⟩ := h s
  exact ⟨a, s', hexec, hP a ha⟩

/-- What is known of all results is known of the one that is returned. -/
theorem and_yields {P' : α → Prop} (h : Returns x P) (hy : Yields x P') :
    Returns x fun a => P a ∧ P' a := by
  intro s
  obtain ⟨a, s', hexec, ha⟩ := h s
  exact ⟨a, s', hexec, ha, hy s a s' hexec⟩

/-- A computation has one result. -/
theorem yields (h : Returns x P) : Yields x P := by
  intro s a s' hexec
  obtain ⟨a', s'', hexec', ha'⟩ := h s
  cases hexec.symm.trans hexec'
  exact ha'

theorem exists_result (h : Returns x P) (s : σ) : ∃ a, P a := by
  obtain ⟨a, s', -, ha⟩ := h s
  exact ⟨a, ha⟩

end Returns

namespace Finishes

variable {E E' : Fault → Prop} {Q Q' : α → σ → Prop} {s : σ}

theorem of_ok {a : α} (h : Q a s) : Finishes E (.ok a, s) Q where
  error _ h' := nomatch h'
  ok _ h' := by
    cases h'
    exact h

theorem of_error {e : Fault} (h : E e) : Finishes E (.error e, s) Q where
  error _ h' := by
    cases h'
    exact h
  ok _ h' := nomatch h'

theorem imp {out : Except Fault α × σ} (h : Finishes E out Q) (hE : ∀ e, E e → E' e)
    (hQ : ∀ a s, Q a s → Q' a s) : Finishes E' out Q' where
  error e he := hE e (h.error e he)
  ok a ha := hQ a out.2 (h.ok a ha)

/-- A computation without faults returns. -/
theorem returns {x : Exec σ α} (h : Finishes noFault (exec x s) Q) : Reaches x s Q := by
  rcases hout : exec x s with ⟨e | a, s'⟩
  · rw [hout] at h
    exact (h.error e rfl).elim
  · rw [hout] at h
    exact ⟨a, s', hout, h.ok a rfl⟩

/-- The rule for sequencing. -/
theorem bind {x : Exec σ α} {f : α → Exec σ β} {R : β → σ → Prop} (hx : Finishes E (exec x s) Q)
    (hf : ∀ a s', exec x s = (.ok a, s') → Q a s' → Finishes E (exec (f a) s') R) :
    Finishes E (exec (x >>= f) s) R := by
  rw [exec_bind]
  rcases hout : exec x s with ⟨e | a, s'⟩
  · rw [hout] at hx
    exact of_error (hx.error e rfl)
  · rw [hout] at hx
    exact hf a s' hout (hx.ok a rfl)

end Finishes

/-! ## Taking over and handing over -/

/-- From a state in which the blocks in `pre` are held the computation comes to one in which those
in `post` are, whatever others there are. -/
def Transfers (E : Fault → Prop) (pre : List ℕ) (x : HeapM σ α) (post : α → List ℕ) : Prop :=
  ∀ s others, Balanced s.ledger (pre ++ others) →
    Finishes E (exec x s) fun a s' => Balanced s'.ledger (post a ++ others)

namespace Transfers

variable {E : Fault → Prop} {pre pre' : List ℕ} {x : HeapM σ α} {f : α → HeapM σ β}
  {post post' : α → List ℕ} {post₂ : β → List ℕ}

theorem pure (a : α) (post : α → List ℕ) : Transfers E (post a) (pure a : HeapM σ α) post :=
  fun _ _ h => .of_ok h

/-- The rule for sequencing, where something is known of the results of the first part. -/
theorem bind_of {P : α → Prop} (hx : Transfers E pre x post) (hP : Yields x P)
    (hf : ∀ a, P a → Transfers E (post a) (f a) post₂) : Transfers E pre (x >>= f) post₂ := by
  intro s others h
  exact (hx s others h).bind fun a s' hexec hbal => hf a (hP s a s' hexec) s' others hbal

theorem bind (hx : Transfers E pre x post) (hf : ∀ a, Transfers E (post a) (f a) post₂) :
    Transfers E pre (x >>= f) post₂ :=
  hx.bind_of (P := fun _ => True) (fun _ _ _ _ => trivial) fun a _ => hf a

/-- The frame rule. -/
theorem frame (h : Transfers E pre x post) (r : List ℕ) :
    Transfers E (pre ++ r) x (fun a => post a ++ r) := by
  intro s others hbal
  rw [List.append_assoc] at hbal
  refine (h s (r ++ others) hbal).imp (fun _ => id) fun a s' hbal' => ?_
  rwa [List.append_assoc]

/-- The rule for a sequence next to blocks that the first part does not know of. -/
theorem bind_frame {r : List ℕ} (hx : Transfers E pre x post)
    (hf : ∀ a, Transfers E (post a ++ r) (f a) post₂) : Transfers E (pre ++ r) (x >>= f) post₂ :=
  (hx.frame r).bind hf

/-- One part after the other is freed. -/
theorem andThen {pre₂ : List ℕ} {y : HeapM σ β} (hx : Transfers E pre x (fun _ => []))
    (hy : Transfers E pre₂ y post₂) : Transfers E (pre ++ pre₂) (x >>= fun _ => y) post₂ :=
  hx.bind_frame fun _ => hy

/-- The order of the blocks does not matter. -/
theorem perm (h : Transfers E pre x post) (hpre : pre'.Perm pre)
    (hpost : ∀ a, (post a).Perm (post' a)) : Transfers E pre' x post' := by
  intro s others hbal
  refine (h s others (hbal.perm (hpre.append_right others))).imp (fun _ => id) fun a s' hbal' => ?_
  exact hbal'.perm ((hpost a).append_right others)

theorem pure_perm {a : α} (h : pre.Perm (post a)) :
    Transfers E pre (Pure.pure a : HeapM σ α) post :=
  (Transfers.pure a post).perm h fun _ => .refl _

theorem ite {c : Prop} [Decidable c] {y : HeapM σ α} (hx : c → Transfers E pre x post)
    (hy : ¬ c → Transfers E pre y post) : Transfers E pre (if c then x else y) post := by
  split
  · next h => exact hx h
  · next h => exact hy h

/-- A computation that returns may also be said not to loop. -/
theorem weaken (h : Transfers noFault pre x post) : Transfers E pre x post :=
  fun s others hbal => (h s others hbal).imp (fun _ h => h.elim) fun _ _ => id

theorem onBase {y : Exec σ α} (h : ∀ s e, (exec y s).1 = .error e → E e) (pre : List ℕ) :
    Transfers E pre (onBase y) (fun _ => pre) := by
  intro s others hbal
  exact ⟨fun e he => h s.base e he, fun _ _ => hbal⟩

theorem view (g : Heaped σ → α) (pre : List ℕ) :
    Transfers E pre (Exec.view g) (fun _ => pre) := fun _ _ h => .of_ok h

theorem lift {y : Except Fault α} (h : ∀ e, y = .error e → E e) (pre : List ℕ) :
    Transfers E pre (Exec.lift y : HeapM σ α) (fun _ => pre) :=
  fun _ _ hbal => ⟨fun e he => h e he, fun _ _ => hbal⟩

end Transfers

theorem transfers_alloc (succeeds : Heaped σ → Bool) :
    Transfers noFault [] (alloc succeeds) Option.toList := by
  intro s others h
  rw [exec_alloc]
  split
  · exact .of_ok h.malloc
  · exact .of_ok h

theorem transfers_release (b : ℕ) :
    Transfers noFault [b] (release b : HeapM σ Unit) (fun _ => []) := by
  intro s others h
  exact .of_ok h.free

/-! ## Losing blocks -/

/-- In a run from a state with `L` blocks are lost, in any other run none are. -/
structure Loses (pre : List ℕ) (x : HeapM σ α) (post : α → List ℕ) (L : Heaped σ → Prop) :
    Prop where
  lost : ∀ s others, Balanced s.ledger (pre ++ others) → L s →
    Finishes noFault (exec x s) fun a s' =>
      ∃ lost, lost ≠ [] ∧ Balanced s'.ledger (post a ++ (lost ++ others))
  kept : ∀ s others, Balanced s.ledger (pre ++ others) → ¬ L s →
    Finishes notHang (exec x s) fun a s' => Balanced s'.ledger (post a ++ others)

/-- Blocks that nobody holds are none if the ledger balances without them. -/
theorem Balanced.eq_nil_of_lost {l : Ledger} {lost others : List ℕ}
    (hlost : Balanced l (lost ++ others)) (h : Balanced l others) : lost = [] := by
  rw [List.eq_nil_iff_forall_not_mem]
  intro b hb
  have hpos : 0 < lost.count b := List.count_pos_iff.mpr hb
  have hwith := hlost b
  have hwithout := h b
  rw [List.count_append] at hwith
  omega

namespace Loses

variable {pre pre' : List ℕ} {x : HeapM σ α} {f : α → HeapM σ β} {post post' : α → List ℕ}
  {post₂ : β → List ℕ} {L L' : Heaped σ → Prop}

/-- What only transfers loses nothing. -/
theorem of_transfers (h : Transfers notHang pre x post) : Loses pre x post (fun _ => False) where
  lost _ _ _ hL := hL.elim
  kept s others hbal _ := h s others hbal

theorem congr (h : Loses pre x post L) (hL : ∀ s, L' s ↔ L s) : Loses pre x post L' where
  lost s others hbal hs := h.lost s others hbal ((hL s).mp hs)
  kept s others hbal hs := h.kept s others hbal fun h' => hs ((hL s).mpr h')

/-- Blocks that a computation does not know of, and that nobody else has a pointer to. -/
theorem drop (h : Transfers noFault pre x post) (d : List ℕ) :
    Loses (d ++ pre) x post (fun _ => d ≠ []) where
  lost s others hbal hne := by
    have hperm : (d ++ pre ++ others).Perm (pre ++ (d ++ others)) := by
      rw [List.append_assoc]
      exact List.perm_append_comm_assoc _ _ _
    refine (h s (d ++ others) (hbal.perm hperm)).imp (fun _ => id) fun a s' hbal' => ?_
    exact ⟨d, hne, hbal'⟩
  kept s others hbal hnil := by
    rw [not_ne_iff.mp hnil] at hbal
    exact h.weaken s others hbal

/-- What is held in the end and is not handed over. -/
theorem forget (pre : List ℕ) (a : α) :
    Loses pre (Pure.pure a : HeapM σ α) (fun _ => []) (fun _ => pre ≠ []) := by
  have h := drop (Transfers.pure a (fun _ => []) : Transfers noFault [] (Pure.pure a : HeapM σ α) _)
    pre
  rwa [List.append_nil] at h

theorem ite {c : Prop} [Decidable c] {y : HeapM σ α} (hx : c → Loses pre x post L)
    (hy : ¬ c → Transfers notHang pre y post) :
    Loses pre (if c then x else y) post (fun s => c ∧ L s) := by
  by_cases hc : c
  · rw [if_pos hc]
    exact (hx hc).congr fun s => ⟨And.right, fun h => ⟨hc, h⟩⟩
  · rw [if_neg hc]
    exact (of_transfers (hy hc)).congr fun s => ⟨fun h => hc h.1, False.elim⟩

/-- A loss in the second part of a sequence. -/
theorem bind {L : α → Heaped σ → Prop} (hx : Transfers notHang pre x post)
    (hf : ∀ a, Loses (post a) (f a) post₂ (L a)) :
    Loses pre (x >>= f) post₂ (fun s => Reaches x s L) where
  lost s others hbal := by
    rintro ⟨a, s', hexec, hL⟩
    rw [exec_bind_ok hexec]
    have hbal' := (hx s others hbal).ok a (congrArg Prod.fst hexec)
    rw [hexec] at hbal'
    exact (hf a).lost s' others hbal' hL
  kept s others hbal hL := by
    refine (hx s others hbal).bind fun a s' hexec hbal' => ?_
    exact (hf a).kept s' others hbal' fun h => hL ⟨a, s', hexec, h⟩

/-- A loss in the first part of a sequence. -/
theorem bind_transfers (hx : Loses pre x post L)
    (hf : ∀ a, Transfers noFault (post a) (f a) post₂) : Loses pre (x >>= f) post₂ L where
  lost s others hbal hL := by
    refine (hx.lost s others hbal hL).bind fun a s' _ ⟨lost, hne, hbal'⟩ => ?_
    exact (hf a s' (lost ++ others) hbal').imp (fun _ => id) fun _ _ h => ⟨lost, hne, h⟩
  kept s others hbal hL := by
    refine (hx.kept s others hbal hL).bind fun a s' _ hbal' => ?_
    exact (hf a).weaken s' others hbal'

theorem frame (h : Loses pre x post L) (r : List ℕ) :
    Loses (pre ++ r) x (fun a => post a ++ r) L where
  lost s others hbal hL := by
    rw [List.append_assoc] at hbal
    refine (h.lost s (r ++ others) hbal hL).imp (fun _ => id) fun a s' ⟨lost, hne, hbal'⟩ => ?_
    refine ⟨lost, hne, hbal'.perm ?_⟩
    simp only [List.append_assoc]
    refine List.Perm.append_left _ ?_
    rw [← List.append_assoc, ← List.append_assoc]
    exact List.perm_append_comm.append_right others
  kept s others hbal hL := by
    rw [List.append_assoc] at hbal
    refine (h.kept s (r ++ others) hbal hL).imp (fun _ => id) fun a s' hbal' => ?_
    rwa [List.append_assoc]

theorem perm (h : Loses pre x post L) (hpre : pre'.Perm pre)
    (hpost : ∀ a, (post a).Perm (post' a)) : Loses pre' x post' L where
  lost s others hbal hL := by
    refine (h.lost s others (hbal.perm (hpre.append_right others)) hL).imp (fun _ => id)
      fun a s' ⟨lost, hne, hbal'⟩ => ?_
    exact ⟨lost, hne, hbal'.perm ((hpost a).append_right _)⟩
  kept s others hbal hL := by
    refine (h.kept s others (hbal.perm (hpre.append_right others)) hL).imp (fun _ => id)
      fun a s' hbal' => ?_
    exact hbal'.perm ((hpost a).append_right others)

/-- A run that loses blocks does not end with the blocks that were there. -/
theorem not_finishes (h : Loses pre x (fun _ => []) L) {s : Heaped σ} {others : List ℕ}
    (hbal : Balanced s.ledger (pre ++ others)) (hL : L s) :
    ¬ Finishes notHang (exec x s) fun _ s' => Balanced s'.ledger others := by
  intro hout
  obtain ⟨a, s', hexec, lost, hne, hbal'⟩ := (h.lost s others hbal hL).returns
  rw [hexec] at hout
  have hlost : Balanced s'.ledger (lost ++ others) := hbal'
  exact hne (hlost.eq_nil_of_lost (hout.ok a rfl))

/-- A run ends with the blocks that were there, and no others, if and only if it loses none. -/
theorem balanced_iff (h : Loses pre x (fun _ => []) L) {s : Heaped σ} {others : List ℕ}
    (hbal : Balanced s.ledger (pre ++ others)) :
    (Finishes notHang (exec x s) fun _ s' => Balanced s'.ledger others) ↔ ¬ L s :=
  ⟨fun hout hL => h.not_finishes hbal hL hout, h.kept s others hbal⟩

/-- The same for a run that may hang in its first part. -/
theorem bind_balanced_iff {L : α → Heaped σ → Prop} (hx : Transfers anyFault [] x post)
    (hf : ∀ a, Loses (post a) (f a) (fun _ => []) (L a)) {s : Heaped σ} {others : List ℕ}
    (hbal : Balanced s.ledger others) :
    (Finishes notHang (exec (x >>= f) s) fun _ s' => Balanced s'.ledger others) ↔
      (exec x s).1 ≠ .error .hang ∧ ¬ Reaches x s L := by
  have hfin := hx s others hbal
  rcases hexec : exec x s with ⟨e | a, s'⟩
  · rw [exec_bind_error hexec]
    constructor
    · intro h
      refine ⟨fun he => h.error e rfl (Except.error.inj he), ?_⟩
      rintro ⟨a, s'', h', -⟩
      exact nomatch hexec.symm.trans h'
    · rintro ⟨he, -⟩
      exact .of_error fun h => he (congrArg Except.error h)
  · rw [hexec] at hfin
    rw [exec_bind_ok hexec, (hf a).balanced_iff (hfin.ok a rfl)]
    constructor
    · refine fun hL => ⟨nofun, ?_⟩
      rintro ⟨a', s'', h', hL'⟩
      cases hexec.symm.trans h'
      exact hL hL'
    · rintro ⟨-, hreach⟩ hL
      exact hreach ⟨a, s', hexec, hL⟩

end Loses

/-! ## The computation without the heap -/

/-- Without the heap, `x` is `y`; `g` takes the blocks out of its results. -/
def Refines {α' : Type} (g : α → α') (x : HeapM σ α) (y : Exec σ α') : Prop :=
  ∀ s, ((exec x s).1.map g, (exec x s).2.base) = exec y s.base

namespace Refines

variable {α' β' : Type} {g : α → α'} {h : β → β'} {x : HeapM σ α} {f : α → HeapM σ β}

theorem pure {a : α} {a' : α'} (ha : g a = a') :
    Refines g (pure a : HeapM σ α) (pure a' : Exec σ α') := by
  intro s
  rw [← ha]
  rfl

theorem onBase (y : Exec σ α) : Refines id (onBase y) y := by
  intro s
  rw [exec_onBase]
  rcases exec y s.base with ⟨e | a, s'⟩ <;> rfl

theorem lift (y : Except Fault α) : Refines id (Exec.lift y : HeapM σ α) (Exec.lift y) := by
  intro s
  cases y <;> rfl

theorem bind {y : Exec σ α'} {f' : α' → Exec σ β'} (hx : Refines g x y)
    (hf : ∀ a, Refines h (f a) (f' (g a))) : Refines h (x >>= f) (y >>= f') := by
  intro s
  have hs := hx s
  rw [exec_bind, exec_bind, ← hs]
  rcases exec x s with ⟨e | a, s'⟩
  · rfl
  · exact hf a s'

/-- A step that only concerns the heap. -/
theorem heap {y : Exec σ β'} (hx : ∀ s, ∃ a, (exec x s).1 = .ok a ∧ (exec x s).2.base = s.base)
    (hf : ∀ a, Refines h (f a) y) : Refines h (x >>= f) y := by
  intro s
  obtain ⟨a, ha, hbase⟩ := hx s
  rw [exec_bind]
  rcases hexec : exec x s with ⟨e | a', s'⟩
  · rw [hexec] at ha
    exact nomatch ha
  · rw [hexec] at hbase
    have hs := hf a' s'
    rw [show s'.base = s.base from hbase] at hs
    exact hs

theorem release {b : ℕ} {f : Unit → HeapM σ β} {y : Exec σ β'} (hf : Refines h (f ()) y) :
    Refines h (release b >>= f) y :=
  heap (fun _ => ⟨(), rfl, rfl⟩) fun _ => hf

/-- What a run comes to can be seen without the heap. -/
theorem reaches {y : Exec σ α'} (hx : Refines g x y) {s : Heaped σ} {L : α' → σ → Prop} :
    Reaches x s (fun a s' => L (g a) s'.base) ↔ Reaches y s.base L := by
  have hs := hx s
  constructor
  · rintro ⟨a, s', hexec, hL⟩
    rw [hexec] at hs
    exact ⟨g a, s'.base, hs.symm, hL⟩
  · rintro ⟨a', s', hexec, hL⟩
    rw [hexec] at hs
    rcases hout : exec x s with ⟨e | a, s''⟩
    · rw [hout] at hs
      exact nomatch congrArg Prod.fst hs
    · rw [hout] at hs
      obtain ⟨ha, hbase⟩ := Prod.mk.inj hs
      cases ha
      cases hbase
      exact ⟨a, s'', hout, hL⟩

/-- A run hangs with the heap if and only if it does without. -/
theorem error_iff {y : Exec σ α'} (hx : Refines g x y) {s : Heaped σ} {e : Fault} :
    (exec x s).1 = .error e ↔ (exec y s.base).1 = .error e := by
  rw [← hx s]
  rcases exec x s with ⟨e' | a, s'⟩
  · show (Except.error e' : Except Fault α) = _ ↔ (Except.error e' : Except Fault α') = _
    rw [Except.error.injEq, Except.error.injEq]
  · constructor
    · exact nofun
    · exact nofun

theorem ite {c : Prop} [Decidable c] {x' : HeapM σ α} {y y' : Exec σ α'} (hx : Refines g x y)
    (hx' : Refines g x' y') : Refines g (if c then x else x') (if c then y else y') := by
  split
  · exact hx
  · exact hx'

end Refines

end

end WLink.Lib
