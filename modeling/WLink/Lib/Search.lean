import Mathlib.Data.List.Infix

/-!
# First occurrence of a pattern in a list

`findSub pat s` is the least offset at which `pat` starts in `s`, the value that a substring
search such as C's `strstr` computes. Besides its characterization (`findSub_eq_some_iff`,
`findSub_eq_none_iff`) the file has the two laws needed to search a text built from pieces:
how a search splits at a separator that the pattern does not contain
(`findSub_append_sep`), and where a pattern is found when its first symbol does not occur
before it (`findSub_of_head_notMem`).
-/

namespace WLink.Lib

variable {α : Type} [DecidableEq α]

/-- The least offset at which `pat` starts in the list, if there is one. -/
def findSub (pat : List α) : List α → Option ℕ
  | [] => if pat = [] then some 0 else none
  | b :: bs => if pat.isPrefixOf (b :: bs) then some 0 else (findSub pat bs).map (· + 1)

/-! ## Prefixes and separators -/

omit [DecidableEq α] in
/-- A pattern without the symbol `c` that starts in front of a `c` ends before it. -/
theorem prefix_append_sep {pat a b : List α} {c : α} (hc : c ∉ pat) :
    pat <+: a ++ c :: b ↔ pat <+: a := by
  refine ⟨fun h => ?_, fun h => List.prefix_append_of_prefix h⟩
  induction a generalizing pat with
  | nil =>
    cases pat with
    | nil => exact List.prefix_refl _
    | cons x xs =>
      obtain ⟨rfl, -⟩ := List.cons_prefix_cons.mp h
      exact absurd List.mem_cons_self hc
  | cons y ys ih =>
    cases pat with
    | nil => exact List.nil_prefix
    | cons x xs =>
      rw [List.cons_append, List.cons_prefix_cons] at h
      obtain ⟨rfl, hxs⟩ := h
      exact List.cons_prefix_cons.mpr ⟨rfl, ih (fun hm => hc (List.mem_cons_of_mem _ hm)) hxs⟩

omit [DecidableEq α] in
/-- A list is split at its first `c` in one way only. -/
theorem append_sep_inj {a a' b b' : List α} {c : α} (ha : c ∉ a) (ha' : c ∉ a')
    (h : a ++ c :: b = a' ++ c :: b') : a = a' ∧ b = b' := by
  induction a generalizing a' with
  | nil =>
    cases a' with
    | nil => exact ⟨rfl, (List.cons.inj h).2⟩
    | cons y ys => exact absurd (List.cons.inj h).1 fun heq => ha' (heq ▸ List.mem_cons_self)
  | cons x xs ih =>
    cases a' with
    | nil => exact absurd (List.cons.inj h).1 fun heq => ha (heq ▸ List.mem_cons_self)
    | cons y ys =>
      obtain ⟨rfl, hrest⟩ := List.cons.inj h
      obtain ⟨rfl, rfl⟩ := ih (fun hm => ha (List.mem_cons_of_mem _ hm))
        (fun hm => ha' (List.mem_cons_of_mem _ hm)) hrest
      exact ⟨rfl, rfl⟩

/-! ## Characterization -/

theorem findSub_cons_pos {pat : List α} {b : α} {bs : List α} (h : pat <+: b :: bs) :
    findSub pat (b :: bs) = some 0 := by
  rw [findSub, if_pos (List.isPrefixOf_iff_prefix.mpr h)]

theorem findSub_cons_neg {pat : List α} {b : α} {bs : List α}
    (h : ¬ pat <+: b :: bs) : findSub pat (b :: bs) = (findSub pat bs).map (· + 1) := by
  rw [findSub, if_neg (fun hp => h (List.isPrefixOf_iff_prefix.mp hp))]

/-- A pattern is found at the first offset at which it starts. -/
theorem findSub_eq_some_iff {pat s : List α} {k : ℕ} :
    findSub pat s = some k ↔
      k ≤ s.length ∧ pat <+: s.drop k ∧ ∀ j < k, ¬ pat <+: s.drop j := by
  induction s generalizing k with
  | nil =>
    simp only [findSub, List.length_nil, Nat.le_zero, List.drop_nil, List.prefix_nil]
    constructor
    · intro h
      split at h
      · next hp => cases h; exact ⟨rfl, hp, by simp⟩
      · cases h
    · rintro ⟨rfl, hp, -⟩
      rw [if_pos hp]
  | cons b bs ih =>
    by_cases hp : pat <+: b :: bs
    · rw [findSub_cons_pos hp]
      constructor
      · intro h; cases h; exact ⟨Nat.zero_le _, hp, by simp⟩
      · rintro ⟨-, -, hmin⟩
        rcases Nat.eq_zero_or_pos k with rfl | hk
        · rfl
        · exact absurd hp (hmin 0 hk)
    · rw [findSub_cons_neg hp]
      constructor
      · intro h
        obtain ⟨k', hk', rfl⟩ := Option.map_eq_some_iff.mp h
        obtain ⟨hle, hpre, hmin⟩ := ih.mp hk'
        refine ⟨Nat.succ_le_succ hle, hpre, fun j hj => ?_⟩
        cases j with
        | zero => exact hp
        | succ j => exact hmin j (Nat.lt_of_succ_lt_succ hj)
      · rintro ⟨hle, hpre, hmin⟩
        cases k with
        | zero => exact absurd hpre hp
        | succ k =>
          have hk : findSub pat bs = some k :=
            ih.mpr ⟨Nat.le_of_succ_le_succ hle, hpre,
              fun j hj => hmin (j + 1) (Nat.succ_lt_succ hj)⟩
          rw [hk]; rfl

theorem findSub_eq_none_iff {pat s : List α} : findSub pat s = none ↔ ¬ pat <:+: s := by
  induction s with
  | nil => simp [findSub, List.infix_nil]
  | cons b bs ih =>
    by_cases hp : pat <+: b :: bs
    · simp [findSub_cons_pos hp, hp.isInfix]
    · rw [findSub_cons_neg hp, Option.map_eq_none_iff, ih, List.infix_cons_iff]
      simp [hp]

theorem findSub_isSome_iff {pat s : List α} : (findSub pat s).isSome ↔ pat <:+: s := by
  rw [← not_iff_not, Bool.not_eq_true, Option.isSome_eq_false_iff, Option.isNone_iff_eq_none,
    findSub_eq_none_iff]

theorem findSub_drop {pat s : List α} {k : ℕ} (h : findSub pat s = some k) :
    pat <+: s.drop k := (findSub_eq_some_iff.mp h).2.1

/-- An occurrence lies inside the list. -/
theorem findSub_add_length_le {pat s : List α} {k : ℕ} (h : findSub pat s = some k) :
    k + pat.length ≤ s.length := by
  obtain ⟨hk, hpre, -⟩ := findSub_eq_some_iff.mp h
  have := hpre.length_le
  rw [List.length_drop] at this
  omega

theorem findSub_eq_zero_iff {pat s : List α} : findSub pat s = some 0 ↔ pat <+: s := by
  simp [findSub_eq_some_iff]

/-! ## Searching a text built from pieces -/

/-- A search splits at a separator that does not occur in the pattern. -/
theorem findSub_append_sep {pat : List α} (a b : List α) {c : α} (hc : c ∉ pat)
    (hne : pat ≠ []) :
    findSub pat (a ++ c :: b) =
      (findSub pat a).or ((findSub pat b).map (· + (a.length + 1))) := by
  induction a with
  | nil =>
    have hnp : ¬ pat <+: c :: b := by
      intro h
      exact hne (List.prefix_nil.mp ((prefix_append_sep (a := []) hc).mp h))
    simp [findSub_cons_neg hnp, findSub, hne]
  | cons y ys ih =>
    by_cases hp : pat <+: y :: ys
    · have hp' : pat <+: y :: (ys ++ c :: b) := (prefix_append_sep (a := y :: ys) hc).mpr hp
      rw [List.cons_append, findSub_cons_pos hp', findSub_cons_pos hp]
      rfl
    · have hp' : ¬ pat <+: y :: (ys ++ c :: b) := fun h =>
        hp ((prefix_append_sep (a := y :: ys) hc).mp h)
      rw [List.cons_append, findSub_cons_neg hp', findSub_cons_neg hp, ih]
      cases findSub pat ys with
      | some k => rfl
      | none =>
        rw [Option.map_none, Option.none_or, Option.none_or, Option.map_map]
        rfl

/-- A pattern whose first symbol does not occur in `a` is found right behind `a`. -/
theorem findSub_of_head_notMem {c : α} {pat : List α} (a t : List α) (hc : c ∉ a) :
    findSub (c :: pat) (a ++ (c :: pat ++ t)) = some a.length := by
  induction a with
  | nil => exact findSub_cons_pos (List.prefix_append (c :: pat) t)
  | cons y ys ih =>
    have hnp : ¬ c :: pat <+: y :: (ys ++ (c :: pat ++ t)) := by
      intro h
      exact hc ((List.cons_prefix_cons.mp h).1 ▸ List.mem_cons_self)
    rw [List.cons_append, findSub_cons_neg hnp,
      ih (fun hm => hc (List.mem_cons_of_mem _ hm))]
    rfl

/-- A single symbol is found behind the longest part without it. -/
theorem findSub_singleton (c : α) (s : List α) :
    findSub [c] s = if c ∈ s then some (s.takeWhile (· ≠ c)).length else none := by
  induction s with
  | nil => rfl
  | cons b bs ih =>
    by_cases hb : b = c
    · rw [findSub_cons_pos (by simp [hb]), if_pos (by simp [hb]),
        List.takeWhile_cons_of_neg (by simpa using hb)]
      rfl
    · rw [findSub_cons_neg (by simpa using Ne.symm hb), ih,
        List.takeWhile_cons_of_pos (by simpa using hb)]
      by_cases hmem : c ∈ bs
      · rw [if_pos hmem, if_pos (List.mem_cons_of_mem _ hmem)]
        rfl
      · rw [if_neg hmem, if_neg (by simp [Ne.symm hb, hmem])]
        rfl

/-- Whether a pattern occurs is decided piece by piece at a separator. -/
theorem infix_append_sep {pat a b : List α} {c : α} (hc : c ∉ pat) (hne : pat ≠ []) :
    pat <:+: a ++ c :: b ↔ pat <:+: a ∨ pat <:+: b := by
  rw [← findSub_isSome_iff, findSub_append_sep a b hc hne, ← findSub_isSome_iff,
    ← findSub_isSome_iff]
  cases findSub pat a <;> simp

end WLink.Lib
