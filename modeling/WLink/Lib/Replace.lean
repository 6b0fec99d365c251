import Mathlib.Data.List.Infix

/-!
# Removing a pattern from a list

`removeAll pat l` is the list without the occurrences of a pattern, found from left to right and
not overlapping, as string functions replace them by nothing. Besides the laws for lists that begin
with the pattern or do not (`removeAll_append`, `removeAll_cons`, `removeAll_induction`) the file has
those for a list in parts: where no occurrence crosses from one part to the next, the parts can be
taken alone (`removeAll_append_of_no_straddle`, `removeAll_append_intact`), and in any case no more
is left than of the parts (`length_removeAll_append_le`, `length_removeAll_prepend_le`).
-/

namespace WLink.Lib

variable {α : Type} [DecidableEq α]

/-- The list behind `skip` symbols without the occurrences of the pattern. -/
def removeFrom (pat : List α) : ℕ → List α → List α
  | _, [] => []
  | skip + 1, _ :: l => removeFrom pat skip l
  | 0, b :: l =>
    if pat ≠ [] ∧ pat.isPrefixOf (b :: l) then removeFrom pat (pat.length - 1) l
    else b :: removeFrom pat 0 l

/-- The list without the occurrences of the pattern. -/
def removeAll (pat l : List α) : List α := removeFrom pat 0 l

theorem removeFrom_eq (pat : List α) (skip : ℕ) (l : List α) :
    removeFrom pat skip l = removeAll pat (l.drop skip) := by
  induction l generalizing skip with
  | nil =>
    rw [List.drop_nil]
    cases skip <;> rfl
  | cons b l ih =>
    cases skip with
    | zero => rfl
    | succ skip => exact ih skip

@[simp] theorem removeAll_nil (pat : List α) : removeAll pat [] = [] := rfl

theorem removeAll_cons {pat : List α} {b : α} {l : List α} (h : ¬ pat <+: b :: l) :
    removeAll pat (b :: l) = b :: removeAll pat l :=
  if_neg fun hp => h (List.isPrefixOf_iff_prefix.mp hp.2)

theorem removeAll_append {pat : List α} (hpat : pat ≠ []) (l : List α) :
    removeAll pat (pat ++ l) = removeAll pat l := by
  obtain ⟨b, rest, rfl⟩ := List.exists_cons_of_ne_nil hpat
  have hprefix : (b :: rest).isPrefixOf (b :: (rest ++ l)) = true :=
    List.isPrefixOf_iff_prefix.mpr (List.prefix_append (b :: rest) l)
  have hhit : removeAll (b :: rest) (b :: (rest ++ l)) =
      removeFrom (b :: rest) rest.length (rest ++ l) := if_pos ⟨hpat, hprefix⟩
  rw [List.cons_append, hhit, removeFrom_eq, List.drop_left]

/-- Lists are built from occurrences of the pattern and from symbols with which none begins. -/
theorem removeAll_induction {pat : List α} (hpat : pat ≠ []) {motive : List α → Prop}
    (nil : motive []) (hit : ∀ l, motive l → motive (pat ++ l))
    (miss : ∀ b l, ¬ pat <+: b :: l → motive l → motive (b :: l)) (l : List α) : motive l := by
  have hall : ∀ n, ∀ l : List α, l.length ≤ n → motive l := by
    intro n
    induction n with
    | zero =>
      intro l hl
      rw [List.eq_nil_of_length_eq_zero (Nat.le_zero.mp hl)]
      exact nil
    | succ n ih =>
      intro l hl
      by_cases hp : pat <+: l
      · obtain ⟨rest, rfl⟩ := hp
        have hpos := List.length_pos_of_ne_nil hpat
        rw [List.length_append] at hl
        exact hit rest (ih rest (by omega))
      · cases l with
        | nil => exact nil
        | cons b l => exact miss b l hp (ih l (Nat.le_of_succ_le_succ hl))
  exact hall l.length l (Nat.le_refl _)

variable {pat : List α}

theorem length_removeAll_le (hpat : pat ≠ []) (l : List α) :
    (removeAll pat l).length ≤ l.length := by
  induction l using removeAll_induction hpat with
  | nil => exact Nat.le_refl _
  | hit l ih =>
    rw [removeAll_append hpat, List.length_append]
    omega
  | miss b l hp ih =>
    rw [removeAll_cons hp, List.length_cons, List.length_cons]
    omega

/-- Where the pattern does not occur, nothing is removed. -/
theorem removeAll_of_absent {l : List α} (h : ¬ pat <:+: l) : removeAll pat l = l := by
  induction l with
  | nil => rfl
  | cons b l ih =>
    rw [removeAll_cons fun hp => h hp.isInfix, ih fun hp => h (List.infix_cons hp)]

/-- Where it occurs, the list gets shorter. -/
theorem length_removeAll_lt (hpat : pat ≠ []) {l : List α} (h : pat <:+: l) :
    (removeAll pat l).length < l.length := by
  have hpos := List.length_pos_of_ne_nil hpat
  induction l using removeAll_induction hpat with
  | nil => exact absurd (List.infix_nil.mp h) hpat
  | hit l ih =>
    have hle := length_removeAll_le hpat l
    rw [removeAll_append hpat, List.length_append]
    omega
  | miss b l hp ih =>
    rcases List.infix_cons_iff.mp h with hp' | hl
    · exact absurd hp' hp
    · have hlt := ih hl
      rw [removeAll_cons hp, List.length_cons, List.length_cons]
      omega

/-! ## Lists in parts -/

/-- No occurrence begins in the front part: it stays as it is. -/
theorem removeAll_append_intact {x y : List α}
    (h : ∀ i < x.length, ¬ pat <+: (x ++ y).drop i) :
    removeAll pat (x ++ y) = x ++ removeAll pat y := by
  induction x with
  | nil => rfl
  | cons b x ih =>
    have hfirst : ¬ pat <+: b :: (x ++ y) := h 0 (Nat.zero_lt_succ _)
    have hrest := ih fun i hi => h (i + 1) (Nat.succ_lt_succ hi)
    rw [List.cons_append, removeAll_cons hfirst, hrest, List.cons_append]

/-- No end of the pattern begins the second part: the parts can be taken alone. -/
theorem removeAll_append_of_no_straddle (hpat : pat ≠ []) {y : List α}
    (h : ∀ v, v ≠ [] → v <:+ pat → ¬ v <+: y) (x : List α) :
    removeAll pat (x ++ y) = removeAll pat x ++ removeAll pat y := by
  induction x using removeAll_induction hpat with
  | nil => rfl
  | hit x ih => rw [List.append_assoc, removeAll_append hpat, removeAll_append hpat, ih]
  | miss b x hp ih =>
    have hp' : ¬ pat <+: (b :: x) ++ y := by
      rintro ⟨rest, hrest⟩
      rcases List.append_eq_append_iff.mp hrest with ⟨a, hx, -⟩ | ⟨v, hpat', hy⟩
      · exact hp ⟨a, hx.symm⟩
      · by_cases hnil : v = []
        · subst hnil
          rw [List.append_nil] at hpat'
          exact hp (hpat' ▸ List.prefix_refl _)
        · exact h v hnil ⟨b :: x, hpat'.symm⟩ ⟨rest, hy.symm⟩
    have hcons : removeAll pat ((b :: x) ++ y) = b :: removeAll pat (x ++ y) := removeAll_cons hp'
    rw [hcons, ih, removeAll_cons hp, List.cons_append]

/-- What is left of a list is at most what is left of its front part and all of the rest. -/
theorem length_removeAll_append_le (hpat : pat ≠ []) (x y : List α) :
    (removeAll pat (x ++ y)).length ≤ (removeAll pat x).length + y.length := by
  induction x using removeAll_induction hpat with
  | nil =>
    have hle := length_removeAll_le hpat y
    rw [List.nil_append, removeAll_nil, List.length_nil]
    omega
  | hit x ih => rwa [List.append_assoc, removeAll_append hpat, removeAll_append hpat]
  | miss b x hp ih =>
    rw [removeAll_cons hp, List.length_cons]
    by_cases hp' : pat <+: (b :: x) ++ y
    · -- an occurrence that ends in the second part takes all of the front with it
      obtain ⟨rest, hrest⟩ := hp'
      have hlen : pat.length + rest.length = x.length + 1 + y.length := by
        rw [← List.length_append, hrest, List.length_append, List.length_cons]
      have hlonger : x.length + 1 < pat.length := by
        by_contra hle
        refine hp (List.prefix_of_prefix_length_le ⟨rest, hrest⟩ (List.prefix_append _ _) ?_)
        rw [List.length_cons]
        omega
      have hle := length_removeAll_le hpat rest
      rw [← hrest, removeAll_append hpat]
      omega
    · have hcons : removeAll pat ((b :: x) ++ y) = b :: removeAll pat (x ++ y) := removeAll_cons hp'
      rw [hcons, List.length_cons]
      omega

/-- What is left of lists that are cut short by at most the length of the pattern, or that are
longer by one symbol. -/
theorem length_removeAll_shift (hpat : pat ≠ []) (n : ℕ) :
    (∀ l : List α, l.length ≤ n → ∀ m ≤ pat.length,
      (removeAll pat (l.drop m)).length + m ≤ (removeAll pat l).length + pat.length) ∧
    ∀ b, ∀ l : List α, l.length ≤ n →
      (removeAll pat (b :: l)).length ≤ (removeAll pat l).length + 1 := by
  have hpos := List.length_pos_of_ne_nil hpat
  induction n with
  | zero =>
    constructor
    · intro l hl m hm
      rw [List.eq_nil_of_length_eq_zero (Nat.le_zero.mp hl), List.drop_nil]
      omega
    · intro b l hl
      rw [List.eq_nil_of_length_eq_zero (Nat.le_zero.mp hl)]
      exact length_removeAll_le hpat [b]
  | succ n ih =>
    obtain ⟨ihdrop, ihcons⟩ := ih
    have hdrop : ∀ l : List α, l.length ≤ n + 1 → ∀ m ≤ pat.length,
        (removeAll pat (l.drop m)).length + m ≤ (removeAll pat l).length + pat.length := by
      intro l hl m hm
      cases m with
      | zero =>
        rw [List.drop_zero]
        omega
      | succ m =>
        by_cases hp : pat <+: l
        · -- what is cut off an occurrence leaves its end, each symbol of which counts at most once
          obtain ⟨rest, rfl⟩ := hp
          rw [List.length_append] at hl
          have hend : ∀ v : List α, v.length + rest.length ≤ n + 1 →
              (removeAll pat (v ++ rest)).length ≤ (removeAll pat rest).length + v.length := by
            intro v
            induction v with
            | nil => exact fun _ => Nat.le_refl _
            | cons b v ihv =>
              intro hv
              rw [List.length_cons] at hv
              have hone := ihcons b (v ++ rest) (by rw [List.length_append]; omega)
              have hrest := ihv (by omega)
              rw [List.cons_append, List.length_cons]
              omega
          have hlen : (pat.drop (m + 1)).length = pat.length - (m + 1) := List.length_drop
          have hleft := hend (pat.drop (m + 1)) (by omega)
          rw [List.drop_append_of_le_length hm, removeAll_append hpat]
          omega
        · cases l with
          | nil =>
            rw [List.drop_nil]
            omega
          | cons b l =>
            have hshort := ihdrop l (Nat.le_of_succ_le_succ hl) m (by omega)
            rw [List.drop_succ_cons, removeAll_cons hp, List.length_cons]
            omega
    refine ⟨hdrop, fun b l hl => ?_⟩
    by_cases hp : pat <+: b :: l
    · obtain ⟨rest, hrest⟩ := hp
      obtain ⟨c, tail, rfl⟩ := List.exists_cons_of_ne_nil hpat
      have hl' : l = tail ++ rest := (List.cons.inj hrest).2.symm
      have hcut := hdrop l hl tail.length (by rw [List.length_cons]; omega)
      rw [← hrest, removeAll_append hpat]
      rw [hl', List.drop_left, ← hl', List.length_cons] at hcut
      omega
    · rw [removeAll_cons hp, List.length_cons]

/-- What is left of a list is at most its front part and what is left of the rest. -/
theorem length_removeAll_prepend_le (hpat : pat ≠ []) (x y : List α) :
    (removeAll pat (x ++ y)).length ≤ x.length + (removeAll pat y).length := by
  induction x with
  | nil =>
    rw [List.nil_append, List.length_nil]
    omega
  | cons b x ih =>
    have hone := (length_removeAll_shift hpat (x ++ y).length).2 b (x ++ y) (Nat.le_refl _)
    rw [List.cons_append, List.length_cons]
    omega

end WLink.Lib
