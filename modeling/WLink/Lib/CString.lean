import WLink.Lib.Exec
import WLink.Lib.Search
import Mathlib.Data.List.Basic

/-!
# C strings in a byte memory

A memory object is a `List UInt8`, a pointer into it an offset. The functions of the C
library scan the object from an offset until they are done or until they meet the NUL that
ends the string; a scan that reaches the end of the object first is a `Fault.read`.

`StrAt m p s` says that the NUL-terminated string at offset `p` of `m` is `s`. Each library
function has one lemma `*_eq` that reads its result off `s`; `StrAt.exists_of_nul` gives the
string in front of any NUL, and `StrAt.advance`, `StrAt.set_mem` and `StrAt.set_before` say
how it moves with the pointer and under a store.
-/

namespace WLink.Lib

/-- The bytes of an ASCII literal. -/
def ascii (s : String) : List UInt8 := s.toList.map fun c => UInt8.ofNat c.toNat

namespace CString

/-! ## The library functions -/

/-- The byte at an offset. -/
def readAt (m : List UInt8) (p : ℕ) : Except Fault UInt8 :=
  match m[p]? with
  | some b => .ok b
  | none => .error .read

/-- Store bytes from an offset on; a byte behind the end of the object is a `Fault.write`. -/
def storeAt (m : List UInt8) (p : ℕ) (bs : List UInt8) : Except Fault (List UInt8) :=
  if p + bs.length ≤ m.length then .ok (m.take p ++ bs ++ m.drop (p + bs.length))
  else .error .write

/-- `strlen` of the string that a list of bytes starts with. -/
def strlenFrom : List UInt8 → Except Fault ℕ
  | [] => .error .read
  | b :: bs => if b = 0 then .ok 0 else (strlenFrom bs).map (· + 1)

/-- `strlen(m + p)`. -/
def strlen (m : List UInt8) (p : ℕ) : Except Fault ℕ := strlenFrom (m.drop p)

/-- The search of `strstr` over the bytes from a pointer on, as an offset from it. -/
def strstrFrom (pat : List UInt8) : List UInt8 → Except Fault (Option ℕ)
  | [] => .error .read
  | b :: bs =>
    if pat.isPrefixOf (b :: bs) then .ok (some 0)
    else if b = 0 then .ok none
    else (strstrFrom pat bs).map (Option.map (· + 1))

/-- `strstr(m + p, pat)`. -/
def strstr (m : List UInt8) (p : ℕ) (pat : List UInt8) : Except Fault (Option ℕ) :=
  (strstrFrom pat (m.drop p)).map (Option.map (p + ·))

/-- `strchr(m + p, c)` for a character `c` other than NUL. -/
def strchr (m : List UInt8) (p : ℕ) (c : UInt8) : Except Fault (Option ℕ) := strstr m p [c]

/-- How many bytes equal to `c` stand in front of the first other one. -/
def skipFrom (c : UInt8) : List UInt8 → Except Fault ℕ
  | [] => .error .read
  | b :: bs => if b = c then (skipFrom c bs).map (· + 1) else .ok 0

/-- `while (*p == c) p++`. -/
def skipByte (m : List UInt8) (p : ℕ) (c : UInt8) : Except Fault ℕ :=
  (skipFrom c (m.drop p)).map (p + ·)

/-- The comparison of `strncmp` with a literal, over the bytes from a pointer on. -/
def startsFrom : List UInt8 → List UInt8 → Except Fault Bool
  | [], _ => .ok true
  | _ :: _, [] => .error .read
  | c :: cs, b :: bs => if b = c then startsFrom cs bs else .ok false

/-- `strncmp(m + p, lit, strlen(lit)) == 0`. -/
def startsWith (m : List UInt8) (p : ℕ) (lit : List UInt8) : Except Fault Bool :=
  startsFrom lit (m.drop p)

/-- `while (pred(*p)) p--`: the scan faults when it would leave the object at its start. -/
def backWhile (m : List UInt8) (pred : UInt8 → Bool) : ℕ → Except Fault ℕ
  | 0 => (readAt m 0).bind fun b => if pred b then .error .read else .ok 0
  | p + 1 => (readAt m (p + 1)).bind fun b => if pred b then backWhile m pred p else .ok (p + 1)

/-- The string that a pointer points to, without its NUL. -/
def cstring (m : List UInt8) (p : ℕ) : Except Fault (List UInt8) :=
  (strlen m p).map ((m.drop p).take ·)

/-- `isspace` of the C locale. -/
def isSpace (b : UInt8) : Bool := b = 32 || (9 ≤ b && b ≤ 13)

def isDigit (b : UInt8) : Bool := 48 ≤ b && b ≤ 57

/-- The number that a run of digits denotes. -/
def digitsFrom (acc : ℕ) : List UInt8 → Except Fault ℕ
  | [] => .error .read
  | b :: bs => if isDigit b then digitsFrom (acc * 10 + (b.toNat - 48)) bs else .ok acc

/-- `atoi` without the leading white space: an optional sign and digits. The value saturates
at the limits of a 32-bit `long`, as `strtol` does. -/
def atoiSigned : List UInt8 → Except Fault ℤ
  | [] => .error .read
  | b :: bs =>
    if b = 45 then (digitsFrom 0 bs).map fun n => -(min n (2 ^ 31) : ℕ)
    else if b = 43 then (digitsFrom 0 bs).map fun n => (min n (2 ^ 31 - 1) : ℕ)
    else (digitsFrom 0 (b :: bs)).map fun n => (min n (2 ^ 31 - 1) : ℕ)

/-- `atoi` of the string that a buffer starts with. -/
def atoi : List UInt8 → Except Fault ℤ
  | [] => .error .read
  | b :: bs => if isSpace b then atoi bs else atoiSigned (b :: bs)

/-! ## The string at a pointer -/

/-- The NUL-terminated string at offset `p` of `m` is `s`. -/
structure StrAt (m : List UInt8) (p : ℕ) (s : List UInt8) : Prop where
  nul_notMem : 0 ∉ s
  drop_eq : ∃ t, m.drop p = s ++ 0 :: t

theorem exists_split_nul {l : List UInt8} {k : ℕ} (h : l[k]? = some 0) :
    ∃ s t, l = s ++ 0 :: t ∧ 0 ∉ s ∧ s.length ≤ k := by
  induction l generalizing k with
  | nil => simp at h
  | cons b bs ih =>
    by_cases hb : b = 0
    · exact ⟨[], bs, by rw [hb]; rfl, by simp, Nat.zero_le _⟩
    · cases k with
      | zero => exact absurd (by simpa using h) hb
      | succ k =>
        obtain ⟨s, t, rfl, hs, hk⟩ := ih (by simpa using h)
        exact ⟨b :: s, t, rfl, by simp [hs, Ne.symm hb], by simpa using hk⟩

namespace StrAt

variable {m s : List UInt8} {p : ℕ}

/-- In front of a NUL there is a string at every offset. -/
theorem exists_of_nul {n : ℕ} (hn : m[n]? = some 0) (hp : p ≤ n) :
    ∃ s, StrAt m p s ∧ p + s.length ≤ n := by
  have hk : (m.drop p)[n - p]? = some 0 := by
    rw [List.getElem?_drop, Nat.add_sub_cancel' hp, hn]
  obtain ⟨s, t, heq, hs, hle⟩ := exists_split_nul hk
  exact ⟨s, ⟨hs, t, heq⟩, by omega⟩

theorem unique {s' : List UInt8} (h : StrAt m p s) (h' : StrAt m p s') : s = s' := by
  obtain ⟨hs, t, ht⟩ := h
  obtain ⟨hs', t', ht'⟩ := h'
  have hpre : s <+: s' ++ 0 :: t' := ⟨0 :: t, by rw [← ht, ht']⟩
  have hpre' : s' <+: s ++ 0 :: t := ⟨0 :: t', by rw [← ht, ht']⟩
  exact ((prefix_append_sep hs).mp hpre).eq_of_length
    (Nat.le_antisymm ((prefix_append_sep hs).mp hpre).length_le
      ((prefix_append_sep hs').mp hpre').length_le)

/-- The string behind the first `k` bytes of a string. -/
theorem advance (h : StrAt m p s) {k : ℕ} (hk : k ≤ s.length) :
    StrAt m (p + k) (s.drop k) := by
  obtain ⟨hs, t, ht⟩ := h
  refine ⟨fun hm => hs (List.mem_of_mem_drop hm), t, ?_⟩
  rw [← List.drop_drop, ht, List.drop_append_of_le_length hk]

theorem getElem?_eq (h : StrAt m p s) {k : ℕ} (hk : k < s.length) :
    m[p + k]? = s[k]? := by
  obtain ⟨-, t, ht⟩ := h
  rw [← List.getElem?_drop, ht, List.getElem?_append_left hk]

theorem nul_eq (h : StrAt m p s) : m[p + s.length]? = some 0 := by
  obtain ⟨-, t, ht⟩ := h
  rw [← List.getElem?_drop, ht, List.getElem?_append_right (Nat.le_refl _)]
  simp

theorem length_lt (h : StrAt m p s) : p + s.length < m.length :=
  (List.getElem?_eq_some_iff.mp h.nul_eq).1

/-- A NUL stored inside a string ends it there. -/
theorem set_mem (h : StrAt m p s) {k : ℕ} (hk : k ≤ s.length) :
    StrAt (m.set (p + k) 0) p (s.take k) := by
  obtain ⟨hs, t, ht⟩ := h
  refine ⟨fun hm => hs (List.mem_of_mem_take hm), (s ++ 0 :: t).drop (k + 1), ?_⟩
  have hlt : k < (s ++ 0 :: t).length := by simp; omega
  rw [← List.set_drop, ht,
    List.set_eq_take_append_cons_drop, if_pos hlt, List.take_append_of_le_length hk]

/-- A store in front of a string leaves it alone. -/
theorem set_before (h : StrAt m p s) {q : ℕ} (hq : q < p) (b : UInt8) :
    StrAt (m.set q b) p s := by
  obtain ⟨hs, t, ht⟩ := h
  exact ⟨hs, t, by rw [List.drop_set_of_lt hq, ht]⟩

/-- A string that ends in front of `k` only depends on the first `k` bytes. -/
theorem congr_take {m' : List UInt8} (h : StrAt m p s) {k : ℕ} (hk : p + s.length < k)
    (heq : m'.take k = m.take k) : StrAt m' p s := by
  obtain ⟨hs, t, ht⟩ := h
  have hdrop : (m.drop p).take (k - p) = (m'.drop p).take (k - p) := by
    rw [List.take_drop, List.take_drop, show p + (k - p) = k by omega, heq]
  refine ⟨hs, (m'.drop p).drop (s.length + 1), ?_⟩
  rw [ht] at hdrop
  have hpre : (s ++ 0 :: t).take (s.length + 1) = s ++ [0] := by
    rw [List.take_append]
    simp
  have hpre' : (m'.drop p).take (s.length + 1) = s ++ [0] := by
    rw [← hpre, show s.length + 1 = min (s.length + 1) (k - p) by omega, ← List.take_take,
      ← List.take_take, hdrop]
  calc m'.drop p = (m'.drop p).take (s.length + 1) ++ (m'.drop p).drop (s.length + 1) :=
        (List.take_append_drop _ _).symm
    _ = s ++ 0 :: (m'.drop p).drop (s.length + 1) := by rw [hpre']; simp

end StrAt

/-! ## Results of the library functions -/

section

variable {m s : List UInt8} {p : ℕ}

theorem readAt_eq {b : UInt8} (h : m[p]? = some b) : readAt m p = .ok b := by
  rw [readAt, h]

theorem storeAt_ok {bs : List UInt8} (h : p + bs.length ≤ m.length) :
    storeAt m p bs = .ok (m.take p ++ bs ++ m.drop (p + bs.length)) := if_pos h

theorem storeAt_overrun {bs : List UInt8} (h : m.length < p + bs.length) :
    storeAt m p bs = .error .write := if_neg (by omega)

theorem strlenFrom_eq {t : List UInt8} (hs : 0 ∉ s) : strlenFrom (s ++ 0 :: t) = .ok s.length := by
  induction s with
  | nil => rfl
  | cons b bs ih =>
    obtain ⟨hb, hbs⟩ := not_or.mp (fun h => hs (List.mem_cons.mpr h))
    rw [List.cons_append, strlenFrom, if_neg (Ne.symm hb), ih hbs]
    rfl

theorem strlen_eq (h : StrAt m p s) : strlen m p = .ok s.length := by
  obtain ⟨hs, t, ht⟩ := h
  rw [strlen, ht, strlenFrom_eq hs]

theorem cstring_eq (h : StrAt m p s) : cstring m p = .ok s := by
  rw [cstring, strlen_eq h]
  obtain ⟨-, t, ht⟩ := h
  simp [ht, Except.map]

theorem strstrFrom_eq {pat t : List UInt8} (hs : 0 ∉ s) (hpat : 0 ∉ pat) (hne : pat ≠ []) :
    strstrFrom pat (s ++ 0 :: t) = .ok (findSub pat s) := by
  induction s with
  | nil =>
    have hnp : ¬ pat.isPrefixOf (0 :: t) = true := by
      rw [List.isPrefixOf_iff_prefix]
      exact fun h => hne (List.prefix_nil.mp ((prefix_append_sep (a := []) hpat).mp h))
    rw [List.nil_append, strstrFrom, if_neg hnp, if_pos rfl, findSub, if_neg hne]
  | cons b bs ih =>
    obtain ⟨hb, hbs⟩ := not_or.mp (fun h => hs (List.mem_cons.mpr h))
    have hiff : pat <+: b :: (bs ++ 0 :: t) ↔ pat <+: b :: bs :=
      prefix_append_sep (a := b :: bs) hpat
    rw [List.cons_append, strstrFrom, findSub]
    simp only [List.isPrefixOf_iff_prefix, hiff, if_neg (Ne.symm hb), ih hbs]
    split <;> rfl

/-- `strstr` finds the first occurrence in the string. -/
theorem strstr_eq (h : StrAt m p s) {pat : List UInt8} (hpat : 0 ∉ pat) (hne : pat ≠ []) :
    strstr m p pat = .ok ((findSub pat s).map (p + ·)) := by
  obtain ⟨hs, t, ht⟩ := h
  rw [strstr, ht, strstrFrom_eq hs hpat hne]
  rfl

theorem strchr_eq (h : StrAt m p s) {c : UInt8} (hc : c ≠ 0) :
    strchr m p c = .ok ((findSub [c] s).map (p + ·)) :=
  strstr_eq h (by simpa using Ne.symm hc) (by simp)

theorem skipFrom_eq {c : UInt8} {t : List UInt8} (hc : c ≠ 0) :
    skipFrom c (s ++ 0 :: t) = .ok (s.takeWhile (· = c)).length := by
  induction s with
  | nil => rw [List.nil_append, skipFrom, if_neg (Ne.symm hc)]; rfl
  | cons b bs ih =>
    rw [List.cons_append, skipFrom]
    by_cases hb : b = c
    · rw [if_pos hb, ih, List.takeWhile_cons_of_pos (by simpa using hb)]; rfl
    · rw [if_neg hb, List.takeWhile_cons_of_neg (by simpa using hb)]; rfl

theorem skipByte_eq (h : StrAt m p s) {c : UInt8} (hc : c ≠ 0) :
    skipByte m p c = .ok (p + (s.takeWhile (· = c)).length) := by
  obtain ⟨-, t, ht⟩ := h
  rw [skipByte, ht, skipFrom_eq hc]
  rfl

theorem startsFrom_eq {lit t : List UInt8} (hlit : 0 ∉ lit) :
    startsFrom lit (s ++ 0 :: t) = .ok (decide (lit <+: s)) := by
  induction lit generalizing s with
  | nil => simp [startsFrom]
  | cons c cs ih =>
    obtain ⟨hc, hcs⟩ := not_or.mp (fun h => hlit (List.mem_cons.mpr h))
    cases s with
    | nil => simp [startsFrom, hc]
    | cons b bs =>
      rw [List.cons_append, startsFrom]
      by_cases hb : b = c
      · rw [if_pos hb, ih hcs]; simp [hb]
      · rw [if_neg hb]; simp [List.cons_prefix_cons, Ne.symm hb]

theorem startsWith_eq (h : StrAt m p s) {lit : List UInt8} (hlit : 0 ∉ lit) :
    startsWith m p lit = .ok (decide (lit <+: s)) := by
  obtain ⟨-, t, ht⟩ := h
  rw [startsWith, ht, startsFrom_eq hlit]

/-- What a search finds is there. -/
theorem prefix_of_strstrFrom {pat l : List UInt8} {k : ℕ} (h : strstrFrom pat l = .ok (some k)) :
    pat <+: l.drop k := by
  induction l generalizing k with
  | nil => cases h
  | cons b bs ih =>
    rw [strstrFrom] at h
    split at h
    · next hp =>
      cases h
      exact List.isPrefixOf_iff_prefix.mp hp
    · split at h
      · cases h
      · cases hs : strstrFrom pat bs with
        | error e => rw [hs] at h; cases h
        | ok o =>
          rw [hs] at h
          cases o with
          | none => cases h
          | some k' => cases h; exact ih hs

theorem prefix_of_strstr {pat : List UInt8} {q : ℕ} (h : strstr m p pat = .ok (some q)) :
    pat <+: m.drop q := by
  unfold strstr at h
  cases hs : strstrFrom pat (m.drop p) with
  | error e => rw [hs] at h; cases h
  | ok o =>
    rw [hs] at h
    cases o with
    | none => cases h
    | some k =>
      cases h
      rw [← List.drop_drop]
      exact prefix_of_strstrFrom hs

/-- A search that finds nothing has come to a NUL. -/
theorem nul_of_strstrFrom {pat l : List UInt8} (h : strstrFrom pat l = .ok none) :
    ∃ k : ℕ, l[k]? = some 0 := by
  induction l with
  | nil => cases h
  | cons b bs ih =>
    rw [strstrFrom] at h
    split at h
    · cases h
    · split at h
      · next hb => exact ⟨0, congrArg some hb⟩
      · cases hs : strstrFrom pat bs with
        | error e => rw [hs] at h; cases h
        | ok o =>
          rw [hs] at h
          cases o with
          | none =>
            obtain ⟨k, hk⟩ := ih hs
            exact ⟨k + 1, hk⟩
          | some k' => cases h

theorem nul_of_strstr {pat : List UInt8} (h : strstr m p pat = .ok none) :
    ∃ k, p ≤ k ∧ m[k]? = some 0 := by
  unfold strstr at h
  cases hs : strstrFrom pat (m.drop p) with
  | error e => rw [hs] at h; cases h
  | ok o =>
    rw [hs] at h
    cases o with
    | some k => cases h
    | none =>
      obtain ⟨k, hk⟩ := nul_of_strstrFrom hs
      exact ⟨p + k, Nat.le_add_right p k, by rwa [List.getElem?_drop] at hk⟩

/-- A text in front of the first NUL is found. -/
theorem strstrFrom_found {pat l : List UInt8} {q : ℕ} (hq : q < l.length) (hpre : pat <+: l.drop q)
    (hnul : 0 ∉ l.take q) : ∃ k, strstrFrom pat l = .ok (some k) := by
  induction l generalizing q with
  | nil => cases hq
  | cons b bs ih =>
    rw [strstrFrom]
    split
    · exact ⟨0, rfl⟩
    · next hp =>
      cases q with
      | zero => exact absurd (List.isPrefixOf_iff_prefix.mpr hpre) hp
      | succ q =>
        obtain ⟨hb, hbs⟩ := not_or.mp (mt List.mem_cons.mpr hnul)
        obtain ⟨k, hk⟩ := ih (Nat.lt_of_succ_lt_succ hq) hpre hbs
        rw [if_neg (Ne.symm hb), hk]
        exact ⟨k + 1, rfl⟩

/-- `strstr` finds the first place at which the text starts, and no NUL stands in front of it. -/
theorem strstrFrom_eq_some_iff {pat l : List UInt8} {q : ℕ} :
    strstrFrom pat l = .ok (some q) ↔
      q < l.length ∧ pat <+: l.drop q ∧ 0 ∉ l.take q ∧ ∀ j < q, ¬ pat <+: l.drop j := by
  induction l generalizing q with
  | nil => simp [strstrFrom]
  | cons b bs ih =>
    rw [strstrFrom]
    -- found here, at the end of the text, or further on
    by_cases hp : pat <+: b :: bs
    · rw [if_pos (List.isPrefixOf_iff_prefix.mpr hp)]
      constructor
      · intro h
        cases h
        exact ⟨Nat.zero_lt_succ _, hp, List.not_mem_nil, fun j hj => absurd hj (Nat.not_lt_zero j)⟩
      · intro ⟨_, _, _, hmin⟩
        cases q with
        | zero => rfl
        | succ q => exact absurd hp (hmin 0 (Nat.zero_lt_succ q))
    rw [if_neg (fun h => hp (List.isPrefixOf_iff_prefix.mp h))]
    by_cases hb : b = 0
    · rw [if_pos hb]
      constructor
      · intro h
        cases h
      · intro ⟨_, hpre, hnul, _⟩
        cases q with
        | zero => exact absurd hpre hp
        | succ q => exact absurd (List.mem_cons.mpr (Or.inl hb.symm)) hnul
    rw [if_neg hb]
    constructor
    · intro h
      cases hs : strstrFrom pat bs with
      | error e => rw [hs] at h; cases h
      | ok found =>
        rw [hs] at h
        cases found with
        | none => cases h
        | some k =>
          cases h
          obtain ⟨hlt, hpre, hnul, hmin⟩ := ih.mp hs
          refine ⟨Nat.succ_lt_succ hlt, hpre, ?_, ?_⟩
          · show 0 ∉ b :: bs.take k
            exact fun h => (List.mem_cons.mp h).elim (fun h => hb h.symm) hnul
          · intro j hj
            cases j with
            | zero => exact hp
            | succ j => exact hmin j (Nat.lt_of_succ_lt_succ hj)
    · intro ⟨hlt, hpre, hnul, hmin⟩
      cases q with
      | zero => exact absurd hpre hp
      | succ q =>
        have hs : strstrFrom pat bs = .ok (some q) :=
          ih.mpr ⟨Nat.lt_of_succ_lt_succ hlt, hpre,
            fun h => hnul (List.mem_cons_of_mem b h),
            fun j hj => hmin (j + 1) (Nat.succ_lt_succ hj)⟩
        rw [hs]
        rfl

theorem strstr_zero_eq_some_iff {pat : List UInt8} {q : ℕ} :
    strstr m 0 pat = .ok (some q) ↔
      q < m.length ∧ pat <+: m.drop q ∧ 0 ∉ m.take q ∧ ∀ j < q, ¬ pat <+: m.drop j := by
  rw [← strstrFrom_eq_some_iff]
  unfold strstr
  rw [List.drop_zero]
  cases strstrFrom pat m with
  | error e => exact ⟨fun h => (by cases h), fun h => (by cases h)⟩
  | ok found =>
    cases found with
    | none => exact ⟨fun h => (by cases h), fun h => (by cases h)⟩
    | some k =>
      show Except.ok (some (0 + k)) = _ ↔ _
      rw [Nat.zero_add]

/-- What `strstr` finds depends on the memory up to its end alone. -/
theorem strstr_congr_take {m' pat : List UInt8} {q k : ℕ} (hne : pat ≠ [])
    (h : strstr m 0 pat = .ok (some q)) (hk : q + pat.length ≤ k) (htake : m.take k = m'.take k) :
    strstr m' 0 pat = .ok (some q) := by
  have hpos := List.length_pos_of_ne_nil hne
  have hsub : ∀ (l : List UInt8) j, j + pat.length ≤ k →
      (pat <+: l.drop j ↔ pat = ((l.take k).drop j).take pat.length) := by
    intro l j hj
    rw [List.prefix_iff_eq_take, List.drop_take, List.take_take, Nat.min_eq_left (by omega)]
  obtain ⟨-, hpre, hnul, hmin⟩ := strstr_zero_eq_some_iff.mp h
  have hpre' : pat <+: m'.drop q := by
    rw [hsub m' q hk, ← htake]
    exact (hsub m q hk).mp hpre
  refine strstr_zero_eq_some_iff.mpr ⟨?_, hpre', ?_, ?_⟩
  · have hlen := hpre'.length_le
    rw [List.length_drop] at hlen
    omega
  · have htq : m'.take q = m.take q := by
      have := congrArg (List.take q) htake
      rw [List.take_take, List.take_take, Nat.min_eq_left (by omega)] at this
      exact this.symm
    rw [htq]
    exact hnul
  · intro j hj
    rw [hsub m' j (by omega), ← htake, ← hsub m j (by omega)]
    exact hmin j hj

/-- Searching never goes back. -/
theorem strstr_le {pat : List UInt8} {q : ℕ} (h : strstr m p pat = .ok (some q)) : p ≤ q := by
  unfold strstr at h
  cases hs : strstrFrom pat (m.drop p) with
  | error e => rw [hs] at h; cases h
  | ok o =>
    rw [hs] at h
    cases o with
    | none => cases h
    | some k => cases h; exact Nat.le_add_right p k

theorem skipByte_le {c : UInt8} {q : ℕ} (h : skipByte m p c = .ok q) : p ≤ q := by
  unfold skipByte at h
  cases hs : skipFrom c (m.drop p) with
  | error e => rw [hs] at h; cases h
  | ok k => rw [hs] at h; cases h; exact Nat.le_add_right p k

/-- A backward scan stops at the first byte that fails the test. -/
theorem backWhile_eq {pred : UInt8 → Bool} {b : UInt8} {k : ℕ} (hb : m[p]? = some b)
    (hstop : pred b = false)
    (hrun : ∀ j, p < j → j ≤ p + k → ∃ c, m[j]? = some c ∧ pred c = true) :
    backWhile m pred (p + k) = .ok p := by
  induction k with
  | zero =>
    cases p with
    | zero => simp [backWhile, readAt_eq hb, Except.bind, hstop]
    | succ p => simp [backWhile, readAt_eq hb, Except.bind, hstop]
  | succ k ih =>
    obtain ⟨c, hc, hpc⟩ := hrun (p + (k + 1)) (by omega) (Nat.le_refl _)
    rw [← Nat.add_assoc, backWhile, readAt_eq (by rwa [← Nat.add_assoc] at hc)]
    simp only [Except.bind, hpc, if_true]
    exact ih fun j hj hjk => hrun j hj (by omega)

/-- A backward scan that no byte stops runs out of the object. -/
theorem backWhile_error {pred : UInt8 → Bool}
    (hrun : ∀ j ≤ p, ∃ c, m[j]? = some c ∧ pred c = true) :
    backWhile m pred p = .error .read := by
  induction p with
  | zero =>
    obtain ⟨c, hc, hpc⟩ := hrun 0 (Nat.le_refl _)
    simp [backWhile, readAt_eq hc, Except.bind, hpc]
  | succ p ih =>
    obtain ⟨c, hc, hpc⟩ := hrun (p + 1) (Nat.le_refl _)
    simp only [backWhile, readAt_eq hc, Except.bind, hpc, if_true]
    exact ih fun j hj => hrun j (by omega)

/-- A backward scan from inside the object stops at the last byte that fails the test, or it runs
out of the object because there is none. -/
theorem backWhile_cases {pred : UInt8 → Bool} (hp : p < m.length) :
    (backWhile m pred p = .error .read ∧ ∀ j ≤ p, ∃ c, m[j]? = some c ∧ pred c = true) ∨
      ∃ q b, backWhile m pred p = .ok q ∧ q ≤ p ∧ m[q]? = some b ∧ pred b = false ∧
        ∀ j, q < j → j ≤ p → ∃ c, m[j]? = some c ∧ pred c = true := by
  have hbyte : m[p]? = some m[p] := List.getElem?_eq_getElem hp
  induction p with
  | zero =>
    cases hstop : pred m[0] with
    | false =>
      exact Or.inr ⟨0, m[0], backWhile_eq (k := 0) hbyte hstop fun j hj hjp => by omega,
        Nat.le_refl 0, hbyte, hstop, fun j hj hjp => by omega⟩
    | true =>
      have hrun : ∀ j ≤ 0, ∃ c, m[j]? = some c ∧ pred c = true := by
        intro j hj
        obtain rfl := Nat.le_zero.mp hj
        exact ⟨m[0], hbyte, hstop⟩
      exact Or.inl ⟨backWhile_error hrun, hrun⟩
  | succ p ih =>
    cases hstop : pred m[p + 1] with
    | false =>
      exact Or.inr ⟨p + 1, m[p + 1], backWhile_eq (k := 0) hbyte hstop fun j hj hjp => by omega,
        Nat.le_refl _, hbyte, hstop, fun j hj hjp => by omega⟩
    | true =>
      have hstep : backWhile m pred (p + 1) = backWhile m pred p := by
        rw [backWhile, readAt_eq hbyte]
        exact if_pos hstop
      -- the byte passed over adds itself to the run that the rest leaves
      have hlast : ∀ j, j ≤ p + 1 → ¬ j ≤ p → ∃ c, m[j]? = some c ∧ pred c = true := by
        intro j hj hjp
        obtain rfl : j = p + 1 := by omega
        exact ⟨m[p + 1], hbyte, hstop⟩
      have hp' : p < m.length := Nat.lt_of_succ_lt hp
      rw [hstep]
      rcases ih hp' (List.getElem?_eq_getElem hp') with
        ⟨herror, hrun⟩ | ⟨q, b, hok, hq, hb, hpb, hrun⟩
      · refine Or.inl ⟨herror, fun j hj => ?_⟩
        by_cases hjp : j ≤ p
        · exact hrun j hjp
        · exact hlast j hj hjp
      · refine Or.inr ⟨q, b, hok, Nat.le_succ_of_le hq, hb, hpb, fun j hqj hj => ?_⟩
        by_cases hjp : j ≤ p
        · exact hrun j hqj hjp
        · exact hlast j hj hjp

/-! ## Numbers -/

theorem digitsFrom_ok {l : List UInt8} (h : 0 ∈ l) (acc : ℕ) : ∃ n, digitsFrom acc l = .ok n := by
  induction l generalizing acc with
  | nil => cases h
  | cons b bs ih =>
    rw [digitsFrom]
    by_cases hb : isDigit b = true
    · rw [if_pos hb]
      apply ih
      rcases List.mem_cons.mp h with rfl | h
      · exact absurd hb (by decide)
      · exact h
    · rw [if_neg hb]
      exact ⟨acc, rfl⟩

theorem atoiSigned_ok {l : List UInt8} (h : 0 ∈ l) : ∃ z, atoiSigned l = .ok z := by
  cases l with
  | nil => cases h
  | cons b bs =>
    rw [atoiSigned]
    by_cases h₁ : b = 45
    · obtain ⟨n, hn⟩ := digitsFrom_ok (l := bs) (by simpa [h₁] using h) 0
      exact ⟨_, by rw [if_pos h₁, hn]; rfl⟩
    by_cases h₂ : b = 43
    · obtain ⟨n, hn⟩ := digitsFrom_ok (l := bs) (by simpa [h₂] using h) 0
      exact ⟨_, by rw [if_neg h₁, if_pos h₂, hn]; rfl⟩
    · obtain ⟨n, hn⟩ := digitsFrom_ok h 0
      exact ⟨_, by rw [if_neg h₁, if_neg h₂, hn]; rfl⟩

/-- `atoi` of a buffer with a NUL in it stays inside the buffer. -/
theorem atoi_ok {l : List UInt8} (h : 0 ∈ l) : ∃ z, atoi l = .ok z := by
  induction l with
  | nil => cases h
  | cons b bs ih =>
    rw [atoi]
    by_cases hb : isSpace b = true
    · rw [if_pos hb]
      apply ih
      rcases List.mem_cons.mp h with rfl | h
      · exact absurd hb (by decide)
      · exact h
    · rw [if_neg hb]
      exact atoiSigned_ok h

end

end CString

end WLink.Lib
