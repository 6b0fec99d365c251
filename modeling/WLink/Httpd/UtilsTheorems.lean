import WLink.Httpd.Utils
import Mathlib.Data.List.TakeWhile

/-!
# What the readers of a request head return

One result lemma for each function of `WLink.Httpd.Utils`:

* `getHeaderValue_ok` -- in front of a line end and a NUL a header lookup ends, stays inside
  the memory and never goes back
* `getHeaderMethod_eq`, `getHeaderPath_eq` -- method and target of a first line are found by
  substring search in that line alone
* `pathBefore_eq`, `pathBefore_error` -- where the way back from the version ends
-/

namespace WLink.Httpd

open WLink.Lib CString

/-! ## Header values -/

/-- A text that can stand for a header name: the lookup relies on it having neither CR nor LF. -/
structure IsName (name : List UInt8) : Prop where
  ne_nil : name ≠ []
  nul_notMem : 0 ∉ name
  lf_notMem : 10 ∉ name
  cr_notMem : 13 ∉ name

instance (name : List UInt8) : Decidable (IsName name) :=
  decidable_of_iff (name ≠ [] ∧ 0 ∉ name ∧ 10 ∉ name ∧ 13 ∉ name)
    ⟨fun ⟨h₁, h₂, h₃, h₄⟩ => ⟨h₁, h₂, h₃, h₄⟩,
      fun h => ⟨h.ne_nil, h.nul_notMem, h.lf_notMem, h.cr_notMem⟩⟩

/-- The memory of a request head: a NUL at `n` right behind a line feed. There may be other
NULs in front of it. -/
structure HeadEnd (m : List UInt8) (n : ℕ) : Prop where
  pos : 0 < n
  nul : m[n]? = some 0
  lf : m[n - 1]? = some 10

theorem HeadEnd.lt_length {m : List UInt8} {n : ℕ} (h : HeadEnd m n) : n < m.length :=
  (List.getElem?_eq_some_iff.mp h.nul).1

/-- A NUL stored in the place of another byte than the last line feed keeps the end of the
head. -/
theorem HeadEnd.set {m : List UInt8} {n k : ℕ} (h : HeadEnd m n) {b : UInt8}
    (hb : m[k]? = some b) (hlf : b ≠ 10) : HeadEnd (m.set k 0) n where
  pos := h.pos
  nul := by
    by_cases hk : k = n
    · rw [hk, List.getElem?_set_self h.lt_length]
    · rw [List.getElem?_set_ne hk, h.nul]
  lf := by
    have hk : k ≠ n - 1 := by
      intro hk
      rw [hk, h.lf] at hb
      exact hlf (Option.some.inj hb).symm
    rw [List.getElem?_set_ne hk, h.lf]

section

variable {m name : List UInt8} {n p q : ℕ}

/-- A byte in front of the end of the memory can be read. -/
theorem readAt_ok (hq : q < m.length) : ∃ b, m[q]? = some b ∧ readAt m q = .ok b :=
  ⟨m[q], List.getElem?_eq_getElem hq, readAt_eq (List.getElem?_eq_getElem hq)⟩

/-- A search in front of a NUL ends, and what it finds lies in front of the NUL. -/
theorem strstr_ok (hn : m[n]? = some 0) (hp : p ≤ n) {pat : List UInt8} (hpat : 0 ∉ pat)
    (hne : pat ≠ []) :
    strstr m p pat = .ok none ∨
      ∃ q, strstr m p pat = .ok (some q) ∧ p ≤ q ∧ q + pat.length ≤ n ∧
        ∀ k < pat.length, m[q + k]? = pat[k]? := by
  obtain ⟨s, hs, hle⟩ := StrAt.exists_of_nul hn hp
  rw [strstr_eq hs hpat hne]
  cases hk : findSub pat s with
  | none => exact Or.inl rfl
  | some k =>
    have hadd := findSub_add_length_le hk
    refine Or.inr ⟨p + k, rfl, Nat.le_add_right _ _, by omega, fun i hi => ?_⟩
    rw [Nat.add_assoc, hs.getElem?_eq (by omega), ← List.getElem?_drop,
      List.prefix_iff_getElem?.mp (findSub_drop hk) i hi, List.getElem?_eq_getElem hi]

/-- Skipping blanks in front of a NUL ends at or in front of it, and every byte that was
skipped is a blank. -/
theorem skipByte_ok (hn : m[n]? = some 0) (hp : p ≤ n) {c : UInt8} (hc : c ≠ 0) :
    ∃ q, skipByte m p c = .ok q ∧ p ≤ q ∧ q ≤ n ∧ ∀ i, p ≤ i → i < q → m[i]? = some c := by
  obtain ⟨s, hs, hle⟩ := StrAt.exists_of_nul hn hp
  have hlen := (List.takeWhile_prefix (p := fun b => decide (b = c)) (l := s)).length_le
  refine ⟨_, skipByte_eq hs hc, Nat.le_add_right _ _, by omega, fun i hi hlt => ?_⟩
  obtain ⟨k, rfl⟩ := Nat.exists_eq_add_of_le hi
  have hk : k < (s.takeWhile fun b => decide (b = c)).length := by omega
  rw [hs.getElem?_eq (by omega), List.prefix_iff_getElem?.mp (List.takeWhile_prefix _) k hk]
  have hmem := List.mem_takeWhile_imp (List.getElem_mem hk)
  exact congrArg some (of_decide_eq_true hmem)

/-- The look at the bytes in front of a name stays inside the memory. -/
theorem atHeaderName_ok (hq : 2 ≤ q) (hlen : q ≤ m.length) : ∃ b, atHeaderName m q = .ok b := by
  obtain ⟨b₁, hb₁, hr₁⟩ := readAt_ok (m := m) (q := q - 2) (by omega)
  obtain ⟨b₂, hb₂, hr₂⟩ := readAt_ok (m := m) (q := q - 1) (by omega)
  have hdrop : m.drop (q - 2) = b₁ :: b₂ :: m.drop q := by
    obtain ⟨h₁, rfl⟩ := List.getElem?_eq_some_iff.mp hb₁
    obtain ⟨h₂, rfl⟩ := List.getElem?_eq_some_iff.mp hb₂
    rw [List.drop_eq_getElem_cons h₁, show q - 2 + 1 = q - 1 by omega,
      List.drop_eq_getElem_cons h₂, show q - 1 + 1 = q by omega]
  have hstarts : startsWith m (q - 2) crlf = .ok (decide (b₁ = 13 ∧ b₂ = 10)) := by
    rw [startsWith, hdrop]
    show startsFrom [13, 10] (b₁ :: b₂ :: m.drop q) = _
    by_cases h₁ : b₁ = 13 <;> by_cases h₂ : b₂ = 10 <;> simp [startsFrom, h₁, h₂]
  unfold atHeaderName
  rw [if_neg (by omega), hstarts]
  by_cases h : b₁ = 13 ∧ b₂ = 10
  · exact ⟨true, by rw [decide_eq_true h]; rfl⟩
  · refine ⟨b₂ = 32 || b₂ = 58 || b₂ = 0, ?_⟩
    rw [decide_eq_false h]
    show (readAt m (q - 1) >>= _) = _
    rw [hr₂]
    rfl

/-- Behind a header name and blanks there is still a byte in front of the NUL: the name and the
blanks have no line feed. -/
theorem lt_end_of_blanks (h : HeadEnd m n) (hname : IsName name) {q' : ℕ}
    (hle : q' ≤ n) (hq : q + name.length ≤ q')
    (hpre : ∀ k < name.length, m[q + k]? = name[k]?)
    (hblank : ∀ i, q + name.length ≤ i → i < q' → m[i]? = some 32) : q' < n := by
  apply Nat.lt_of_le_of_ne hle
  rintro rfl
  have hlf := h.lf
  have hpos := List.length_pos_of_ne_nil hname.ne_nil
  by_cases heq : q + name.length = q'
  · have hlast := hpre (name.length - 1) (by omega)
    rw [show q + (name.length - 1) = q' - 1 by omega, hlf] at hlast
    exact hname.lf_notMem (List.mem_of_getElem? hlast.symm)
  · rw [hblank (q' - 1) (by omega) (by omega)] at hlf
    cases hlf

/-- The lookup loop ends within as many rounds as there are bytes. -/
theorem headerValueLoop_ok (h : HeadEnd m n) (hname : IsName name) (fuel : ℕ) :
    ∀ p, 2 ≤ p → p ≤ n → n - p < fuel →
      ∃ r, headerValueLoop m name fuel p = .ok r ∧ ∀ v, r = some v → p ≤ v ∧ v ≤ n := by
  induction fuel with
  | zero => intro p _ _ hf; omega
  | succ fuel ih =>
    intro p hp hpn hf
    have hpos := List.length_pos_of_ne_nil hname.ne_nil
    rcases strstr_ok h.nul hpn hname.nul_notMem hname.ne_nil with hnone | ⟨q, hq, hpq, hqn, hpre⟩
    · exact ⟨none, by rw [headerValueLoop, hnone]; rfl, by simp⟩
    obtain ⟨b, hb⟩ := atHeaderName_ok (m := m) (q := q) (by omega) (by have := h.lt_length; omega)
    cases b with
    | true =>
      obtain ⟨q', hq', hqq', hq'n, hblank⟩ := skipByte_ok h.nul hqn (c := 32) (by decide)
      have hlt := lt_end_of_blanks h hname hq'n hqq' hpre hblank
      obtain ⟨c, hc, hread⟩ := readAt_ok (m := m) (q := q') (by have := h.lt_length; omega)
      by_cases hcolon : c = 58
      · obtain ⟨v, hv, hqv, hvn, -⟩ :=
          skipByte_ok (p := q' + 1) h.nul (by omega) (c := 32) (by decide)
        refine ⟨some v, ?_, fun _ hsome => by cases hsome; omega⟩
        simp only [headerValueLoop, hq, hb, hq', hread, hv, hcolon, bind, Except.bind, pure,
          Except.pure, if_true, ne_eq, not_true_eq_false, if_false]
      · obtain ⟨r, hr, hrange⟩ := ih (q' + 1) (by omega) (by omega) (by omega)
        refine ⟨r, ?_, fun v hv => by have := hrange v hv; omega⟩
        simp only [headerValueLoop, hq, hb, hq', hread, hcolon, bind, Except.bind, if_true, ne_eq,
          not_false_eq_true, hr]
    | false =>
      rcases strstr_ok (p := q) h.nul (by omega) (show 0 ∉ crlf by decide) (by decide) with
        hnone | ⟨e, he, hqe, hen, hcr⟩
      · refine ⟨none, ?_, by simp⟩
        simp only [headerValueLoop, hq, hb, hnone, bind, Except.bind, pure, Except.pure,
          Bool.false_eq_true, if_false]
      · have hne : e ≠ q := by
          rintro rfl
          have h₀ := hpre 0 hpos
          rw [hcr 0 (by decide)] at h₀
          exact hname.cr_notMem (List.mem_of_getElem? h₀.symm)
        have hlen : crlf.length = 2 := rfl
        obtain ⟨r, hr, hrange⟩ := ih e (by omega) (by omega) (by omega)
        refine ⟨r, ?_, fun v hv => by have := hrange v hv; omega⟩
        simp only [headerValueLoop, hq, hb, he, bind, Except.bind, Bool.false_eq_true, if_false,
          hr]

/-- A header lookup ends without leaving the memory, and a value that it finds stands behind
the place where it started and in front of the NUL. -/
theorem getHeaderValue_ok (h : HeadEnd m n) (hname : IsName name) (hp : 2 ≤ p) (hpn : p ≤ n) :
    ∃ r, getHeaderValue m p name = .ok r ∧ ∀ v, r = some v → p ≤ v ∧ v ≤ n :=
  headerValueLoop_ok h hname _ p hp hpn (by have := h.lt_length; omega)

end

/-! ## The request line -/

section

variable {m line rest : List UInt8} {p : ℕ}

/-- The first line of a text ends in front of its first CRLF. -/
theorem strstr_crlf_eq (h : StrAt m p (line ++ crlf ++ rest)) (hcr : 13 ∉ line) :
    strstr m p crlf = .ok (some (p + line.length)) := by
  rw [strstr_eq h (by decide) (by decide), List.append_assoc]
  rw [show crlf = 13 :: [10] from rfl, findSub_of_head_notMem line rest hcr]
  rfl

/-- Looking for a text without CR in front of the line end is looking for it in the line. -/
theorem findBefore_eq (h : StrAt m p (line ++ crlf ++ rest)) {pat : List UInt8}
    (hnul : 0 ∉ pat) (hne : pat ≠ []) (hcr : 13 ∉ pat) :
    findBefore m p pat (p + line.length) = .ok ((findSub pat line).map (p + ·)) := by
  have hsplit : line ++ crlf ++ rest = line ++ 13 :: (10 :: rest) := by simp [crlf, ascii]
  rw [findBefore, strstr_eq h hnul hne, hsplit, findSub_append_sep _ _ hcr hne]
  cases hk : findSub pat line with
  | some k =>
    have hadd := findSub_add_length_le hk
    have hpos := List.length_pos_of_ne_nil hne
    show Except.ok (if p + k < p + line.length then _ else _) = _
    rw [if_pos (by omega)]
    rfl
  | none =>
    cases findSub pat (10 :: rest) with
    | none => rfl
    | some k =>
      show Except.ok (if p + (k + (line.length + 1)) < p + line.length then _ else _) = _
      rw [if_neg (by omega)]
      rfl

/-- The method that a request line is taken for: the texts are tried in this order, and found
anywhere in the line. -/
def lineMethod (line : List UInt8) : HttpdMethod :=
  if (findSub httpMethodPost line).isSome then .post
  else if (findSub httpMethodGet line).isSome then .get
  else if (findSub httpMethodPut line).isSome then .put
  else if (findSub httpMethodDelete line).isSome then .delete
  else .unknown

theorem getHeaderMethod_eq (h : StrAt m p (line ++ crlf ++ rest)) (hcr : 13 ∉ line) :
    getHeaderMethod m p = .ok (lineMethod line) := by
  have hfind := fun (pat : List UInt8) (h₁ : 0 ∉ pat) (h₂ : pat ≠ []) (h₃ : 13 ∉ pat) =>
    findBefore_eq h h₁ h₂ h₃
  unfold getHeaderMethod lineMethod
  simp only [strstr_crlf_eq h hcr, bind, Except.bind, pure, Except.pure]
  rw [hfind httpMethodPost (by decide) (by decide) (by decide),
    hfind httpMethodGet (by decide) (by decide) (by decide),
    hfind httpMethodPut (by decide) (by decide) (by decide),
    hfind httpMethodDelete (by decide) (by decide) (by decide)]
  simp only [Option.isSome_map]
  split_ifs <;> rfl

/-- Where the version that `HTTPd_Get_Header_Path` goes by stands in a request line. -/
def lineVersion (line : List UInt8) : Option ℕ :=
  (findSub httpVersion1P0 line).or (findSub httpVersion1P1 line)

theorem getHeaderPath_eq (h : StrAt m p (line ++ crlf ++ rest)) (hcr : 13 ∉ line) :
    getHeaderPath m p =
      match lineVersion line with
      | some k => some <$> pathBefore m (p + k)
      | none => .ok none := by
  unfold getHeaderPath lineVersion
  simp only [strstr_crlf_eq h hcr, bind, Except.bind, pure, Except.pure]
  rw [findBefore_eq h (by decide) (by decide) (by decide),
    findBefore_eq h (by decide) (by decide) (by decide)]
  cases findSub httpVersion1P0 line with
  | some k => rfl
  | none =>
    cases findSub httpVersion1P1 line with
    | some k => rfl
    | none => rfl

/-- From a version at `q` the way goes back over blanks (the bytes from `e` on) and over a word
to the blank at `a` in front of it. -/
theorem pathBefore_eq {a e q : ℕ} (ha : m[a]? = some 32) (hae : a < e) (heq : e < q)
    (hword : ∀ j, a < j → j ≤ e → ∃ c, m[j]? = some c ∧ c ≠ 32)
    (hblank : ∀ j, e < j → j < q → m[j]? = some 32) : pathBefore m q = .ok (a + 1) := by
  obtain ⟨c, hc, hne⟩ := hword e hae (Nat.le_refl e)
  have hback : backWhile m (· = 32) (q - 1) = .ok e := by
    rw [show q - 1 = e + (q - 1 - e) by omega]
    exact backWhile_eq hc (by simpa using hne)
      fun j hj hjq => ⟨32, hblank j hj (by omega), rfl⟩
  have hback' : backWhile m (· ≠ 32) e = .ok a := by
    rw [show e = a + (e - a) by omega]
    refine backWhile_eq ha rfl fun j hj hje => ?_
    obtain ⟨c, hc, hne⟩ := hword j hj (by omega)
    exact ⟨c, hc, by simpa using hne⟩
  unfold pathBefore
  rw [if_neg (by omega), hback]
  show (backWhile m (· ≠ 32) e >>= fun p => pure (p + 1)) = _
  rw [hback']
  rfl

/-- If there is no blank in front of the word, the way back leaves the memory. -/
theorem pathBefore_error {e q : ℕ} (heq : e < q)
    (hword : ∀ j ≤ e, ∃ c, m[j]? = some c ∧ c ≠ 32)
    (hblank : ∀ j, e < j → j < q → m[j]? = some 32) : pathBefore m q = .error .read := by
  obtain ⟨c, hc, hne⟩ := hword e (Nat.le_refl e)
  have hback : backWhile m (· = 32) (q - 1) = .ok e := by
    rw [show q - 1 = e + (q - 1 - e) by omega]
    exact backWhile_eq hc (by simpa using hne)
      fun j hj hjq => ⟨32, hblank j hj (by omega), rfl⟩
  have hback' : backWhile m (· ≠ 32) e = .error .read := by
    refine backWhile_error fun j hj => ?_
    obtain ⟨c, hc, hne⟩ := hword j hj
    exact ⟨c, hc, by simpa using hne⟩
  unfold pathBefore
  rw [if_neg (by omega), hback]
  show (backWhile m (· ≠ 32) e >>= fun p => pure (p + 1)) = _
  rw [hback']
  rfl

end

end WLink.Httpd
