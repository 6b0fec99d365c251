import WLink.Httpd.ParseHeaders
import WLink.Httpd.UtilsTheorems

/-!
# The request line inside its buffer

`HTTPd_Get_Header_Path` goes back from the version text to the target without looking where the
buffer starts. For a buffer that holds a string and nothing behind its NUL, so that every access
outside of the string is a fault, `lineStays_iff` says when method, path and URL are read inside of
it: a blank and behind it another byte have to stand in front of the version text.

* `versionStart` -- the version text that the path is searched from
* `LineStays` -- all three stay in the buffer and end
-/

namespace WLink.Httpd

open WLink.Lib CString Exec

/-- Where the version text starts that the path is searched from: in front of the first line end. -/
def versionStart (s : List UInt8) : Option ℕ :=
  match findSub crlf s with
  | none => none
  | some lineEnd =>
    ((findSub httpVersion1P0 s).filter (· < lineEnd)).or
      ((findSub httpVersion1P1 s).filter (· < lineEnd))

/-- Somewhere in front of `q` stands a blank, and between them a byte that is none. -/
def WordBefore (s : List UInt8) (q : ℕ) : Prop :=
  ∃ i j, i < j ∧ j < q ∧ s[i]? = some 32 ∧ ∃ c, s[j]? = some c ∧ c ≠ 32

/-- On a buffer that ends with the NUL of the string, method and path are found and the URL is cut
off without an access outside of the buffer. -/
structure LineStays (s : List UInt8) : Prop where
  method : ∃ r, getHeaderMethod (s ++ [0]) 0 = .ok r
  path : ∃ r, getHeaderPath (s ++ [0]) 0 = .ok r
  url : ∀ conn, ∃ r s', exec parseRequestLine (.start conn (s ++ [0])) = (.ok r, s')

section

variable {m s : List UInt8} {q : ℕ}

/-! ## Searching forwards -/

theorem findBefore_filter (h : StrAt m 0 s) {pat : List UInt8} (hnul : 0 ∉ pat) (hne : pat ≠ [])
    (lineEnd : ℕ) : findBefore m 0 pat lineEnd = .ok ((findSub pat s).filter (· < lineEnd)) := by
  rw [findBefore, strstr_eq h hnul hne]
  cases findSub pat s with
  | none => rfl
  | some k =>
    show Except.ok (if 0 + k < lineEnd then some (0 + k) else none) = _
    rw [Nat.zero_add, Option.filter_some]
    simp only [decide_eq_true_eq]

theorem strstr_crlf_zero (h : StrAt m 0 s) : strstr m 0 crlf = .ok (findSub crlf s) := by
  rw [strstr_eq h (by decide) (by decide)]
  cases findSub crlf s with
  | none => rfl
  | some k =>
    show Except.ok (some (0 + k)) = _
    rw [Nat.zero_add]

/-- The method is found, or none is, inside the string. -/
theorem getHeaderMethod_ok (h : StrAt m 0 s) : ∃ r, getHeaderMethod m 0 = .ok r := by
  unfold getHeaderMethod
  rw [strstr_crlf_zero h]
  cases findSub crlf s with
  | none => exact ⟨_, rfl⟩
  | some lineEnd =>
    dsimp only [bind, Except.bind]
    rw [findBefore_filter h (by decide) (by decide), findBefore_filter h (by decide) (by decide),
      findBefore_filter h (by decide) (by decide), findBefore_filter h (by decide) (by decide)]
    dsimp only
    split_ifs <;> exact ⟨_, rfl⟩

theorem getHeaderPath_versionStart (h : StrAt m 0 s) :
    getHeaderPath m 0 =
      match versionStart s with
      | none => .ok none
      | some q => some <$> pathBefore m q := by
  unfold getHeaderPath versionStart
  rw [strstr_crlf_zero h]
  cases findSub crlf s with
  | none => rfl
  | some lineEnd =>
    dsimp only [bind, Except.bind]
    rw [findBefore_filter h (by decide) (by decide), findBefore_filter h (by decide) (by decide)]
    cases (findSub httpVersion1P0 s).filter (· < lineEnd) with
    | some k => rfl
    | none => cases (findSub httpVersion1P1 s).filter (· < lineEnd) <;> rfl

/-! ## Searching backwards -/

/-- The way back from `q` stays in the buffer if and only if it meets a blank in front of a word,
and what it comes to lies in front of `q`. -/
theorem pathBefore_ok_iff (hq : q ≤ m.length) :
    (∃ p, pathBefore m q = .ok p) ↔ WordBefore m q := by
  unfold pathBefore WordBefore
  by_cases hzero : q = 0
  · rw [if_pos hzero]
    constructor
    · rintro ⟨p, hp⟩
      cases hp
    · rintro ⟨i, j, -, hjq, -⟩
      omega
  rw [if_neg hzero]
  have hlast : q - 1 < m.length := by omega
  rcases @backWhile_cases m (q - 1) (· = 32) hlast with
    ⟨herror, hblanks⟩ | ⟨e, c, hback, he, hc, hne, hblanks⟩
  · rw [herror]
    constructor
    · rintro ⟨p, hp⟩
      cases hp
    · rintro ⟨i, j, -, hjq, -, c, hc, hne⟩
      obtain ⟨c', hc', hblank⟩ := hblanks j (by omega)
      rw [hc] at hc'
      cases hc'
      exact absurd (of_decide_eq_true hblank) hne
  have helen := (List.getElem?_eq_some_iff.mp hc).1
  rw [hback]
  show (∃ p, (backWhile m (· ≠ 32) e >>= fun p => pure (p + 1)) = .ok p) ↔ _
  rcases @backWhile_cases m e (· ≠ 32) helen with
    ⟨herror, hword⟩ | ⟨a, b, hback', ha, hb, hblank, hword⟩
  · rw [herror]
    constructor
    · rintro ⟨p, hp⟩
      cases hp
    · rintro ⟨i, j, hij, hjq, hi, c', hc', hne'⟩
      have hje : j ≤ e := by
        by_contra hlt
        obtain ⟨c'', hc'', hblank⟩ := hblanks j (by omega) (by omega)
        rw [hc'] at hc''
        cases hc''
        exact absurd (of_decide_eq_true hblank) hne'
      obtain ⟨c'', hc'', hnot⟩ := hword i (by omega)
      rw [hi] at hc''
      cases hc''
      exact absurd hnot (by decide)
  · rw [hback']
    rw [show b = 32 by simpa using hblank] at hb
    have hae : a ≠ e := by
      rintro rfl
      rw [hb] at hc
      cases hc
      exact absurd hne (by decide)
    constructor
    · intro _
      exact ⟨a, e, by omega, by omega, hb, c, hc, by simpa using hne⟩
    · intro _
      exact ⟨a + 1, rfl⟩

theorem backWhile_le {pred : UInt8 → Bool} {p : ℕ} (h : backWhile m pred p = .ok q) : q ≤ p := by
  induction p with
  | zero =>
    obtain ⟨b, -, h⟩ := bind_eq_ok.mp h
    split at h
    · cases h
    · cases h
      exact Nat.le_refl 0
  | succ p ih =>
    obtain ⟨b, -, h⟩ := bind_eq_ok.mp h
    split at h
    · exact Nat.le_succ_of_le (ih h)
    · cases h
      exact Nat.le_refl _

theorem pathBefore_le {p : ℕ} (h : pathBefore m q = .ok p) : p ≤ q := by
  unfold pathBefore at h
  split at h
  · cases h
  · obtain ⟨e, he, h⟩ := bind_eq_ok.mp h
    obtain ⟨a, ha, h⟩ := bind_eq_ok.mp h
    cases h
    have hle := backWhile_le he
    have hle' := backWhile_le ha
    omega

theorem versionStart_lt (h : versionStart s = some q) : q < s.length := by
  unfold versionStart at h
  cases hend : findSub crlf s with
  | none =>
    rw [hend] at h
    cases h
  | some lineEnd =>
    have hlen := findSub_add_length_le hend
    rw [hend] at h
    have hlt : q < lineEnd := by
      rcases Option.or_eq_some_iff.mp h with hfound | ⟨-, hfound⟩
      · exact of_decide_eq_true (Option.filter_eq_some_iff.mp hfound).2
      · exact of_decide_eq_true (Option.filter_eq_some_iff.mp hfound).2
    omega

/-! ## The buffer -/

/-- A buffer that the string fills up to its NUL. -/
theorem strAt_buffer (hnul : 0 ∉ s) : StrAt (s ++ [0]) 0 s := ⟨hnul, [], rfl⟩

theorem wordBefore_buffer (hq : q ≤ s.length) : WordBefore (s ++ [0]) q ↔ WordBefore s q := by
  have hbyte : ∀ i < q, (s ++ [0])[i]? = s[i]? := fun i hi =>
    List.getElem?_append_left (by omega)
  unfold WordBefore
  constructor
  · rintro ⟨i, j, hij, hjq, hi, hj⟩
    rw [hbyte i (by omega)] at hi
    rw [hbyte j hjq] at hj
    exact ⟨i, j, hij, hjq, hi, hj⟩
  · rintro ⟨i, j, hij, hjq, hi, hj⟩
    rw [← hbyte i (by omega)] at hi
    rw [← hbyte j hjq] at hj
    exact ⟨i, j, hij, hjq, hi, hj⟩

theorem getHeaderPath_ok_iff (hnul : 0 ∉ s) :
    (∃ r, getHeaderPath (s ++ [0]) 0 = .ok r) ↔ ∀ q, versionStart s = some q → WordBefore s q := by
  rw [getHeaderPath_versionStart (strAt_buffer hnul)]
  cases hversion : versionStart s with
  | none =>
    exact ⟨fun _ q hq => (by cases hq), fun _ => ⟨none, rfl⟩⟩
  | some q =>
    have hlt := versionStart_lt hversion
    have hiff := pathBefore_ok_iff (m := s ++ [0]) (q := q) (by
      rw [List.length_append]
      omega)
    rw [wordBefore_buffer (Nat.le_of_lt hlt)] at hiff
    dsimp only
    constructor
    · rintro ⟨r, hr⟩ q' hq'
      cases hq'
      refine hiff.mp ?_
      cases hpath : pathBefore (s ++ [0]) q with
      | error e =>
        rw [hpath] at hr
        cases hr
      | ok p => exact ⟨p, rfl⟩
    · intro hword
      obtain ⟨p, hp⟩ := hiff.mpr (hword q rfl)
      exact ⟨some p, by rw [hp]; rfl⟩

/-- A path that is found starts in the string. -/
theorem getHeaderPath_le (hnul : 0 ∉ s) {url : ℕ} (h : getHeaderPath (s ++ [0]) 0 = .ok (some url)) :
    url ≤ s.length := by
  rw [getHeaderPath_versionStart (strAt_buffer hnul)] at h
  cases hversion : versionStart s with
  | none =>
    rw [hversion] at h
    cases h
  | some q =>
    rw [hversion] at h
    dsimp only at h
    have hlt := versionStart_lt hversion
    cases hpath : pathBefore (s ++ [0]) q with
    | error e =>
      rw [hpath] at h
      cases h
    | ok p =>
      rw [hpath] at h
      cases h
      have hle := pathBefore_le hpath
      omega

/-- With a path the rest of the line is cut up inside the buffer. -/
theorem parseRequestLine_ok (hnul : 0 ∉ s) {path : Option ℕ}
    (hpath : getHeaderPath (s ++ [0]) 0 = .ok path) (conn : Conn) :
    ∃ r s', exec parseRequestLine (.start conn (s ++ [0])) = (.ok r, s') := by
  have hstr := strAt_buffer hnul
  have hend : (s ++ [0])[s.length]? = some 0 := by
    have h := hstr.nul_eq
    rwa [Nat.zero_add] at h
  obtain ⟨method, hmethod⟩ := getHeaderMethod_ok hstr
  unfold parseRequestLine
  simp only [exec_bind, exec_setConn, exec_readMem, ParseState.start, strstr_crlf_zero hstr]
  cases findSub crlf s with
  | none => exact ⟨_, _, rfl⟩
  | some lineEnd =>
    simp only [exec_bind, exec_setConn, exec_readMem, hmethod]
    by_cases hunknown : method = .unknown
    · rw [if_pos hunknown]
      exact ⟨_, _, rfl⟩
    rw [if_neg hunknown]
    simp only [exec_bind, exec_setConn, exec_readMem, hpath]
    cases path with
    | none => exact ⟨_, _, rfl⟩
    | some url =>
      have hurl := getHeaderPath_le hnul hpath
      have hblank := strstr_ok hend hurl (show 0 ∉ [(32 : UInt8)] by decide) (by decide)
      simp only [exec_bind, exec_readMem, strchr]
      rcases hblank with hnone | ⟨e, he, hle, hlt, -⟩
      · rw [hnone]
        exact ⟨_, _, rfl⟩
      rw [he]
      have hlen : e < (s ++ [0]).length := by
        rw [List.length_append]
        rw [List.length_singleton] at hlt
        omega
      have hcut : ((s ++ [0]).set e 0)[e]? = some 0 := List.getElem?_set_self hlen
      simp only [exec_bind, exec_poke, if_pos hlen, exec_readMem]
      rcases strstr_ok hcut hle (show 0 ∉ ascii "?" by decide) (by decide) with
        hnone | ⟨args, hargs, -, hlt', -⟩
      · rw [hnone]
        exact ⟨_, _, rfl⟩
      rw [hargs]
      have hlen' : args < ((s ++ [0]).set e 0).length := by
        rw [List.length_set]
        omega
      simp only [exec_bind, exec_poke, if_pos hlen']
      exact ⟨_, _, rfl⟩

/-- Method, path and URL stay inside the buffer and end if and only if there is a blank in front
of a word in front of the version text, or no version text in the first line. -/
theorem lineStays_iff (hnul : 0 ∉ s) :
    LineStays s ↔ ∀ q, versionStart s = some q → WordBefore s q := by
  rw [← getHeaderPath_ok_iff hnul]
  constructor
  · exact fun h => h.path
  · rintro ⟨path, hpath⟩
    exact ⟨getHeaderMethod_ok (strAt_buffer hnul), ⟨path, hpath⟩, parseRequestLine_ok hnul hpath⟩

/-- A request line as it should be. -/
theorem lineStays_get : LineStays (ascii "GET / HTTP/1.1\r\n\r\n") := by
  refine (lineStays_iff (by decide)).mpr fun q hq => ?_
  obtain rfl : 6 = q := by
    rw [show versionStart (ascii "GET / HTTP/1.1\r\n\r\n") = some 6 by decide +kernel] at hq
    exact Option.some.inj hq
  exact ⟨3, 4, by decide, by decide, by decide, 47, by decide, by decide⟩

/-- Without a blank the path is searched in front of the buffer. -/
theorem not_lineStays_noBlank :
    crlf <:+: ascii "GET/HTTP/1.1\r\n\r\n" ∧ ¬ LineStays (ascii "GET/HTTP/1.1\r\n\r\n") := by
  refine ⟨by decide +kernel, fun h => ?_⟩
  have hpath : getHeaderPath (ascii "GET/HTTP/1.1\r\n\r\n" ++ [0]) 0 = .error .read := by
    decide +kernel
  obtain ⟨r, hr⟩ := h.path
  rw [hpath] at hr
  cases hr

end

end WLink.Httpd
