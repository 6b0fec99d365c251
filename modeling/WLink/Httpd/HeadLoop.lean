import WLink.Httpd.RequestLine
import WLink.Httpd.Body

/-!
# Receiving a request head

The first loop of `HTTP_Server_Task`: one byte after the other goes into `http_cmd_buf`, and
after each of them `strstr` looks for the blank line. The buffer was cleared, so it is a string
until its last byte is taken; `headIsString_iff` says when that happens without a NUL among the
bytes that were received.

* `headLoop` -- the `do … while` around `recv`
-/

namespace WLink.Httpd

open WLink.Lib CString

/-! ## The loop -/

/-- The end of a head. -/
def blankLine : List UInt8 := ascii "\r\n\r\n"

/-- How the loop is left. -/
inductive HeadExit
  /-- The blank line was found, at this offset. -/
  | complete (dataPtr : ℕ)
  /-- The buffer is full and has no blank line. -/
  | bufferFull
  /-- The connection is lost. -/
  | clientClose
  /-- The given results are used up and the loop goes on. -/
  | waiting
deriving DecidableEq, Repr

/-- What the loop works on: `http_cmd_buf`, `recv_len`, the bytes that the socket has not given
out yet, and the buffers that `strstr` was called on. -/
structure HeadState where
  cmdBuf : List UInt8
  recvLen : ℕ
  stream : List UInt8
  scans : List (List UInt8)

/-- A cleared buffer in front of the bytes in the socket. -/
def HeadState.start (stream : List UInt8) : HeadState :=
  ⟨List.replicate httpdCmdBufSize 0, 0, stream, []⟩

/-- The condition of the loop: `none` to go on. -/
def headCondition (s : HeadState) : Except Fault (Option HeadExit) × HeadState :=
  ((strstr s.cmdBuf 0 blankLine).map fun found =>
      match found with
      | some dataPtr => some (.complete dataPtr)
      | none => if s.recvLen < httpdCmdBufSize then none else some .bufferFull,
    { s with scans := s.scans ++ [s.cmdBuf] })

/-- The head loop, one `recv` result for each round. -/
def headLoop : List RecvResult → HeadState → Except Fault HeadExit × HeadState
  | [], s => (.ok .waiting, s)
  | r :: rs, s =>
    match r.verdict with
    | .close => (.ok .clientClose, s)
    | .retry =>
      match headCondition s with
      | (.error e, s) => (.error e, s)
      | (.ok (some exit), s) => (.ok exit, s)
      | (.ok none, s) => headLoop rs s
    | .store n =>
      match storeAt s.cmdBuf s.recvLen (s.stream.take n) with
      | .error e => (.error e, s)
      | .ok cmdBuf =>
        match headCondition ⟨cmdBuf, (s.recvLen + n) % 2 ^ 16, s.stream.drop n, s.scans⟩ with
        | (.error e, s) => (.error e, s)
        | (.ok (some exit), s) => (.ok exit, s)
        | (.ok none, s) => headLoop rs s

/-! ## Strings -/

/-- Every buffer that `strstr` gets in the loop has a NUL, and so has the head when the parser
gets it and when the parser is done with it. -/
def HeadIsString (conn : Conn) (rs : List RecvResult) (stream : List UInt8) : Prop :=
  let out := headLoop rs (.start stream)
  (∀ m ∈ out.2.scans, 0 ∈ m) ∧
    ∀ dataPtr, out.1 = .ok (.complete dataPtr) →
      0 ∈ out.2.cmdBuf ∧ 0 ∈ (Exec.exec parseInMsgHeaders (.start conn out.2.cmdBuf)).2.mem

/-- How many bytes the results give before one of them ends the loop. -/
def storedBytes : List RecvResult → ℕ
  | [] => 0
  | r :: rs =>
    match r.verdict with
    | .close => 0
    | .retry => storedBytes rs
    | .store n => n + storedBytes rs

/-- If a bufferful of bytes is received, then it has a NUL or a blank line in front of its last
byte. -/
def EndsInBuffer (rs : List RecvResult) (stream : List UInt8) : Prop :=
  httpdCmdBufSize ≤ storedBytes rs →
    0 ∈ stream.take httpdCmdBufSize ∨ blankLine <:+: stream.take (httpdCmdBufSize - 1)

/-! ## What the loop keeps -/

/-- The first `k` bytes of the stream stand in a cleared buffer. -/
structure Filled (all : List UInt8) (k : ℕ) (s : HeadState) : Prop where
  cmdBuf_eq : s.cmdBuf = all.take k ++ List.replicate (httpdCmdBufSize - k) 0
  recvLen_eq : s.recvLen = k
  stream_eq : s.stream = all.drop k
  le_length : k ≤ all.length
  le_size : k ≤ httpdCmdBufSize

section

variable {all : List UInt8} {k : ℕ} {s : HeadState}

theorem filled_start (all : List UInt8) : Filled all 0 (.start all) :=
  ⟨rfl, rfl, rfl, Nat.zero_le _, Nat.zero_le _⟩

/-- Before the last byte is taken the buffer is a string, with what was received in front of
the cleared rest. -/
theorem Filled.split (h : Filled all k s) (hk : k < httpdCmdBufSize) :
    s.cmdBuf = all.take k ++ 0 :: List.replicate (httpdCmdBufSize - k - 1) 0 := by
  rw [h.cmdBuf_eq, show httpdCmdBufSize - k = httpdCmdBufSize - k - 1 + 1 by omega,
    List.replicate_succ]
  rfl

theorem Filled.nul_mem (h : Filled all k s) (hk : k < httpdCmdBufSize) : 0 ∈ s.cmdBuf := by
  rw [h.split hk]
  exact List.mem_append_right _ List.mem_cons_self

/-- A full buffer has what the client sent first. -/
theorem Filled.full (h : Filled all k s) (hk : ¬ k < httpdCmdBufSize) :
    s.cmdBuf = all.take httpdCmdBufSize := by
  obtain rfl : k = httpdCmdBufSize := Nat.le_antisymm h.le_size (Nat.le_of_not_lt hk)
  rw [h.cmdBuf_eq, Nat.sub_self, List.replicate_zero, List.append_nil]

/-- What was received stands in front of the zeros. -/
theorem Filled.take_eq (h : Filled all k s) : s.cmdBuf.take k = all.take k := by
  rw [h.cmdBuf_eq, List.take_left' (List.length_take_of_le h.le_length)]

/-- One more byte is received. -/
theorem Filled.store (h : Filled all k s) (hk : k < httpdCmdBufSize) (hlen : 1 ≤ s.stream.length) :
    ∃ cmdBuf, storeAt s.cmdBuf s.recvLen (s.stream.take 1) = .ok cmdBuf ∧
      (s.recvLen + 1) % 2 ^ 16 = k + 1 ∧
      Filled all (k + 1) ⟨cmdBuf, k + 1, s.stream.drop 1, s.scans⟩ := by
  have hsize : httpdCmdBufSize = 1024 := rfl
  have htake : (all.take k).length = k := List.length_take_of_le h.le_length
  have hone : (s.stream.take 1).length = 1 := List.length_take_of_le hlen
  have hall : k + 1 ≤ all.length := by
    rw [h.stream_eq, List.length_drop] at hlen
    omega
  have hbuf : s.cmdBuf.length = httpdCmdBufSize := by
    rw [h.cmdBuf_eq, List.length_append, htake, List.length_replicate]
    omega
  refine ⟨_, storeAt_ok (by rw [h.recvLen_eq, hone, hbuf]; omega), ?_, ?_⟩
  · rw [h.recvLen_eq]
    exact Nat.mod_eq_of_lt (by omega)
  · constructor
    · show s.cmdBuf.take s.recvLen ++ s.stream.take 1 ++ s.cmdBuf.drop (s.recvLen + _) = _
      rw [h.recvLen_eq, hone, h.cmdBuf_eq, List.take_left' htake, h.stream_eq, ← List.take_add,
        List.drop_append, htake, List.drop_of_length_le (by omega), List.nil_append,
        List.drop_replicate]
      congr 2
      omega
    · rfl
    · show s.stream.drop 1 = _
      rw [h.stream_eq, List.drop_drop]
    · exact hall
    · show k + 1 ≤ httpdCmdBufSize
      omega

/-- In a buffer with a NUL the search ends. -/
theorem strstr_of_nul_mem {m : List UInt8} (h : 0 ∈ m) :
    ∃ found, strstr m 0 blankLine = .ok found := by
  obtain ⟨n, hn⟩ := List.mem_iff_getElem?.mp h
  obtain ⟨str, hstr, -⟩ := StrAt.exists_of_nul hn (Nat.zero_le n)
  exact ⟨_, strstr_eq hstr (by decide) (by decide)⟩

/-- A blank line that the search finds is among the bytes that were received. -/
theorem Filled.infix_of_found (h : Filled all k s) (hk : k < httpdCmdBufSize) {q : ℕ}
    (hfound : strstr s.cmdBuf 0 blankLine = .ok (some q)) : blankLine <:+: all.take k := by
  have htake : (all.take k).length = k := List.length_take_of_le h.le_length
  have hnul : s.cmdBuf[k]? = some 0 := by
    rw [h.split hk, List.getElem?_append_right (by omega), htake, Nat.sub_self]
    rfl
  obtain ⟨str, t, hsplit, hstr, hle⟩ := exists_split_nul hnul
  have hat : StrAt s.cmdBuf 0 str := ⟨hstr, t, hsplit⟩
  rw [strstr_eq hat (by decide) (by decide)] at hfound
  have hsome : findSub blankLine str ≠ none := by
    intro hnone
    rw [hnone] at hfound
    cases hfound
  rw [ne_eq, findSub_eq_none_iff, not_not] at hsome
  have hpre : str = (all.take k).take str.length := by
    have hl : s.cmdBuf.take str.length = str := by
      rw [hsplit, List.take_left]
    rw [h.cmdBuf_eq, List.take_append_of_le_length (by omega)] at hl
    exact hl.symm
  rw [hpre] at hsome
  exact hsome.trans (List.take_prefix _ _).isInfix

/-- A blank line that the search does not find is not among the bytes that were received, unless
there is a NUL among them. -/
theorem Filled.not_infix (h : Filled all k s) (hk : k < httpdCmdBufSize)
    (hnone : strstr s.cmdBuf 0 blankLine = .ok none) (hnul : 0 ∉ all.take k) :
    ¬ blankLine <:+: all.take k := by
  have hat : StrAt s.cmdBuf 0 (all.take k) := ⟨hnul, _, h.split hk⟩
  rw [strstr_eq hat (by decide) (by decide)] at hnone
  rw [← findSub_eq_none_iff]
  cases hf : findSub blankLine (all.take k) with
  | none => rfl
  | some q =>
    rw [hf] at hnone
    cases hnone

/-! ## The rounds -/

/-- The state behind a look at the loop's condition. -/
def HeadState.scanned (s : HeadState) : HeadState := { s with scans := s.scans ++ [s.cmdBuf] }

theorem headCondition_found {q : ℕ} (h : strstr s.cmdBuf 0 blankLine = .ok (some q)) :
    headCondition s = (.ok (some (.complete q)), s.scanned) := by
  unfold headCondition
  rw [h]
  rfl

theorem headCondition_next (h : strstr s.cmdBuf 0 blankLine = .ok none)
    (hlt : s.recvLen < httpdCmdBufSize) : headCondition s = (.ok none, s.scanned) := by
  unfold headCondition
  rw [h]
  show (Except.ok (if s.recvLen < httpdCmdBufSize then none else _), _) = _
  rw [if_pos hlt]
  rfl

/-- With the buffer full the loop is left, whatever the search finds. -/
theorem headCondition_full (hfull : ¬ s.recvLen < httpdCmdBufSize) :
    (∃ e, headCondition s = (.error e, s.scanned)) ∨
      ∃ exit, headCondition s = (.ok (some exit), s.scanned) := by
  unfold headCondition
  cases strstr s.cmdBuf 0 blankLine with
  | error e => exact Or.inl ⟨e, rfl⟩
  | ok found =>
    cases found with
    | some q => exact Or.inr ⟨_, rfl⟩
    | none =>
      refine Or.inr ⟨.bufferFull, ?_⟩
      show (Except.ok (if s.recvLen < httpdCmdBufSize then none else _), _) = _
      rw [if_neg hfull]
      rfl

/-- Every buffer in the list has a NUL. -/
def AllStrings (scans : List (List UInt8)) : Prop := ∀ m ∈ scans, 0 ∈ m

theorem allStrings_scanned : AllStrings s.scanned.scans ↔ AllStrings s.scans ∧ 0 ∈ s.cmdBuf := by
  unfold AllStrings HeadState.scanned
  simp [or_imp, forall_and]

/-- The loop, from `k` received bytes on: its buffers stay strings if and only if a bufferful of
bytes, should it be received, ends in the buffer. -/
theorem headLoop_scans_iff (rs : List RecvResult) {k : ℕ} {s : HeadState} (h : Filled all k s)
    (hk : k < httpdCmdBufSize) (hnone : strstr s.cmdBuf 0 blankLine = .ok none)
    (hfit : RecvsFit 1 s.stream rs) :
    AllStrings (headLoop rs s).2.scans ↔
      AllStrings s.scans ∧ (httpdCmdBufSize ≤ k + storedBytes rs →
        0 ∈ all.take httpdCmdBufSize ∨ blankLine <:+: all.take (httpdCmdBufSize - 1)) := by
  induction rs generalizing k s with
  | nil =>
    unfold headLoop storedBytes
    exact ⟨fun hs => ⟨hs, fun hle => absurd hle (by omega)⟩, fun hs => hs.1⟩
  | cons r rs ih =>
    unfold headLoop storedBytes
    cases hv : r.verdict with
    | close =>
      refine ⟨fun hs => ⟨hs, fun hle => ?_⟩, fun hs => hs.1⟩
      have hle' : httpdCmdBufSize ≤ k + 0 := hle
      omega
    | retry =>
      have hfilled : Filled all k s.scanned := ⟨h.1, h.2, h.3, h.4, h.5⟩
      simp only [headCondition_next hnone (by rw [h.recvLen_eq]; exact hk)]
      rw [ih hfilled hk hnone (hfit.tail (by simp [hv])), allStrings_scanned,
        and_iff_left (h.nul_mem hk)]
    | store n =>
      obtain ⟨hpos, hn, hstream, hfit'⟩ := hfit.store hv
      obtain rfl : n = 1 := by omega
      obtain ⟨cmdBuf, hstore, hmod, h'⟩ := h.store hk hstream
      simp only [hstore, hmod]
      by_cases hlast : k + 1 < httpdCmdBufSize
      · -- the buffer still ends in a NUL, so the search comes to an end
        obtain ⟨found, hfound⟩ := strstr_of_nul_mem (h'.nul_mem hlast)
        cases found with
        | some q =>
          have hwithin := h'.infix_of_found hlast hfound
          have hpre : all.take (k + 1) <+: all.take (httpdCmdBufSize - 1) :=
            List.take_prefix_take_left (by omega)
          simp only [headCondition_found hfound]
          rw [allStrings_scanned, and_iff_left (h'.nul_mem hlast)]
          exact ⟨fun hs => ⟨hs, fun _ => Or.inr (hwithin.trans hpre.isInfix)⟩, fun hs => hs.1⟩
        | none =>
          have hfilled : Filled all (k + 1) (HeadState.scanned ⟨cmdBuf, k + 1, _, s.scans⟩) :=
            ⟨h'.1, h'.2, h'.3, h'.4, h'.5⟩
          simp only [headCondition_next hfound hlast]
          rw [ih hfilled hlast hfound hfit', allStrings_scanned, and_iff_left (h'.nul_mem hlast),
            Nat.add_assoc]
      · -- the last byte of the buffer has been taken
        have hbuf : cmdBuf = all.take httpdCmdBufSize := h'.full hlast
        have hscans : AllStrings (s.scans ++ [cmdBuf]) ↔
            AllStrings s.scans ∧ (httpdCmdBufSize ≤ k + (1 + storedBytes rs) →
              0 ∈ all.take httpdCmdBufSize ∨ blankLine <:+: all.take (httpdCmdBufSize - 1)) := by
          have hiff := allStrings_scanned (s := ⟨cmdBuf, k + 1, s.stream.drop 1, s.scans⟩)
          rw [show (HeadState.scanned _).scans = s.scans ++ [cmdBuf] from rfl] at hiff
          rw [hiff, show (HeadState.mk cmdBuf _ _ _).cmdBuf = all.take httpdCmdBufSize from hbuf]
          refine and_congr_right fun _ => ⟨fun hnul _ => Or.inl hnul, fun himp => ?_⟩
          rcases himp (by omega) with hnul | hwithin
          · exact hnul
          · by_contra hnul
            have hk' : k = httpdCmdBufSize - 1 := by omega
            have hnul' : 0 ∉ all.take k := fun hmem =>
              hnul ((List.take_prefix_take_left (by omega)).subset hmem)
            rw [← hk'] at hwithin
            exact h.not_infix hk hnone hnul' hwithin
        rcases headCondition_full (s := ⟨cmdBuf, k + 1, s.stream.drop 1, s.scans⟩) hlast with
          ⟨e, he⟩ | ⟨exit, he⟩
        · simp only [he]
          exact hscans
        · simp only [he]
          exact hscans

/-- The last buffer that the search was called on is the one that the parser gets. -/
theorem headLoop_cmdBuf_scanned (rs : List RecvResult) (s : HeadState) {q : ℕ}
    (h : (headLoop rs s).1 = .ok (.complete q)) :
    (headLoop rs s).2.cmdBuf ∈ (headLoop rs s).2.scans := by
  have hlast : ∀ t : HeadState, (headCondition t).2.cmdBuf ∈ (headCondition t).2.scans :=
    fun t => List.mem_append_right _ (List.mem_singleton.mpr rfl)
  induction rs generalizing s with
  | nil => cases h
  | cons r rs ih =>
    unfold headLoop at h ⊢
    cases hv : r.verdict with
    | close =>
      rw [hv] at h
      cases h
    | retry =>
      simp only [hv] at h ⊢
      have hs := hlast s
      rcases hc : headCondition s with ⟨e | exit, t⟩
      · rw [hc] at h
        cases h
      · rw [hc] at h hs
        cases exit with
        | some exit => exact hs
        | none => exact ih t h
    | store n =>
      simp only [hv] at h ⊢
      cases hstore : storeAt s.cmdBuf s.recvLen (s.stream.take n) with
      | error e =>
        rw [hstore] at h
        cases h
      | ok cmdBuf =>
        simp only [hstore] at h ⊢
        have hs := hlast ⟨cmdBuf, (s.recvLen + n) % 2 ^ 16, s.stream.drop n, s.scans⟩
        rcases hc : headCondition ⟨cmdBuf, (s.recvLen + n) % 2 ^ 16, s.stream.drop n, s.scans⟩ with
          ⟨e | exit, t⟩
        · rw [hc] at h
          cases h
        · rw [hc] at h hs
          cases exit with
          | some exit => exact hs
          | none => exact ih t h

end

/-! ## What the loop leaves -/

/-- Where the head that a stream starts with has its blank line, if it has one in the part that
`http_cmd_buf` takes. -/
def headEnd (stream : List UInt8) : Option ℕ :=
  match strstr (stream.take httpdCmdBufSize) 0 blankLine with
  | .ok found => found
  | .error _ => none

/-- The buffer with the head whose blank line is at `q`. -/
def headBuffer (stream : List UInt8) (q : ℕ) : List UInt8 :=
  stream.take (q + 4) ++ List.replicate (httpdCmdBufSize - (q + 4)) 0

/-- What the loop leaves when it ends with a head or with a full buffer. -/
def HeadLeft (all : List UInt8) (k : ℕ) (rs : List RecvResult)
    (out : Except Fault HeadExit × HeadState) : Prop :=
  (∀ q, out.1 = .ok (.complete q) →
    headEnd all = some q ∧ q + 4 ≤ k + storedBytes rs ∧
      out.2.cmdBuf = headBuffer all q ∧ out.2.stream = all.drop (q + 4)) ∧
  (out.1 = .ok .bufferFull → headEnd all = none ∧ httpdCmdBufSize ≤ k + storedBytes rs)

section

variable {all : List UInt8} {k : ℕ} {s : HeadState}

/-- The blank line is found when its last byte has been stored, and it is the one that the
stream has first. -/
theorem Filled.found {s' : HeadState} (h : Filled all k s)
    (hnone : strstr s.cmdBuf 0 blankLine = .ok none) (h' : Filled all (k + 1) s') {q : ℕ}
    (hfound : strstr s'.cmdBuf 0 blankLine = .ok (some q)) : q + 4 = k + 1 ∧ headEnd all = some q := by
  have hlen : blankLine.length = 4 := rfl
  have htake : (all.take k).length = k := List.length_take_of_le h.le_length
  have htake' : (all.take (k + 1)).length = k + 1 := List.length_take_of_le h'.le_length
  have hbuf : s.cmdBuf.take k = all.take k := h.take_eq
  have hbuf' : s'.cmdBuf.take (k + 1) = all.take (k + 1) := h'.take_eq
  -- the blank line has no NUL, so all of it has been received
  have hle : q + 4 ≤ k + 1 := by
    have hpre := prefix_of_strstr hfound
    have hlast : s'.cmdBuf[q + 3]? = some 10 := by
      rw [← List.getElem?_drop]
      exact List.prefix_iff_getElem?.mp hpre 3 (by decide)
    by_contra hlt
    rw [h'.cmdBuf_eq, List.getElem?_append_right (by omega), List.getElem?_replicate] at hlast
    split at hlast
    · cases hlast
    · cases hlast
  -- and it was not there one byte before
  have hge : ¬ q + 4 ≤ k := by
    intro hge
    have heq : s'.cmdBuf.take k = s.cmdBuf.take k := by
      have := congrArg (List.take k) hbuf'
      rw [List.take_take, List.take_take, Nat.min_eq_left (by omega)] at this
      rw [this, hbuf]
    have hearly := strstr_congr_take (by decide) hfound (by rw [hlen]; exact hge) heq
    rw [hnone] at hearly
    cases hearly
  have hall : strstr (all.take httpdCmdBufSize) 0 blankLine = .ok (some q) := by
    refine strstr_congr_take (k := k + 1) (by decide) hfound hle ?_
    rw [hbuf', List.take_take, Nat.min_eq_left h'.le_size]
  refine ⟨by omega, ?_⟩
  unfold headEnd
  rw [hall]

/-- The loop, from `k` received bytes without a blank line on. -/
theorem headLoop_left (rs : List RecvResult) {k : ℕ} {s : HeadState} (h : Filled all k s)
    (hk : k < httpdCmdBufSize) (hnone : strstr s.cmdBuf 0 blankLine = .ok none)
    (hfit : RecvsFit 1 s.stream rs) : HeadLeft all k rs (headLoop rs s) := by
  induction rs generalizing k s with
  | nil => exact ⟨fun q hq => (by cases hq), fun hq => (by cases hq)⟩
  | cons r rs ih =>
    unfold headLoop
    cases hv : r.verdict with
    | close => exact ⟨fun q hq => (by cases hq), fun hq => (by cases hq)⟩
    | retry =>
      have hfilled : Filled all k s.scanned := ⟨h.1, h.2, h.3, h.4, h.5⟩
      obtain ⟨hcomplete, hfull⟩ := ih hfilled hk hnone (hfit.tail (by simp [hv]))
      simp only [headCondition_next hnone (by rw [h.recvLen_eq]; exact hk)]
      rw [HeadLeft, show storedBytes (r :: rs) = storedBytes rs by simp [storedBytes, hv]]
      exact ⟨hcomplete, hfull⟩
    | store n =>
      obtain ⟨hpos, hn, hstream, hfit'⟩ := hfit.store hv
      obtain rfl : n = 1 := by omega
      have hstored : storedBytes (r :: rs) = 1 + storedBytes rs := by simp [storedBytes, hv]
      obtain ⟨cmdBuf, hstore, hmod, h'⟩ := h.store hk hstream
      simp only [hstore, hmod]
      cases hfound : strstr cmdBuf 0 blankLine with
      | error e =>
        have hcond : headCondition ⟨cmdBuf, k + 1, s.stream.drop 1, s.scans⟩ =
            (.error e, HeadState.scanned ⟨cmdBuf, k + 1, s.stream.drop 1, s.scans⟩) := by
          unfold headCondition
          rw [hfound]
          rfl
        simp only [hcond]
        exact ⟨fun q hq => (by cases hq), fun hq => (by cases hq)⟩
      | ok found =>
        cases found with
        | some q =>
          obtain ⟨hq, hend⟩ := h.found hnone h' hfound
          simp only [headCondition_found (s := ⟨cmdBuf, k + 1, s.stream.drop 1, s.scans⟩) hfound]
          refine ⟨fun q' hq' => ?_, fun hq' => (by cases hq')⟩
          cases hq'
          refine ⟨hend, by omega, ?_, ?_⟩
          · show cmdBuf = _
            unfold headBuffer
            rw [hq]
            exact h'.cmdBuf_eq
          · rw [hq]
            exact h'.stream_eq
        | none =>
          -- the loop goes on until the buffer is full
          by_cases hlast : k + 1 < httpdCmdBufSize
          · have hfilled : Filled all (k + 1) (HeadState.scanned ⟨cmdBuf, k + 1, _, s.scans⟩) :=
              ⟨h'.1, h'.2, h'.3, h'.4, h'.5⟩
            obtain ⟨hcomplete, hfull⟩ := ih hfilled hlast hfound hfit'
            simp only [headCondition_next (s := ⟨cmdBuf, k + 1, s.stream.drop 1, s.scans⟩) hfound
              hlast]
            rw [HeadLeft, hstored, ← Nat.add_assoc]
            exact ⟨hcomplete, hfull⟩
          · have hcond : headCondition ⟨cmdBuf, k + 1, s.stream.drop 1, s.scans⟩ =
                (.ok (some .bufferFull),
                  HeadState.scanned ⟨cmdBuf, k + 1, s.stream.drop 1, s.scans⟩) := by
              unfold headCondition
              rw [hfound]
              show (Except.ok (if k + 1 < httpdCmdBufSize then none else _), _) = _
              rw [if_neg hlast]
              rfl
            simp only [hcond]
            refine ⟨fun q hq => (by cases hq), fun _ => ⟨?_, by omega⟩⟩
            have hbuf : cmdBuf = all.take httpdCmdBufSize := h'.full hlast
            unfold headEnd
            rw [← hbuf, hfound]

/-- The search finds nothing in a cleared buffer. -/
theorem strstr_start (stream : List UInt8) :
    strstr (HeadState.start stream).cmdBuf 0 blankLine = .ok none := by
  have hat : StrAt (HeadState.start stream).cmdBuf 0 [] := by
    refine ⟨List.not_mem_nil, List.replicate 1023 0, ?_⟩
    show List.replicate (1023 + 1) 0 = _
    rw [List.replicate_succ]
    rfl
  rw [strstr_eq hat (by decide) (by decide)]
  rfl

theorem headLoop_start (rs : List RecvResult) (stream : List UInt8) (hfit : RecvsFit 1 stream rs) :
    HeadLeft stream 0 rs (headLoop rs (.start stream)) :=
  headLoop_left rs (filled_start stream) (by decide) (strstr_start stream) hfit

end

/-! ## The parser -/

/-- The memory of the parser has a NUL. -/
def HasNul (s : ParseState) : Prop := 0 ∈ s.mem

open Exec (Preserves)

/-- The parser stores nothing but NULs. -/
theorem hasNul_poke (p : ℕ) : Preserves HasNul (poke p 0) := by
  intro s h
  rw [exec_poke]
  split
  · next hp => exact List.mem_set hp 0
  · exact h

theorem hasNul_readMem {α : Type} (f : List UInt8 → Except Fault α) :
    Preserves HasNul (readMem f) := fun _ h => h

theorem hasNul_setConn (f : Conn → Conn) : Preserves HasNul (setConn f) := fun _ h => h

theorem hasNul_changePeriod (periodMs : ℕ) : Preserves HasNul (changePeriod periodMs) := fun _ h => h

theorem hasNul_parseRequestLine : Preserves HasNul parseRequestLine := by
  unfold parseRequestLine
  refine (hasNul_setConn _).bind fun _ => ?_
  refine (hasNul_readMem _).bind fun lineEnd => ?_
  split
  · exact Preserves.pure _
  refine (hasNul_readMem _).bind fun method => ?_
  refine (hasNul_setConn _).bind fun _ => ?_
  refine Preserves.ite (Preserves.pure _) ?_
  refine (hasNul_readMem _).bind fun path => ?_
  refine (hasNul_setConn _).bind fun _ => ?_
  split
  · exact Preserves.pure _
  refine (hasNul_readMem _).bind fun blank => ?_
  split
  · exact Preserves.pure _
  refine (hasNul_poke _).bind fun _ => ?_
  refine (hasNul_readMem _).bind fun args => ?_
  split
  · refine (hasNul_poke _).bind fun _ => ?_
    exact (hasNul_setConn _).bind fun _ => Preserves.pure _
  · exact (hasNul_setConn _).bind fun _ => Preserves.pure _

theorem hasNul_parseUpgrade (secondLine : ℕ) : Preserves HasNul (parseUpgrade secondLine) := by
  unfold parseUpgrade
  refine (hasNul_readMem _).bind fun upgradeWs => ?_
  split
  · exact Preserves.pure _
  refine (hasNul_readMem _).bind fun websocket => ?_
  refine Preserves.ite ?_ (Preserves.pure _)
  refine (hasNul_readMem _).bind fun key => ?_
  split
  · exact Preserves.pure _
  refine (hasNul_readMem _).bind fun e => ?_
  refine (hasNul_poke _).bind fun _ => ?_
  refine (hasNul_setConn _).bind fun _ => ?_
  exact (hasNul_changePeriod _).bind fun _ => Preserves.pure _

theorem hasNul_parsePlain (secondLine connStr : ℕ) :
    Preserves HasNul (parsePlain secondLine connStr) := by
  intro s h
  have hmem : (Exec.exec (parsePlain secondLine connStr) s).2.mem = s.mem :=
    congrArg Prod.fst (keeps_parsePlain secondLine connStr s)
  unfold HasNul
  rwa [hmem]

/-- A head that is a string stays one while it is parsed. -/
theorem hasNul_parseInMsgHeaders : Preserves HasNul parseInMsgHeaders := by
  unfold parseInMsgHeaders parseHeaderLines
  refine hasNul_parseRequestLine.bind fun secondLine => ?_
  split
  · exact Preserves.pure _
  refine (hasNul_readMem _).bind fun host => ?_
  refine (hasNul_setConn _).bind fun _ => ?_
  refine (hasNul_readMem _).bind fun connStr => ?_
  split
  · exact Preserves.pure _
  refine (hasNul_readMem _).bind fun upgrade => ?_
  exact Preserves.ite (hasNul_parseUpgrade _) (hasNul_parsePlain _ _)

/-! ## Heads are strings -/

/-- The head buffer is a string wherever it is searched or parsed if and only if a bufferful of
bytes, should it be received, has a NUL or a blank line in front of its last byte. -/
theorem headIsString_iff (conn : Conn) (rs : List RecvResult) (stream : List UInt8)
    (hfit : RecvsFit 1 stream rs) : HeadIsString conn rs stream ↔ EndsInBuffer rs stream := by
  have hiff := headLoop_scans_iff rs (filled_start stream) (by decide) (strstr_start stream) hfit
  have hempty : AllStrings (HeadState.start stream).scans := fun m hm => absurd hm List.not_mem_nil
  rw [Nat.zero_add, and_iff_right hempty] at hiff
  unfold HeadIsString EndsInBuffer
  rw [← hiff]
  constructor
  · exact fun h => h.1
  · intro h
    refine ⟨h, fun q hq => ?_⟩
    have hnul := h _ (headLoop_cmdBuf_scanned rs _ hq)
    exact ⟨hnul, hasNul_parseInMsgHeaders (.start conn _) hnul⟩

/-- A head of 18 bytes that comes in one piece. -/
theorem headIsString_get :
    HeadIsString Conn.fresh (List.replicate 18 (.got 1)) (ascii "GET / HTTP/1.1\r\n\r\n") := by
  apply (headIsString_iff Conn.fresh (List.replicate 18 (.got 1)) _ ?_).mpr
  · exact fun hle => absurd hle (by decide)
  · simp only [List.replicate, RecvsFit]
    decide

theorem storedBytes_replicate (n : ℕ) : storedBytes (List.replicate n (.got 1)) = n := by
  induction n with
  | zero => rfl
  | succ n ih =>
    rw [List.replicate_succ]
    show 1 + storedBytes _ = n + 1
    rw [ih, Nat.add_comm]

theorem recvsFit_replicate {n : ℕ} {stream : List UInt8} (h : n ≤ stream.length) :
    RecvsFit 1 stream (List.replicate n (.got 1)) := by
  induction n generalizing stream with
  | zero => exact trivial
  | succ n ih =>
    rw [List.replicate_succ]
    exact ⟨le_refl 1, le_refl 1, by omega, ih (by rw [List.length_drop]; omega)⟩

/-- A client that sends the letter `A` 1024 times leaves no NUL to the search. -/
theorem not_headIsString_letters :
    ¬ HeadIsString Conn.fresh (List.replicate 1024 (.got 1)) (List.replicate 1024 65) := by
  rw [headIsString_iff Conn.fresh _ _ (recvsFit_replicate (le_of_eq List.length_replicate.symm))]
  intro h
  have hsize : httpdCmdBufSize = 1024 := rfl
  rcases h (by rw [storedBytes_replicate, hsize]) with hnul | hwithin
  · rw [List.take_replicate] at hnul
    exact absurd (List.eq_of_mem_replicate hnul) (by decide)
  · have hcr : 13 ∈ (List.replicate 1024 (65 : UInt8)).take (httpdCmdBufSize - 1) :=
      hwithin.subset (by decide)
    rw [List.take_replicate] at hcr
    exact absurd (List.eq_of_mem_replicate hcr) (by decide)

end WLink.Httpd
