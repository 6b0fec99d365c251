import WLink.Httpd.Def

/-!
# Receiving the body of a request

The part of `HTTP_Server_Task` between the parsed head and the dispatch. The loop asks `recv`
for `data_len` bytes each time, also when a part of them has arrived before: the block that
holds the body has room for them only as long as no `recv` returns more than the body still
lacks. `receiveBody_exact_iff` says that this is exactly when the loop is right.

## The code

* `bodyLoop` -- the `do … while` around `recv`
* `receiveBody` -- the allocation, the loop and what follows a lost connection
-/

namespace WLink.Httpd

open WLink.Lib CString

/-! ## The loop -/

/-- How the body of a request ends up. -/
inductive BodyExit
  /-- The request goes on to the dispatch. -/
  | received
  /-- `mem_Malloc` has no room for the body: the pass over this connection ends. -/
  | noMemory
  /-- The connection is lost. -/
  | clientClose
  /-- The given results are used up and the loop goes on. -/
  | waiting
deriving DecidableEq, Repr

/-- What the loop works on: the block behind `data_buff`, the 16-bit `cgi_recv_len`, and the
bytes that the socket has not given out yet. -/
structure BodyState where
  dataBuff : List UInt8
  cgiRecvLen : ℕ
  stream : List UInt8
deriving DecidableEq, Repr

/-- The body loop, one `recv` result for each round. -/
def bodyLoop (dataLen : ℕ) : List RecvResult → BodyState → Except Fault BodyExit × BodyState
  | [], s => (.ok .waiting, s)
  | r :: rs, s =>
    match r.verdict with
    | .close => (.ok .clientClose, s)
    | .retry =>
      if s.cgiRecvLen < dataLen then bodyLoop dataLen rs s else (.ok .received, s)
    | .store n =>
      match storeAt s.dataBuff s.cgiRecvLen (s.stream.take n) with
      | .error e => (.error e, s)
      | .ok dataBuff =>
        let s' : BodyState := ⟨dataBuff, (s.cgiRecvLen + n) % 2 ^ 16, s.stream.drop n⟩
        if s'.cgiRecvLen < dataLen then bodyLoop dataLen rs s' else (.ok .received, s')

/-- What follows the loop: a lost connection gives the block back. -/
def leaveBodyLoop (conn : Conn) :
    Except Fault BodyExit × BodyState → Except Fault BodyExit × Conn × List UInt8
  | (.ok .clientClose, s) =>
    (.ok .clientClose,
      { conn with isLargeData := false, dataBuff := none, connectionDestructFlag := true },
      s.stream)
  | (e, s) => (e, { conn with dataBuff := some s.dataBuff }, s.stream)

/-- Body reception for a parsed head: `block` is what `mem_Malloc` gives for `data_len` bytes.
The result has the connection and the bytes that are still in the socket. -/
def receiveBody (block : Option (List UInt8)) (rs : List RecvResult) (conn : Conn)
    (stream : List UInt8) : Except Fault BodyExit × Conn × List UInt8 :=
  if conn.dataLen = 0 then (.ok .received, conn, stream)
  else if 4096 < conn.dataLen then (.ok .received, { conn with isLargeData := true }, stream)
  else
    match block with
    | none => (.ok .noMemory, { conn with dataBuff := none }, stream)
    | some old => leaveBodyLoop conn (bodyLoop conn.dataLen rs ⟨old, 0, stream⟩)

/-! ## What the loop keeps -/

/-- Some of the `all` bytes of the stream have been received: they fill the front of the block,
the others are still in the socket. -/
structure Received (dataLen : ℕ) (all : List UInt8) (s : BodyState) : Prop where
  length_eq : s.dataBuff.length = dataLen
  le_dataLen : s.cgiRecvLen ≤ dataLen
  take_eq : s.dataBuff.take s.cgiRecvLen = all.take s.cgiRecvLen
  stream_eq : s.stream = all.drop s.cgiRecvLen
  le_length : s.cgiRecvLen ≤ all.length

theorem received_start {dataLen : ℕ} {old : List UInt8} (h : old.length = dataLen)
    (all : List UInt8) : Received dataLen all ⟨old, 0, all⟩ :=
  ⟨h, Nat.zero_le _, rfl, rfl, Nat.zero_le _⟩

/-- The loop is left with exactly the body once all of it is there. -/
theorem Received.full {dataLen : ℕ} {all : List UInt8} {s : BodyState}
    (h : Received dataLen all s) (hfull : ¬ s.cgiRecvLen < dataLen) :
    s.dataBuff = all.take dataLen ∧ s.stream = all.drop dataLen := by
  have heq : s.cgiRecvLen = dataLen := Nat.le_antisymm h.le_dataLen (Nat.le_of_not_lt hfull)
  constructor
  · rw [← heq, ← h.take_eq, List.take_of_length_le]
    rw [h.length_eq, heq]
  · rw [h.stream_eq, heq]

/-- A store that fits the rest of the body goes on filling the block. -/
theorem Received.store {dataLen n : ℕ} {all : List UInt8} {s : BodyState}
    (h : Received dataLen all s) (hdata : dataLen ≤ 4096) (hn : n ≤ dataLen - s.cgiRecvLen)
    (hstream : n ≤ s.stream.length) :
    ∃ dataBuff, storeAt s.dataBuff s.cgiRecvLen (s.stream.take n) = .ok dataBuff ∧
      (s.cgiRecvLen + n) % 2 ^ 16 = s.cgiRecvLen + n ∧
      Received dataLen all ⟨dataBuff, s.cgiRecvLen + n, s.stream.drop n⟩ := by
  have hle := h.le_dataLen
  have hlen : (s.stream.take n).length = n := List.length_take_of_le hstream
  have hall : s.cgiRecvLen + n ≤ all.length := by
    have := h.le_length
    rw [h.stream_eq, List.length_drop] at hstream
    omega
  have hfront : (s.dataBuff.take s.cgiRecvLen).length = s.cgiRecvLen := by
    rw [List.length_take_of_le]
    rw [h.length_eq]
    exact hle
  refine ⟨_, storeAt_ok (by rw [hlen, h.length_eq]; omega), Nat.mod_eq_of_lt (by omega), ?_⟩
  constructor
  · show (_ ++ _ ++ _ : List UInt8).length = dataLen
    rw [List.length_append, List.length_append, hfront, hlen, List.length_drop, h.length_eq]
    omega
  · show s.cgiRecvLen + n ≤ dataLen
    omega
  · show (_ ++ _ ++ _ : List UInt8).take _ = _
    rw [List.take_left' (by rw [List.length_append, hfront, hlen]), h.take_eq, h.stream_eq,
      ← List.take_add]
  · show s.stream.drop n = _
    rw [h.stream_eq, List.drop_drop]
  · exact hall

/-- A `recv` that returns more than the body still lacks writes behind the block. -/
theorem Received.overrun {dataLen n : ℕ} {all : List UInt8} {s : BodyState}
    (h : Received dataLen all s) (hn : dataLen - s.cgiRecvLen < n)
    (hstream : n ≤ s.stream.length) :
    storeAt s.dataBuff s.cgiRecvLen (s.stream.take n) = .error .write := by
  apply storeAt_overrun
  rw [h.length_eq, List.length_take_of_le hstream]
  omega

/-! ## Exactness -/

/-- Body reception is exact: nothing is stored outside the block, and a request that goes on to
the dispatch has the first `data_len` bytes of the stream as its body and has left all others
in the socket. -/
def BodyExact (dataLen : ℕ) (stream : List UInt8)
    (out : Except Fault BodyExit × Conn × List UInt8) : Prop :=
  out.1 ≠ .error .write ∧
    (out.1 = .ok .received →
      out.2.1.dataBuff = some (stream.take dataLen) ∧ out.2.2 = stream.drop dataLen)

/-- No `recv` returns more than the body lacks at that time: `rest` bytes at first. -/
def FitsRemaining : ℕ → List RecvResult → Prop
  | _, [] => True
  | rest, r :: rs =>
    match r.verdict with
    | .close => True
    | .retry => FitsRemaining rest rs
    | .store n => n ≤ rest ∧ (n < rest → FitsRemaining (rest - n) rs)

/-- `BodyExact` for the loop alone. -/
def LoopExact (dataLen : ℕ) (all : List UInt8) (out : Except Fault BodyExit × BodyState) : Prop :=
  out.1 ≠ .error .write ∧
    (out.1 = .ok .received →
      out.2.dataBuff = all.take dataLen ∧ out.2.stream = all.drop dataLen)

theorem bodyExact_leaveBodyLoop (conn : Conn) (stream : List UInt8)
    (out : Except Fault BodyExit × BodyState) :
    BodyExact conn.dataLen stream (leaveBodyLoop conn out) ↔ LoopExact conn.dataLen stream out := by
  obtain ⟨e | x, s⟩ := out
  · simp [leaveBodyLoop, BodyExact, LoopExact]
  · cases x <;> simp [leaveBodyLoop, BodyExact, LoopExact]

theorem RecvsFit.tail {asked : ℕ} {stream : List UInt8} {r : RecvResult} {rs : List RecvResult}
    (h : RecvsFit asked stream (r :: rs)) (hr : ∀ n, r.verdict ≠ .store n) :
    RecvsFit asked stream rs := by
  cases r with
  | got n => exact absurd rfl (hr n)
  | closed => exact h
  | failed e d => exact h

theorem RecvsFit.store {asked : ℕ} {stream : List UInt8} {r : RecvResult} {rs : List RecvResult}
    {n : ℕ} (h : RecvsFit asked stream (r :: rs)) (hr : r.verdict = .store n) :
    1 ≤ n ∧ n ≤ asked ∧ n ≤ stream.length ∧ RecvsFit asked (stream.drop n) rs := by
  obtain rfl := RecvResult.verdict_eq_store_iff.mp hr
  exact h

/-- The loop, from a partly received body on, is exact if and only if the remaining results fit
what the body still lacks. -/
theorem bodyLoop_exact_iff {dataLen : ℕ} {all : List UInt8} (hdata : dataLen ≤ 4096)
    (rs : List RecvResult) (s : BodyState) (h : Received dataLen all s)
    (hlt : s.cgiRecvLen < dataLen) (hfit : RecvsFit dataLen s.stream rs) :
    LoopExact dataLen all (bodyLoop dataLen rs s) ↔
      FitsRemaining (dataLen - s.cgiRecvLen) rs := by
  induction rs generalizing s with
  | nil => simp [bodyLoop, LoopExact, FitsRemaining]
  | cons r rs ih =>
    unfold bodyLoop FitsRemaining
    cases hv : r.verdict with
    | close => simp [LoopExact]
    | retry =>
      simp only [if_pos hlt]
      exact ih s h hlt (hfit.tail (by simp [hv]))
    | store n =>
      obtain ⟨-, -, hstream, hfit'⟩ := hfit.store hv
      by_cases hn : n ≤ dataLen - s.cgiRecvLen
      · obtain ⟨dataBuff, hstore, hmod, h'⟩ := h.store hdata hn hstream
        simp only [hstore, hmod, hn, true_and]
        by_cases hdone : s.cgiRecvLen + n < dataLen
        · have hlt' : n < dataLen - s.cgiRecvLen := by omega
          rw [if_pos hdone, ih _ h' hdone hfit', Nat.sub_add_eq]
          exact ⟨fun hf _ => hf, fun hf => hf hlt'⟩
        · have hge : ¬ n < dataLen - s.cgiRecvLen := by omega
          rw [if_neg hdone]
          exact ⟨fun _ hlt' => absurd hlt' hge, fun _ => ⟨by simp, fun _ => h'.full hdone⟩⟩
      · simp [h.overrun (Nat.lt_of_not_le hn) hstream, hn, LoopExact]

/-- Body reception is exact if and only if no `recv` returns more bytes than the body still
lacks when it is called. -/
theorem receiveBody_exact_iff (conn : Conn) (hpos : 1 ≤ conn.dataLen)
    (hdata : conn.dataLen ≤ 4096) (old : List UInt8) (hold : old.length = conn.dataLen)
    (stream : List UInt8) (rs : List RecvResult) (hfit : RecvsFit conn.dataLen stream rs) :
    BodyExact conn.dataLen stream (receiveBody (some old) rs conn stream) ↔
      FitsRemaining conn.dataLen rs := by
  have hloop := bodyLoop_exact_iff hdata rs ⟨old, 0, stream⟩ (received_start hold stream)
    (show 0 < conn.dataLen from hpos) hfit
  rw [show FitsRemaining conn.dataLen rs = FitsRemaining (conn.dataLen - 0) rs from rfl, ← hloop]
  unfold receiveBody
  rw [if_neg (by omega), if_neg (by omega)]
  exact bodyExact_leaveBodyLoop conn stream _

theorem receiveBody_exact_two_segments :
    BodyExact 4 (ascii "abcdGET") (receiveBody (some [0, 0, 0, 0]) [.got 1, .wouldBlock, .got 3]
      { Conn.fresh with dataLen := 4 } (ascii "abcdGET")) :=
  (receiveBody_exact_iff { Conn.fresh with dataLen := 4 } (by decide) (by decide) [0, 0, 0, 0]
    rfl (ascii "abcdGET") [.got 1, .wouldBlock, .got 3]
    (by simp only [RecvsFit, RecvResult.wouldBlock]; decide)).mpr
    (by simp [FitsRemaining, RecvResult.verdict, RecvResult.wouldBlock, eagain])

/-- With one body byte received, a `recv` that takes up the next request as well is asked for
all four bytes again and writes one byte behind the block. -/
theorem receiveBody_not_exact :
    RecvsFit 4 (ascii "abcdGET") [.got 1, .got 4] ∧
      ¬ BodyExact 4 (ascii "abcdGET") (receiveBody (some [0, 0, 0, 0]) [.got 1, .got 4]
        { Conn.fresh with dataLen := 4 } (ascii "abcdGET")) := by
  constructor
  · simp only [RecvsFit]; decide
  · exact fun h => h.1 rfl

end WLink.Httpd
