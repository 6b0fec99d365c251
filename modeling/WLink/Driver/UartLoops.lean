import WLink.Driver.UartTransfer
import WLink.Lib.Bytes
import WLink.Lib.Solo

/-!
# The loops of `UART_Read` and `UART_Write`

A call by itself, of any size, with any pattern of bytes that complete and waits that time out.
`UartExact` says that the call returns, that it goes through the buffer from its begin, and that it
returns the number of the bytes that have completed. The counter is a `uint16_t`, and the number
is returned as a `hwUART_OpResult`, which has eight bits where enumerations are short; so the loops
are exact up to `uartLimit` bytes only (`uartExact_iff`).
-/

namespace WLink.Driver

open Lib

/-- The offset in the buffer of the byte that an operation is for. -/
def UartOp.offset : UartOp → ℕ
  | receive offset => offset
  | transmit offset => offset

/-- A result as a number. A count is cast to `hwUART_OpResult`, whose members are small enough for a
signed byte; `shortEnums` says that the compiler makes it one. -/
def UartOpResult.value (shortEnums : Bool) : UartOpResult → ℤ
  | count n => if shortEnums = true then toSigned 8 (n % 256) else n
  | notInit => -1
  | invalidParameter => -2
  | busy => -3

/-- The bytes that complete before the first wait that times out. -/
def completedBytes (answers : ℕ → Bool) (size : ℕ) : ℕ :=
  ((List.range size).takeWhile answers).length

/-- The call returns and is exact: it goes through the buffer in order, and returns the number of
the bytes that have completed, or `hwUART_Busy` for none. A call that the checks refuse
does not touch its buffer. -/
def UartExact (t : PinTables) (index : ℕ) (init shortEnums : Bool) (answers : ℕ → Bool)
    (c : UartCall) : Prop :=
  ∃ ops result, Alone (uartProgram t index init c) answers ⟨.receive 0, 0, 0⟩ ops result ∧
    (ops.map UartOp.offset).Pairwise (· < ·) ∧ (∀ op ∈ ops, op.offset < c.size) ∧
    match uartRefusal t index init c with
    | some e => ops = [] ∧ result = e
    | none =>
      result.value shortEnums = completedBytes answers c.size ∨
        completedBytes answers c.size = 0 ∧ result = .busy

/-- The largest number of bytes that can be counted and returned. -/
def uartLimit (shortEnums : Bool) : ℕ := if shortEnums = true then 127 else 65535

/-! ## The bytes before the first timeout -/

section Completed

variable {answers : ℕ → Bool} {size k : ℕ}

theorem completedBytes_succ (answers : ℕ → Bool) (size : ℕ) :
    completedBytes answers (size + 1) =
      if completedBytes answers size = size ∧ answers size = true then size + 1
      else completedBytes answers size := by
  unfold completedBytes
  rw [List.range_succ, List.takeWhile_append, List.length_range]
  by_cases hall : ((List.range size).takeWhile answers).length = size
  · rw [if_pos hall]
    by_cases hsize : answers size = true
    · rw [if_pos ⟨hall, hsize⟩, List.takeWhile_cons_of_pos hsize]
      simp
    · rw [if_neg fun h => hsize h.2, List.takeWhile_cons_of_neg hsize]
      simp [hall]
  · rw [if_neg hall, if_neg fun h => hall h.1]

/-- All of the first bytes complete, and the next one does not if there is one. -/
theorem completedBytes_spec (answers : ℕ → Bool) (size : ℕ) :
    completedBytes answers size ≤ size ∧ (∀ i < completedBytes answers size, answers i = true) ∧
      (completedBytes answers size < size → answers (completedBytes answers size) = false) := by
  induction size with
  | zero => exact ⟨le_rfl, nofun, fun h => absurd h (lt_irrefl 0)⟩
  | succ n ih =>
    obtain ⟨hle, hall, hnext⟩ := ih
    rw [completedBytes_succ]
    split_ifs with h
    · refine ⟨le_rfl, fun i hi => ?_, fun hlt => absurd hlt (lt_irrefl _)⟩
      rcases Nat.lt_or_eq_of_le (Nat.le_of_lt_succ hi) with hi' | rfl
      · exact hall i (by omega)
      · exact h.2
    · refine ⟨by omega, hall, fun _ => ?_⟩
      rcases Nat.lt_or_eq_of_le hle with hlt | heq
      · exact hnext hlt
      · rw [heq]
        exact Bool.eq_false_iff.mpr fun hn => h ⟨heq, hn⟩

theorem completedBytes_le_of_false {i : ℕ} (h : answers i = false) :
    completedBytes answers size ≤ i := by
  by_contra hlt
  obtain ⟨-, hall, -⟩ := completedBytes_spec answers size
  rw [hall i (by omega)] at h
  exact Bool.noConfusion h

end Completed

/-! ## A round -/

section Rounds

variable {t : PinTables} {index : ℕ} {init : Bool} {c : UartCall} {answers : ℕ → Bool}
variable {cfg : UartOp} {w n pc : ℕ} {ops : List UartOp} {result : UartOpResult}

/-- The result of a call whose time is up. -/
def uartLate (n : ℕ) : UartOpResult := if 0 < uartCounter n then .count (uartCounter n) else .busy

theorem UartCall.offset_op (c : UartCall) (n : ℕ) : (c.op n).offset = n := by
  cases c <;> rfl

theorem UartCall.start_div (c : UartCall) (n : ℕ) :
    n * c.width / c.width = n ∧ n * c.width % c.width = 0 := by
  have hwidth := c.width_cases
  exact ⟨Nat.mul_div_cancel _ (by omega), Nat.mul_mod_left _ _⟩

theorem uartProgram_begins (hchecks : uartRefusal t index init c = none) (n : ℕ) :
    uartProgram t index init c (n * c.width) =
      if uartCounter n < c.size then .clear c.dir else .ret (.count (uartCounter n)) := by
  obtain ⟨hdiv, hmod⟩ := c.start_div n
  rw [uartProgram_eq]
  unfold uartBytes
  dsimp only
  rw [if_pos hmod, hdiv, hchecks, ite_self]

theorem uartProgram_expired (h : pc % c.width + 1 = c.width) :
    uartProgram t index init c pc = .ret (uartLate (pc / c.width)) := by
  have hwidth := c.width_cases
  rw [uartProgram_eq]
  unfold uartBytes uartLate
  dsimp only
  rw [if_neg (by omega), if_pos h]
  split_ifs <;> rfl

theorem uartProgram_refuses {e : UartOpResult} (hchecks : uartRefusal t index init c = some e) :
    uartProgram t index init c 0 = .ret e := by
  rw [uartProgram_eq]
  unfold uartBytes
  dsimp only
  rw [Nat.zero_mod, if_pos rfl, if_pos rfl, hchecks]

/-- The operation of a round and its wait. -/
theorem alone_uart_start (h : pc % c.width + 3 = c.width) :
    Alone (uartProgram t index init c) answers ⟨cfg, w, pc⟩ ops result ↔
      ∃ ops', ops = c.op (uartCounter (pc / c.width)) :: ops' ∧
        if answers w = true then
          Alone (uartProgram t index init c) answers ⟨cfg, w + 1, pc + 3⟩ ops' result
        else ops' = [] ∧ result = uartLate (pc / c.width) := by
  obtain ⟨hdiv, hmod⟩ := @UartCall.next_div c pc (by omega)
  obtain ⟨hdiv', hmod'⟩ := @UartCall.next_div c (pc + 1) (by omega)
  rw [alone_start (uartProgram_starts h)]
  refine exists_congr fun ops' => and_congr_right fun _ => ?_
  rw [alone_wait (uartProgram_waits (show (pc + 1) % c.width + 2 = c.width by omega))]
  split_ifs
  · rfl
  · have hlate : (pc + 1 + 1) % c.width + 1 = c.width := by omega
    rw [alone_ret (uartProgram_expired hlate), hdiv', hdiv]

/-- A round of the loop. -/
theorem alone_uart_round (hchecks : uartRefusal t index init c = none)
    (hgo : uartCounter n < c.size) :
    Alone (uartProgram t index init c) answers ⟨cfg, w, n * c.width⟩ ops result ↔
      ∃ ops', ops = c.op (uartCounter n) :: ops' ∧
        if answers w = true then
          Alone (uartProgram t index init c) answers ⟨cfg, w + 1, (n + 1) * c.width⟩ ops' result
        else ops' = [] ∧ result = uartLate n := by
  obtain ⟨hdiv, hmod⟩ := c.start_div n
  have hclear := @uartProgram_begins t index init c hchecks n
  rw [if_pos hgo] at hclear
  have hwidth := c.width_cases
  obtain ⟨hdiv', hmod'⟩ := @UartCall.next_div c (n * c.width) (by omega)
  -- the semaphore is cleared first in both functions
  rw [alone_clear hclear]
  rcases hwidth with hw | hw
  · -- a round of `UART_Write`
    rw [alone_uart_start (by omega), hdiv', hdiv]
    have hnext : n * c.width + 1 + 3 = (n + 1) * c.width := by
      rw [hw]
      omega
    rw [hnext]
  · -- `UART_Read` gives up what was being received first
    obtain ⟨hdiv'', hmod''⟩ := @UartCall.next_div c (n * c.width + 1) (by omega)
    rw [alone_stop (uartProgram_stops (by omega) (by omega)), alone_uart_start (by omega), hdiv'',
      hdiv', hdiv]
    have hnext : n * c.width + 1 + 1 + 3 = (n + 1) * c.width := by
      rw [hw]
      omega
    rw [hnext]

/-- A round whose byte completes. -/
theorem alone_uart_completes (hchecks : uartRefusal t index init c = none)
    (hgo : uartCounter n < c.size) (hw : answers w = true) :
    Alone (uartProgram t index init c) answers ⟨cfg, w, n * c.width⟩ ops result ↔
      ∃ ops', ops = c.op (uartCounter n) :: ops' ∧ Alone (uartProgram t index init c) answers
        ⟨cfg, w + 1, (n + 1) * c.width⟩ ops' result := by
  rw [alone_uart_round hchecks hgo]
  exact exists_congr fun _ => and_congr_right fun _ => by rw [if_pos hw]

/-- A round whose wait times out. -/
theorem alone_uart_expires (hchecks : uartRefusal t index init c = none)
    (hgo : uartCounter n < c.size) (hw : answers w = false) :
    Alone (uartProgram t index init c) answers ⟨cfg, w, n * c.width⟩ ops result ↔
      ops = [c.op (uartCounter n)] ∧ result = uartLate n := by
  have hw' : ¬ answers w = true := by simp [hw]
  rw [alone_uart_round hchecks hgo]
  constructor
  · rintro ⟨ops', rfl, hrest⟩
    rw [if_neg hw'] at hrest
    obtain ⟨rfl, hresult⟩ := hrest
    exact ⟨rfl, hresult⟩
  · rintro ⟨rfl, hresult⟩
    exact ⟨[], rfl, by rw [if_neg hw']; exact ⟨rfl, hresult⟩⟩

/-- The loop ends. -/
theorem alone_uart_end (hchecks : uartRefusal t index init c = none)
    (hend : ¬ uartCounter n < c.size) :
    Alone (uartProgram t index init c) answers ⟨cfg, w, n * c.width⟩ ops result ↔
      ops = [] ∧ result = .count (uartCounter n) := by
  have hret := @uartProgram_begins t index init c hchecks n
  rw [if_neg hend] at hret
  exact alone_ret hret

/-- Rounds of bytes that complete. -/
theorem alone_uart_rounds (hchecks : uartRefusal t index init c = none) (n : ℕ)
    (hgo : ∀ i < n, uartCounter i < c.size ∧ answers i = true) :
    Alone (uartProgram t index init c) answers ⟨cfg, 0, 0⟩ ops result ↔
      ∃ ops', ops = (List.range n).map (fun i => c.op (uartCounter i)) ++ ops' ∧
        Alone (uartProgram t index init c) answers ⟨cfg, n, n * c.width⟩ ops' result := by
  induction n with
  | zero => simp
  | succ n ih =>
    -- the last round is taken from what the others leave
    obtain ⟨hlt, hanswer⟩ := hgo n (Nat.lt_succ_self n)
    rw [ih fun i hi => hgo i (by omega)]
    constructor
    · rintro ⟨ops', rfl, hrest⟩
      rw [alone_uart_completes hchecks hlt hanswer] at hrest
      obtain ⟨ops'', rfl, hrest'⟩ := hrest
      refine ⟨ops'', ?_, hrest'⟩
      simp [List.range_succ]
    · rintro ⟨ops', rfl, hrest⟩
      refine ⟨c.op (uartCounter n) :: ops', ?_, ?_⟩
      · simp [List.range_succ]
      · rw [alone_uart_completes hchecks hlt hanswer]
        exact ⟨ops', rfl, hrest⟩

/-- The operations of the rounds whose counter is right are for the first bytes. -/
theorem map_op_range (c : UartCall) (h : n ≤ 65536) :
    (List.range n).map (fun i => c.op (uartCounter i)) = (List.range n).map c.op := by
  refine List.map_congr_left fun i hi => ?_
  have hlt := List.mem_range.mp hi
  have hcounter : uartCounter i = i := Nat.mod_eq_of_lt (by omega)
  rw [hcounter]

/-- What a call does whose loop ends while its counter is right: each of the first bytes completes,
and then the time is up or there is no byte left. -/
theorem alone_uart_of_le (hchecks : uartRefusal t index init c = none)
    (hle : completedBytes answers c.size ≤ 65535) (hsize : c.size ≤ 65535 ∨
      completedBytes answers c.size < c.size) :
    Alone (uartProgram t index init c) answers ⟨cfg, 0, 0⟩
      ((List.range (min (completedBytes answers c.size + 1) c.size)).map c.op)
      (if completedBytes answers c.size < c.size then uartLate (completedBytes answers c.size)
        else .count (completedBytes answers c.size)) := by
  obtain ⟨hk, hall, hnext⟩ := completedBytes_spec answers c.size
  obtain ⟨k, hkdef⟩ : ∃ k, completedBytes answers c.size = k := ⟨_, rfl⟩
  rw [hkdef] at hle hsize hk hall hnext ⊢
  have hcounter : ∀ i ≤ k, uartCounter i = i := fun i hi => Nat.mod_eq_of_lt (by omega)
  -- `k` whole rounds, and then a round that is not finished or the end
  rw [alone_uart_rounds hchecks k fun i hi => ⟨by rw [hcounter i hi.le]; omega, hall i hi⟩,
    map_op_range c (by omega)]
  by_cases hlt : k < c.size
  · rw [if_pos hlt, min_eq_left (by omega)]
    refine ⟨[c.op k], by simp [List.range_succ], ?_⟩
    rw [alone_uart_expires hchecks (by rw [hcounter k le_rfl]; exact hlt) (hnext hlt),
      hcounter k le_rfl]
    exact ⟨rfl, rfl⟩
  · obtain rfl : k = c.size := by omega
    rw [if_neg hlt, min_eq_right (by omega)]
    refine ⟨[], by simp, ?_⟩
    rw [alone_uart_end hchecks (by rw [hcounter _ le_rfl]; exact lt_irrefl _), hcounter _ le_rfl]
    exact ⟨rfl, rfl⟩

/-- Operations for the first bytes, followed by one for the first byte. -/
theorem not_increasing_again (c : UartCall) (hn : 0 < n) (ops : List UartOp) :
    ¬ (((List.range n).map c.op ++ c.op 0 :: ops).map UartOp.offset).Pairwise (· < ·) := by
  intro hpairwise
  rw [List.map_append, List.pairwise_append] at hpairwise
  have hmem : 0 ∈ ((List.range n).map c.op).map UartOp.offset := by
    rw [List.map_map]
    exact List.mem_map.mpr ⟨0, List.mem_range.mpr hn, c.offset_op 0⟩
  have hagain : 0 ∈ (c.op 0 :: ops).map UartOp.offset :=
    List.mem_map.mpr ⟨c.op 0, List.mem_cons_self, c.offset_op 0⟩
  exact lt_irrefl 0 (hpairwise.2.2 0 hmem 0 hagain)

/-- A call of more bytes than the counter can hold, of which too many complete, comes back to the
begin of its buffer. -/
theorem not_increasing_of_wraps (hchecks : uartRefusal t index init c = none)
    (hsize : 65535 < c.size) (hall : ∀ i ≤ 65535, answers i = true)
    (h : Alone (uartProgram t index init c) answers ⟨cfg, 0, 0⟩ ops result) :
    ¬ (ops.map UartOp.offset).Pairwise (· < ·) := by
  have hcounter : ∀ i, uartCounter i < c.size := fun i =>
    (Nat.mod_lt i (by omega : 65536 > 0)).trans_le (by omega)
  obtain ⟨n, hn⟩ : ∃ n, n = 65536 := ⟨_, rfl⟩
  rw [alone_uart_rounds hchecks n fun i hi => ⟨hcounter i, hall i (by omega)⟩] at h
  obtain ⟨ops', rfl, hrest⟩ := h
  rw [alone_uart_round hchecks (hcounter n)] at hrest
  obtain ⟨rest, rfl, -⟩ := hrest
  -- the round behind them is for the first byte again
  have hzero : uartCounter n = 0 := by
    rw [hn]
    exact Nat.mod_self 65536
  rw [map_op_range c hn.le, hzero]
  exact not_increasing_again c (by omega) rest

/-- Such a call never returns if all of its bytes complete. -/
theorem not_alone_of_wraps (hchecks : uartRefusal t index init c = none) (hsize : 65535 < c.size)
    (hall : ∀ i, answers i = true) :
    ¬ Alone (uartProgram t index init c) answers ⟨cfg, 0, 0⟩ ops result := by
  intro h
  have hcounter : ∀ i, uartCounter i < c.size := fun i =>
    (Nat.mod_lt i (by omega : 65536 > 0)).trans_le (by omega)
  -- it has made more rounds than any list of operations is long
  rw [alone_uart_rounds hchecks (ops.length + 1) fun i _ => ⟨hcounter i, hall i⟩] at h
  obtain ⟨ops', hops, -⟩ := h
  have hlength := congrArg List.length hops
  rw [List.length_append, List.length_map, List.length_range] at hlength
  omega

end Rounds

/-! ## When the loops are exact -/

section Exact

variable {t : PinTables} {index : ℕ} {init shortEnums : Bool} {c : UartCall} {answers : ℕ → Bool}
variable {k : ℕ}

theorem uartLimit_le (shortEnums : Bool) : uartLimit shortEnums ≤ 65535 := by
  cases shortEnums <;> decide

/-- A number survives the cast up to the limit. -/
theorem value_count_iff (hk : k ≤ 65535) :
    (UartOpResult.count k).value shortEnums = k ↔ k ≤ uartLimit shortEnums := by
  cases shortEnums with
  | false => exact iff_of_true rfl hk
  | true =>
    change toSigned 8 (k % 256) = (k : ℤ) ↔ k ≤ 127
    unfold toSigned
    constructor
    · intro h
      split_ifs at h <;> omega
    · intro h
      rw [if_pos (show k % 256 < 2 ^ (8 - 1) by omega)]
      omega

theorem uartLate_of_pos (h : 0 < k) (hk : k ≤ 65535) : uartLate k = .count k := by
  have hcounter : uartCounter k = k := Nat.mod_eq_of_lt (by omega)
  unfold uartLate
  rw [hcounter, if_pos h]

/-- The loops are exact for as many bytes as can be counted and returned, and for any size if the
time is up before more than these have completed. -/
theorem uartExact_of_le (hchecks : uartRefusal t index init c = none)
    (h : c.size ≤ uartLimit shortEnums ∨ ∃ i ≤ uartLimit shortEnums, answers i = false) :
    UartExact t index init shortEnums answers c := by
  have hlimit := uartLimit_le shortEnums
  obtain ⟨hk, -, -⟩ := completedBytes_spec answers c.size
  have hle : completedBytes answers c.size ≤ uartLimit shortEnums := by
    rcases h with h | ⟨i, hi, hfalse⟩
    · omega
    · exact (completedBytes_le_of_false hfalse).trans hi
  have hrun := @alone_uart_of_le t index init c answers (.receive 0) hchecks
    (hle.trans hlimit) (by omega)
  have hoffsets : ∀ m, ((List.range m).map c.op).map UartOp.offset = List.range m := by
    intro m
    rw [List.map_map]
    exact (List.map_congr_left fun i _ => c.offset_op i).trans (List.map_id _)
  refine ⟨_, _, hrun, ?_, fun op hop => ?_, ?_⟩
  · rw [hoffsets]
    exact List.pairwise_lt_range
  · obtain ⟨i, hi, rfl⟩ := List.mem_map.mp hop
    have hlt := List.mem_range.mp hi
    rw [c.offset_op]
    omega
  · rw [hchecks]
    dsimp only
    split_ifs with hlt
    · rcases Nat.eq_zero_or_pos (completedBytes answers c.size) with hzero | hpos
      · rw [hzero]
        exact .inr ⟨rfl, rfl⟩
      · rw [uartLate_of_pos hpos (hle.trans hlimit)]
        exact .inl ((value_count_iff (hle.trans hlimit)).mpr hle)
    · exact .inl ((value_count_iff (hle.trans hlimit)).mpr hle)

/-- Beyond that, the count does not survive the cast, or the counter wraps around. -/
theorem not_uartExact_of_lt (hchecks : uartRefusal t index init c = none)
    (hsize : uartLimit shortEnums < c.size) (hall : ∀ i ≤ uartLimit shortEnums, answers i = true) :
    ¬ UartExact t index init shortEnums answers c := by
  rintro ⟨ops, result, hrun, hpairwise, -, hresult⟩
  rw [hchecks] at hresult
  obtain ⟨hk, hcompleted, hnext⟩ := completedBytes_spec answers c.size
  -- too many bytes complete
  have hlt : uartLimit shortEnums < completedBytes answers c.size := by
    by_contra hle
    have hfalse := hnext (by omega)
    rw [hall _ (by omega)] at hfalse
    exact Bool.noConfusion hfalse
  -- for the counter, or for the result
  by_cases hwraps : 65535 < completedBytes answers c.size
  · exact not_increasing_of_wraps hchecks (by omega) (fun i hi => hcompleted i (by omega)) hrun
      hpairwise
  · have hrun' := @alone_uart_of_le t index init c answers (.receive 0) hchecks
      (not_lt.mp hwraps) (by omega)
    obtain ⟨-, rfl⟩ := hrun.unique hrun'
    have hcount : (if completedBytes answers c.size < c.size then
        uartLate (completedBytes answers c.size) else .count (completedBytes answers c.size)) =
        UartOpResult.count (completedBytes answers c.size) := by
      split_ifs
      · exact uartLate_of_pos (by omega) (by omega)
      · rfl
    rw [hcount] at hresult
    rcases hresult with hvalue | ⟨hzero, -⟩
    · have hle := (value_count_iff (not_lt.mp hwraps)).mp hvalue
      omega
    · omega

/-- `UART_Read` and `UART_Write` end and are exact if there are not more bytes than `uartLimit`, or
the time is up before more of them have completed, and in no other case. -/
theorem uartExact_iff (t : PinTables) (index : ℕ) (init shortEnums : Bool) (answers : ℕ → Bool)
    (c : UartCall) :
    UartExact t index init shortEnums answers c ↔
      uartRefusal t index init c ≠ none ∨ c.size ≤ uartLimit shortEnums ∨
        ∃ i ≤ uartLimit shortEnums, answers i = false := by
  cases hchecks : uartRefusal t index init c with
  | some e =>
    refine iff_of_true ⟨[], e, (alone_ret (uartProgram_refuses hchecks)).mpr ⟨rfl, rfl⟩,
      List.Pairwise.nil, nofun, ?_⟩ (.inl nofun)
    rw [hchecks]
    exact ⟨rfl, rfl⟩
  | none =>
    constructor
    · intro h
      by_contra hnot
      push Not at hnot
      obtain ⟨-, hsize, hall⟩ := hnot
      exact not_uartExact_of_lt hchecks hsize (fun i hi => by simpa using hall i hi) h
    · rintro (h | h)
      · exact absurd rfl h
      · exact uartExact_of_le hchecks h

/-- 65536 bytes that all complete are written again and again. -/
theorem not_uartExact_65536 :
    ¬ UartExact stm32f207Tables 0 true false (fun _ => true) (.write true 65536) ∧
      ¬ ∃ ops result, Alone (uartProgram stm32f207Tables 0 true (.write true 65536))
        (fun _ => true) ⟨.receive 0, 0, 0⟩ ops result := by
  have hchecks : uartRefusal stm32f207Tables 0 true (.write true 65536) = none := by decide
  have hsize : 65535 < UartCall.size (.write true 65536) := Nat.lt_succ_self 65535
  refine ⟨not_uartExact_of_lt hchecks hsize fun _ _ => rfl, ?_⟩
  rintro ⟨ops, result, hrun⟩
  exact not_alone_of_wraps hchecks hsize (fun _ => rfl) hrun

end Exact

end WLink.Driver
