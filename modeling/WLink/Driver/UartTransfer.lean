import WLink.Driver.Peripherals
import WLink.Lib.PortOwn

/-!
# Transfers of the UART driver

`UART_Read` and `UART_Write` as the calls of a port. Each transfers byte after byte: it clears its
semaphore, starts an operation of the HAL for one byte, whose result is not looked at, and waits. A
call whose time is up leaves its operation to the HAL. The counter of the bytes is a `uint16_t`.
`UartBytesOwn` says that each byte that a call reports has been transferred by an operation that the
call has started for it.
-/

namespace WLink.Driver

open Lib

inductive UartOpResult
  /-- the number of bytes -/
  | count (n : ℕ)
  | invalidParameter
  | notInit
  | busy
  deriving DecidableEq

/-- An operation of the HAL for one byte of the buffer of a call. -/
inductive UartOp
  | receive (offset : ℕ)
  | transmit (offset : ℕ)
  deriving DecidableEq

/-- The two directions: the channels of the HAL, and `UART_Recv_SyncHandle` and
`UART_Send_SyncHandle`. -/
inductive UartDir
  | rx
  | tx
  deriving DecidableEq

/-- A call, with whether its buffer is not `NULL` and the number of bytes. -/
inductive UartCall
  | read (dataRd : Bool) (size : ℕ)
  | write (dataWr : Bool) (size : ℕ)

/-- `recv_bytes` and `send_bytes` after some rounds. -/
def uartCounter (rounds : ℕ) : ℕ := rounds % 65536

/-- The loop that `UART_Read` and `UART_Write` share. A round has `width` commands: it clears the
semaphore if there is a byte left, starts the operation for the byte and waits, and its last command
returns when the time is up. In `UART_Read` the state of the receiver is reset before the start, and
what was being received is given up. -/
def uartBytes (width : ℕ) (checks : Option UartOpResult) (size : ℕ) (dir : UartDir)
    (op : ℕ → UartOp) (pc : ℕ) : Command UartDir UartDir UartOp UartOpResult :=
  let n := uartCounter (pc / width)
  if pc % width = 0 then
    match if pc = 0 then checks else none with
    | some e => .ret e
    | none => if n < size then .clear dir else .ret (.count n)
  else if pc % width + 1 = width then if 0 < n then .ret (.count n) else .ret .busy
  else if pc % width + 2 = width then .wait dir (op n) (pc + 2) (pc + 1)
  else if pc % width + 3 = width then .start [dir] (some (op n)) (pc + 1)
  else .stop dir

/-- `UART_Read`, with `UART_Init_Status`. -/
def uartRead (t : PinTables) (index : ℕ) (init dataRd : Bool) (size : ℕ) :
    ℕ → Command UartDir UartDir UartOp UartOpResult :=
  uartBytes 5
    (if t.uartMax ≤ index then some .invalidParameter
    else if dataRd = false then some .invalidParameter
    else if init = false then some .notInit
    else none)
    size .rx .receive

/-- `UART_Write`, which takes no empty buffer. -/
def uartWrite (t : PinTables) (index : ℕ) (init dataWr : Bool) (size : ℕ) :
    ℕ → Command UartDir UartDir UartOp UartOpResult :=
  uartBytes 4
    (if t.uartMax ≤ index then some .invalidParameter
    else if dataWr = false ∨ size = 0 then some .invalidParameter
    else if init = false then some .notInit
    else none)
    size .tx .transmit

def uartProgram (t : PinTables) (index : ℕ) (init : Bool) :
    UartCall → ℕ → Command UartDir UartDir UartOp UartOpResult
  | .read dataRd size => uartRead t index init dataRd size
  | .write dataWr size => uartWrite t index init dataWr size

/-- A UART: `HAL_UART_RxCpltCallback` and `HAL_UART_TxCpltCallback` signal the semaphore of their
direction, and there is no callback for errors. -/
def uartPort (t : PinTables) (index : ℕ) (init : Bool) :
    Port UartCall UartDir UartDir UartOp UartOpResult where
  program := uartProgram t index init
  signals := fun dir _ ok => if ok = true then [dir] else []
  supersedes := fun _ _ => false
  reset := .receive 0

/-- The commands of a round. -/
def UartCall.width : UartCall → ℕ
  | read _ _ => 5
  | write _ _ => 4

def UartCall.dir : UartCall → UartDir
  | read _ _ => .rx
  | write _ _ => .tx

/-- The operation for a byte of the buffer. -/
def UartCall.op : UartCall → ℕ → UartOp
  | read _ _ => .receive
  | write _ _ => .transmit

/-- Each byte that a call reports has been transferred by an operation that it has started for that
byte. -/
def UartBytesOwn (s : PortState UartCall UartDir UartDir UartOp UartOpResult) : Prop :=
  ∀ x ∈ s.log, ∀ n, x.result = .count n → ∀ i < n, ∃ d ∈ x.running.seen,
    d.ticket = ⟨x.running.id, x.running.call.op i⟩ ∧ d.ok = true

/-! ## What a call waits for -/

def uartAwaits (c : UartCall) (pc : ℕ) (dir : UartDir) : Option UartOp :=
  if pc % c.width + 2 = c.width ∧ dir = c.dir then some (c.op (uartCounter (pc / c.width)))
  else none

/-- A call has waited for a byte in each round that is over. -/
def uartWaited (c : UartCall) (pc : ℕ) : List UartOp :=
  (List.range (pc / c.width)).map fun n => c.op (uartCounter n)

section Program

variable {t : PinTables} {index : ℕ} {init : Bool} {c : UartCall} {pc : ℕ}

/-- The checks of a call. -/
def uartRefusal (t : PinTables) (index : ℕ) (init : Bool) : UartCall → Option UartOpResult
  | .read dataRd _ =>
    if t.uartMax ≤ index then some .invalidParameter
    else if dataRd = false then some .invalidParameter
    else if init = false then some .notInit
    else none
  | .write dataWr size =>
    if t.uartMax ≤ index then some .invalidParameter
    else if dataWr = false ∨ size = 0 then some .invalidParameter
    else if init = false then some .notInit
    else none

def UartCall.size : UartCall → ℕ
  | read _ size => size
  | write _ size => size

theorem uartProgram_eq (t : PinTables) (index : ℕ) (init : Bool) (c : UartCall) (pc : ℕ) :
    uartProgram t index init c pc =
      uartBytes c.width (uartRefusal t index init c) c.size c.dir c.op pc := by
  cases c <;> rfl

theorem UartCall.width_cases (c : UartCall) : c.width = 4 ∨ c.width = 5 := by
  cases c
  · exact .inr rfl
  · exact .inl rfl

/-- A round begins with the test of the loop, or with the checks. -/
theorem uartProgram_test (h : pc % c.width = 0) :
    (∃ e, uartRefusal t index init c = some e ∧ uartProgram t index init c pc = .ret e) ∨
      uartProgram t index init c pc = .clear c.dir ∨
      uartProgram t index init c pc = .ret (.count (uartCounter (pc / c.width))) := by
  rw [uartProgram_eq]
  unfold uartBytes
  dsimp only
  rw [if_pos h]
  obtain ⟨checks, hchecks⟩ : ∃ checks,
    (if pc = 0 then uartRefusal t index init c else none) = checks := ⟨_, rfl⟩
  simp only [hchecks]
  cases checks with
  | some e =>
    refine .inl ⟨e, ?_, rfl⟩
    split_ifs at hchecks
    exact hchecks
  | none =>
    dsimp only
    split_ifs
    · exact .inr (.inl rfl)
    · exact .inr (.inr rfl)

theorem uartProgram_late (h : pc % c.width + 1 = c.width) :
    uartProgram t index init c pc = .ret (.count (uartCounter (pc / c.width))) ∨
      uartProgram t index init c pc = .ret .busy := by
  have hwidth := c.width_cases
  rw [uartProgram_eq]
  unfold uartBytes
  dsimp only
  rw [if_neg (by omega), if_pos h]
  split_ifs
  · exact .inl rfl
  · exact .inr rfl

theorem uartProgram_waits (h : pc % c.width + 2 = c.width) :
    uartProgram t index init c pc =
      .wait c.dir (c.op (uartCounter (pc / c.width))) (pc + 2) (pc + 1) := by
  have hwidth := c.width_cases
  rw [uartProgram_eq]
  unfold uartBytes
  dsimp only
  rw [if_neg (by omega), if_neg (by omega), if_pos h]

theorem uartProgram_starts (h : pc % c.width + 3 = c.width) :
    uartProgram t index init c pc =
      .start [c.dir] (some (c.op (uartCounter (pc / c.width)))) (pc + 1) := by
  have hwidth := c.width_cases
  rw [uartProgram_eq]
  unfold uartBytes
  dsimp only
  rw [if_neg (by omega), if_neg (by omega), if_neg (by omega), if_pos h]

theorem uartProgram_stops (h0 : pc % c.width ≠ 0) (h : pc % c.width + 3 < c.width) :
    uartProgram t index init c pc = .stop c.dir := by
  rw [uartProgram_eq]
  unfold uartBytes
  dsimp only
  rw [if_neg h0, if_neg (by omega), if_neg (by omega), if_neg (by omega)]

/-- The places of a round. -/
theorem UartCall.place (c : UartCall) (pc : ℕ) :
    pc % c.width = 0 ∨ pc % c.width + 1 = c.width ∨ pc % c.width + 2 = c.width ∨
      pc % c.width + 3 = c.width ∨ pc % c.width ≠ 0 ∧ pc % c.width + 3 < c.width := by
  have hwidth := c.width_cases
  have hlt : pc % c.width < c.width := Nat.mod_lt _ (by omega)
  omega

/-- The next command is of the same round. -/
theorem UartCall.next_div (c : UartCall) {pc : ℕ} (h : pc % c.width + 1 < c.width) :
    (pc + 1) / c.width = pc / c.width ∧ (pc + 1) % c.width = pc % c.width + 1 := by
  rcases c.width_cases with hw | hw <;> rw [hw] at h ⊢ <;> omega

/-- After the wait comes the next round. -/
theorem UartCall.round_div (c : UartCall) {pc : ℕ} (h : pc % c.width + 2 = c.width) :
    (pc + 2) / c.width = pc / c.width + 1 ∧ (pc + 2) % c.width = 0 := by
  rcases c.width_cases with hw | hw <;> rw [hw] at h ⊢ <;> omega

/-- What the checks return is no number of bytes. -/
theorem uartRefusal_count (n : ℕ) : uartRefusal t index init c ≠ some (.count n) := by
  cases c
  all_goals
    unfold uartRefusal
    dsimp only
    split_ifs
    all_goals nofun

theorem uartAwaits_eq_none (h : pc % c.width + 2 ≠ c.width) (dir : UartDir) :
    uartAwaits c pc dir = none := if_neg fun hpc => h hpc.1

theorem uartProgram_wait {i : UartDir} {q : UartOp} {y x : ℕ}
    (h : uartProgram t index init c pc = .wait i q y x) :
    pc % c.width + 2 = c.width ∧ i = c.dir ∧ q = c.op (uartCounter (pc / c.width)) ∧
      y = pc + 2 := by
  rcases c.place pc with hpc | hpc | hpc | hpc | ⟨hpc, hpc'⟩
  · rcases uartProgram_test hpc with ⟨e, -, he⟩ | he | he
    all_goals exact absurd (he.symm.trans h) nofun
  · rcases uartProgram_late hpc with he | he
    all_goals exact absurd (he.symm.trans h) nofun
  · have hwait := (uartProgram_waits hpc).symm.trans h
    cases hwait
    exact ⟨hpc, rfl, rfl, rfl⟩
  · exact absurd ((uartProgram_starts hpc).symm.trans h) nofun
  · exact absurd ((uartProgram_stops hpc hpc').symm.trans h) nofun

theorem uartProgram_start {chans : List UartDir} {req : Option UartOp} {x : ℕ}
    (h : uartProgram t index init c pc = .start chans req x) :
    pc % c.width + 3 = c.width ∧ chans = [c.dir] ∧
      req = some (c.op (uartCounter (pc / c.width))) ∧ x = pc + 1 := by
  rcases c.place pc with hpc | hpc | hpc | hpc | ⟨hpc, hpc'⟩
  · rcases uartProgram_test hpc with ⟨e, -, he⟩ | he | he
    all_goals exact absurd (he.symm.trans h) nofun
  · rcases uartProgram_late hpc with he | he
    all_goals exact absurd (he.symm.trans h) nofun
  · exact absurd ((uartProgram_waits hpc).symm.trans h) nofun
  · have hstart := (uartProgram_starts hpc).symm.trans h
    cases hstart
    exact ⟨hpc, rfl, rfl, rfl⟩
  · exact absurd ((uartProgram_stops hpc hpc').symm.trans h) nofun

/-- A call returns the number of its rounds as far as the counter can hold it. -/
theorem uartProgram_ret_count {n : ℕ} (h : uartProgram t index init c pc = .ret (.count n)) :
    n = uartCounter (pc / c.width) := by
  rcases c.place pc with hpc | hpc | hpc | hpc | ⟨hpc, hpc'⟩
  · rcases uartProgram_test hpc with ⟨e, hsome, he⟩ | he | he
    · have hret : Command.ret e = .ret (.count n) := he.symm.trans h
      cases hret
      exact absurd hsome (uartRefusal_count n)
    · exact absurd (he.symm.trans h) nofun
    · have hret := he.symm.trans h
      cases hret
      rfl
  · rcases uartProgram_late hpc with he | he
    · have hret := he.symm.trans h
      cases hret
      rfl
    · exact absurd (he.symm.trans h) nofun
  · exact absurd ((uartProgram_waits hpc).symm.trans h) nofun
  · exact absurd ((uartProgram_starts hpc).symm.trans h) nofun
  · exact absurd ((uartProgram_stops hpc hpc').symm.trans h) nofun

/-- The ways through the commands other than those that start and take something. -/
theorem uartProgram_passes {pc' : ℕ} (h : (uartProgram t index init c pc).Passes pc pc') :
    pc' = pc + 1 ∧ pc % c.width + 1 < c.width ∧ pc % c.width + 3 ≠ c.width := by
  have hwidth := c.width_cases
  rcases c.place pc with hpc | hpc | hpc | hpc | ⟨hpc, hpc'⟩
  · rcases uartProgram_test hpc with ⟨e, -, he⟩ | he | he
    · rw [he] at h
      exact h.elim
    · rw [he] at h
      exact ⟨h, by omega, by omega⟩
    · rw [he] at h
      exact h.elim
  · rcases uartProgram_late hpc with he | he
    all_goals
      rw [he] at h
      exact h.elim
  · rw [uartProgram_waits hpc] at h
    exact ⟨h, by omega, by omega⟩
  · rw [uartProgram_starts hpc] at h
    exact h.elim
  · rw [uartProgram_stops hpc hpc'] at h
    exact ⟨h, by omega, by omega⟩

end Program

def uartDiscipline (t : PinTables) (index : ℕ) (init : Bool) :
    Discipline (uartPort t index init) where
  awaits := uartAwaits
  waited := uartWaited
  fresh := by
    intro c
    have hwidth := c.width_cases
    refine ⟨fun i => uartAwaits_eq_none ?_ i, ?_⟩
    · rw [Nat.zero_mod]
      omega
    · unfold uartWaited
      rw [Nat.zero_div]
      rfl
  idle := by
    intro c pc hnowait i
    refine uartAwaits_eq_none (fun hpc => ?_) i
    exact hnowait c.dir (c.op (uartCounter (pc / c.width))) (pc + 2) (pc + 1)
      (uartProgram_waits hpc)
  pass := by
    intro c pc pc' hpass
    obtain ⟨rfl, hlt, hne⟩ := uartProgram_passes hpass
    obtain ⟨hdiv, hmod⟩ := c.next_div hlt
    refine ⟨uartAwaits_eq_none ?_, ?_⟩
    · rw [hmod]
      omega
    · unfold uartWaited
      rw [hdiv]
  wait := by
    intro c pc i q y x hprogram
    obtain ⟨hpc, rfl, rfl, rfl⟩ := uartProgram_wait hprogram
    obtain ⟨hdiv, hmod⟩ := c.round_div hpc
    refine ⟨if_pos ⟨hpc, rfl⟩, ?_, fun j p hj => ?_⟩
    · unfold uartWaited
      rw [hdiv, List.range_succ, List.map_append, List.map_singleton]
    · have hwidth := c.width_cases
      have hnone : uartAwaits c (pc + 2) j = none := uartAwaits_eq_none (by omega) j
      exact absurd (hnone.symm.trans hj) nofun
  start := by
    intro c pc chans req x hprogram
    obtain ⟨hpc, -, -, rfl⟩ := uartProgram_start hprogram
    obtain ⟨hdiv, hmod⟩ := @UartCall.next_div c pc (by omega)
    have hwaited : uartWaited c (pc + 1) = uartWaited c pc := by
      unfold uartWaited
      rw [hdiv]
    refine ⟨hwaited, hwaited, c.dir, ?_⟩
    have hawaits : uartAwaits c (pc + 1) c.dir = some _ := if_pos ⟨by omega, rfl⟩
    rw [hawaits]
    nofun
  signals := by
    intro c pc chans req x hprogram k hk q ok i hreq hi
    obtain ⟨hpc, rfl, -, -⟩ := uartProgram_start hprogram
    obtain ⟨-, hmod⟩ := @UartCall.next_div c pc (by omega)
    have hi' : i ∈ (if ok = true then [k] else []) := hi
    split_ifs at hi'
    · obtain rfl : i = c.dir := (List.mem_singleton.mp hi').trans (List.mem_singleton.mp hk)
      have hawaits : uartAwaits c (pc + 1) c.dir = some _ := if_pos ⟨by omega, rfl⟩
      rw [hawaits]
      nofun
    · exact absurd hi' List.not_mem_nil

/-! ## Runs -/

variable {t : PinTables} {index : ℕ} {init : Bool}

theorem uartBytesOwn_of_kept {s : PortState UartCall UartDir UartDir UartOp UartOpResult}
    (hkept : (uartDiscipline t index init).Kept s)
    (htracked : (uartDiscipline t index init).Tracked s) : UartBytesOwn s := by
  intro x hx n hresult i hi
  obtain ⟨hret, -, -⟩ := htracked.log x hx
  rw [hresult] at hret
  have hn := uartProgram_ret_count hret
  -- the counter is at most the number of rounds, and has been right for the first of them
  rw [hn] at hi
  have hi' : i < (x.running.pc / x.running.call.width) % 65536 := hi
  have hcounter : uartCounter i = i := Nat.mod_eq_of_lt (by omega)
  refine hkept.exists_own htracked hx (List.mem_map.mpr ⟨i, List.mem_range.mpr ?_, ?_⟩)
  · have hle := Nat.mod_le (x.running.pc / x.running.call.width) 65536
    omega
  · rw [hcounter]

end WLink.Driver
