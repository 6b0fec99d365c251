import WLink.Driver.Peripherals
import WLink.Lib.PortOwn

/-!
# Transfers of the SPI driver

`SPI_Master_WriteByte`, `SPI_Master_ReadByte` and `SPI_Master_TransferByte` as the calls of a port.
A mutex keeps the calls apart, and each clears its semaphores before it starts an operation of the
HAL, whose result is not looked at; a call whose time is up leaves its operation to the HAL.
`SpiBytesOwn` says that a call that returns `hwSPI_OK` has had its byte transferred by an operation
that it has started.
-/

namespace WLink.Driver

open Lib

inductive SpiOpResult
  | ok
  | invalidParameter
  | notInit
  | mutexTimeout
  | slaveTimeout
  deriving DecidableEq

/-- An operation of the HAL for one byte. -/
inductive SpiOp
  | transmit (dat : UInt8)
  | receive
  | transmitReceive (dat : UInt8)
  deriving DecidableEq

/-- `Spi_Master_Send_SyncHandle` and `Spi_Master_Recv_SyncHandle` of the peripheral. -/
inductive SpiSync
  | send
  | recv
  deriving DecidableEq

/-- A call; where there is a buffer, whether it is not `NULL`. -/
inductive SpiCall
  | writeByte (dat : UInt8)
  | readByte (dat : Bool)
  | transferByte (wrDat : UInt8) (rdDat : Bool)

/-- The operation that a call asks the HAL for. -/
def SpiCall.op : SpiCall → SpiOp
  | writeByte dat => .transmit dat
  | readByte _ => .receive
  | transferByte wrDat _ => .transmitReceive wrDat

/-- The mutex, which `SPI_MASTER_MUTEX_LOCK` returns without, is taken if the checks are passed. -/
def spiEnter (checks : Option SpiOpResult) (busy : ℕ) : Command Unit SpiSync SpiOp SpiOpResult :=
  match checks with
  | some e => .ret e
  | none => .lock busy

/-- The body that `SPI_Master_WriteByte` and `SPI_Master_ReadByte` share. -/
def spiMasterByte (checks : Option SpiOpResult) (sync : SpiSync) (op : SpiOp) :
    ℕ → Command Unit SpiSync SpiOp SpiOpResult
  | 0 => spiEnter checks 8
  | 1 => .clear sync
  | 2 => .start [()] (some op) 3
  | 3 => .wait sync op 4 6
  | 4 => .unlock
  | 5 => .ret .ok
  | 6 => .unlock
  | 7 => .ret .slaveTimeout
  | _ => .ret .mutexTimeout

/-- `SPI_Master_WriteByte`, with `Spi_Master_Init_Status`. -/
def spiMasterWriteByte (t : PinTables) (index : ℕ) (init : Bool) (dat : UInt8) :
    ℕ → Command Unit SpiSync SpiOp SpiOpResult :=
  spiMasterByte
    (if t.spiMax ≤ index then some .invalidParameter
    else if init = false then some .notInit
    else none)
    .send (.transmit dat)

/-- `SPI_Master_ReadByte` -/
def spiMasterReadByte (t : PinTables) (index : ℕ) (init dat : Bool) :
    ℕ → Command Unit SpiSync SpiOp SpiOpResult :=
  spiMasterByte
    (if t.spiMax ≤ index then some .invalidParameter
    else if dat = false then some .invalidParameter
    else if init = false then some .notInit
    else none)
    .recv .receive

/-- `SPI_Master_TransferByte`: one operation, with a semaphore for each direction. -/
def spiMasterTransferByte (t : PinTables) (index : ℕ) (init : Bool) (wrDat : UInt8)
    (rdDat : Bool) : ℕ → Command Unit SpiSync SpiOp SpiOpResult
  | 0 => spiEnter
      (if t.spiMax ≤ index then some .invalidParameter
      else if rdDat = false then some .invalidParameter
      else if init = false then some .notInit
      else none) 12
  | 1 => .clear .send
  | 2 => .clear .recv
  | 3 => .start [()] (some (.transmitReceive wrDat)) 4
  | 4 => .wait .send (.transmitReceive wrDat) 5 8
  | 5 => .wait .recv (.transmitReceive wrDat) 6 10
  | 6 => .unlock
  | 7 => .ret .ok
  | 8 => .unlock
  | 9 => .ret .slaveTimeout
  | 10 => .unlock
  | 11 => .ret .slaveTimeout
  | _ => .ret .mutexTimeout

def spiProgram (t : PinTables) (index : ℕ) (init : Bool) :
    SpiCall → ℕ → Command Unit SpiSync SpiOp SpiOpResult
  | .writeByte dat => spiMasterWriteByte t index init dat
  | .readByte dat => spiMasterReadByte t index init dat
  | .transferByte wrDat rdDat => spiMasterTransferByte t index init wrDat rdDat

/-- The semaphores that `HAL_SPI_TxCpltCallback`, `HAL_SPI_RxCpltCallback` and
`HAL_SPI_TxRxCpltCallback` signal; there is no callback for errors. -/
def spiSignals : SpiOp → List SpiSync
  | .transmit _ => [.send]
  | .receive => [.recv]
  | .transmitReceive _ => [.send, .recv]

/-- `HAL_SPI_Receive_IT` sets the state of the handle to `HAL_SPI_STATE_BUSY_RX` whatever it was,
and `HAL_SPI_TransmitReceive_IT` starts in that state, too. -/
def spiSupersedes : SpiOp → SpiOp → Bool
  | _, .receive => true
  | .receive, .transmitReceive _ => true
  | _, _ => false

/-- An SPI peripheral. -/
def spiPort (t : PinTables) (index : ℕ) (init : Bool) :
    Port SpiCall Unit SpiSync SpiOp SpiOpResult where
  program := spiProgram t index init
  signals := fun _ op ok => if ok = true then spiSignals op else []
  supersedes := spiSupersedes
  reset := .receive

/-- A call that returns `hwSPI_OK` has had its byte transferred, by an operation it has started. -/
def SpiBytesOwn (s : PortState SpiCall Unit SpiSync SpiOp SpiOpResult) : Prop :=
  ∀ x ∈ s.log, x.result = .ok → ∃ d ∈ x.running.seen,
    d.ticket = ⟨x.running.id, x.running.call.op⟩ ∧ d.ok = true

instance (s : PortState SpiCall Unit SpiSync SpiOp SpiOpResult) : Decidable (SpiBytesOwn s) :=
  inferInstanceAs (Decidable (∀ x ∈ s.log, x.result = .ok → ∃ d ∈ x.running.seen, _))

/-! ## What a call waits for -/

/-- The body for one byte waits at one command. -/
def spiByteAwaits (sync : SpiSync) (op : SpiOp) (pc : ℕ) (i : SpiSync) : Option SpiOp :=
  if pc = 3 ∧ i = sync then some op else none

def spiByteWaited (op : SpiOp) (pc : ℕ) : List SpiOp := if pc = 4 ∨ pc = 5 then [op] else []

/-- A transfer waits for both directions, one after the other. -/
def spiTransferAwaits (op : SpiOp) (pc : ℕ) (i : SpiSync) : Option SpiOp :=
  if pc = 4 ∨ pc = 5 ∧ i = .recv then some op else none

def spiTransferWaited (op : SpiOp) : ℕ → List SpiOp
  | 5 | 10 | 11 => [op]
  | 6 | 7 => [op, op]
  | _ => []

def spiAwaits (c : SpiCall) (pc : ℕ) (i : SpiSync) : Option SpiOp :=
  match c with
  | .writeByte _ => spiByteAwaits .send c.op pc i
  | .readByte _ => spiByteAwaits .recv c.op pc i
  | .transferByte _ _ => spiTransferAwaits c.op pc i

def spiWaited (c : SpiCall) (pc : ℕ) : List SpiOp :=
  match c with
  | .transferByte _ _ => spiTransferWaited c.op pc
  | _ => spiByteWaited c.op pc

section Byte

variable {checks : Option SpiOpResult} {sync : SpiSync} {op : SpiOp} {pc : ℕ}

theorem spiEnter_cases (checks : Option SpiOpResult) (busy : ℕ) :
    (∃ e, checks = some e ∧ spiEnter checks busy = .ret e) ∨ spiEnter checks busy = .lock busy := by
  cases checks with
  | none => exact .inr rfl
  | some e => exact .inl ⟨e, rfl, rfl⟩

theorem spiMasterByte_wait {i : SpiSync} {q : SpiOp} {y x : ℕ}
    (h : spiMasterByte checks sync op pc = .wait i q y x) :
    pc = 3 ∧ i = sync ∧ q = op ∧ y = 4 := by
  unfold spiMasterByte at h
  split at h
  · rcases spiEnter_cases checks 8 with ⟨e, -, he⟩ | he
    · exact absurd (he.symm.trans h) nofun
    · exact absurd (he.symm.trans h) nofun
  all_goals cases h
  exact ⟨rfl, rfl, rfl, rfl⟩

theorem spiMasterByte_start {chans : List Unit} {req : Option SpiOp} {x : ℕ}
    (h : spiMasterByte checks sync op pc = .start chans req x) :
    pc = 2 ∧ req = some op ∧ x = 3 := by
  unfold spiMasterByte at h
  split at h
  · rcases spiEnter_cases checks 8 with ⟨e, -, he⟩ | he
    · exact absurd (he.symm.trans h) nofun
    · exact absurd (he.symm.trans h) nofun
  all_goals cases h
  exact ⟨rfl, rfl, rfl⟩

theorem spiMasterByte_ret_ok (hchecks : checks ≠ some .ok)
    (h : spiMasterByte checks sync op pc = .ret .ok) : pc = 5 := by
  unfold spiMasterByte at h
  split at h
  · rcases spiEnter_cases checks 8 with ⟨e, hsome, he⟩ | he
    · have hret : Command.ret e = .ret .ok := he.symm.trans h
      cases hret
      exact absurd hsome hchecks
    · exact absurd (he.symm.trans h) nofun
  all_goals cases h
  rfl

theorem spiMasterByte_passes {pc' : ℕ} (h : (spiMasterByte checks sync op pc).Passes pc pc') :
    (∀ i, spiByteAwaits sync op pc' i = none) ∧ spiByteWaited op pc' = spiByteWaited op pc := by
  unfold spiMasterByte at h
  split at h
  · rcases spiEnter_cases checks 8 with ⟨e, -, he⟩ | he
    · rw [he] at h
      exact h.elim
    · rw [he] at h
      rcases h with rfl | rfl
      · exact ⟨fun _ => rfl, rfl⟩
      · exact ⟨fun _ => rfl, rfl⟩
  · cases h
    exact ⟨fun _ => rfl, rfl⟩
  · exact h.elim
  · cases h
    exact ⟨fun _ => rfl, rfl⟩
  · cases h
    exact ⟨fun _ => rfl, rfl⟩
  · exact h.elim
  · cases h
    exact ⟨fun _ => rfl, rfl⟩
  · exact h.elim
  · exact h.elim

end Byte

section Transfer

variable {t : PinTables} {index : ℕ} {init rdDat : Bool} {wrDat : UInt8} {pc : ℕ}

theorem spiMasterTransferByte_wait {i : SpiSync} {q : SpiOp} {y x : ℕ}
    (h : spiMasterTransferByte t index init wrDat rdDat pc = .wait i q y x) :
    q = .transmitReceive wrDat ∧ (pc = 4 ∧ i = .send ∧ y = 5 ∨ pc = 5 ∧ i = .recv ∧ y = 6) := by
  unfold spiMasterTransferByte at h
  split at h
  · unfold spiEnter at h
    split at h
    all_goals cases h
  all_goals cases h
  · exact ⟨rfl, .inl ⟨rfl, rfl, rfl⟩⟩
  · exact ⟨rfl, .inr ⟨rfl, rfl, rfl⟩⟩

theorem spiMasterTransferByte_start {chans : List Unit} {req : Option SpiOp} {x : ℕ}
    (h : spiMasterTransferByte t index init wrDat rdDat pc = .start chans req x) :
    pc = 3 ∧ req = some (.transmitReceive wrDat) ∧ x = 4 := by
  unfold spiMasterTransferByte at h
  split at h
  · unfold spiEnter at h
    split at h
    all_goals cases h
  all_goals cases h
  exact ⟨rfl, rfl, rfl⟩

theorem spiMasterTransferByte_ret_ok
    (h : spiMasterTransferByte t index init wrDat rdDat pc = .ret .ok) : pc = 7 := by
  unfold spiMasterTransferByte at h
  split at h
  · split_ifs at h
    all_goals cases h
  all_goals cases h
  rfl

theorem spiMasterTransferByte_passes {pc' : ℕ} (op : SpiOp)
    (h : (spiMasterTransferByte t index init wrDat rdDat pc).Passes pc pc') :
    (∀ i, spiTransferAwaits op pc' i = none) ∧
      spiTransferWaited op pc' = spiTransferWaited op pc := by
  unfold spiMasterTransferByte at h
  split at h
  · unfold spiEnter at h
    split at h
    · exact h.elim
    · rcases h with rfl | rfl
      · exact ⟨fun _ => rfl, rfl⟩
      · exact ⟨fun _ => rfl, rfl⟩
  · cases h
    exact ⟨fun _ => rfl, rfl⟩
  · cases h
    exact ⟨fun _ => rfl, rfl⟩
  · exact h.elim
  · cases h
    exact ⟨fun _ => rfl, rfl⟩
  · cases h
    exact ⟨fun _ => rfl, rfl⟩
  · cases h
    exact ⟨fun _ => rfl, rfl⟩
  · exact h.elim
  · cases h
    exact ⟨fun _ => rfl, rfl⟩
  · exact h.elim
  · cases h
    exact ⟨fun _ => rfl, rfl⟩
  · exact h.elim
  · exact h.elim

end Transfer

/-! ## The discipline of the calls -/

section Program

variable {t : PinTables} {index : ℕ} {init : Bool} {c : SpiCall} {pc : ℕ}

theorem spiProgram_wait {i : SpiSync} {q : SpiOp} {y x : ℕ}
    (h : spiProgram t index init c pc = .wait i q y x) :
    spiAwaits c pc i = some q ∧ spiWaited c y = spiWaited c pc ++ [q] ∧
      ∀ j p, spiAwaits c y j = some p → spiAwaits c pc j = some p := by
  cases c with
  | writeByte dat =>
    obtain ⟨rfl, rfl, rfl, rfl⟩ := spiMasterByte_wait h
    exact ⟨rfl, rfl, nofun⟩
  | readByte dat =>
    obtain ⟨rfl, rfl, rfl, rfl⟩ := spiMasterByte_wait h
    exact ⟨rfl, rfl, nofun⟩
  | transferByte wrDat rdDat =>
    obtain ⟨rfl, ⟨rfl, rfl, rfl⟩ | ⟨rfl, rfl, rfl⟩⟩ := spiMasterTransferByte_wait h
    · refine ⟨rfl, rfl, fun j p hj => ?_⟩
      cases j with
      | send => exact absurd hj nofun
      | recv => exact hj
    · exact ⟨rfl, rfl, nofun⟩

/-- The commands at which a call waits for something are those that wait. -/
theorem spiProgram_idle (h : ∀ i q y x, spiProgram t index init c pc ≠ .wait i q y x)
    (i : SpiSync) : spiAwaits c pc i = none := by
  cases c with
  | writeByte dat =>
    refine if_neg ?_
    rintro ⟨rfl, -⟩
    exact h .send (.transmit dat) 4 6 rfl
  | readByte dat =>
    refine if_neg ?_
    rintro ⟨rfl, -⟩
    exact h .recv .receive 4 6 rfl
  | transferByte wrDat rdDat =>
    refine if_neg ?_
    rintro (rfl | ⟨rfl, -⟩)
    · exact h .send (.transmitReceive wrDat) 5 8 rfl
    · exact h .recv (.transmitReceive wrDat) 6 10 rfl

theorem spiProgram_passes {pc' : ℕ} (h : (spiProgram t index init c pc).Passes pc pc') :
    (∀ i, spiAwaits c pc' i = none) ∧ spiWaited c pc' = spiWaited c pc := by
  cases c with
  | writeByte dat => exact spiMasterByte_passes h
  | readByte dat => exact spiMasterByte_passes h
  | transferByte wrDat rdDat => exact spiMasterTransferByte_passes _ h

/-- A call starts the operation it is about, and waits for all that this signals. -/
theorem spiProgram_start {chans : List Unit} {req : Option SpiOp} {x : ℕ}
    (h : spiProgram t index init c pc = .start chans req x) :
    req = some c.op ∧ x = pc + 1 ∧ spiWaited c (pc + 1) = spiWaited c pc ∧
      ∀ i ∈ spiSignals c.op, spiAwaits c (pc + 1) i ≠ none := by
  cases c with
  | writeByte dat =>
    obtain ⟨rfl, rfl, rfl⟩ := spiMasterByte_start h
    refine ⟨rfl, rfl, rfl, fun i hi => ?_⟩
    rw [List.mem_singleton.mp hi]
    nofun
  | readByte dat =>
    obtain ⟨rfl, rfl, rfl⟩ := spiMasterByte_start h
    refine ⟨rfl, rfl, rfl, fun i hi => ?_⟩
    rw [List.mem_singleton.mp hi]
    nofun
  | transferByte wrDat rdDat =>
    obtain ⟨rfl, rfl, rfl⟩ := spiMasterTransferByte_start h
    exact ⟨rfl, rfl, rfl, fun i hi => nofun⟩

theorem spiProgram_ret_ok (h : spiProgram t index init c pc = .ret .ok) :
    c.op ∈ spiWaited c pc := by
  cases c with
  | writeByte dat =>
    have hpc := spiMasterByte_ret_ok (by split_ifs <;> nofun) h
    rw [hpc]
    exact List.mem_singleton_self _
  | readByte dat =>
    have hpc := spiMasterByte_ret_ok (by split_ifs <;> nofun) h
    rw [hpc]
    exact List.mem_singleton_self _
  | transferByte wrDat rdDat =>
    have hpc := spiMasterTransferByte_ret_ok h
    rw [hpc]
    exact List.mem_cons_self

end Program

def spiDiscipline (t : PinTables) (index : ℕ) (init : Bool) :
    Discipline (spiPort t index init) where
  awaits := spiAwaits
  waited := spiWaited
  fresh := by
    intro c
    cases c with
    | writeByte dat => exact ⟨fun _ => rfl, rfl⟩
    | readByte dat => exact ⟨fun _ => rfl, rfl⟩
    | transferByte wrDat rdDat => exact ⟨fun _ => rfl, rfl⟩
  idle := fun _ _ hnowait i => spiProgram_idle hnowait i
  pass := fun _ _ _ hpass => spiProgram_passes hpass
  wait := fun _ _ _ _ _ _ hprogram => spiProgram_wait hprogram
  start := by
    intro c pc chans req x hprogram
    obtain ⟨-, rfl, hwaited, hsignals⟩ := spiProgram_start hprogram
    refine ⟨hwaited, hwaited, ?_⟩
    cases c with
    | writeByte dat => exact ⟨.send, hsignals .send List.mem_cons_self⟩
    | readByte dat => exact ⟨.recv, hsignals .recv List.mem_cons_self⟩
    | transferByte wrDat rdDat => exact ⟨.send, hsignals .send List.mem_cons_self⟩
  signals := by
    intro c pc chans req x hprogram k hk q ok i hreq hi
    obtain ⟨rfl, -, -, hsignals⟩ := spiProgram_start hprogram
    have hq : c.op = q := by
      rcases hreq with h | h
      · exact absurd h nofun
      · exact Option.some.inj h
    subst hq
    have hi' : i ∈ (if ok = true then spiSignals c.op else []) := hi
    split_ifs at hi'
    · exact hsignals i hi'
    · exact absurd hi' List.not_mem_nil

/-! ## Runs -/

variable {t : PinTables} {index : ℕ} {init : Bool}

theorem spiBytesOwn_of_kept {s : PortState SpiCall Unit SpiSync SpiOp SpiOpResult}
    (hkept : (spiDiscipline t index init).Kept s)
    (htracked : (spiDiscipline t index init).Tracked s) : SpiBytesOwn s := by
  intro x hx hok
  obtain ⟨hret, -, -⟩ := htracked.log x hx
  rw [hok] at hret
  exact hkept.exists_own htracked hx (spiProgram_ret_ok hret)

end WLink.Driver
