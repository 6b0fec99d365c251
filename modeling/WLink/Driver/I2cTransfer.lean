import WLink.Driver.Peripherals
import WLink.Lib.PortOwn

/-!
# Transfers of the I2C driver

`I2C_Master_Read` and `I2C_Master_Write` as the calls of a port. One semaphore stands for the end of
a transfer, and the callbacks for a complete transfer and for an error both signal it; it is never
cleared. `TransfersOwn` says that a call that returns `hwI2C_OK` has had its own transfer completed
on the bus before. This is so in a run in which a transfer is only started while nothing else can
signal the semaphore, and no transfer ends with an error while its call waits
(`transfersOwn_of_allSteps`). A slave that does not acknowledge makes a call return `hwI2C_OK`
(`not_transfersOwn_nack`).
-/

namespace WLink.Driver

open Lib

/-! ## The driver -/

inductive I2cOpResult
  | ok
  | invalidParameter
  | notInit
  | busError
  | slaveTimeout
  deriving DecidableEq

/-- What a transfer is about. -/
structure I2cTransfer where
  receive : Bool
  /-- the address with the place of the direction bit -/
  devAddress : ℕ
  size : ℕ
  deriving DecidableEq

/-- A call of `I2C_Master_Read` or `I2C_Master_Write`. -/
structure I2cCall where
  read : Bool
  address : UInt8
  /-- the buffer is not `NULL` -/
  dat : Bool
  len : UInt8

/-- The transfer that a call asks the HAL for. -/
def I2cCall.transfer (c : I2cCall) : I2cTransfer :=
  ⟨c.read, c.address.toNat * 2, c.len.toNat⟩

/-- `I2C_Master_Read` and `I2C_Master_Write`, with `I2C_Master_Init_Status`; only the first asks for
an empty transfer. -/
def i2cMasterTransfer (t : PinTables) (index : ℕ) (init : Bool) (c : I2cCall) :
    ℕ → Command Unit Unit I2cTransfer I2cOpResult
  | 0 =>
    if t.i2cMax ≤ index then .ret .invalidParameter
    else if init = false then .ret .notInit
    else if c.dat = false ∧ 0 < c.len.toNat then .ret .invalidParameter
    else if c.read = true ∧ c.len.toNat = 0 then .ret .invalidParameter
    else .start [()] (some c.transfer) 5
  | 1 => .wait () c.transfer 2 3
  | 2 => .ret .ok
  | 3 => .stop ()
  | 4 => .ret .slaveTimeout
  | _ => .ret .busError

/-- An I2C peripheral: `HAL_I2C_MasterTxCpltCallback`, `HAL_I2C_MasterRxCpltCallback` and
`HAL_I2C_ErrorCallback` all signal the semaphore. The HAL starts no transfer while it is busy with
one; what an abort achieves is left open. -/
def i2cPort (t : PinTables) (index : ℕ) (init : Bool) :
    Port I2cCall Unit Unit I2cTransfer I2cOpResult where
  program := i2cMasterTransfer t index init
  signals := fun _ _ _ => [()]
  supersedes := fun _ _ => false
  reset := ⟨false, 0, 0⟩

/-- A call that returns `hwI2C_OK` has had its transfer completed before it returned. -/
def TransfersOwn (s : PortState I2cCall Unit Unit I2cTransfer I2cOpResult) : Prop :=
  ∀ x ∈ s.log, x.result = .ok → ∃ d ∈ x.running.seen,
    d.ticket = ⟨x.running.id, x.running.call.transfer⟩ ∧ d.ok = true

instance (s : PortState I2cCall Unit Unit I2cTransfer I2cOpResult) : Decidable (TransfersOwn s) :=
  inferInstanceAs (Decidable (∀ x ∈ s.log, x.result = .ok → ∃ d ∈ x.running.seen, _))

/-! ## What a call waits for -/

section

variable {t : PinTables} {index : ℕ} {init : Bool} {c : I2cCall} {pc : ℕ}

theorem i2cMasterTransfer_wait {i : Unit} {q : I2cTransfer} {y x : ℕ}
    (h : i2cMasterTransfer t index init c pc = .wait i q y x) :
    pc = 1 ∧ q = c.transfer ∧ y = 2 := by
  unfold i2cMasterTransfer at h
  split at h
  · split_ifs at h
  all_goals cases h
  exact ⟨rfl, rfl, rfl⟩

theorem i2cMasterTransfer_start {chans : List Unit} {req : Option I2cTransfer} {x : ℕ}
    (h : i2cMasterTransfer t index init c pc = .start chans req x) :
    pc = 0 ∧ req = some c.transfer ∧ x = 5 := by
  unfold i2cMasterTransfer at h
  split at h
  · split_ifs at h
    cases h
    exact ⟨rfl, rfl, rfl⟩
  all_goals cases h

theorem i2cMasterTransfer_ret_ok (h : i2cMasterTransfer t index init c pc = .ret .ok) :
    pc = 2 := by
  unfold i2cMasterTransfer at h
  split at h
  · split_ifs at h
    all_goals cases h
  all_goals cases h
  rfl

/-- A call goes on without a transfer where its time is up. -/
theorem i2cMasterTransfer_passes {pc' : ℕ}
    (h : (i2cMasterTransfer t index init c pc).Passes pc pc') :
    pc = 1 ∧ pc' = 3 ∨ pc = 3 ∧ pc' = 4 := by
  unfold i2cMasterTransfer at h
  split at h
  · split_ifs at h
    all_goals exact h.elim
  · exact .inl ⟨rfl, h⟩
  · exact h.elim
  · exact .inr ⟨rfl, h⟩
  · exact h.elim
  · exact h.elim

end

def i2cDiscipline (t : PinTables) (index : ℕ) (init : Bool) :
    Discipline (i2cPort t index init) where
  awaits := fun c pc _ => if pc = 1 then some c.transfer else none
  waited := fun c pc => if pc = 2 then [c.transfer] else []
  fresh := fun _ => ⟨fun _ => rfl, rfl⟩
  idle := by
    intro c pc hnowait i
    refine if_neg fun hpc => ?_
    subst hpc
    exact hnowait () c.transfer 2 3 rfl
  pass := by
    intro c pc pc' hpass
    obtain ⟨rfl, rfl⟩ | ⟨rfl, rfl⟩ := i2cMasterTransfer_passes hpass <;>
      exact ⟨fun _ => rfl, rfl⟩
  wait := by
    intro c pc i q y x hprogram
    obtain ⟨rfl, rfl, rfl⟩ := i2cMasterTransfer_wait hprogram
    exact ⟨rfl, rfl, nofun⟩
  start := by
    intro c pc chans req x hprogram
    obtain ⟨rfl, -, rfl⟩ := i2cMasterTransfer_start hprogram
    exact ⟨rfl, rfl, (), nofun⟩
  signals := by
    intro c pc chans req x hprogram k hk q ok i hreq hi
    obtain ⟨rfl, -, -⟩ := i2cMasterTransfer_start hprogram
    exact nofun

/-! ## Runs -/

theorem transfersOwn_of_kept {t : PinTables} {index : ℕ} {init : Bool}
    {s : PortState I2cCall Unit Unit I2cTransfer I2cOpResult}
    (hkept : (i2cDiscipline t index init).Kept s)
    (htracked : (i2cDiscipline t index init).Tracked s) : TransfersOwn s := by
  intro x hx hok
  obtain ⟨hret, -, -⟩ := htracked.log x hx
  rw [hok] at hret
  refine hkept.exists_own htracked hx ?_
  rw [i2cMasterTransfer_ret_ok hret]
  exact List.mem_singleton_self x.running.call.transfer

/-- In a run in which transfers are started undisturbed, and none fails under the call that waits
for it, the calls that succeed have had their transfers. -/
theorem transfersOwn_of_allSteps (t : PinTables) (index : ℕ) (init : Bool)
    (es : List (PortEvent I2cCall Unit))
    (h : AllSteps (i2cPort t index init).step (i2cDiscipline t index init).Clean
      (i2cPort t index init).init es) :
    Always (i2cPort t index init).step TransfersOwn (i2cPort t index init).init es := by
  have hkept := Discipline.always_kept _ h
  have htracked := Discipline.always_tracked (i2cDiscipline t index init) es
  exact (hkept.and htracked).imp fun s hs => transfersOwn_of_kept hs.1 hs.2

/-- Two bytes are read from a slave, which sends them. -/
def i2cOneRead : List (PortEvent I2cCall Unit) :=
  [.call 0 ⟨true, 0x50, true, 2⟩, .run 0 (.on ()), .done () true 0, .run 0 .go, .run 0 .go]

theorem transfersOwn_oneRead :
    Always (i2cPort stm32f207Tables 0 true).step TransfersOwn
      (i2cPort stm32f207Tables 0 true).init i2cOneRead := by
  refine transfersOwn_of_allSteps stm32f207Tables 0 true i2cOneRead
    ⟨trivial, ?_, nofun, Discipline.clean_run _ _ rfl nofun, Discipline.clean_run _ _ rfl nofun,
      trivial⟩
  intro r chans req x hr hprogram
  cases hr
  obtain ⟨-, rfl, rfl⟩ :=
    @i2cMasterTransfer_start stm32f207Tables 0 true ⟨true, 0x50, true, 2⟩ 0 _ _ _ hprogram
  constructor
  · intro k hk
    refine Discipline.undisturbed_of_alone _ _ _ _ (fun _ => rfl) (fun _ => rfl) fun u hu => ?_
    exact Function.update_of_ne hu _ fun _ => none
  · intro k hk i q hi
    cases hi
    rfl
  · exact nofun

/-- No slave has the address. -/
def i2cNack : List (PortEvent I2cCall Unit) :=
  [.call 0 ⟨false, 0x50, true, 2⟩, .run 0 (.on ()), .done () false 0, .run 0 .go, .run 0 .go]

theorem not_transfersOwn_nack :
    ¬ Always (i2cPort stm32f207Tables 0 true).step TransfersOwn
      (i2cPort stm32f207Tables 0 true).init i2cNack :=
  fun h => absurd h.last (by decide +kernel)

end WLink.Driver
