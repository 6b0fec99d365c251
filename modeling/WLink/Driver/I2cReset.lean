import WLink.Driver.Peripherals
import WLink.Lib.Run

/-!
# Resetting an I2C master

`I2C_Master_Reset` closes a master and opens it again with the speed mode that
`I2C_Clock_Speed_Mode` has for it, an array that no function writes to. So every master that is
reset is in the standard mode afterwards (`reset_open`), and keeps its configuration only if it has
been opened in that mode (`resetKeeps_iff`).
-/

namespace WLink.Driver

open Lib

/-- What `I2C_Master_Reset` returns: `hwI2C_NotInit`, or a result of the other two functions. -/
inductive I2cResetResult
  | notInit
  | result (r : PeriphOpResult)
deriving DecidableEq, Repr

/-- The driver, with what it keeps about the speed of its masters. -/
structure I2cMaster where
  periph : PeriphState
  /-- `I2C_Clock_Speed_Mode` -/
  clockSpeedMode : ℕ → ℕ
  /-- The speed mode whose clock or timing is in the `Init` of `g_i2c`. -/
  speed : ℕ → ℕ

namespace I2cMaster

/-- The driver at reset; 0 is `hwI2C_Standard_Mode`. -/
def start : I2cMaster := ⟨.reset, fun _ => 0, fun _ => 0⟩

/-- `I2C_Master_Init` -/
def init (t : PinTables) (env : PeriphEnv) (index speedMode : ℕ) (m : I2cMaster) :
    PeriphOpResult × I2cMaster :=
  let r := i2cMasterInit t env index speedMode m.periph
  (r.1, { m with
    periph := r.2
    -- `g_i2c` is filled in once the object has been created
    speed := if i2cChecks t index speedMode m.periph = none ∧ env.create 0 = true then
      Function.update m.speed index speedMode else m.speed })

/-- `I2C_Master_DeInit` -/
def deInit (t : PinTables) (index : ℕ) (m : I2cMaster) : PeriphOpResult × I2cMaster :=
  let r := i2cMasterDeInit t index m.periph
  (r.1, { m with periph := r.2 })

/-- `I2C_Master_Reset` -/
def reset (t : PinTables) (env : PeriphEnv) (index : ℕ) (m : I2cMaster) :
    I2cResetResult × I2cMaster :=
  if t.i2cMax ≤ index then (.result .invalidParameter, m)
  else if (m.periph.i2c index).init = false then (.notInit, m)
  else
    let closed := m.deInit t index
    if closed.1 ≠ .ok then (.result closed.1, closed.2)
    else
      let opened := closed.2.init t env index (closed.2.clockSpeedMode index)
      (.result opened.1, opened.2)

end I2cMaster

/-! ## Runs -/

inductive I2cMasterCall
  | init (index speedMode : ℕ)
  | deInit (index : ℕ)
  | reset (index : ℕ)
deriving DecidableEq, Repr

/-- The driver, and the speed mode of the last call of `I2C_Master_Init` for a master that has
opened it. -/
structure I2cMasterRun where
  drv : I2cMaster
  asked : ℕ → Option ℕ

namespace I2cMasterRun

def start : I2cMasterRun := ⟨.start, fun _ => none⟩

/-- The call opens a master that has been closed. -/
def Opens (t : PinTables) (r : I2cMasterRun) (index speedMode : ℕ) : Prop :=
  (r.drv.periph.i2c index).init = false ∧ (r.drv.init t .allOk index speedMode).1 = .ok

instance (t : PinTables) (r : I2cMasterRun) (index speedMode : ℕ) :
    Decidable (r.Opens t index speedMode) := inferInstanceAs (Decidable (_ ∧ _))

/-- A call, with the HAL and RTOS calls succeeding. -/
def step (t : PinTables) (r : I2cMasterRun) : I2cMasterCall → I2cMasterRun
  | .init index speedMode =>
    { drv := (r.drv.init t .allOk index speedMode).2
      asked := if r.Opens t index speedMode then Function.update r.asked index (some speedMode)
        else r.asked }
  | .deInit index => { r with drv := (r.drv.deInit t index).2 }
  | .reset index => { r with drv := (r.drv.reset t .allOk index).2 }

/-- A master that is reset successfully is open in the speed mode that was asked for. -/
def ResetKeeps (t : PinTables) (r : I2cMasterRun) : I2cMasterCall → Prop
  | .reset index =>
    (r.drv.reset t .allOk index).1 = .result .ok →
      ((r.step t (.reset index)).drv.periph.i2c index).init = true ∧
      some ((r.step t (.reset index)).drv.speed index) = r.asked index
  | _ => True

/-- A master that is open when it is reset has been opened in the standard mode. -/
def AskedStandard (r : I2cMasterRun) : I2cMasterCall → Prop
  | .reset index => (r.drv.periph.i2c index).init = true → r.asked index = some 0
  | _ => True

end I2cMasterRun

/-! ## One call -/

/-- The header of the chip knows the pins and the registers of the master. -/
structure I2cWired (t : PinTables) (index : ℕ) : Prop where
  lt_max : index < t.i2cMax
  onPort : ∀ pin ∈ i2cPins t index, OnPort pin
  hasAF : ¬ ∃ pin ∈ i2cPins t index, t.uartGetAF index pin = 0
  base : ¬ t.i2cBase index = false

section

variable {t : PinTables} {index speedMode : ℕ} {m : I2cMaster} {r : I2cMasterRun}

theorem i2cChecks_eq_none {s : PeriphState} : i2cChecks t index speedMode s = none ↔
    I2cWired t index ∧ (s.i2c index).init = false ∧ speedMode < 3 ∧
      ¬ (t.i2cLegacyArch = true ∧ speedMode = 2) := by
  constructor
  · intro h
    unfold i2cChecks at h
    split_ifs at h with hindex hinit hmode hlegacy honPort hAF hbase
    exact ⟨⟨Nat.lt_of_not_le hindex, honPort, hAF, hbase⟩,
      Bool.eq_false_of_not_eq_true hinit, Nat.lt_of_not_le hmode, hlegacy⟩
  · rintro ⟨hwired, hinit, hmode, hlegacy⟩
    unfold i2cChecks
    rw [if_neg (Nat.not_le_of_lt hwired.lt_max), if_neg (by rw [hinit]; exact Bool.false_ne_true),
      if_neg (Nat.not_le_of_lt hmode), if_neg hlegacy,
      if_neg (Decidable.not_not.mpr hwired.onPort), if_neg hwired.hasAF, if_neg hwired.base]

namespace I2cMaster

/-- A call of `I2C_Master_Init` whose checks end it changes nothing. -/
theorem init_checked {e : PeriphOpResult} (h : i2cChecks t index speedMode m.periph = some e) :
    m.init t .allOk index speedMode = (e, m) := by
  have hsome : ¬ (i2cChecks t index speedMode m.periph = none ∧
      PeriphEnv.allOk.create 0 = true) := fun hnone => by cases h.symm.trans hnone.1
  unfold init i2cMasterInit
  rw [if_neg hsome, h]

/-- A call of `I2C_Master_Init` that passes them opens the master. -/
theorem init_opens (h : i2cChecks t index speedMode m.periph = none) :
    (m.init t .allOk index speedMode).1 = .ok ∧
      (m.init t .allOk index speedMode).2.clockSpeedMode = m.clockSpeedMode ∧
      (m.init t .allOk index speedMode).2.speed = Function.update m.speed index speedMode ∧
      ∃ done, (m.init t .allOk index speedMode).2.periph.i2c =
        Function.update m.periph.i2c index ⟨true, done⟩ := by
  unfold init i2cMasterInit
  rw [if_pos ⟨h, rfl⟩, h]
  exact ⟨rfl, rfl, rfl, _, rfl⟩

theorem deInit_closed (h : (m.periph.i2c index).init = false) : (m.deInit t index).2 = m := by
  unfold deInit i2cMasterDeInit
  dsimp only
  rw [if_pos h]
  split_ifs <;> rfl

theorem deInit_closes (hwired : I2cWired t index) (h : (m.periph.i2c index).init = true) :
    (m.deInit t index).1 = .ok ∧
      (m.deInit t index).2.clockSpeedMode = m.clockSpeedMode ∧
      (m.deInit t index).2.speed = m.speed ∧
      (m.deInit t index).2.periph.i2c = Function.update m.periph.i2c index
        { m.periph.i2c index with init := false } := by
  have hopen : ¬ (m.periph.i2c index).init = false := by rw [h]; exact Bool.noConfusion
  unfold deInit i2cMasterDeInit
  dsimp only
  rw [if_neg (Nat.not_le_of_lt hwired.lt_max), if_neg hopen,
    if_neg (Decidable.not_not.mpr hwired.onPort)]
  exact ⟨rfl, rfl, rfl, rfl⟩

/-- A reset of a master that is closed changes nothing. -/
theorem reset_closed (h : (m.periph.i2c index).init = false) :
    (m.reset t .allOk index).1 ≠ .result .ok ∧ (m.reset t .allOk index).2 = m := by
  unfold reset
  rw [if_pos h]
  split_ifs <;> exact ⟨by rintro ⟨⟩, rfl⟩

/-- A reset of a master that is open closes it and opens it in the mode of
`I2C_Clock_Speed_Mode`. -/
theorem reset_open (hwired : I2cWired t index) (h : (m.periph.i2c index).init = true)
    (hmode : m.clockSpeedMode index = 0) :
    (m.reset t .allOk index).1 = .result .ok ∧
      (m.reset t .allOk index).2.clockSpeedMode = m.clockSpeedMode ∧
      (m.reset t .allOk index).2.speed = Function.update m.speed index 0 ∧
      ∃ done, (m.reset t .allOk index).2.periph.i2c =
        Function.update m.periph.i2c index ⟨true, done⟩ := by
  obtain ⟨hok, hmodes, hspeed, hports⟩ := deInit_closes hwired h
  have hclosed : ((m.deInit t index).2.periph.i2c index).init = false := by
    rw [hports, Function.update_self]
  have hzero : (m.deInit t index).2.clockSpeedMode index = 0 := by rw [hmodes, hmode]
  have hchecks : i2cChecks t index 0 (m.deInit t index).2.periph = none :=
    i2cChecks_eq_none.mpr
      ⟨hwired, hclosed, by decide, fun hlegacy => absurd hlegacy.2 (by decide)⟩
  obtain ⟨hok', hmodes', hspeed', done, hports'⟩ := init_opens hchecks
  have hreset : m.reset t .allOk index = (.result ((m.deInit t index).2.init t .allOk index 0).1,
      ((m.deInit t index).2.init t .allOk index 0).2) := by
    have hopen : ¬ (m.periph.i2c index).init = false := by rw [h]; exact Bool.noConfusion
    unfold reset
    dsimp only
    rw [if_neg (Nat.not_le_of_lt hwired.lt_max), if_neg hopen,
      if_neg (Decidable.not_not.mpr hok), hzero]
  rw [hreset]
  refine ⟨congrArg _ hok', hmodes'.trans hmodes, ?_, done, ?_⟩
  · show ((m.deInit t index).2.init t .allOk index 0).2.speed = _
    rw [hspeed', hspeed]
  · show ((m.deInit t index).2.init t .allOk index 0).2.periph.i2c = _
    rw [hports', hports, Function.update_idem]

end I2cMaster

/-! ## All calls -/

namespace I2cMasterRun

/-- What all calls keep: no speed mode is noted down, only wired masters are open, and an open one
has been asked for. -/
structure Kept (t : PinTables) (r : I2cMasterRun) : Prop where
  modes : ∀ index, r.drv.clockSpeedMode index = 0
  wired : ∀ index, (r.drv.periph.i2c index).init = true → I2cWired t index

theorem kept_start : Kept t start where
  modes _ := rfl
  wired _ h := absurd h Bool.false_ne_true

/-- A call that opens or closes one master, which is wired. -/
theorem Kept.of_update (h : Kept t r) (hwired : I2cWired t index) {p : I2cPort} {r' : I2cMasterRun}
    (hmodes : r'.drv.clockSpeedMode = r.drv.clockSpeedMode)
    (hports : r'.drv.periph.i2c = Function.update r.drv.periph.i2c index p) : Kept t r' where
  modes i := by rw [hmodes]; exact h.modes i
  wired i hi := by
    by_cases hindex : i = index
    · exact hindex ▸ hwired
    · rw [hports, Function.update_of_ne hindex] at hi
      exact h.wired i hi

theorem Kept.step (h : Kept t r) (call : I2cMasterCall) : Kept t (r.step t call) := by
  cases call with
  | init index speedMode =>
    rcases hchecks : i2cChecks t index speedMode r.drv.periph with _ | e
    · obtain ⟨-, hmodes, -, done, hports⟩ := I2cMaster.init_opens hchecks
      exact h.of_update (i2cChecks_eq_none.mp hchecks).1 hmodes hports
    · have hdrv : (r.step t (.init index speedMode)).drv = r.drv :=
        congrArg Prod.snd (I2cMaster.init_checked hchecks)
      exact ⟨by rw [hdrv]; exact h.modes, by rw [hdrv]; exact h.wired⟩
  | deInit index =>
    rcases hinit : (r.drv.periph.i2c index).init with _ | _
    · have hdrv : (r.step t (.deInit index)).drv = r.drv := I2cMaster.deInit_closed hinit
      exact ⟨by rw [hdrv]; exact h.modes, by rw [hdrv]; exact h.wired⟩
    · obtain ⟨-, hmodes, -, hports⟩ := I2cMaster.deInit_closes (h.wired index hinit) hinit
      exact h.of_update (h.wired index hinit) hmodes hports
  | reset index =>
    rcases hinit : (r.drv.periph.i2c index).init with _ | _
    · have hdrv : (r.step t (.reset index)).drv = r.drv := (I2cMaster.reset_closed hinit).2
      exact ⟨by rw [hdrv]; exact h.modes, by rw [hdrv]; exact h.wired⟩
    · obtain ⟨-, hmodes, -, done, hports⟩ :=
        I2cMaster.reset_open (h.wired index hinit) hinit (h.modes index)
      exact h.of_update (h.wired index hinit) hmodes hports

/-- One reset keeps the configuration exactly if the master is in the standard mode. -/
theorem resetKeeps_step (h : Kept t r) (call : I2cMasterCall) :
    r.ResetKeeps t call ↔ r.AskedStandard call := by
  cases call with
  | reset index =>
    show (_ → ((r.drv.reset t .allOk index).2.periph.i2c index).init = true ∧
      some ((r.drv.reset t .allOk index).2.speed index) = r.asked index) ↔ (_ → _)
    rcases hinit : (r.drv.periph.i2c index).init with _ | _
    · exact iff_of_true (fun hok => absurd hok (I2cMaster.reset_closed hinit).1)
        fun hopen => absurd hopen Bool.false_ne_true
    · obtain ⟨hok, -, hspeed, done, hports⟩ :=
        I2cMaster.reset_open (h.wired index hinit) hinit (h.modes index)
      rw [hok, hspeed, hports, Function.update_self, Function.update_self]
      exact ⟨fun hkeeps _ => (hkeeps rfl).2.symm, fun hasked _ => ⟨rfl, (hasked rfl).symm⟩⟩
  | _ => exact Iff.rfl

end I2cMasterRun

end

/-- In a run every reset keeps the speed mode exactly if every master that is reset while it is open
has been opened in the standard mode. -/
theorem resetKeeps_iff (t : PinTables) (calls : List I2cMasterCall) :
    AllSteps (I2cMasterRun.step t) (I2cMasterRun.ResetKeeps t) .start calls ↔
      AllSteps (I2cMasterRun.step t) I2cMasterRun.AskedStandard .start calls :=
  allSteps_congr (J := I2cMasterRun.Kept t) (fun _ call h => I2cMasterRun.resetKeeps_step h call)
    (fun _ call h _ => h.step call) I2cMasterRun.kept_start calls

/-- A board whose first I2C master is on the pins PB6 and PB7. -/
def i2cOnPortB : PinTables :=
  { stm32f207Tables with i2cPin := fun _ => ⟨portPin 1 6, portPin 1 7⟩ }

/-- A master is opened in the fast mode and reset. -/
theorem not_resetKeeps_fast :
    ¬ AllSteps (I2cMasterRun.step i2cOnPortB) (I2cMasterRun.ResetKeeps i2cOnPortB) .start
      [.init 0 1, .reset 0] := by
  rintro ⟨-, hkeeps, -⟩
  have hspeed := (hkeeps (by decide +kernel)).2
  exact absurd hspeed (by decide +kernel)

end WLink.Driver
