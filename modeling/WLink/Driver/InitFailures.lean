import WLink.Driver.Peripherals
import Mathlib.Tactic.SplitIfs

/-!
# What a failed initialisation leaves behind

`LeavesNothing` says of a call that takes a peripheral: if it fails, as many RTOS objects are live
as before and the call can be repeated as if it were the first; if it succeeds, the driver has all
the objects it will use. The functions for I2C, CAN and ADC keep it, whatever fails. The others
keep it exactly in the cases of `CleansUp` (`leavesNothing_iff`): `UART_Open_Specific_Format` and
`RTC_Timer_Init` have exits that forget what they have created, and `NeonRTOS_LockObjCreate`
reports success without a mutex.
-/

namespace WLink.Driver

/-- A call that takes a peripheral. -/
inductive InitCall
  | uart (index : ℕ) (rtsCts : Bool) (dataBits parity stopBits : ℕ)
  | spi (index opMode : ℕ)
  | i2c (index speedMode : ℕ)
  | can (index : ℕ)
  | adc (ch : ℕ)
  | rtc (index : ℕ)
deriving DecidableEq, Repr

namespace InitCall

def run (t : PinTables) (env : PeriphEnv) (s : PeriphState) :
    InitCall → PeriphOpResult × PeriphState
  | uart index rtsCts dataBits parity stopBits =>
    uartOpenSpecificFormat t env index rtsCts dataBits parity stopBits s
  | spi index opMode => spiMasterInit t env index opMode s
  | i2c index speedMode => i2cMasterInit t env index speedMode s
  | can index => canInit t env index s
  | adc ch => adcChannelInit t env ch s
  | rtc index => rtcTimerInit t env index s

/-- The peripheral is initialised: for the ADC, the instance of the channel. -/
def isInit (t : PinTables) (s : PeriphState) : InitCall → Bool
  | uart index .. => (s.uart index).init
  | spi index _ => (s.spi index).init
  | i2c index _ => (s.i2c index).init
  | can index => (s.can index).init
  | adc ch => (s.adcInstance (t.adcChannel ch).inst).init
  | rtc index => (s.rtc index).init

/-- The handles that the driver uses once the peripheral is initialised. -/
def handles (t : PinTables) (s : PeriphState) : InitCall → List (Option ℕ)
  | uart index .. => [(s.uart index).send, (s.uart index).recv]
  | spi index _ => [(s.spi index).send, (s.spi index).recv, (s.spi index).mutex]
  | i2c index _ => [(s.i2c index).done]
  | can index => [(s.can index).txDone, (s.can index).rxQueue]
  | adc ch => [(s.adcInstance (t.adcChannel ch).inst).queue]
  | rtc index => [(s.rtc index).mutex]

end InitCall

/-- The number of live objects. -/
def PeriphState.objects (s : PeriphState) : ℕ := s.rtos.live.length

/-- Two states in which a call has the same to find. -/
structure Alike (t : PinTables) (call : InitCall) (s₁ s₂ : PeriphState) : Prop where
  init : call.isInit t s₁ = call.isInit t s₂
  pinInit : s₁.gpio.pinInit = s₂.gpio.pinInit

/-- A call has the same result in two states, creates as many objects, and leads to states that
are alike again. -/
structure SameOutcome (t : PinTables) (env : PeriphEnv) (call : InitCall) (s₁ s₂ : PeriphState) :
    Prop where
  result : (call.run t env s₁).1 = (call.run t env s₂).1
  objects : (call.run t env s₁).2.objects + s₂.objects =
    (call.run t env s₂).2.objects + s₁.objects
  alike : Alike t call (call.run t env s₁).2 (call.run t env s₂).2

/-- A call that fails leaves no object behind, and repeated does what it would have done at first; a
call that initialises the peripheral gives its driver all objects. The kernel gets no `NULL`. -/
structure LeavesNothing (t : PinTables) (env : PeriphEnv) (s : PeriphState) (call : InitCall) :
    Prop where
  objects : (call.run t env s).1 ≠ .ok → (call.run t env s).2.objects = s.objects
  handles : (call.run t env s).1 = .ok → call.isInit t s = false →
    none ∉ call.handles t (call.run t env s).2
  kernel : (call.run t env s).2.rtos.nullUses = s.rtos.nullUses
  again : (call.run t env s).1 ≠ .ok →
    ∀ env', SameOutcome t env' call (call.run t env s).2 s

/-- Where the functions clean up: nothing fails in `UART_Open_Specific_Format` after both objects
have been created; the mutex can be created; `HAL_RTC_Init` succeeds. -/
def CleansUp (t : PinTables) (env : PeriphEnv) (s : PeriphState) : InitCall → Prop
  | .uart index rtsCts dataBits parity stopBits =>
    uartChecks t index rtsCts dataBits parity stopBits s = none →
      env.create 0 = true → env.create 1 = true →
      uartPinChecks t index rtsCts = none ∧ env.hal 0 = true
  | .spi index opMode => spiChecks t index opMode s = none →
      env.create 0 = true → env.create 1 = true → env.create 2 = true
  | .rtc index => index < t.rtcMax → (s.rtc index).init = false →
      env.create 0 = true ∧ env.hal 0 = true
  | .i2c .. => True
  | .can _ => True
  | .adc _ => True

/-! ## The objects -/

section Calls

variable {t : PinTables} {env : PeriphEnv} {s s₁ s₂ : PeriphState}

@[simp] theorem syncObjCreate_true (r : Rtos) :
    syncObjCreate true r = (true, some r.next, ⟨r.next + 1, r.next :: r.live, r.nullUses⟩) := rfl

@[simp] theorem syncObjCreate_false (r : Rtos) : syncObjCreate false r = (false, none, r) := rfl

@[simp] theorem lockObjCreate_true (r : Rtos) :
    lockObjCreate true r = (true, some r.next, ⟨r.next + 1, r.next :: r.live, r.nullUses⟩) := rfl

@[simp] theorem lockObjCreate_false (r : Rtos) : lockObjCreate false r = (true, none, r) := rfl

@[simp] theorem msgQCreate_true (old : Option ℕ) (r : Rtos) :
    msgQCreate true old r = (true, some r.next, ⟨r.next + 1, r.next :: r.live, r.nullUses⟩) := rfl

@[simp] theorem msgQCreate_false (old : Option ℕ) (r : Rtos) :
    msgQCreate false old r = (false, old, r) := rfl

@[simp] theorem Rtos.use_some (r : Rtos) (i : ℕ) : r.use (some i) = r := rfl

@[simp] theorem Rtos.delete_some (r : Rtos) (i : ℕ) :
    r.delete (some i) = ⟨r.next, r.live.erase i, r.nullUses⟩ := rfl

@[simp] theorem Rtos.use_none (r : Rtos) :
    r.use none = ⟨r.next, r.live, r.nullUses + 1⟩ := rfl

@[simp] theorem Rtos.delete_none (r : Rtos) :
    r.delete none = ⟨r.next, r.live, r.nullUses + 1⟩ := rfl

end Calls

/-! ## What a call reports -/

/-- What a call comes to: its result, how many objects it leaves live and how often it has handed
the kernel a `NULL`, the pins it has taken, and whether all handles are set. -/
structure InitReport where
  result : PeriphOpResult
  created : ℕ
  nullUses : ℕ
  pins : List ℤ
  complete : Bool
deriving DecidableEq, Repr

/-- A call that has done nothing. -/
def InitReport.nothing (result : PeriphOpResult) : InitReport := ⟨result, 0, 0, [], false⟩

/-- The report of `UART_Open_Specific_Format`. -/
def uartReport (t : PinTables) (env : PeriphEnv) (index : ℕ) (rtsCts : Bool)
    (dataBits parity stopBits : ℕ) (s : PeriphState) : InitReport :=
  match uartChecks t index rtsCts dataBits parity stopBits s with
  | some r => .nothing r
  | none =>
    if env.create 0 = false then .nothing .memoryError
    else if env.create 1 = false then .nothing .memoryError
    else
      match uartPinChecks t index rtsCts with
      | some r => ⟨r, 2, 0, [], true⟩
      | none =>
        if env.hal 0 = false then ⟨.hwError, 2, 0, [], true⟩
        else ⟨.ok, 2, 0, uartPins t index rtsCts, true⟩

/-- The report of `SPI_Master_Init`. -/
def spiReport (t : PinTables) (env : PeriphEnv) (index opMode : ℕ) (s : PeriphState) :
    InitReport :=
  match spiChecks t index opMode s with
  | some r => .nothing r
  | none =>
    if env.create 0 = false then .nothing .memoryError
    else if env.create 1 = false then .nothing .memoryError
    else if env.hal 0 = false then ⟨.hwError, 0, if env.create 2 then 0 else 2, [], false⟩
    else ⟨.ok, if env.create 2 then 3 else 2, if env.create 2 then 0 else 1,
      spiPins t index (spiHasCs t index), env.create 2⟩

/-- The report of `I2C_Master_Init`. -/
def i2cReport (t : PinTables) (env : PeriphEnv) (index speedMode : ℕ) (s : PeriphState) :
    InitReport :=
  match i2cChecks t index speedMode s with
  | some r => .nothing r
  | none =>
    if env.create 0 = false then .nothing .memoryError
    else if env.hal 0 = false then .nothing .hwError
    else ⟨.ok, 1, 0, i2cPins t index, true⟩

/-- The report of `CAN_Init`. -/
def canReport (t : PinTables) (env : PeriphEnv) (index : ℕ) (s : PeriphState) : InitReport :=
  match canChecks t index s with
  | some r => .nothing r
  | none =>
    if env.create 0 = false then .nothing .memoryError
    else if env.create 1 = false then .nothing .memoryError
    else if env.hal 0 = false ∨ env.hal 1 = false ∨ env.hal 2 = false then .nothing .hwError
    else ⟨.ok, 2, 0, canPins t index, true⟩

/-- The report of `hwADC_Channel_Init`. -/
def adcReport (t : PinTables) (env : PeriphEnv) (ch : ℕ) (s : PeriphState) : InitReport :=
  let d := t.adcChannel ch
  if t.adcInstanceMax ≤ d.inst then .nothing .invalidParameter
  else if ¬ OnPort d.pin then .nothing .invalidParameter
  else if (s.adcInstance d.inst).init then ⟨.ok, 0, 0, [d.pin], false⟩
  else if env.create 0 = false then .nothing .memoryError
  else if env.hal 0 = false then .nothing .hwError
  else ⟨.ok, 1, 0, [d.pin], true⟩

/-- The report of `RTC_Timer_Init`. -/
def rtcReport (t : PinTables) (env : PeriphEnv) (index : ℕ) (s : PeriphState) : InitReport :=
  if t.rtcMax ≤ index then .nothing .invalidParameter
  else if (s.rtc index).init then .nothing .ok
  else ⟨if env.hal 0 then .ok else .hwError, if env.create 0 then 1 else 0,
    if env.create 0 then 0 else 1, [], env.create 0⟩

/-- The report of a call. -/
def InitCall.report (t : PinTables) (env : PeriphEnv) (s : PeriphState) : InitCall → InitReport
  | .uart index rtsCts dataBits parity stopBits =>
    uartReport t env index rtsCts dataBits parity stopBits s
  | .spi index opMode => spiReport t env index opMode s
  | .i2c index speedMode => i2cReport t env index speedMode s
  | .can index => canReport t env index s
  | .adc ch => adcReport t env ch s
  | .rtc index => rtcReport t env index s

/-- The report says what the call does. -/
structure Reports (t : PinTables) (env : PeriphEnv) (s : PeriphState) (call : InitCall)
    (rep : InitReport) : Prop where
  result : (call.run t env s).1 = rep.result
  objects : (call.run t env s).2.objects = s.objects + rep.created
  kernel : (call.run t env s).2.rtos.nullUses = s.rtos.nullUses + rep.nullUses
  init : call.isInit t (call.run t env s).2 =
    (call.isInit t s || decide (rep.result = .ok))
  pinInit : (call.run t env s).2.gpio.pinInit =
    fun pin => if pin ∈ rep.pins then true else s.gpio.pinInit pin
  handles : rep.result = .ok → call.isInit t s = false →
    (none ∉ call.handles t (call.run t env s).2 ↔ rep.complete = true)

section Reports

variable {t : PinTables} {env : PeriphEnv} {s : PeriphState}

/-- A call that stops at its checks. -/
theorem reports_nothing {call : InitCall} {r : PeriphOpResult} (hrun : call.run t env s = (r, s))
    (hok : r = .ok → call.isInit t s = true) : Reports t env s call (.nothing r) := by
  have hinit : call.isInit t s = (call.isInit t s || decide (r = .ok)) := by
    by_cases h : r = .ok
    · rw [hok h, Bool.true_or]
    · rw [decide_eq_false h, Bool.or_false]
  refine ⟨by rw [hrun]; rfl, by rw [hrun]; rfl, by rw [hrun]; rfl, by rw [hrun]; exact hinit,
    by rw [hrun]; simp [InitReport.nothing], fun h hfree => ?_⟩
  exact absurd ((hok h).symm.trans hfree) Bool.noConfusion

/-- A call that runs through to a state, by what that state is like. -/
theorem reports_of_run {call : InitCall} {rep : InitReport} {s' : PeriphState}
    (hrun : call.run t env s = (rep.result, s')) (hfree : call.isInit t s = false)
    (objects : s'.objects = s.objects + rep.created)
    (kernel : s'.rtos.nullUses = s.rtos.nullUses + rep.nullUses)
    (init : call.isInit t s' = decide (rep.result = .ok))
    (pinInit : s'.gpio.pinInit = fun pin => if pin ∈ rep.pins then true else s.gpio.pinInit pin)
    (handles : rep.result = .ok → (none ∉ call.handles t s' ↔ rep.complete = true)) :
    Reports t env s call rep := by
  have hs' : (call.run t env s).2 = s' := by rw [hrun]
  constructor
  · rw [hrun]
  · rw [hs', objects]
  · rw [hs', kernel]
  · rw [hs', hfree, Bool.false_or, init]
  · rw [hs', pinInit]
  · rw [hs']
    exact fun hok _ => handles hok

theorem uartChecks_init {index : ℕ} {rtsCts : Bool} {dataBits parity stopBits : ℕ} :
    (uartChecks t index rtsCts dataBits parity stopBits s = some .ok → (s.uart index).init = true) ∧
    (uartChecks t index rtsCts dataBits parity stopBits s = none →
      (s.uart index).init = false) := by
  unfold uartChecks
  split_ifs <;> simp_all

theorem uartPinChecks_ne_ok {index : ℕ} {rtsCts : Bool} {r : PeriphOpResult}
    (h : uartPinChecks t index rtsCts = some r) : r ≠ .ok := by
  unfold uartPinChecks at h
  split_ifs at h <;> cases h <;> exact PeriphOpResult.noConfusion

theorem uart_reports (index : ℕ) (rtsCts : Bool) (dataBits parity stopBits : ℕ) :
    Reports t env s (.uart index rtsCts dataBits parity stopBits)
      (uartReport t env index rtsCts dataBits parity stopBits s) := by
  unfold uartReport
  rcases hchecks : uartChecks t index rtsCts dataBits parity stopBits s with _ | r
  swap
  · refine reports_nothing (?_ : uartOpenSpecificFormat t env index rtsCts dataBits parity stopBits
      s = (r, s)) fun h => uartChecks_init.1 (by rw [hchecks, h])
    unfold uartOpenSpecificFormat
    rw [hchecks]
  have hfree : (s.uart index).init = false := uartChecks_init.2 hchecks
  dsimp only
  by_cases h0 : env.create 0 = false
  · have hs' : uartOpenSpecificFormat t env index rtsCts dataBits parity stopBits s =
        (.memoryError, s.setUart index { s.uart index with send := none } s.rtos) := by
      simp [uartOpenSpecificFormat, hchecks, h0]
    rw [if_pos h0]
    refine reports_of_run hs' hfree ?_ ?_ ?_ ?_ ?_ <;>
      simp [InitReport.nothing, PeriphState.setUart, PeriphState.objects, InitCall.isInit, hfree]
  rw [if_neg h0]
  rw [Bool.not_eq_false] at h0
  by_cases h1 : env.create 1 = false
  · have hs' : uartOpenSpecificFormat t env index rtsCts dataBits parity stopBits s =
        (.memoryError, s.setUart index { s.uart index with send := some s.rtos.next, recv := none }
          ⟨s.rtos.next + 1, s.rtos.live, s.rtos.nullUses⟩) := by
      simp [uartOpenSpecificFormat, hchecks, h0, h1]
    rw [if_pos h1]
    refine reports_of_run hs' hfree ?_ ?_ ?_ ?_ ?_ <;>
      simp [InitReport.nothing, PeriphState.setUart, PeriphState.objects, InitCall.isInit, hfree]
  rw [if_neg h1]
  rw [Bool.not_eq_false] at h1
  -- both objects have been created, and no exit but the last one counts on them
  rcases hpins : uartPinChecks t index rtsCts with _ | r
  swap
  · have hne : r ≠ .ok := uartPinChecks_ne_ok hpins
    have hs' : uartOpenSpecificFormat t env index rtsCts dataBits parity stopBits s =
        (r, s.setUart index
          { s.uart index with send := some s.rtos.next, recv := some (s.rtos.next + 1) }
          ⟨s.rtos.next + 2, (s.rtos.next + 1) :: s.rtos.next :: s.rtos.live, s.rtos.nullUses⟩) := by
      simp [uartOpenSpecificFormat, hchecks, h0, h1, hpins]
    refine reports_of_run hs' hfree ?_ ?_ ?_ ?_ ?_ <;>
      simp [PeriphState.setUart, PeriphState.objects, InitCall.isInit, hfree, hne]
  dsimp only
  split_ifs with hhal
  · have hs' : uartOpenSpecificFormat t env index rtsCts dataBits parity stopBits s =
        (.hwError, s.setUart index
          { s.uart index with send := some s.rtos.next, recv := some (s.rtos.next + 1) }
          ⟨s.rtos.next + 2, (s.rtos.next + 1) :: s.rtos.next :: s.rtos.live, s.rtos.nullUses⟩) := by
      simp [uartOpenSpecificFormat, hchecks, h0, h1, hpins, hhal]
    refine reports_of_run hs' hfree ?_ ?_ ?_ ?_ ?_ <;>
      simp [PeriphState.setUart, PeriphState.objects, InitCall.isInit, hfree]
  · rw [Bool.not_eq_false] at hhal
    have hs' : uartOpenSpecificFormat t env index rtsCts dataBits parity stopBits s =
        (.ok, (s.setPins (uartPins t index rtsCts) true).setUart index
          ⟨true, (s.uart index).flowControl || rtsCts, some s.rtos.next, some (s.rtos.next + 1)⟩
          ⟨s.rtos.next + 2, (s.rtos.next + 1) :: s.rtos.next :: s.rtos.live, s.rtos.nullUses⟩) := by
      simp [uartOpenSpecificFormat, hchecks, h0, h1, hpins, hhal, PeriphState.setUart,
        PeriphState.setPins]
    refine reports_of_run hs' hfree ?_ ?_ ?_ ?_ ?_ <;>
      simp [PeriphState.setUart, PeriphState.setPins, PeriphState.objects, InitCall.isInit,
        InitCall.handles]

theorem spiChecks_init {index opMode : ℕ} :
    (spiChecks t index opMode s = some .ok → (s.spi index).init = true) ∧
    (spiChecks t index opMode s = none → (s.spi index).init = false) := by
  unfold spiChecks
  split_ifs <;> simp_all

theorem spi_reports (index opMode : ℕ) :
    Reports t env s (.spi index opMode) (spiReport t env index opMode s) := by
  unfold spiReport
  rcases hchecks : spiChecks t index opMode s with _ | r
  swap
  · refine reports_nothing (?_ : spiMasterInit t env index opMode s = (r, s))
      fun h => spiChecks_init.1 (by rw [hchecks, h])
    unfold spiMasterInit
    rw [hchecks]
  have hfree : (s.spi index).init = false := spiChecks_init.2 hchecks
  dsimp only
  by_cases h0 : env.create 0 = false
  · have hs' : spiMasterInit t env index opMode s =
        (.memoryError, s.setSpi index { s.spi index with send := none } s.rtos) := by
      simp [spiMasterInit, hchecks, h0]
    rw [if_pos h0]
    refine reports_of_run hs' hfree ?_ ?_ ?_ ?_ ?_ <;>
      simp [InitReport.nothing, PeriphState.setSpi, PeriphState.objects, InitCall.isInit, hfree]
  rw [if_neg h0]
  rw [Bool.not_eq_false] at h0
  by_cases h1 : env.create 1 = false
  · have hs' : spiMasterInit t env index opMode s =
        (.memoryError, s.setSpi index { s.spi index with send := some s.rtos.next, recv := none }
          ⟨s.rtos.next + 1, s.rtos.live, s.rtos.nullUses⟩) := by
      simp [spiMasterInit, hchecks, h0, h1]
    rw [if_pos h1]
    refine reports_of_run hs' hfree ?_ ?_ ?_ ?_ ?_ <;>
      simp [InitReport.nothing, PeriphState.setSpi, PeriphState.objects, InitCall.isInit, hfree]
  rw [if_neg h1]
  rw [Bool.not_eq_false] at h1
  -- the mutex: the function goes on without it
  rcases h2 : env.create 2 with _ | _ <;> rcases hhal : env.hal 0 with _ | _
  · have hs' : spiMasterInit t env index opMode s =
        (.hwError, s.setSpi index
          { s.spi index with
            send := some s.rtos.next, recv := some (s.rtos.next + 1), mutex := none }
          ⟨s.rtos.next + 2, s.rtos.live, s.rtos.nullUses + 2⟩) := by
      simp [spiMasterInit, hchecks, h0, h1, h2, hhal]
    refine reports_of_run hs' hfree ?_ ?_ ?_ ?_ ?_ <;>
      simp [PeriphState.setSpi, PeriphState.objects, InitCall.isInit, hfree]
  · have hs' : spiMasterInit t env index opMode s =
        (.ok, (s.setPins (spiPins t index (spiHasCs t index)) true).setSpi index
          ⟨true, (s.spi index).useCs || spiHasCs t index, some s.rtos.next,
            some (s.rtos.next + 1), none⟩
          ⟨s.rtos.next + 2, (s.rtos.next + 1) :: s.rtos.next :: s.rtos.live,
            s.rtos.nullUses + 1⟩) := by
      simp [spiMasterInit, hchecks, h0, h1, h2, hhal]
    refine reports_of_run hs' hfree ?_ ?_ ?_ ?_ ?_ <;>
      simp [PeriphState.setSpi, PeriphState.setPins, PeriphState.objects, InitCall.isInit,
        InitCall.handles]
  · have hs' : spiMasterInit t env index opMode s =
        (.hwError, s.setSpi index
          { s.spi index with
            send := some s.rtos.next
            recv := some (s.rtos.next + 1)
            mutex := some (s.rtos.next + 2) }
          ⟨s.rtos.next + 3, s.rtos.live, s.rtos.nullUses⟩) := by
      simp [spiMasterInit, hchecks, h0, h1, h2, hhal]
    refine reports_of_run hs' hfree ?_ ?_ ?_ ?_ ?_ <;>
      simp [PeriphState.setSpi, PeriphState.objects, InitCall.isInit, hfree]
  · have hs' : spiMasterInit t env index opMode s =
        (.ok, (s.setPins (spiPins t index (spiHasCs t index)) true).setSpi index
          ⟨true, (s.spi index).useCs || spiHasCs t index, some s.rtos.next,
            some (s.rtos.next + 1), some (s.rtos.next + 2)⟩
          ⟨s.rtos.next + 3, (s.rtos.next + 2) :: (s.rtos.next + 1) :: s.rtos.next :: s.rtos.live,
            s.rtos.nullUses⟩) := by
      simp [spiMasterInit, hchecks, h0, h1, h2, hhal]
    refine reports_of_run hs' hfree ?_ ?_ ?_ ?_ ?_ <;>
      simp [PeriphState.setSpi, PeriphState.setPins, PeriphState.objects, InitCall.isInit,
        InitCall.handles]

theorem i2cChecks_init {index speedMode : ℕ} :
    (i2cChecks t index speedMode s = some .ok → (s.i2c index).init = true) ∧
    (i2cChecks t index speedMode s = none → (s.i2c index).init = false) := by
  unfold i2cChecks
  split_ifs <;> simp_all

theorem i2c_reports (index speedMode : ℕ) :
    Reports t env s (.i2c index speedMode) (i2cReport t env index speedMode s) := by
  unfold i2cReport
  rcases hchecks : i2cChecks t index speedMode s with _ | r
  swap
  · refine reports_nothing (?_ : i2cMasterInit t env index speedMode s = (r, s))
      fun h => i2cChecks_init.1 (by rw [hchecks, h])
    unfold i2cMasterInit
    rw [hchecks]
  have hfree : (s.i2c index).init = false := i2cChecks_init.2 hchecks
  dsimp only
  split_ifs with h0 hhal
  · have hs' : i2cMasterInit t env index speedMode s =
        (.memoryError, s.setI2c index ⟨(s.i2c index).init, none⟩ s.rtos) := by
      simp [i2cMasterInit, hchecks, h0]
    refine reports_of_run hs' hfree ?_ ?_ ?_ ?_ ?_ <;>
      simp [InitReport.nothing, PeriphState.setI2c, PeriphState.objects, InitCall.isInit, hfree]
  · rw [Bool.not_eq_false] at h0
    have hs' : i2cMasterInit t env index speedMode s =
        (.hwError, s.setI2c index ⟨(s.i2c index).init, some s.rtos.next⟩
          ⟨s.rtos.next + 1, s.rtos.live, s.rtos.nullUses⟩) := by
      simp [i2cMasterInit, hchecks, h0, hhal]
    refine reports_of_run hs' hfree ?_ ?_ ?_ ?_ ?_ <;>
      simp [InitReport.nothing, PeriphState.setI2c, PeriphState.objects, InitCall.isInit, hfree]
  · rw [Bool.not_eq_false] at h0 hhal
    have hs' : i2cMasterInit t env index speedMode s =
        (.ok, (s.setPins (i2cPins t index) true).setI2c index ⟨true, some s.rtos.next⟩
          ⟨s.rtos.next + 1, s.rtos.next :: s.rtos.live, s.rtos.nullUses⟩) := by
      simp [i2cMasterInit, hchecks, h0, hhal]
    refine reports_of_run hs' hfree ?_ ?_ ?_ ?_ ?_ <;>
      simp [PeriphState.setI2c, PeriphState.setPins, PeriphState.objects, InitCall.isInit,
        InitCall.handles]

theorem canChecks_init {index : ℕ} :
    (canChecks t index s = some .ok → (s.can index).init = true) ∧
    (canChecks t index s = none → (s.can index).init = false) := by
  unfold canChecks canPinChecks
  split_ifs <;> simp_all

theorem can_reports (index : ℕ) : Reports t env s (.can index) (canReport t env index s) := by
  unfold canReport
  rcases hchecks : canChecks t index s with _ | r
  swap
  · refine reports_nothing (?_ : canInit t env index s = (r, s))
      fun h => canChecks_init.1 (by rw [hchecks, h])
    unfold canInit
    rw [hchecks]
  have hfree : (s.can index).init = false := canChecks_init.2 hchecks
  dsimp only
  split_ifs with h0 h1 hhal
  · have hs' : canInit t env index s =
        (.memoryError, s.setCan index { s.can index with txDone := none } s.rtos) := by
      simp [canInit, hchecks, h0]
    refine reports_of_run hs' hfree ?_ ?_ ?_ ?_ ?_ <;>
      simp [InitReport.nothing, PeriphState.setCan, PeriphState.objects, InitCall.isInit, hfree]
  · rw [Bool.not_eq_false] at h0
    have hs' : canInit t env index s =
        (.memoryError, s.setCan index { s.can index with txDone := some s.rtos.next }
          ⟨s.rtos.next + 1, s.rtos.live, s.rtos.nullUses⟩) := by
      simp [canInit, hchecks, h0, h1]
    refine reports_of_run hs' hfree ?_ ?_ ?_ ?_ ?_ <;>
      simp [InitReport.nothing, PeriphState.setCan, PeriphState.objects, InitCall.isInit, hfree]
  · rw [Bool.not_eq_false] at h0 h1
    have hs' : canInit t env index s =
        (.hwError, s.setCan index
          ⟨(s.can index).init, some s.rtos.next, some (s.rtos.next + 1)⟩
          ⟨s.rtos.next + 2, s.rtos.live, s.rtos.nullUses⟩) := by
      simp [canInit, hchecks, h0, h1, hhal]
    refine reports_of_run hs' hfree ?_ ?_ ?_ ?_ ?_ <;>
      simp [InitReport.nothing, PeriphState.setCan, PeriphState.objects, InitCall.isInit, hfree]
  · rw [Bool.not_eq_false] at h0 h1
    have hs' : canInit t env index s =
        (.ok, (s.setPins (canPins t index) true).setCan index
          ⟨true, some s.rtos.next, some (s.rtos.next + 1)⟩
          ⟨s.rtos.next + 2, (s.rtos.next + 1) :: s.rtos.next :: s.rtos.live,
            s.rtos.nullUses⟩) := by
      simp [canInit, hchecks, h0, h1, hhal]
    refine reports_of_run hs' hfree ?_ ?_ ?_ ?_ ?_ <;>
      simp [PeriphState.setCan, PeriphState.setPins, PeriphState.objects, InitCall.isInit,
        InitCall.handles]

theorem adc_reports (ch : ℕ) : Reports t env s (.adc ch) (adcReport t env ch s) := by
  unfold adcReport
  dsimp only
  by_cases hinst : t.adcInstanceMax ≤ (t.adcChannel ch).inst
  · rw [if_pos hinst]
    refine reports_nothing (?_ : adcChannelInit t env ch s = (.invalidParameter, s))
      fun h => PeriphOpResult.noConfusion h
    simp [adcChannelInit, hinst]
  rw [if_neg hinst]
  by_cases hport : ¬ OnPort (t.adcChannel ch).pin
  · rw [if_pos hport]
    refine reports_nothing (?_ : adcChannelInit t env ch s = (.invalidParameter, s))
      fun h => PeriphOpResult.noConfusion h
    simp [adcChannelInit, hinst, hport]
  rw [if_neg hport]
  rw [not_not] at hport
  rcases hinit : (s.adcInstance (t.adcChannel ch).inst).init with _ | _
  swap
  · -- the instance runs already, and the channel is all there is to take
    have hs' : adcChannelInit t env ch s = (.ok, adcTaken s ch (t.adcChannel ch).pin) := by
      simp [adcChannelInit, hinst, hport, hinit]
    have hrun : InitCall.run t env s (.adc ch) = (.ok, adcTaken s ch (t.adcChannel ch).pin) := hs'
    rw [if_pos rfl]
    constructor <;>
      simp [hrun, adcTaken, PeriphState.setPins, PeriphState.objects, InitCall.isInit, hinit]
  rw [if_neg Bool.false_ne_true]
  split_ifs with h0 hhal
  · have hs' : adcChannelInit t env ch s =
        (.memoryError, s.setAdcInstance (t.adcChannel ch).inst
          ⟨false, (s.adcInstance (t.adcChannel ch).inst).queue⟩ s.rtos) := by
      simp [adcChannelInit, hinst, hport, hinit, h0]
    refine reports_of_run hs' hinit ?_ ?_ ?_ ?_ ?_ <;>
      simp [InitReport.nothing, PeriphState.setAdcInstance, PeriphState.objects, InitCall.isInit]
  · rw [Bool.not_eq_false] at h0
    have hs' : adcChannelInit t env ch s =
        (.hwError, s.setAdcInstance (t.adcChannel ch).inst ⟨false, some s.rtos.next⟩
          ⟨s.rtos.next + 1, s.rtos.live, s.rtos.nullUses⟩) := by
      simp [adcChannelInit, hinst, hport, hinit, h0, hhal]
    refine reports_of_run hs' hinit ?_ ?_ ?_ ?_ ?_ <;>
      simp [InitReport.nothing, PeriphState.setAdcInstance, PeriphState.objects, InitCall.isInit]
  · rw [Bool.not_eq_false] at h0 hhal
    have hs' : adcChannelInit t env ch s =
        (.ok, adcTaken (s.setAdcInstance (t.adcChannel ch).inst ⟨true, some s.rtos.next⟩
          ⟨s.rtos.next + 1, s.rtos.next :: s.rtos.live, s.rtos.nullUses⟩) ch
          (t.adcChannel ch).pin) := by
      simp [adcChannelInit, hinst, hport, hinit, h0, hhal]
    refine reports_of_run hs' hinit ?_ ?_ ?_ ?_ ?_ <;>
      simp [adcTaken, PeriphState.setAdcInstance, PeriphState.setPins, PeriphState.objects,
        InitCall.isInit, InitCall.handles]

theorem rtc_reports (index : ℕ) : Reports t env s (.rtc index) (rtcReport t env index s) := by
  unfold rtcReport
  by_cases hmax : t.rtcMax ≤ index
  · rw [if_pos hmax]
    refine reports_nothing (?_ : rtcTimerInit t env index s = (.invalidParameter, s))
      fun h => PeriphOpResult.noConfusion h
    simp [rtcTimerInit, hmax]
  rw [if_neg hmax]
  rcases hinit : (s.rtc index).init with _ | _
  swap
  · rw [if_pos rfl]
    refine reports_nothing (?_ : rtcTimerInit t env index s = (.ok, s)) fun _ => hinit
    simp [rtcTimerInit, hmax, hinit]
  rw [if_neg Bool.false_ne_true]
  rcases h0 : env.create 0 with _ | _ <;> rcases hhal : env.hal 0 with _ | _
  · have hs' : rtcTimerInit t env index s =
        (.hwError, s.setRtc index ⟨false, none⟩
          ⟨s.rtos.next, s.rtos.live, s.rtos.nullUses + 1⟩) := by
      simp [rtcTimerInit, hmax, hinit, h0, hhal]
    refine reports_of_run hs' hinit ?_ ?_ ?_ ?_ ?_ <;>
      simp [PeriphState.setRtc, PeriphState.objects, InitCall.isInit]
  · have hs' : rtcTimerInit t env index s =
        (.ok, s.setRtc index ⟨true, none⟩
          ⟨s.rtos.next, s.rtos.live, s.rtos.nullUses + 1⟩) := by
      simp [rtcTimerInit, hmax, hinit, h0, hhal]
    refine reports_of_run hs' hinit ?_ ?_ ?_ ?_ ?_ <;>
      simp [PeriphState.setRtc, PeriphState.objects, InitCall.isInit, InitCall.handles]
  · -- the mutex exists, and the exit does not delete it
    have hs' : rtcTimerInit t env index s =
        (.hwError, s.setRtc index ⟨false, some s.rtos.next⟩
          ⟨s.rtos.next + 1, s.rtos.next :: s.rtos.live, s.rtos.nullUses⟩) := by
      simp [rtcTimerInit, hmax, hinit, h0, hhal]
    refine reports_of_run hs' hinit ?_ ?_ ?_ ?_ ?_ <;>
      simp [PeriphState.setRtc, PeriphState.objects, InitCall.isInit]
  · have hs' : rtcTimerInit t env index s =
        (.ok, s.setRtc index ⟨true, some s.rtos.next⟩
          ⟨s.rtos.next + 1, s.rtos.next :: s.rtos.live, s.rtos.nullUses⟩) := by
      simp [rtcTimerInit, hmax, hinit, h0, hhal]
    refine reports_of_run hs' hinit ?_ ?_ ?_ ?_ ?_ <;>
      simp [PeriphState.setRtc, PeriphState.objects, InitCall.isInit, InitCall.handles]

/-- Every call does what its report says. -/
theorem run_reports (call : InitCall) : Reports t env s call (call.report t env s) := by
  cases call with
  | uart index rtsCts dataBits parity stopBits =>
    exact uart_reports index rtsCts dataBits parity stopBits
  | spi index opMode => exact spi_reports index opMode
  | i2c index speedMode => exact i2c_reports index speedMode
  | can index => exact can_reports index
  | adc ch => exact adc_reports ch
  | rtc index => exact rtc_reports index

/-! ## Repeating a call -/

/-- A call finds the same in states that are alike. -/
theorem report_congr {call : InitCall} {s₁ s₂ : PeriphState} (h : Alike t call s₁ s₂) :
    call.report t env s₁ = call.report t env s₂ := by
  have hinit := h.init
  cases call with
  | uart index rtsCts dataBits parity stopBits =>
    dsimp only [InitCall.isInit] at hinit
    simp only [InitCall.report, uartReport, uartChecks, hinit]
  | spi index opMode =>
    dsimp only [InitCall.isInit] at hinit
    simp only [InitCall.report, spiReport, spiChecks, hinit]
  | i2c index speedMode =>
    dsimp only [InitCall.isInit] at hinit
    simp only [InitCall.report, i2cReport, i2cChecks, hinit]
  | can index =>
    dsimp only [InitCall.isInit] at hinit
    simp only [InitCall.report, canReport, canChecks, hinit]
  | adc ch =>
    dsimp only [InitCall.isInit] at hinit
    simp only [InitCall.report, adcReport, hinit]
  | rtc index =>
    dsimp only [InitCall.isInit] at hinit
    simp only [InitCall.report, rtcReport, hinit]

/-- A call has the same outcome in states that are alike. -/
theorem sameOutcome_of_alike {call : InitCall} {s₁ s₂ : PeriphState} (h : Alike t call s₁ s₂) :
    SameOutcome t env call s₁ s₂ := by
  have h₁ : Reports t env s₁ call (call.report t env s₁) := run_reports call
  have h₂ : Reports t env s₂ call (call.report t env s₁) := by
    rw [report_congr h]
    exact run_reports call
  refine ⟨h₁.result.trans h₂.result.symm, ?_, ?_, ?_⟩
  · rw [h₁.objects, h₂.objects]
    omega
  · rw [h₁.init, h₂.init, h.init]
  · rw [h₁.pinInit, h₂.pinInit, h.pinInit]

/-- A call that reports an error has taken no pins. -/
theorem report_pins (call : InitCall) (herr : (call.report t env s).result ≠ .ok) :
    (call.report t env s).pins = [] := by
  cases call with
  | uart index rtsCts dataBits parity stopBits =>
    dsimp only [InitCall.report, uartReport] at herr ⊢
    revert herr
    rcases uartChecks t index rtsCts dataBits parity stopBits s with _ | r
    · rcases env.create 0 with _ | _
      · exact fun _ => rfl
      rcases env.create 1 with _ | _
      · exact fun _ => rfl
      rcases uartPinChecks t index rtsCts with _ | r
      · rcases env.hal 0 with _ | _
        · exact fun _ => rfl
        · exact fun herr => absurd rfl herr
      · exact fun _ => rfl
    · exact fun _ => rfl
  | spi index opMode =>
    dsimp only [InitCall.report, spiReport] at herr ⊢
    split
    · rfl
    · split_ifs <;> simp_all [InitReport.nothing]
  | i2c index speedMode =>
    dsimp only [InitCall.report, i2cReport] at herr ⊢
    split
    · rfl
    · split_ifs <;> simp_all [InitReport.nothing]
  | can index =>
    dsimp only [InitCall.report, canReport] at herr ⊢
    split
    · rfl
    · split_ifs <;> simp_all [InitReport.nothing]
  | adc ch =>
    dsimp only [InitCall.report, adcReport] at herr ⊢
    split_ifs <;> simp_all [InitReport.nothing]
  | rtc index =>
    dsimp only [InitCall.report, rtcReport] at herr ⊢
    split_ifs <;> rfl

/-- A call that fails leaves its state alike. -/
theorem alike_of_error (call : InitCall) (herr : (call.run t env s).1 ≠ .ok) :
    Alike t call (call.run t env s).2 s := by
  have hrep : Reports t env s call (call.report t env s) := run_reports call
  rw [hrep.result] at herr
  refine ⟨?_, ?_⟩
  · rw [hrep.init, decide_eq_false herr, Bool.or_false]
  · rw [hrep.pinInit, report_pins call herr]
    funext pin
    rw [if_neg List.not_mem_nil]

/-! ## When they clean up -/

/-- What `LeavesNothing` asks of a report. -/
structure InitReport.Clean (rep : InitReport) (isInit : Bool) : Prop where
  created : rep.result ≠ .ok → rep.created = 0
  complete : rep.result = .ok → isInit = false → rep.complete = true
  kernel : rep.nullUses = 0

theorem leavesNothing_iff_clean (call : InitCall) :
    LeavesNothing t env s call ↔ (call.report t env s).Clean (call.isInit t s) := by
  have hrep : Reports t env s call (call.report t env s) := run_reports call
  constructor
  · intro h
    refine ⟨fun herr => ?_, fun hok hfree => ?_, ?_⟩
    · have hobjects := h.objects (by rw [hrep.result]; exact herr)
      rw [hrep.objects] at hobjects
      omega
    · exact (hrep.handles hok hfree).mp (h.handles (hrep.result.trans hok) hfree)
    · have hkernel := h.kernel
      rw [hrep.kernel] at hkernel
      omega
  · intro h
    refine ⟨fun herr => ?_, fun hok hfree => ?_, ?_, fun herr env' => ?_⟩
    · rw [hrep.objects, h.created (by rw [← hrep.result]; exact herr), Nat.add_zero]
    · have hok' : (call.report t env s).result = .ok := hrep.result.symm.trans hok
      exact (hrep.handles hok' hfree).mpr (h.complete hok' hfree)
    · rw [hrep.kernel, h.kernel, Nat.add_zero]
    · exact sameOutcome_of_alike (alike_of_error call herr)

/-- The report of a call that has done nothing is clean, if it does not claim success. -/
theorem InitReport.nothing_clean {r : PeriphOpResult} {isInit : Bool}
    (hok : r = .ok → isInit = true) : (InitReport.nothing r).Clean isInit := by
  refine ⟨fun _ => rfl, fun h hfree => ?_, rfl⟩
  rw [hok h] at hfree
  exact Bool.noConfusion hfree

theorem uart_clean_iff (index : ℕ) (rtsCts : Bool) (dataBits parity stopBits : ℕ) :
    (uartReport t env index rtsCts dataBits parity stopBits s).Clean (s.uart index).init ↔
      CleansUp t env s (.uart index rtsCts dataBits parity stopBits) := by
  dsimp only [uartReport, CleansUp]
  rcases hchecks : uartChecks t index rtsCts dataBits parity stopBits s with _ | r
  swap
  · have hclean : (InitReport.nothing r).Clean (s.uart index).init :=
      InitReport.nothing_clean fun h => uartChecks_init.1 (by rw [hchecks, h])
    simp [hclean]
  rcases h0 : env.create 0 with _ | _
  · simp [InitReport.nothing_clean]
  rcases h1 : env.create 1 with _ | _
  · simp [InitReport.nothing_clean]
  rcases hpins : uartPinChecks t index rtsCts with _ | r
  swap
  · -- the exits that forget the two objects
    have hne : r ≠ .ok := uartPinChecks_ne_ok hpins
    simp only [reduceCtorEq, if_false, false_and, imp_false, not_true, iff_false]
    intro h
    exact absurd (h.created hne) (Nat.succ_ne_zero 1)
  rcases hhal : env.hal 0 with _ | _
  · simp only [reduceCtorEq, if_false, if_true, and_false, imp_false, not_true, iff_false]
    intro h
    exact absurd (h.created PeriphOpResult.noConfusion) (Nat.succ_ne_zero 1)
  · simp only [reduceCtorEq, if_false, true_implies, and_self, iff_true]
    exact ⟨fun h => absurd rfl h, fun _ _ => rfl, rfl⟩

theorem spi_clean_iff (index opMode : ℕ) :
    (spiReport t env index opMode s).Clean (s.spi index).init ↔
      CleansUp t env s (.spi index opMode) := by
  dsimp only [spiReport, CleansUp]
  rcases hchecks : spiChecks t index opMode s with _ | r
  swap
  · have hclean : (InitReport.nothing r).Clean (s.spi index).init :=
      InitReport.nothing_clean fun h => spiChecks_init.1 (by rw [hchecks, h])
    simp [hclean]
  rcases h0 : env.create 0 with _ | _
  · simp [InitReport.nothing_clean]
  rcases h1 : env.create 1 with _ | _
  · simp [InitReport.nothing_clean]
  rcases h2 : env.create 2 with _ | _
  · -- a `NULL` mutex goes to the kernel, and stays in the port
    simp only [reduceCtorEq, if_false, imp_false, not_true, iff_false]
    intro h
    have hkernel := h.kernel
    split_ifs at hkernel
  · simp only [reduceCtorEq, if_false, if_true, true_implies, iff_true]
    split_ifs
    · exact ⟨fun _ => rfl, fun h => PeriphOpResult.noConfusion h, rfl⟩
    · exact ⟨fun h => absurd rfl h, fun _ _ => rfl, rfl⟩

theorem i2c_clean (index speedMode : ℕ) :
    (i2cReport t env index speedMode s).Clean (s.i2c index).init := by
  unfold i2cReport
  rcases hchecks : i2cChecks t index speedMode s with _ | r
  swap
  · exact InitReport.nothing_clean fun h => i2cChecks_init.1 (by rw [hchecks, h])
  dsimp only
  split_ifs
  · exact InitReport.nothing_clean fun h => PeriphOpResult.noConfusion h
  · exact InitReport.nothing_clean fun h => PeriphOpResult.noConfusion h
  · exact ⟨fun h => absurd rfl h, fun _ _ => rfl, rfl⟩

theorem can_clean (index : ℕ) : (canReport t env index s).Clean (s.can index).init := by
  unfold canReport
  rcases hchecks : canChecks t index s with _ | r
  swap
  · exact InitReport.nothing_clean fun h => canChecks_init.1 (by rw [hchecks, h])
  dsimp only
  split_ifs
  · exact InitReport.nothing_clean fun h => PeriphOpResult.noConfusion h
  · exact InitReport.nothing_clean fun h => PeriphOpResult.noConfusion h
  · exact InitReport.nothing_clean fun h => PeriphOpResult.noConfusion h
  · exact ⟨fun h => absurd rfl h, fun _ _ => rfl, rfl⟩

theorem adc_clean (ch : ℕ) :
    (adcReport t env ch s).Clean (s.adcInstance (t.adcChannel ch).inst).init := by
  unfold adcReport
  dsimp only
  split_ifs with hinst hport hinit
  · exact InitReport.nothing_clean fun h => PeriphOpResult.noConfusion h
  · -- a running instance, whose queue is there already
    refine ⟨fun h => absurd rfl h, fun _ hfree => ?_, rfl⟩
    rw [hinit] at hfree
    exact Bool.noConfusion hfree
  · exact InitReport.nothing_clean fun h => PeriphOpResult.noConfusion h
  · exact InitReport.nothing_clean fun h => PeriphOpResult.noConfusion h
  · exact ⟨fun h => absurd rfl h, fun _ _ => rfl, rfl⟩
  · exact InitReport.nothing_clean fun h => PeriphOpResult.noConfusion h

theorem rtc_clean_iff (index : ℕ) :
    (rtcReport t env index s).Clean (s.rtc index).init ↔ CleansUp t env s (.rtc index) := by
  dsimp only [rtcReport, CleansUp]
  by_cases hmax : t.rtcMax ≤ index
  · simp [hmax, InitReport.nothing_clean]
  rcases hinit : (s.rtc index).init with _ | _
  swap
  · simp [InitReport.nothing_clean, hmax]
  have hlt : index < t.rtcMax := by omega
  simp only [if_neg hmax, reduceCtorEq, if_false, hlt, true_implies]
  rcases h0 : env.create 0 with _ | _
  · simp only [reduceCtorEq, if_false, false_and, iff_false]
    intro h
    exact absurd h.kernel (Nat.succ_ne_zero 0)
  rcases hhal : env.hal 0 with _ | _
  · -- the mutex stays behind
    simp only [reduceCtorEq, if_false, if_true, and_false, iff_false]
    intro h
    exact absurd (h.created PeriphOpResult.noConfusion) (Nat.succ_ne_zero 0)
  · simp only [if_true, and_self, iff_true]
    exact ⟨fun h => absurd rfl h, fun _ _ => rfl, rfl⟩

end Reports

/-- A failed initialisation leaves nothing behind exactly where the function cleans up. -/
theorem leavesNothing_iff (t : PinTables) (env : PeriphEnv) (s : PeriphState) (call : InitCall) :
    LeavesNothing t env s call ↔ CleansUp t env s call := by
  refine (leavesNothing_iff_clean call).trans ?_
  cases call with
  | uart index rtsCts dataBits parity stopBits =>
    exact uart_clean_iff index rtsCts dataBits parity stopBits
  | spi index opMode => exact spi_clean_iff index opMode
  | i2c index speedMode => exact iff_of_true (i2c_clean index speedMode) trivial
  | can index => exact iff_of_true (can_clean index) trivial
  | adc ch => exact iff_of_true (adc_clean ch) trivial
  | rtc index => exact rtc_clean_iff index

/-- `HAL_UART_Init` fails for `UART_Index_1` of an STM32F207: `UART_Open_Specific_Format` returns
`hwUART_HwError`, and its two semaphores are still there. -/
theorem not_leavesNothing_uart : ¬ LeavesNothing stm32f207Tables ⟨fun _ => true, fun _ => false⟩
    .reset (.uart 1 false 8 0 1) := by
  intro h
  have herr : ((InitCall.uart 1 false 8 0 1).run stm32f207Tables
      ⟨fun _ => true, fun _ => false⟩ .reset).1 ≠ .ok := by decide
  exact absurd (h.objects herr) (by decide)

end WLink.Driver
