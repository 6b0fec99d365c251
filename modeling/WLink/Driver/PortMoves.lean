import WLink.Driver.PinHolders

/-!
# The ports and channels move pins

The calls of the UART, SPI, I2C, CAN, ADC, DAC and RTC drivers as moves.
-/

namespace WLink.Driver

open Lib

section Moves

variable {t : PinTables} {r r' : OwnerRun} {call : PinCall}

/-! ## UART -/

/-- A port changes, and all others hold what they held. -/
theorem holds_setUart_of_ne {s : PeriphState} {plain interrupt : ℤ → Bool} {index : ℕ} {p : UartPort}
    {rtos : Rtos} {h : PinHolder} (hne : h ≠ .uart index) :
    (OwnerRun.mk (s.setUart index p rtos) plain interrupt).holds t h =
      (OwnerRun.mk s plain interrupt).holds t h := by
  cases h with
  | uart j =>
    have hj : j ≠ index := fun hj => hne (congrArg PinHolder.uart hj)
    exact congrArg (UartPort.held t j) (Function.update_of_ne hj ..)
  | _ => rfl

theorem holds_setUart_self {s : PeriphState} {plain interrupt : ℤ → Bool} {index : ℕ} {p : UartPort}
    {rtos : Rtos} : (OwnerRun.mk (s.setUart index p rtos) plain interrupt).holds t (.uart index) =
      p.held t index :=
  congrArg (UartPort.held t index) (Function.update_self ..)

theorem portsReset_setUart {s : PeriphState} {index : ℕ} {p : UartPort} {rtos : Rtos}
    (h : PortsReset s) (hp : p.init = false → p.flowControl = false) :
    PortsReset (s.setUart index p rtos) := by
  refine ⟨fun j hj => ?_, h.spi⟩
  dsimp only [PeriphState.setUart] at hj ⊢
  by_cases hne : j = index
  · rw [hne, Function.update_self] at hj ⊢
    exact hp hj
  · rw [Function.update_of_ne hne] at hj ⊢
    exact h.uart j hj

theorem uartOpen_of_takes {env : PeriphEnv} {s : PeriphState} {index : ℕ} {rtsCts : Bool}
    {dataBits parity stopBits : ℕ}
    (h : (InitCall.uart index rtsCts dataBits parity stopBits).Takes t env s) :
    ∃ send recv rtos, (uartOpenSpecificFormat t env index rtsCts dataBits parity stopBits s).2 =
      (s.setPins (uartPins t index rtsCts) true).setUart index
        ⟨true, (s.uart index).flowControl || rtsCts, send, recv⟩ rtos := by
  obtain ⟨hchecks, h0, h1, hpins, hhal⟩ := h
  refine ⟨some s.rtos.next, some (s.rtos.next + 1),
    ⟨s.rtos.next + 2, (s.rtos.next + 1) :: s.rtos.next :: s.rtos.live, s.rtos.nullUses⟩, ?_⟩
  simp [uartOpenSpecificFormat, hchecks, h0, h1, hpins, hhal, PeriphState.setUart,
    PeriphState.setPins]

theorem uartOpen_of_not_takes {env : PeriphEnv} {s : PeriphState} {index : ℕ} {rtsCts : Bool}
    {dataBits parity stopBits : ℕ}
    (h : ¬ (InitCall.uart index rtsCts dataBits parity stopBits).Takes t env s) :
    ∃ send recv rtos, (uartOpenSpecificFormat t env index rtsCts dataBits parity stopBits s).2 =
      s.setUart index ⟨(s.uart index).init, (s.uart index).flowControl, send, recv⟩ rtos := by
  unfold uartOpenSpecificFormat
  rcases hchecks : uartChecks t index rtsCts dataBits parity stopBits s with _ | e
  swap
  · refine ⟨(s.uart index).send, (s.uart index).recv, s.rtos, ?_⟩
    unfold PeriphState.setUart
    rw [Function.update_eq_self]
  rcases h0 : env.create 0 with _ | _
  · exact ⟨_, _, _, rfl⟩
  rcases h1 : env.create 1 with _ | _
  · exact ⟨_, _, _, rfl⟩
  rcases hpins : uartPinChecks t index rtsCts with _ | e
  swap
  · exact ⟨_, _, _, rfl⟩
  rcases hhal : env.hal 0 with _ | _
  · exact ⟨_, _, _, rfl⟩
  · exact absurd ⟨hchecks, h0, h1, hpins, hhal⟩ h

/-- `UART_Open_Specific_Format` sets the flags without looking at them. -/
theorem uartInit_movedBy (hports : PortsReset r.drv) (index : ℕ) (rtsCts : Bool)
    (dataBits parity stopBits : ℕ) (env : PeriphEnv) :
    ∃ m, MovedBy t r (.init (.uart index rtsCts dataBits parity stopBits) env) m := by
  by_cases h : (InitCall.uart index rtsCts dataBits parity stopBits).Takes t env r.drv
  swap
  · obtain ⟨send, recv, rtos, hrun⟩ := uartOpen_of_not_takes h
    have hstep : PinCall.step t r (.init (.uart index rtsCts dataBits parity stopBits) env) =
        ⟨r.drv.setUart index ⟨(r.drv.uart index).init, (r.drv.uart index).flowControl, send, recv⟩
          rtos, r.plain, r.interrupt⟩ := congrArg (OwnerRun.mk · _ _) hrun
    refine ⟨.none, movedBy_none ?_ (fun htakes => absurd htakes h) fun _ => ?_⟩
    · rw [hstep]
      refine congrArg (Holding.mk _) (funext fun h' => ?_)
      by_cases hne : h' = .uart index
      · rw [hne, holds_setUart_self]
        rfl
      · exact holds_setUart_of_ne hne
    · rw [hstep]
      exact portsReset_setUart hports (hports.uart index)
  have hfree : (r.drv.uart index).init = false := uartChecks_init.2 h.1
  obtain ⟨send, recv, rtos, hrun⟩ := uartOpen_of_takes h
  rw [hports.uart index hfree, Bool.false_or] at hrun
  have hstep : PinCall.step t r (.init (.uart index rtsCts dataBits parity stopBits) env) =
      ⟨(r.drv.setPins (uartPins t index rtsCts) true).setUart index ⟨true, rtsCts, send, recv⟩ rtos,
        r.plain, r.interrupt⟩ := congrArg (OwnerRun.mk · _ _) hrun
  refine ⟨.take (.uart index) (uartPins t index rtsCts), movedBy_take rfl ?_ ?_ ?_ ?_ ?_ ?_⟩
  · rw [hstep]
    rfl
  · show UartPort.held t index (r.drv.uart index) = []
    unfold UartPort.held
    rw [hfree, if_neg Bool.false_ne_true]
  · rw [hstep]
    exact holds_setUart_self
  · intro h' hne
    rw [hstep]
    exact holds_setUart_of_ne hne
  · exact ⟨fun hclear => hclear h, fun hclear _ => hclear⟩
  · rw [hstep]
    exact fun _ => portsReset_setUart ⟨hports.uart, hports.spi⟩ fun hinit => Bool.noConfusion hinit

/-- `UART_Close` -/
theorem uartDeInit_movedBy (index : ℕ) (env : PeriphEnv) :
    ∃ m, MovedBy t r (.deInit (.uart index) env) m := by
  by_cases h : (r.drv.uart index).init = true ∧
      (∀ pin ∈ uartPins t index (r.drv.uart index).flowControl, OnPort pin) ∧ env.hal 0 = true
  swap
  · have hrun : (uartClose t env index r.drv).2 = r.drv := by
      unfold uartClose
      dsimp only
      split_ifs with hinit hport hhal
      · rfl
      · rfl
      · exact absurd ⟨by simpa using hinit, hport, by simpa using hhal⟩ h
      · rfl
    have hstep : PinCall.step t r (.deInit (.uart index) env) = r :=
      congrArg (OwnerRun.mk · _ _) hrun
    exact movedBy_of_unchanged hstep trivial
  obtain ⟨hinit, hport, hhal⟩ := h
  have hrun : ∃ rtos, (uartClose t env index r.drv).2 =
      (r.drv.setPins (uartPins t index (r.drv.uart index).flowControl) false).setUart index
        ⟨false, false, (r.drv.uart index).send, (r.drv.uart index).recv⟩ rtos := by
    unfold uartClose
    dsimp only
    rw [if_neg (by rw [hinit]; exact Bool.noConfusion), if_neg (not_not.mpr hport),
      if_neg (by rw [hhal]; exact Bool.noConfusion)]
    exact ⟨_, rfl⟩
  obtain ⟨rtos, hrun⟩ := hrun
  have hstep : PinCall.step t r (.deInit (.uart index) env) =
      ⟨(r.drv.setPins (uartPins t index (r.drv.uart index).flowControl) false).setUart index
        ⟨false, false, (r.drv.uart index).send, (r.drv.uart index).recv⟩ rtos,
        r.plain, r.interrupt⟩ := congrArg (OwnerRun.mk · _ _) hrun
  refine ⟨.release (.uart index) (uartPins t index (r.drv.uart index).flowControl),
    movedBy_release rfl ?_ ?_ ?_ ?_ trivial ?_⟩
  · rw [hstep]
    rfl
  · exact if_pos hinit
  · rw [hstep]
    exact holds_setUart_self
  · intro h' hne
    rw [hstep]
    exact holds_setUart_of_ne hne
  · rw [hstep]
    exact fun hports => portsReset_setUart ⟨hports.uart, hports.spi⟩ fun _ => rfl

/-! ## SPI -/

theorem holds_setSpi_of_ne {s : PeriphState} {plain interrupt : ℤ → Bool} {index : ℕ} {p : SpiPort}
    {rtos : Rtos} {h : PinHolder} (hne : h ≠ .spi index) :
    (OwnerRun.mk (s.setSpi index p rtos) plain interrupt).holds t h =
      (OwnerRun.mk s plain interrupt).holds t h := by
  cases h with
  | spi j =>
    have hj : j ≠ index := fun hj => hne (congrArg PinHolder.spi hj)
    exact congrArg (SpiPort.held t j) (Function.update_of_ne hj ..)
  | _ => rfl

theorem holds_setSpi_self {s : PeriphState} {plain interrupt : ℤ → Bool} {index : ℕ} {p : SpiPort}
    {rtos : Rtos} : (OwnerRun.mk (s.setSpi index p rtos) plain interrupt).holds t (.spi index) =
      p.held t index :=
  congrArg (SpiPort.held t index) (Function.update_self ..)

theorem portsReset_setSpi {s : PeriphState} {index : ℕ} {p : SpiPort} {rtos : Rtos}
    (h : PortsReset s) (hp : p.init = false → p.useCs = false) :
    PortsReset (s.setSpi index p rtos) := by
  refine ⟨h.uart, fun j hj => ?_⟩
  dsimp only [PeriphState.setSpi] at hj ⊢
  by_cases hne : j = index
  · rw [hne, Function.update_self] at hj ⊢
    exact hp hj
  · rw [Function.update_of_ne hne] at hj ⊢
    exact h.spi j hj

theorem spiInit_of_takes {env : PeriphEnv} {s : PeriphState} {index opMode : ℕ}
    (h : (InitCall.spi index opMode).Takes t env s) :
    ∃ send recv mutex rtos, (spiMasterInit t env index opMode s).2 =
      (s.setPins (spiPins t index (spiHasCs t index)) true).setSpi index
        ⟨true, (s.spi index).useCs || spiHasCs t index, send, recv, mutex⟩ rtos := by
  obtain ⟨hchecks, h0, h1, hhal⟩ := h
  unfold spiMasterInit
  rw [hchecks, h0, h1, hhal]
  exact ⟨_, _, _, _, rfl⟩

theorem spiInit_of_not_takes {env : PeriphEnv} {s : PeriphState} {index opMode : ℕ}
    (h : ¬ (InitCall.spi index opMode).Takes t env s) :
    ∃ send recv mutex rtos, (spiMasterInit t env index opMode s).2 =
      s.setSpi index ⟨(s.spi index).init, (s.spi index).useCs, send, recv, mutex⟩ rtos := by
  unfold spiMasterInit
  rcases hchecks : spiChecks t index opMode s with _ | e
  swap
  · refine ⟨(s.spi index).send, (s.spi index).recv, (s.spi index).mutex, s.rtos, ?_⟩
    unfold PeriphState.setSpi
    rw [Function.update_eq_self]
  rcases h0 : env.create 0 with _ | _
  · exact ⟨_, _, _, _, rfl⟩
  rcases h1 : env.create 1 with _ | _
  · exact ⟨_, _, _, _, rfl⟩
  rcases hhal : env.hal 0 with _ | _
  · exact ⟨_, _, _, _, rfl⟩
  · exact absurd ⟨hchecks, h0, h1, hhal⟩ h

/-- `SPI_Master_Init` sets the flags without looking at them. -/
theorem spiInit_movedBy (hports : PortsReset r.drv) (index opMode : ℕ) (env : PeriphEnv) :
    ∃ m, MovedBy t r (.init (.spi index opMode) env) m := by
  by_cases h : (InitCall.spi index opMode).Takes t env r.drv
  swap
  · obtain ⟨send, recv, mutex, rtos, hrun⟩ := spiInit_of_not_takes h
    have hstep : PinCall.step t r (.init (.spi index opMode) env) =
        ⟨r.drv.setSpi index ⟨(r.drv.spi index).init, (r.drv.spi index).useCs, send, recv, mutex⟩
          rtos, r.plain, r.interrupt⟩ := congrArg (OwnerRun.mk · _ _) hrun
    refine ⟨.none, movedBy_none ?_ (fun htakes => absurd htakes h) fun _ => ?_⟩
    · rw [hstep]
      refine congrArg (Holding.mk _) (funext fun h' => ?_)
      by_cases hne : h' = .spi index
      · rw [hne, holds_setSpi_self]
        rfl
      · exact holds_setSpi_of_ne hne
    · rw [hstep]
      exact portsReset_setSpi hports (hports.spi index)
  have hfree : (r.drv.spi index).init = false := spiChecks_init.2 h.1
  obtain ⟨send, recv, mutex, rtos, hrun⟩ := spiInit_of_takes h
  rw [hports.spi index hfree, Bool.false_or] at hrun
  have hstep : PinCall.step t r (.init (.spi index opMode) env) =
      ⟨(r.drv.setPins (spiPins t index (spiHasCs t index)) true).setSpi index
        ⟨true, spiHasCs t index, send, recv, mutex⟩ rtos, r.plain, r.interrupt⟩ :=
    congrArg (OwnerRun.mk · _ _) hrun
  refine ⟨.take (.spi index) (spiPins t index (spiHasCs t index)),
    movedBy_take rfl ?_ ?_ ?_ ?_ ?_ ?_⟩
  · rw [hstep]
    rfl
  · show SpiPort.held t index (r.drv.spi index) = []
    unfold SpiPort.held
    rw [hfree, if_neg Bool.false_ne_true]
  · rw [hstep]
    exact holds_setSpi_self
  · intro h' hne
    rw [hstep]
    exact holds_setSpi_of_ne hne
  · exact ⟨fun hclear => hclear h, fun hclear _ => hclear⟩
  · rw [hstep]
    exact fun _ => portsReset_setSpi ⟨hports.uart, hports.spi⟩ fun hinit => Bool.noConfusion hinit

/-- `SPI_Master_DeInit` -/
theorem spiDeInit_movedBy (index : ℕ) (env : PeriphEnv) :
    ∃ m, MovedBy t r (.deInit (.spi index) env) m := by
  by_cases h : index < t.spiMax ∧ (r.drv.spi index).init = true ∧
      ∀ pin ∈ spiPins t index (r.drv.spi index).useCs, OnPort pin
  swap
  · have hrun : (spiMasterDeInit t index r.drv).2 = r.drv := by
      unfold spiMasterDeInit
      dsimp only
      split_ifs with hmax hinit hport
      · rfl
      · rfl
      · exact absurd ⟨Nat.lt_of_not_le hmax, by simpa using hinit, hport⟩ h
      · rfl
    have hstep : PinCall.step t r (.deInit (.spi index) env) = r :=
      congrArg (OwnerRun.mk · _ _) hrun
    exact movedBy_of_unchanged hstep trivial
  obtain ⟨hmax, hinit, hport⟩ := h
  have hrun : ∃ rtos, (spiMasterDeInit t index r.drv).2 =
      (r.drv.setPins (spiPins t index (r.drv.spi index).useCs) false).setSpi index
        ⟨false, false, (r.drv.spi index).send, (r.drv.spi index).recv, (r.drv.spi index).mutex⟩
        rtos := by
    unfold spiMasterDeInit
    dsimp only
    rw [if_neg (Nat.not_le.mpr hmax), if_neg (by rw [hinit]; exact Bool.noConfusion),
      if_neg (not_not.mpr hport)]
    exact ⟨_, rfl⟩
  obtain ⟨rtos, hrun⟩ := hrun
  have hstep : PinCall.step t r (.deInit (.spi index) env) =
      ⟨(r.drv.setPins (spiPins t index (r.drv.spi index).useCs) false).setSpi index
        ⟨false, false, (r.drv.spi index).send, (r.drv.spi index).recv, (r.drv.spi index).mutex⟩
        rtos, r.plain, r.interrupt⟩ := congrArg (OwnerRun.mk · _ _) hrun
  refine ⟨.release (.spi index) (spiPins t index (r.drv.spi index).useCs),
    movedBy_release rfl ?_ ?_ ?_ ?_ trivial ?_⟩
  · rw [hstep]
    rfl
  · exact if_pos hinit
  · rw [hstep]
    exact holds_setSpi_self
  · intro h' hne
    rw [hstep]
    exact holds_setSpi_of_ne hne
  · rw [hstep]
    exact fun hports => portsReset_setSpi ⟨hports.uart, hports.spi⟩ fun _ => rfl

/-! ## I2C -/

theorem holds_setI2c_of_ne {s : PeriphState} {plain interrupt : ℤ → Bool} {index : ℕ} {p : I2cPort}
    {rtos : Rtos} {h : PinHolder} (hne : h ≠ .i2c index) :
    (OwnerRun.mk (s.setI2c index p rtos) plain interrupt).holds t h =
      (OwnerRun.mk s plain interrupt).holds t h := by
  cases h with
  | i2c j =>
    have hj : j ≠ index := fun hj => hne (congrArg PinHolder.i2c hj)
    exact congrArg (I2cPort.held t j) (Function.update_of_ne hj ..)
  | _ => rfl

theorem holds_setI2c_self {s : PeriphState} {plain interrupt : ℤ → Bool} {index : ℕ} {p : I2cPort}
    {rtos : Rtos} : (OwnerRun.mk (s.setI2c index p rtos) plain interrupt).holds t (.i2c index) =
      p.held t index :=
  congrArg (I2cPort.held t index) (Function.update_self ..)

theorem i2cInit_of_takes {env : PeriphEnv} {s : PeriphState} {index speedMode : ℕ}
    (h : (InitCall.i2c index speedMode).Takes t env s) :
    ∃ done rtos, (i2cMasterInit t env index speedMode s).2 =
      (s.setPins (i2cPins t index) true).setI2c index ⟨true, done⟩ rtos := by
  obtain ⟨hchecks, h0, hhal⟩ := h
  unfold i2cMasterInit
  rw [hchecks, h0, hhal]
  exact ⟨_, _, rfl⟩

theorem i2cInit_of_not_takes {env : PeriphEnv} {s : PeriphState} {index speedMode : ℕ}
    (h : ¬ (InitCall.i2c index speedMode).Takes t env s) :
    ∃ done rtos, (i2cMasterInit t env index speedMode s).2 =
      s.setI2c index ⟨(s.i2c index).init, done⟩ rtos := by
  unfold i2cMasterInit
  rcases hchecks : i2cChecks t index speedMode s with _ | e
  swap
  · refine ⟨(s.i2c index).done, s.rtos, ?_⟩
    unfold PeriphState.setI2c
    rw [Function.update_eq_self]
  rcases h0 : env.create 0 with _ | _
  · exact ⟨_, _, rfl⟩
  rcases hhal : env.hal 0 with _ | _
  · exact ⟨_, _, rfl⟩
  · exact absurd ⟨hchecks, h0, hhal⟩ h

/-- `I2C_Master_Init` sets the flags without looking at them. -/
theorem i2cInit_movedBy (index speedMode : ℕ) (env : PeriphEnv) :
    ∃ m, MovedBy t r (.init (.i2c index speedMode) env) m := by
  by_cases h : (InitCall.i2c index speedMode).Takes t env r.drv
  swap
  · obtain ⟨done, rtos, hrun⟩ := i2cInit_of_not_takes h
    have hstep : PinCall.step t r (.init (.i2c index speedMode) env) =
        ⟨r.drv.setI2c index ⟨(r.drv.i2c index).init, done⟩ rtos, r.plain, r.interrupt⟩ :=
      congrArg (OwnerRun.mk · _ _) hrun
    refine ⟨.none, movedBy_none ?_ (fun htakes => absurd htakes h) ?_⟩
    · rw [hstep]
      refine congrArg (Holding.mk _) (funext fun h' => ?_)
      by_cases hne : h' = .i2c index
      · rw [hne, holds_setI2c_self]
        rfl
      · exact holds_setI2c_of_ne hne
    · rw [hstep]
      exact fun hports => ⟨hports.uart, hports.spi⟩
  have hfree : (r.drv.i2c index).init = false := i2cChecks_init.2 h.1
  obtain ⟨done, rtos, hrun⟩ := i2cInit_of_takes h
  have hstep : PinCall.step t r (.init (.i2c index speedMode) env) =
      ⟨(r.drv.setPins (i2cPins t index) true).setI2c index ⟨true, done⟩ rtos,
        r.plain, r.interrupt⟩ := congrArg (OwnerRun.mk · _ _) hrun
  refine ⟨.take (.i2c index) (i2cPins t index), movedBy_take rfl ?_ ?_ ?_ ?_ ?_ ?_⟩
  · rw [hstep]
    rfl
  · show I2cPort.held t index (r.drv.i2c index) = []
    unfold I2cPort.held
    rw [hfree, if_neg Bool.false_ne_true]
  · rw [hstep]
    exact holds_setI2c_self
  · intro h' hne
    rw [hstep]
    exact holds_setI2c_of_ne hne
  · exact ⟨fun hclear => hclear h, fun hclear _ => hclear⟩
  · rw [hstep]
    exact fun hports => ⟨hports.uart, hports.spi⟩

/-- `I2C_Master_DeInit` -/
theorem i2cDeInit_movedBy (index : ℕ) (env : PeriphEnv) :
    ∃ m, MovedBy t r (.deInit (.i2c index) env) m := by
  by_cases h : index < t.i2cMax ∧ (r.drv.i2c index).init = true ∧
      ∀ pin ∈ i2cPins t index, OnPort pin
  swap
  · have hrun : (i2cMasterDeInit t index r.drv).2 = r.drv := by
      unfold i2cMasterDeInit
      dsimp only
      split_ifs with hmax hinit hport
      · rfl
      · rfl
      · exact absurd ⟨Nat.lt_of_not_le hmax, by simpa using hinit, hport⟩ h
      · rfl
    have hstep : PinCall.step t r (.deInit (.i2c index) env) = r :=
      congrArg (OwnerRun.mk · _ _) hrun
    exact movedBy_of_unchanged hstep trivial
  obtain ⟨hmax, hinit, hport⟩ := h
  have hrun : ∃ rtos, (i2cMasterDeInit t index r.drv).2 =
      (r.drv.setPins (i2cPins t index) false).setI2c index ⟨false, (r.drv.i2c index).done⟩
        rtos := by
    unfold i2cMasterDeInit
    dsimp only
    rw [if_neg (Nat.not_le.mpr hmax), if_neg (by rw [hinit]; exact Bool.noConfusion),
      if_neg (not_not.mpr hport)]
    exact ⟨_, rfl⟩
  obtain ⟨rtos, hrun⟩ := hrun
  have hstep : PinCall.step t r (.deInit (.i2c index) env) =
      ⟨(r.drv.setPins (i2cPins t index) false).setI2c index ⟨false, (r.drv.i2c index).done⟩ rtos,
        r.plain, r.interrupt⟩ := congrArg (OwnerRun.mk · _ _) hrun
  refine ⟨.release (.i2c index) (i2cPins t index), movedBy_release rfl ?_ ?_ ?_ ?_ trivial ?_⟩
  · rw [hstep]
    rfl
  · exact if_pos hinit
  · rw [hstep]
    exact holds_setI2c_self
  · intro h' hne
    rw [hstep]
    exact holds_setI2c_of_ne hne
  · rw [hstep]
    exact fun hports => ⟨hports.uart, hports.spi⟩

/-! ## CAN -/

theorem holds_setCan_of_ne {s : PeriphState} {plain interrupt : ℤ → Bool} {index : ℕ} {p : CanPort}
    {rtos : Rtos} {h : PinHolder} (hne : h ≠ .can index) :
    (OwnerRun.mk (s.setCan index p rtos) plain interrupt).holds t h =
      (OwnerRun.mk s plain interrupt).holds t h := by
  cases h with
  | can j =>
    have hj : j ≠ index := fun hj => hne (congrArg PinHolder.can hj)
    exact congrArg (CanPort.held t j) (Function.update_of_ne hj ..)
  | _ => rfl

theorem holds_setCan_self {s : PeriphState} {plain interrupt : ℤ → Bool} {index : ℕ} {p : CanPort}
    {rtos : Rtos} : (OwnerRun.mk (s.setCan index p rtos) plain interrupt).holds t (.can index) =
      p.held t index :=
  congrArg (CanPort.held t index) (Function.update_self ..)

theorem canInit_of_takes {env : PeriphEnv} {s : PeriphState} {index : ℕ}
    (h : (InitCall.can index).Takes t env s) :
    ∃ txDone rxQueue rtos, (canInit t env index s).2 =
      (s.setPins (canPins t index) true).setCan index ⟨true, txDone, rxQueue⟩ rtos := by
  obtain ⟨hchecks, h0, h1, hinit, hstart, hnotify⟩ := h
  unfold canInit
  rw [hchecks, h0, h1, hinit, hstart, hnotify]
  exact ⟨_, _, _, rfl⟩

theorem canInit_of_not_takes {env : PeriphEnv} {s : PeriphState} {index : ℕ}
    (h : ¬ (InitCall.can index).Takes t env s) :
    ∃ txDone rxQueue rtos, (canInit t env index s).2 =
      s.setCan index ⟨(s.can index).init, txDone, rxQueue⟩ rtos := by
  unfold canInit
  rcases hchecks : canChecks t index s with _ | e
  swap
  · refine ⟨(s.can index).txDone, (s.can index).rxQueue, s.rtos, ?_⟩
    unfold PeriphState.setCan
    rw [Function.update_eq_self]
  rcases h0 : env.create 0 with _ | _
  · exact ⟨_, _, _, rfl⟩
  rcases h1 : env.create 1 with _ | _
  · exact ⟨_, _, _, rfl⟩
  rcases hinit : env.hal 0 with _ | _
  · exact ⟨_, _, _, rfl⟩
  rcases hstart : env.hal 1 with _ | _
  · exact ⟨_, _, _, rfl⟩
  rcases hnotify : env.hal 2 with _ | _
  · exact ⟨_, _, _, rfl⟩
  · exact absurd ⟨hchecks, h0, h1, hinit, hstart, hnotify⟩ h

/-- `CAN_Init` sets the flags without looking at them. -/
theorem canInit_movedBy (index : ℕ) (env : PeriphEnv) :
    ∃ m, MovedBy t r (.init (.can index) env) m := by
  by_cases h : (InitCall.can index).Takes t env r.drv
  swap
  · obtain ⟨txDone, rxQueue, rtos, hrun⟩ := canInit_of_not_takes h
    have hstep : PinCall.step t r (.init (.can index) env) =
        ⟨r.drv.setCan index ⟨(r.drv.can index).init, txDone, rxQueue⟩ rtos, r.plain, r.interrupt⟩ :=
      congrArg (OwnerRun.mk · _ _) hrun
    refine ⟨.none, movedBy_none ?_ (fun htakes => absurd htakes h) ?_⟩
    · rw [hstep]
      refine congrArg (Holding.mk _) (funext fun h' => ?_)
      by_cases hne : h' = .can index
      · rw [hne, holds_setCan_self]
        rfl
      · exact holds_setCan_of_ne hne
    · rw [hstep]
      exact fun hports => ⟨hports.uart, hports.spi⟩
  have hfree : (r.drv.can index).init = false := canChecks_init.2 h.1
  obtain ⟨txDone, rxQueue, rtos, hrun⟩ := canInit_of_takes h
  have hstep : PinCall.step t r (.init (.can index) env) =
      ⟨(r.drv.setPins (canPins t index) true).setCan index ⟨true, txDone, rxQueue⟩ rtos,
        r.plain, r.interrupt⟩ := congrArg (OwnerRun.mk · _ _) hrun
  refine ⟨.take (.can index) (canPins t index), movedBy_take rfl ?_ ?_ ?_ ?_ ?_ ?_⟩
  · rw [hstep]
    rfl
  · show CanPort.held t index (r.drv.can index) = []
    unfold CanPort.held
    rw [hfree, if_neg Bool.false_ne_true]
  · rw [hstep]
    exact holds_setCan_self
  · intro h' hne
    rw [hstep]
    exact holds_setCan_of_ne hne
  · exact ⟨fun hclear => hclear h, fun hclear _ => hclear⟩
  · rw [hstep]
    exact fun hports => ⟨hports.uart, hports.spi⟩

/-- `CAN_DeInit` -/
theorem canDeInit_movedBy (index : ℕ) (env : PeriphEnv) :
    ∃ m, MovedBy t r (.deInit (.can index) env) m := by
  by_cases h : index < t.canMax ∧ (r.drv.can index).init = true ∧ canPinChecks t index = none
  swap
  · have hrun : (canDeInit t index r.drv).2 = r.drv := by
      unfold canDeInit
      dsimp only
      rcases hchecks : canPinChecks t index with _ | e
      · dsimp only
        split_ifs with hmax hinit
        · rfl
        · rfl
        · exact absurd ⟨Nat.lt_of_not_le hmax, by simpa using hinit, hchecks⟩ h
      · dsimp only
        split_ifs <;> rfl
    have hstep : PinCall.step t r (.deInit (.can index) env) = r :=
      congrArg (OwnerRun.mk · _ _) hrun
    exact movedBy_of_unchanged hstep trivial
  obtain ⟨hmax, hinit, hchecks⟩ := h
  have hrun : ∃ rtos, (canDeInit t index r.drv).2 =
      (r.drv.setPins (canPins t index) false).setCan index
        ⟨false, (r.drv.can index).txDone, (r.drv.can index).rxQueue⟩ rtos := by
    unfold canDeInit
    dsimp only
    rw [if_neg (Nat.not_le.mpr hmax), if_neg (by rw [hinit]; exact Bool.noConfusion), hchecks]
    exact ⟨_, rfl⟩
  obtain ⟨rtos, hrun⟩ := hrun
  have hstep : PinCall.step t r (.deInit (.can index) env) =
      ⟨(r.drv.setPins (canPins t index) false).setCan index
        ⟨false, (r.drv.can index).txDone, (r.drv.can index).rxQueue⟩ rtos,
        r.plain, r.interrupt⟩ := congrArg (OwnerRun.mk · _ _) hrun
  refine ⟨.release (.can index) (canPins t index), movedBy_release rfl ?_ ?_ ?_ ?_ trivial ?_⟩
  · rw [hstep]
    rfl
  · exact if_pos hinit
  · rw [hstep]
    exact holds_setCan_self
  · intro h' hne
    rw [hstep]
    exact holds_setCan_of_ne hne
  · rw [hstep]
    exact fun hports => ⟨hports.uart, hports.spi⟩

/-! ## ADC and DAC -/

theorem holds_adc_self {ch : ℕ} {v : Bool}
    (h : r'.drv.adcChannel = Function.update r.drv.adcChannel ch v) :
    r'.holds t (.adc ch) = if v then [(t.adcChannel ch).pin] else [] :=
  congrArg (fun b : Bool => if b then [(t.adcChannel ch).pin] else [])
    ((congrFun h ch).trans (Function.update_self ..))

theorem holds_adc_of_ne {ch j : ℕ} {v : Bool}
    (h : r'.drv.adcChannel = Function.update r.drv.adcChannel ch v)
    (hne : PinHolder.adc j ≠ .adc ch) : r'.holds t (.adc j) = r.holds t (.adc j) := by
  have hj : j ≠ ch := fun hj => hne (congrArg PinHolder.adc hj)
  exact congrArg (fun b : Bool => if b then [(t.adcChannel j).pin] else [])
    ((congrFun h j).trans (Function.update_of_ne hj ..))

theorem holds_dac_self {ch : ℕ} {v : Bool}
    (h : r'.drv.dacChannel = Function.update r.drv.dacChannel ch v) :
    r'.holds t (.dac ch) = if v then [(t.dacChannel ch).pin] else [] :=
  congrArg (fun b : Bool => if b then [(t.dacChannel ch).pin] else [])
    ((congrFun h ch).trans (Function.update_self ..))

theorem holds_dac_of_ne {ch j : ℕ} {v : Bool}
    (h : r'.drv.dacChannel = Function.update r.drv.dacChannel ch v)
    (hne : PinHolder.dac j ≠ .dac ch) : r'.holds t (.dac j) = r.holds t (.dac j) := by
  have hj : j ≠ ch := fun hj => hne (congrArg PinHolder.dac hj)
  exact congrArg (fun b : Bool => if b then [(t.dacChannel j).pin] else [])
    ((congrFun h j).trans (Function.update_of_ne hj ..))

/-- The loops at the end of the two functions change the instances only. -/
theorem foldl_adcReleaseInstance (s : PeriphState) (instances : List ℕ) :
    ∃ adcInstance rtos, instances.foldl (adcReleaseInstance t) s = { s with adcInstance, rtos } := by
  induction instances generalizing s with
  | nil => exact ⟨_, _, rfl⟩
  | cons inst instances ih =>
    obtain ⟨adcInstance, rtos, hrest⟩ := ih (adcReleaseInstance t s inst)
    refine ⟨adcInstance, rtos, hrest.trans ?_⟩
    unfold adcReleaseInstance
    dsimp only
    split_ifs <;> rfl

theorem foldl_dacReleaseInstance (s : PeriphState) (instances : List ℕ) :
    ∃ dacInstance, instances.foldl (dacReleaseInstance t) s = { s with dacInstance } := by
  induction instances generalizing s with
  | nil => exact ⟨_, rfl⟩
  | cons inst instances ih =>
    obtain ⟨dacInstance, hrest⟩ := ih (dacReleaseInstance t s inst)
    refine ⟨dacInstance, hrest.trans ?_⟩
    unfold dacReleaseInstance
    split_ifs <;> rfl

theorem adcInit_of_takes {env : PeriphEnv} {s : PeriphState} {ch : ℕ}
    (h : (InitCall.adc ch).Takes t env s) :
    ∃ adcInstance rtos, (adcChannelInit t env ch s).2 =
      { s.setPins [(t.adcChannel ch).pin] true with
        adcChannel := Function.update s.adcChannel ch true, adcInstance, rtos } := by
  obtain ⟨hinst, hport, hcreate⟩ := h
  unfold adcChannelInit
  dsimp only
  rw [if_neg (Nat.not_le.mpr hinst), if_neg (not_not.mpr hport)]
  rcases hinit : (s.adcInstance (t.adcChannel ch).inst).init with _ | _
  · obtain ⟨h0, hhal⟩ := hcreate hinit
    rw [h0, hhal]
    exact ⟨_, _, rfl⟩
  · exact ⟨_, _, rfl⟩

theorem adcInit_of_not_takes {env : PeriphEnv} {s : PeriphState} {ch : ℕ}
    (h : ¬ (InitCall.adc ch).Takes t env s) :
    ∃ adcInstance rtos, (adcChannelInit t env ch s).2 = { s with adcInstance, rtos } := by
  unfold adcChannelInit
  dsimp only
  by_cases hinst : t.adcInstanceMax ≤ (t.adcChannel ch).inst
  · rw [if_pos hinst]
    exact ⟨_, _, rfl⟩
  rw [if_neg hinst]
  by_cases hport : ¬ OnPort (t.adcChannel ch).pin
  · rw [if_pos hport]
    exact ⟨_, _, rfl⟩
  rw [if_neg hport]
  rw [not_not] at hport
  rcases hinit : (s.adcInstance (t.adcChannel ch).inst).init with _ | _
  swap
  · refine absurd ⟨Nat.lt_of_not_le hinst, hport, fun hfree => ?_⟩ h
    exact absurd (hinit.symm.trans hfree) Bool.noConfusion
  rcases h0 : env.create 0 with _ | _
  · exact ⟨_, _, rfl⟩
  rcases hhal : env.hal 0 with _ | _
  · exact ⟨_, _, rfl⟩
  · exact absurd ⟨Nat.lt_of_not_le hinst, hport, fun _ => ⟨h0, hhal⟩⟩ h

/-- `hwADC_Channel_Init` looks neither at the flag nor at its own status. -/
theorem adcInit_movedBy (ch : ℕ) (env : PeriphEnv) :
    ∃ m, MovedBy t r (.init (.adc ch) env) m := by
  by_cases h : (InitCall.adc ch).Takes t env r.drv
  swap
  · obtain ⟨adcInstance, rtos, hrun⟩ := adcInit_of_not_takes h
    have hstep : PinCall.step t r (.init (.adc ch) env) =
        ⟨{ r.drv with adcInstance, rtos }, r.plain, r.interrupt⟩ :=
      congrArg (OwnerRun.mk · _ _) hrun
    refine ⟨.none, movedBy_none ?_ (fun htakes => absurd htakes h) ?_⟩
    · rw [hstep]
      refine congrArg (Holding.mk _) (funext fun h' => ?_)
      cases h' <;> rfl
    · rw [hstep]
      exact fun hports => ⟨hports.uart, hports.spi⟩
  obtain ⟨adcInstance, rtos, hrun⟩ := adcInit_of_takes h
  have hstep : PinCall.step t r (.init (.adc ch) env) =
      ⟨{ r.drv.setPins [(t.adcChannel ch).pin] true with
        adcChannel := Function.update r.drv.adcChannel ch true, adcInstance, rtos },
        r.plain, r.interrupt⟩ := congrArg (OwnerRun.mk · _ _) hrun
  refine ⟨.take (.adc ch) [(t.adcChannel ch).pin], ?_⟩
  constructor
  · rw [hstep]
    refine holding_take rfl ?_ fun h' hne => ?_
    · exact holds_adc_self (r := r) (v := true) rfl
    · cases h' with
      | adc j => exact holds_adc_of_ne rfl hne
      | _ => rfl
  · exact .inr rfl
  · exact fun p hp => List.mem_singleton.mpr (mem_held_one.mp hp).2
  · -- the pin may be its own
    show (∀ p ∈ [(t.adcChannel ch).pin], r.drv.gpio.pinInit p = true →
        p ∈ if r.drv.adcChannel ch then [(t.adcChannel ch).pin] else []) ↔
      ((InitCall.adc ch).Takes t env r.drv →
        r.drv.gpio.pinInit (t.adcChannel ch).pin = true → r.drv.adcChannel ch = true)
    constructor
    · intro hfits _ hflag
      exact (mem_held_one.mp (hfits _ List.mem_cons_self hflag)).1
    · intro hown p hp hflag
      rw [List.mem_singleton.mp hp] at hflag ⊢
      exact mem_held_one.mpr ⟨hown h hflag, rfl⟩
  · rw [hstep]
    exact fun hports => ⟨hports.uart, hports.spi⟩

/-- `hwADC_Channel_DeInit` -/
theorem adcDeInit_movedBy (ch : ℕ) (env : PeriphEnv) :
    ∃ m, MovedBy t r (.deInit (.adc ch) env) m := by
  by_cases h : (t.adcChannel ch).inst < t.adcInstanceMax ∧ ch < t.adcChannelMax ∧
      r.drv.adcChannel ch = true ∧ OnPort (t.adcChannel ch).pin
  swap
  · have hrun : (adcChannelDeInit t ch r.drv).2 = r.drv := by
      unfold adcChannelDeInit
      dsimp only
      split_ifs with hinst hmax hinit hport
      · rfl
      · rfl
      · rfl
      · exact absurd ⟨Nat.lt_of_not_le hinst, Nat.lt_of_not_le hmax, by simpa using hinit, hport⟩ h
      · rfl
    have hstep : PinCall.step t r (.deInit (.adc ch) env) = r :=
      congrArg (OwnerRun.mk · _ _) hrun
    exact movedBy_of_unchanged hstep trivial
  obtain ⟨hinst, hmax, hinit, hport⟩ := h
  have hrun : ∃ adcInstance rtos, (adcChannelDeInit t ch r.drv).2 =
      { r.drv.setPins [(t.adcChannel ch).pin] false with
        adcChannel := Function.update r.drv.adcChannel ch false, adcInstance, rtos } := by
    unfold adcChannelDeInit
    dsimp only
    rw [if_neg (Nat.not_le.mpr hinst), if_neg (Nat.not_le.mpr hmax),
      if_neg (by rw [hinit]; exact Bool.noConfusion), if_neg (not_not.mpr hport)]
    dsimp only
    -- the loop over the instances touches no pin
    obtain ⟨adcInstance, rtos, hloop⟩ := foldl_adcReleaseInstance (t := t)
      { r.drv with adcChannel := Function.update r.drv.adcChannel ch false }
      (List.range t.adcInstanceMax)
    rw [hloop]
    exact ⟨adcInstance, rtos, rfl⟩
  obtain ⟨adcInstance, rtos, hrun⟩ := hrun
  have hstep : PinCall.step t r (.deInit (.adc ch) env) =
      ⟨{ r.drv.setPins [(t.adcChannel ch).pin] false with
        adcChannel := Function.update r.drv.adcChannel ch false, adcInstance, rtos },
        r.plain, r.interrupt⟩ := congrArg (OwnerRun.mk · _ _) hrun
  refine ⟨.release (.adc ch) [(t.adcChannel ch).pin],
    movedBy_release rfl ?_ ?_ ?_ ?_ trivial ?_⟩
  · rw [hstep]
    rfl
  · exact if_pos hinit
  · rw [hstep]
    exact holds_adc_self (r := r) (v := false) rfl
  · intro h' hne
    rw [hstep]
    cases h' with
    | adc j => exact holds_adc_of_ne rfl hne
    | _ => rfl
  · rw [hstep]
    exact fun hports => ⟨hports.uart, hports.spi⟩

theorem dacInit_of_takes {env : PeriphEnv} {s : PeriphState} {ch : ℕ}
    (h : DacInitTakes t env s ch) :
    ∃ dacInstance, (dacChannelInit t env ch s).2 =
      { s.setPins [(t.dacChannel ch).pin] true with
        dacChannel := Function.update s.dacChannel ch true, dacInstance } := by
  obtain ⟨hinst, hmax, hfree, hport, hinit, hconfig, hstart⟩ := h
  unfold dacChannelInit
  dsimp only
  have hrun : ¬ (s.dacInstance (t.dacChannel ch).inst = false ∧ env.hal 0 = false) := by
    rintro ⟨hinst', hhal⟩
    exact absurd ((hinit hinst').symm.trans hhal) Bool.noConfusion
  rw [if_neg (Nat.not_le.mpr hinst), if_neg (Nat.not_le.mpr hmax),
    if_neg (by rw [hfree]; exact Bool.noConfusion), if_neg (not_not.mpr hport), if_neg hrun,
    if_neg (by simp [hconfig, hstart])]
  exact ⟨_, rfl⟩

theorem dacInit_of_not_takes {env : PeriphEnv} {s : PeriphState} {ch : ℕ}
    (h : ¬ DacInitTakes t env s ch) :
    ∃ dacInstance, (dacChannelInit t env ch s).2 = { s with dacInstance } := by
  unfold dacChannelInit
  dsimp only
  split_ifs with hinst hmax htaken hport hhal hhal'
  iterate 3 exact ⟨_, rfl⟩
  · exact ⟨_, rfl⟩
  · exact ⟨_, rfl⟩
  · rw [not_or] at hhal'
    refine absurd ⟨Nat.lt_of_not_le hinst, Nat.lt_of_not_le hmax, by simpa using htaken, hport,
      fun hinit => ?_, by simpa using hhal'.1, by simpa using hhal'.2⟩ h
    by_contra hfail
    exact hhal ⟨hinit, by simpa using hfail⟩
  · exact ⟨_, rfl⟩

/-- `hwDAC_Channel_Init` sets the flag without looking at it. -/
theorem dacInit_movedBy (ch : ℕ) (env : PeriphEnv) : ∃ m, MovedBy t r (.dacInit ch env) m := by
  by_cases h : DacInitTakes t env r.drv ch
  swap
  · obtain ⟨dacInstance, hrun⟩ := dacInit_of_not_takes h
    have hstep : PinCall.step t r (.dacInit ch env) =
        ⟨{ r.drv with dacInstance }, r.plain, r.interrupt⟩ := congrArg (OwnerRun.mk · _ _) hrun
    refine ⟨.none, movedBy_none ?_ (fun htakes => absurd htakes h) ?_⟩
    · rw [hstep]
      refine congrArg (Holding.mk _) (funext fun h' => ?_)
      cases h' <;> rfl
    · rw [hstep]
      exact fun hports => ⟨hports.uart, hports.spi⟩
  obtain ⟨dacInstance, hrun⟩ := dacInit_of_takes h
  have hstep : PinCall.step t r (.dacInit ch env) =
      ⟨{ r.drv.setPins [(t.dacChannel ch).pin] true with
        dacChannel := Function.update r.drv.dacChannel ch true, dacInstance },
        r.plain, r.interrupt⟩ := congrArg (OwnerRun.mk · _ _) hrun
  refine ⟨.take (.dac ch) [(t.dacChannel ch).pin], movedBy_take rfl ?_ ?_ ?_ ?_ ?_ ?_⟩
  · rw [hstep]
    rfl
  · show (if r.drv.dacChannel ch then _ else _) = []
    rw [h.2.2.1, if_neg Bool.false_ne_true]
  · rw [hstep]
    exact holds_dac_self (r := r) (v := true) rfl
  · intro h' hne
    rw [hstep]
    cases h' with
    | dac j => exact holds_dac_of_ne rfl hne
    | _ => rfl
  · rw [List.forall_mem_singleton]
    exact ⟨fun hclear => hclear h, fun hclear _ => hclear⟩
  · rw [hstep]
    exact fun hports => ⟨hports.uart, hports.spi⟩

/-- `hwDAC_Channel_DeInit` -/
theorem dacDeInit_movedBy (ch : ℕ) (env : PeriphEnv) :
    ∃ m, MovedBy t r (.deInit (.dac ch) env) m := by
  by_cases h : (t.dacChannel ch).inst < t.dacInstanceMax ∧ ch < t.dacChannelMax ∧
      r.drv.dacChannel ch = true ∧ OnPort (t.dacChannel ch).pin
  swap
  · have hrun : (dacChannelDeInit t ch r.drv).2 = r.drv := by
      unfold dacChannelDeInit
      dsimp only
      split_ifs with hinst hmax hinit hport
      · rfl
      · rfl
      · rfl
      · exact absurd ⟨Nat.lt_of_not_le hinst, Nat.lt_of_not_le hmax, by simpa using hinit, hport⟩ h
      · rfl
    have hstep : PinCall.step t r (.deInit (.dac ch) env) = r :=
      congrArg (OwnerRun.mk · _ _) hrun
    exact movedBy_of_unchanged hstep trivial
  obtain ⟨hinst, hmax, hinit, hport⟩ := h
  have hrun : ∃ dacInstance, (dacChannelDeInit t ch r.drv).2 =
      { r.drv.setPins [(t.dacChannel ch).pin] false with
        dacChannel := Function.update r.drv.dacChannel ch false, dacInstance } := by
    unfold dacChannelDeInit
    dsimp only
    rw [if_neg (Nat.not_le.mpr hinst), if_neg (Nat.not_le.mpr hmax),
      if_neg (by rw [hinit]; exact Bool.noConfusion), if_neg (not_not.mpr hport)]
    dsimp only
    -- the loop over the instances touches no pin
    obtain ⟨dacInstance, hloop⟩ := foldl_dacReleaseInstance (t := t)
      { r.drv with dacChannel := Function.update r.drv.dacChannel ch false }
      (List.range t.dacInstanceMax)
    rw [hloop]
    exact ⟨dacInstance, rfl⟩
  obtain ⟨dacInstance, hrun⟩ := hrun
  have hstep : PinCall.step t r (.deInit (.dac ch) env) =
      ⟨{ r.drv.setPins [(t.dacChannel ch).pin] false with
        dacChannel := Function.update r.drv.dacChannel ch false, dacInstance },
        r.plain, r.interrupt⟩ := congrArg (OwnerRun.mk · _ _) hrun
  refine ⟨.release (.dac ch) [(t.dacChannel ch).pin],
    movedBy_release rfl ?_ ?_ ?_ ?_ trivial ?_⟩
  · rw [hstep]
    rfl
  · exact if_pos hinit
  · rw [hstep]
    exact holds_dac_self (r := r) (v := false) rfl
  · intro h' hne
    rw [hstep]
    cases h' with
    | dac j => exact holds_dac_of_ne rfl hne
    | _ => rfl
  · rw [hstep]
    exact fun hports => ⟨hports.uart, hports.spi⟩

/-- `RTC_Timer_Init` has no pins. -/
theorem rtcInit_movedBy (index : ℕ) (env : PeriphEnv) :
    ∃ m, MovedBy t r (.init (.rtc index) env) m := by
  have hrun : ∃ rtc rtos, (rtcTimerInit t env index r.drv).2 = { r.drv with rtc, rtos } := by
    unfold rtcTimerInit
    dsimp only
    split_ifs <;> exact ⟨_, _, rfl⟩
  obtain ⟨rtc, rtos, hrun⟩ := hrun
  have hstep : PinCall.step t r (.init (.rtc index) env) =
      ⟨{ r.drv with rtc, rtos }, r.plain, r.interrupt⟩ := congrArg (OwnerRun.mk · _ _) hrun
  refine ⟨.none, movedBy_none ?_ (fun htakes => htakes.elim) ?_⟩
  · rw [hstep]
    refine congrArg (Holding.mk _) (funext fun h' => ?_)
    cases h' <;> rfl
  · rw [hstep]
    exact fun hports => ⟨hports.uart, hports.spi⟩

end Moves

end WLink.Driver
