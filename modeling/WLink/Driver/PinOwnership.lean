import WLink.Driver.PinMoves
import WLink.Driver.PortMoves
import WLink.Lib.Run

/-!
# Pin ownership

In a run from reset the pins stay exclusive, and no instance loses a pin to another, exactly if every
call meets `FindsFree` (`always_pinsExclusive_iff`): only `GPIO_Pin_Init` and `GPIO_Interrupt_Init`
look at the flags before they take a pin, and the two functions that release such a pin do not ask
whose it is.
-/

namespace WLink.Driver

open Lib

section Steps

variable {t : PinTables} {r : OwnerRun}

/-- Every call is a move. -/
theorem exists_movedBy (hports : PortsReset r.drv) (call : PinCall) :
    ∃ m, MovedBy t r call m := by
  cases call with
  | pinInit pin dir pullMode => exact pinInit_movedBy pin dir pullMode
  | pinDeInit pin => exact pinDeInit_movedBy pin
  | interruptInit pin mode => exact interruptInit_movedBy pin mode
  | interruptDeInit pin => exact interruptDeInit_movedBy pin
  | pwmInit c inverse hal => exact pwmInit_movedBy c inverse hal
  | pwmDeInit c hal => exact pwmDeInit_movedBy c hal
  | init call env =>
    cases call with
    | uart index rtsCts dataBits parity stopBits =>
      exact uartInit_movedBy hports index rtsCts dataBits parity stopBits env
    | spi index opMode => exact spiInit_movedBy hports index opMode env
    | i2c index speedMode => exact i2cInit_movedBy index speedMode env
    | can index => exact canInit_movedBy index env
    | adc ch => exact adcInit_movedBy ch env
    | rtc index => exact rtcInit_movedBy index env
  | dacInit ch env => exact dacInit_movedBy ch env
  | deInit call env =>
    cases call with
    | uart index => exact uartDeInit_movedBy index env
    | spi index => exact spiDeInit_movedBy index env
    | i2c index => exact i2cDeInit_movedBy index env
    | can index => exact canDeInit_movedBy index env
    | adc ch => exact adcDeInit_movedBy ch env
    | dac ch => exact dacDeInit_movedBy ch env

/-- One call keeps the pins exclusive and releases its own exactly if it finds what it takes free. -/
theorem pinsExclusive_step_iff (hports : PortsReset r.drv) (hex : PinsExclusive t r)
    (call : PinCall) :
    PinsExclusive t (PinCall.step t r call) ∧ ReleasesOwn t r call ↔ FindsFree t r call := by
  obtain ⟨m, hm⟩ := exists_movedBy (t := t) hports call
  unfold PinsExclusive ReleasesOwn
  rw [hm.holding, ← hm.fits, ← Holding.exclusive_apply_iff hex hm.whole]
  rcases hm.mover with rfl | hmover
  · -- a call that moves nothing clears no flag
    have hnone : ∀ mover, Holding.LosesOwn (r.holding t) (r.holding t) mover := by
      intro mover pin hflag hcleared
      exact absurd (hflag.symm.trans hcleared) Bool.noConfusion
    rw [Holding.apply_none]
    exact and_congr_right fun _ => iff_of_true (hnone _) (hnone _)
  · rw [hmover]

theorem portsReset_step (hports : PortsReset r.drv) (call : PinCall) :
    PortsReset (PinCall.step t r call).drv := by
  obtain ⟨m, hm⟩ := exists_movedBy (t := t) hports call
  exact hm.ports hports

end Steps

theorem pinsExclusive_reset (t : PinTables) : PinsExclusive t .reset := by
  have hnone : ∀ h, OwnerRun.reset.holds t h = [] := by
    intro h
    cases h <;> rfl
  constructor
  · intro pin h h' hmem _
    have hmem' : pin ∈ OwnerRun.reset.holds t h := hmem
    rw [hnone] at hmem'
    exact absurd hmem' List.not_mem_nil
  · intro pin
    refine iff_of_false Bool.false_ne_true ?_
    rintro ⟨h, hmem⟩
    have hmem' : pin ∈ OwnerRun.reset.holds t h := hmem
    rw [hnone] at hmem'
    exact List.not_mem_nil hmem'

/-- In a run from reset the pins are exclusive and every release is of the releasing instance's own
pins, exactly if every call finds what it takes free. -/
theorem always_pinsExclusive_iff (t : PinTables) (calls : List PinCall) :
    Always (PinCall.step t) (PinsExclusive t) .reset calls ∧
        AllSteps (PinCall.step t) (ReleasesOwn t) .reset calls ↔
      AllSteps (PinCall.step t) (FindsFree t) .reset calls := by
  have hreset : PortsReset OwnerRun.reset.drv := ⟨fun _ _ => rfl, fun _ _ => rfl⟩
  refine always_and_allSteps_iff (J := fun r : OwnerRun => PortsReset r.drv) ?_ ?_ hreset
    (pinsExclusive_reset t) calls
  · intro r call hports _ _
    exact portsReset_step hports call
  · intro r call hports hex
    exact pinsExclusive_step_iff hports hex call

/-- `UART_Index_1` of an STM32F207 is open on A2 and A3, and the channel 6 of TIM2 takes A2. -/
theorem not_pinsExclusive_a2 :
    ¬ Always (PinCall.step stm32f207Tables) (PinsExclusive stm32f207Tables) .reset
      [.init (.uart 1 false 8 0 1) .allOk, .pwmInit 6 false .allOk] := by
  intro h
  have hlast := h.last
  have huart : (2 : ℤ) ∈ OwnerRun.holds stm32f207Tables ([.init (.uart 1 false 8 0 1) .allOk,
      .pwmInit 6 false .allOk].foldl (PinCall.step stm32f207Tables) .reset) (.uart 1) := by decide
  have hpwm : (2 : ℤ) ∈ OwnerRun.holds stm32f207Tables ([.init (.uart 1 false 8 0 1) .allOk,
      .pwmInit 6 false .allOk].foldl (PinCall.step stm32f207Tables) .reset) (.pwm 6) := by decide
  exact absurd (hlast.one 2 (.uart 1) (.pwm 6) huart hpwm) (by decide)

end WLink.Driver
