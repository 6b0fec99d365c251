import WLink.Driver.PwmTheorems
import WLink.Lib.Run

/-!
# Whether an initialised channel can be used

Runs of PWM driver calls from reset, every HAL call succeeding. A channel is live from a
`PWM_Channel_Init` that returned `hwPWM_OK` to the next `PWM_Channel_DeInit` that did.
`PWM_Channel_Init` refuses a channel whose timer is initialised, `PWM_Turn_On` one whose timer
is not, and no PWM call initialises a timer: the channels of a run are usable only as long as
it initialises none (`usable_iff`).
-/

namespace WLink.Driver

open WLink.Lib

/-! ## Runs -/

/-- The driver and the channels that are live. -/
structure PwmRun where
  drv : DriverState
  live : ℕ → Bool

def PwmRun.reset : PwmRun := ⟨.reset, fun _ => false⟩

/-- What a call and its result make of the live channels. -/
def liveAfter (live : ℕ → Bool) : PwmCall → Option PwmOpResult → ℕ → Bool
  | .channelInit c _, some .ok => Function.update live c true
  | .channelDeInit c, some .ok => Function.update live c false
  | _, _ => live

/-- A call with every HAL call succeeding. -/
def PwmRun.step (b : Board) (r : PwmRun) (call : PwmCall) : PwmRun where
  drv := (call.run b .allOk r.drv).2
  live := liveAfter r.live call (call.run b .allOk r.drv).1

/-- Every live channel can be turned on, and every handle that the HAL has been given for PWM
had its instance, prescaler and period set. -/
def Usable (b : Board) (r : PwmRun) : Prop :=
  (∀ c, r.live c = true → (pwmTurnOn b .allOk c r.drv).1 = .ok) ∧
    ∀ op t h, HalCall.pwm op t h ∈ r.drv.log → h.IsSet

/-- The channel exists and its pin can carry the timer's output. -/
def Board.HasOutput (b : Board) (c : ℕ) : Prop :=
  c < hwPwmChannelMax ∧
    ∃ d pin, b.pinOf c = some (d, pin) ∧ b.pwmGetAF d.timer pin ≠ 0 ∧ ¬ b.offPort pin

/-- The call initialises a channel that the board has an output for. -/
def PwmCall.InitsOutput (b : Board) (call : PwmCall) : Prop :=
  ∃ c inverse, call = .channelInit c inverse ∧ b.HasOutput c

/-! ## One call -/

section Calls

variable {b : Board} {s : DriverState} {c : ℕ} {inverse : Bool}

/-- `PWM_Channel_Init` of a channel with an output whose timer is not initialised. -/
theorem pwmChannelInit_ok (hs : (s.chan c).init = false) (ht : ∀ t, s.timer.init t = false)
    (hb : b.HasOutput c) : (pwmChannelInit b .allOk c inverse s).1 = .ok := by
  obtain ⟨hc, d, pin, hpin, haf, hport⟩ := hb
  have hti : timerIsInit s.timer d.timer = false := by
    unfold timerIsInit
    rw [ht, ite_self]
  unfold pwmChannelInit
  rw [if_neg (Nat.not_le.mpr hc), if_neg (by rw [hs]; exact Bool.false_ne_true), hpin]
  dsimp only
  rw [if_neg (by rw [hti]; exact Bool.false_ne_true), if_neg haf, if_neg hport]
  rfl

/-- `PWM_Channel_Init` of a channel without an output changes nothing and is refused. -/
theorem pwmChannelInit_refused (hs : (s.chan c).init = false) (hb : ¬ b.HasOutput c) :
    (pwmChannelInit b .allOk c inverse s).1 ≠ .ok ∧
      (pwmChannelInit b .allOk c inverse s).2 = s := by
  unfold pwmChannelInit
  by_cases hc : hwPwmChannelMax ≤ c
  · rw [if_pos hc]
    exact ⟨PwmOpResult.noConfusion, rfl⟩
  rw [if_neg hc, if_neg (by rw [hs]; exact Bool.false_ne_true)]
  rcases hpin : b.pinOf c with _ | ⟨d, pin⟩
  · exact ⟨PwmOpResult.noConfusion, rfl⟩
  dsimp only
  split_ifs with _ haf hport
  iterate 3 exact ⟨PwmOpResult.noConfusion, rfl⟩
  all_goals exact absurd ⟨Nat.lt_of_not_le hc, d, pin, hpin, haf, hport⟩ hb

/-- As long as no channel is initialised, every call but `PWM_Channel_Init` leaves the driver
as it is. -/
theorem run_of_no_init (hs : ∀ c, (s.chan c).init = false) {call : PwmCall}
    (hcall : ∀ c inverse, call ≠ .channelInit c inverse) : (call.run b .allOk s).2 = s := by
  cases call with
  | channelInit c inverse => exact absurd rfl (hcall c inverse)
  | channelDeInit c =>
    show (pwmChannelDeInit b .allOk c s).2 = s
    unfold pwmChannelDeInit
    rw [if_pos (hs c)]
    split_ifs <;> rfl
  | turnOn c =>
    show (pwmTurnOn b .allOk c s).2 = s
    unfold pwmTurnOn
    rw [if_pos (hs c)]
    split_ifs <;> rfl
  | turnOnAndSetDuty c duty =>
    show (pwmTurnOnAndSetDuty b .allOk c duty s).2 = s
    unfold pwmTurnOnAndSetDuty
    rw [if_pos (hs c)]
    split_ifs <;> rfl
  | turnOff c =>
    show (pwmTurnOff b .allOk c s).2 = s
    unfold pwmTurnOff
    rw [if_pos (hs c)]
    split_ifs <;> rfl
  | setDuty c duty =>
    show (pwmSetDuty b .allOk c duty s).2 = s
    unfold pwmSetDuty
    rw [if_pos (hs c)]
    split_ifs <;> rfl
  | stepDuty c step direction =>
    show (pwmStepDuty b .allOk c step direction s).2 = s
    unfold pwmStepDuty
    rw [if_pos (hs c)]
    split_ifs <;> rfl
  | getChannelOnOffStatus c p => rfl
  | getChannelCurrentDuty c p => rfl
  | getChannelCurrentOnOffDuty c p p' => rfl
  | isInit c => rfl

/-- A channel whose timer is not initialised cannot be turned on. -/
theorem pwmTurnOn_ne_ok (ht : ∀ t, s.timer.init t = false) :
    (pwmTurnOn b .allOk c s).1 ≠ .ok := by
  rw [Ne, pwmTurnOn_ok_iff]
  rintro ⟨-, -, hacc⟩
  revert hacc
  unfold Board.accepts timerIsInit
  rcases b.pinOf c with _ | ⟨d, pin⟩
  · exact Bool.false_ne_true
  · simp [ht]

end Calls

/-! ## Runs -/

variable {b : Board}

/-- A `PWM_Channel_Init` that is refused makes no channel live. -/
theorem liveAfter_channelInit {live : ℕ → Bool} {c : ℕ} {inverse : Bool} {res : PwmOpResult}
    (hres : res ≠ .ok) : liveAfter live (.channelInit c inverse) (some res) = live := by
  cases res with
  | ok => exact absurd rfl hres
  | invalidParameter => rfl
  | notInit => rfl
  | notTurnOn => rfl
  | hwError => rfl

/-- No other call makes a channel live. -/
theorem liveAfter_none {call : PwmCall} (hcall : ∀ c inverse, call ≠ .channelInit c inverse)
    (res : Option PwmOpResult) : liveAfter (fun _ => false) call res = fun _ => false := by
  unfold liveAfter
  split
  · exact absurd rfl (hcall _ _)
  · exact Function.update_eq_self _ _
  · rfl

/-- A call that initialises no channel with an output leaves a run at reset where it is. -/
theorem step_reset {call : PwmCall} (h : ¬ call.InitsOutput b) :
    PwmRun.step b .reset call = .reset := by
  have hs : ∀ c, (DriverState.reset.chan c).init = false := fun _ => rfl
  unfold PwmRun.step PwmRun.reset
  by_cases hinit : ∃ c inverse, call = .channelInit c inverse
  · obtain ⟨c, inverse, rfl⟩ := hinit
    have hb : ¬ b.HasOutput c := fun hb => h ⟨c, inverse, rfl, hb⟩
    obtain ⟨hres, hdrv⟩ := pwmChannelInit_refused (hs c) hb
    show PwmRun.mk (pwmChannelInit b .allOk c inverse .reset).2
      (liveAfter _ _ (some (pwmChannelInit b .allOk c inverse .reset).1)) = _
    rw [hdrv, liveAfter_channelInit hres]
  · have hcall : ∀ c inverse, call ≠ .channelInit c inverse :=
      fun c inverse hc => hinit ⟨c, inverse, hc⟩
    rw [run_of_no_init hs hcall, liveAfter_none hcall]

/-- A call that initialises a channel with an output makes it live, and not usable. -/
theorem not_usable_step {call : PwmCall} (h : call.InitsOutput b) :
    ¬ Usable b (PwmRun.step b .reset call) := by
  obtain ⟨c, inverse, rfl, hb⟩ := h
  intro hu
  have hok : (pwmChannelInit b .allOk c inverse .reset).1 = .ok :=
    pwmChannelInit_ok rfl (fun _ => rfl) hb
  have hlive : (PwmRun.step b .reset (.channelInit c inverse)).live c = true := by
    show liveAfter _ _ (some (pwmChannelInit b .allOk c inverse .reset).1) c = true
    rw [hok]
    exact Function.update_self ..
  have htimer : (PwmRun.step b .reset (.channelInit c inverse)).drv.timer.init =
      DriverState.reset.timer.init := 
    (PwmCall.run_frame b .allOk .reset (.channelInit c inverse)).timer
  exact pwmTurnOn_ne_ok (fun t => by rw [htimer]; rfl) (hu.1 c hlive)

/-- The channels of a run are usable exactly as long as it initialises none that the board has
an output for. -/
theorem usable_iff (b : Board) (calls : List PwmCall) :
    Always (PwmRun.step b) (Usable b) .reset calls ↔ ∀ call ∈ calls, ¬ call.InitsOutput b := by
  have hreset : Usable b .reset := ⟨fun _ h => absurd h Bool.false_ne_true, fun _ _ _ h =>
    absurd h List.not_mem_nil⟩
  rw [← allSteps_iff_forall (PwmRun.step b) PwmRun.reset]
  refine always_iff_allSteps (J := (· = PwmRun.reset)) ?_ ?_ rfl hreset calls
  · rintro r call rfl - hcall
    exact step_reset hcall
  · rintro r call rfl -
    constructor
    · exact fun hu hcall => not_usable_step hcall hu
    · intro hcall
      rw [step_reset hcall]
      exact hreset

/-- On the STM32F207, initialising the first channel is enough. -/
theorem not_usable_stm32f207 :
    ¬ Always (PwmRun.step stm32f207) (Usable stm32f207) .reset [.channelInit 0 false] := by
  intro h
  have hon := (h.2 : Usable stm32f207 _).1 0 (by decide)
  exact absurd hon (by decide)

end WLink.Driver
