import WLink.Led.App
import WLink.Driver.PwmTheorems
import WLink.Lib.Run
import Mathlib.Tactic.IntervalCases

/-!
# Agreement of the LED layer with the driver

An LED and its channel make a cell. Every call of the layer does to each cell one of the things
of `CellOp`, and to the driver's part of it only if the driver takes the request (`CellStep`,
`ledStep_cell`). A cell that agrees before agrees afterwards exactly if the request changes
nothing or is in range and taken (`cellStep_agrees_iff`), and so do the cells of a run exactly
if that is so at each of its calls (`agree_iff`).
-/

namespace WLink.Led

open WLink.Lib WLink.Driver

/-! ## Cells -/

/-- An LED and the channel it is on. -/
structure Cell where
  led : LedPwmStatus
  chan : PwmChannel
deriving DecidableEq, Repr

def LedState.cell (s : LedState) (i : ℕ) : Cell := ⟨s.led i, s.drv.chan (pwmChannels i)⟩

/-- What a call of the layer does to one LED. -/
inductive CellOp
  | none
  | init
  | switch (onOff : Bool)
  | toggle
  | dim (level : ℕ)

/-- What the call does to the LED `i`. -/
def LedCall.on (i : ℕ) : LedCall → CellOp
  | .init => .init
  | .setOnOff j onOff => if i = j then .switch onOff else .none
  | .setLevel j level => if i = j then .dim level else .none
  | .toggle j => if i = j then .toggle else .none
  | .setSelectedOnOff bitMap onOff => if bitMap.testBit i then .switch onOff else .none
  | .setSelectedLevel bitMap level => if bitMap.testBit i then .dim level else .none
  | .toggleSelected bitMap => if bitMap.testBit i then .toggle else .none

/-- The driver takes a request to program the channel: it is initialised, its timer is and the
HAL accepts. -/
def takes (b : Board) (env : Env) (i : ℕ) (c : Cell) : Bool :=
  c.chan.init && b.accepts env.hal env.timer (pwmChannels i)

/-! ## The property -/

/-- The LED shows what its channel does. -/
def Cell.Agrees (c : Cell) : Prop :=
  c.led.onOff = c.chan.onOff ∧ c.led.level ≤ pwmMaxDuty ∧ c.led.level = c.chan.duty

instance (c : Cell) : Decidable c.Agrees :=
  inferInstanceAs (Decidable (_ ∧ _ ∧ _))

/-- Every LED shows what its channel does. -/
def Agree (s : LedState) : Prop := ∀ i < maxNumOfLedPwmSw, (s.cell i).Agrees

instance (s : LedState) : Decidable (Agree s) :=
  inferInstanceAs (Decidable (∀ i < maxNumOfLedPwmSw, _))

/-- What a call may do to a cell that agrees. -/
def CellOk (taken : Bool) (c : Cell) : CellOp → Prop
  | .none => True
  | .init => c.led.onOff = false ∧ c.led.level = 0
  | .switch onOff => c.led.onOff = onOff ∨ taken = true
  | .toggle => taken = true
  | .dim level => c.led.onOff = false ∨ c.led.level = level ∨ (level ≤ pwmMaxDuty ∧ taken = true)

/-- Every LED is asked for something that its cell may be asked for. -/
def StepOk (b : Board) (s : LedState) (e : LedCall × (ℕ → Env)) : Prop :=
  ∀ i < maxNumOfLedPwmSw, CellOk (takes b (e.2 i) i (s.cell i)) (s.cell i) (e.1.on i)

/-! ## One cell -/

/-- What the driver's part of a cell always meets: the duty is in range, and a channel that is
not initialised is off with duty 0. -/
def Cell.Sound (c : Cell) : Prop :=
  c.chan.duty ≤ pwmMaxDuty ∧ (c.chan.init = false → c.chan.onOff = false ∧ c.chan.duty = 0)

/-- A switched cell. -/
def Cell.switched (taken : Bool) (c : Cell) (onOff : Bool) : Cell :=
  ⟨{ c.led with onOff }, if taken then { c.chan with onOff } else c.chan⟩

/-- A dimmed cell. -/
def Cell.dimmed (taken : Bool) (c : Cell) (level : ℕ) : Cell :=
  if c.led.onOff then
    ⟨{ c.led with level },
      if level ≤ pwmMaxDuty ∧ c.chan.onOff = true ∧ taken = true then
        { c.chan with duty := level }
      else c.chan⟩
  else c

/-- What becomes of a sound cell; whether `PWM_Channel_Init` succeeds is left open. -/
def CellStep (taken : Bool) (c c' : Cell) : CellOp → Prop
  | .none => c' = c
  | .init => c'.led = .zero ∧ (c'.chan = c.chan ∨
      c.chan.init = false ∧ c'.chan = { c.chan with init := true, inverse := false, duty := 0 })
  | .switch onOff => c' = c.switched taken onOff
  | .toggle => c' = c.switched taken (!c.led.onOff)
  | .dim level => c' = c.dimmed taken level

section Cell

variable {taken : Bool} {c c' : Cell}

theorem switched_agrees_iff (hc : c.Agrees) {onOff : Bool} :
    (c.switched taken onOff).Agrees ↔ c.led.onOff = onOff ∨ taken = true := by
  obtain ⟨honOff, hmax, hlevel⟩ := hc
  unfold Cell.switched Cell.Agrees
  rcases taken with _ | _
  · simp only [Bool.false_eq_true, if_false, or_false]
    rw [← honOff]
    exact ⟨fun h => h.1.symm, fun h => ⟨h.symm, hmax, hlevel⟩⟩
  · simp only [if_true, or_true]
    exact ⟨fun _ => trivial, fun _ => ⟨trivial, hmax, hlevel⟩⟩

theorem dimmed_agrees_iff (hc : c.Agrees) {level : ℕ} :
    (c.dimmed taken level).Agrees ↔
      c.led.onOff = false ∨ c.led.level = level ∨ (level ≤ pwmMaxDuty ∧ taken = true) := by
  obtain ⟨honOff, hmax, hlevel⟩ := hc
  unfold Cell.dimmed
  rcases hon : c.led.onOff with _ | _
  · simp only [Bool.false_eq_true, if_false, true_or, iff_true]
    exact ⟨honOff, hmax, hlevel⟩
  rw [hon] at honOff
  rw [if_pos rfl]
  by_cases htaken : level ≤ pwmMaxDuty ∧ c.chan.onOff = true ∧ taken = true
  · rw [if_pos htaken]
    exact ⟨fun _ => .inr (.inr ⟨htaken.1, htaken.2.2⟩), fun _ => ⟨hon.trans honOff, htaken.1, rfl⟩⟩
  · rw [if_neg htaken]
    constructor
    · exact fun h => .inr (.inl (hlevel.trans h.2.2.symm))
    · rintro (h | h | h)
      · exact absurd h Bool.noConfusion
      · exact ⟨hon.trans honOff, h ▸ hmax, h ▸ hlevel⟩
      · exact absurd ⟨h.1, honOff.symm, h.2⟩ htaken

/-- A step of a cell that agrees leaves it agreeing exactly if the cell may be asked for it. -/
theorem cellStep_agrees_iff (hs : c.Sound) (hc : c.Agrees) {op : CellOp}
    (h : CellStep taken c c' op) : c'.Agrees ↔ CellOk taken c op := by
  cases op with
  | none =>
    rw [show c' = c from h]
    exact ⟨fun _ => trivial, fun _ => hc⟩
  | init =>
    obtain ⟨hled, hchan⟩ := h
    obtain ⟨honOff, hmax, hlevel⟩ := hc
    unfold Cell.Agrees CellOk
    rw [hled, honOff, hlevel]
    rcases hchan with hchan | ⟨hinit, hchan⟩
    · rw [hchan]
      exact ⟨fun h => ⟨h.1.symm, h.2.2.symm⟩, fun h => ⟨h.1.symm, Nat.zero_le _, h.2.symm⟩⟩
    · rw [hchan]
      obtain ⟨hoff, hduty⟩ := hs.2 hinit
      exact ⟨fun _ => ⟨hoff, hduty⟩, fun _ => ⟨hoff.symm, Nat.zero_le _, rfl⟩⟩
  | switch onOff =>
    rw [show c' = c.switched taken onOff from h]
    exact switched_agrees_iff hc
  | toggle =>
    rw [show c' = c.switched taken (!c.led.onOff) from h, switched_agrees_iff hc]
    exact ⟨fun h => h.resolve_left (Bool.not_ne_self _).symm, .inr⟩
  | dim level =>
    rw [show c' = c.dimmed taken level from h]
    exact dimmed_agrees_iff hc

theorem switched_sound (hs : c.Sound) (htaken : taken = true → c.chan.init = true)
    {onOff : Bool} : (c.switched taken onOff).Sound := by
  unfold Cell.switched
  rcases taken with _ | _
  · exact hs
  · exact ⟨hs.1, fun h => absurd (htaken rfl) (by rw [show c.chan.init = false from h]; decide)⟩

theorem dimmed_sound (hs : c.Sound) (htaken : taken = true → c.chan.init = true) {level : ℕ} :
    (c.dimmed taken level).Sound := by
  unfold Cell.dimmed
  split_ifs with _ h
  · exact ⟨h.1, fun hi => absurd (htaken h.2.2) (by rw [show c.chan.init = false from hi]; decide)⟩
  · exact hs
  · exact hs

/-- A step keeps a cell sound. -/
theorem cellStep_sound (hs : c.Sound) (htaken : taken = true → c.chan.init = true) {op : CellOp}
    (h : CellStep taken c c' op) : c'.Sound := by
  cases op with
  | none =>
    rw [show c' = c from h]
    exact hs
  | init =>
    obtain ⟨-, hchan | ⟨-, hchan⟩⟩ := h
    · unfold Cell.Sound
      rw [hchan]
      exact hs
    · unfold Cell.Sound
      rw [hchan]
      exact ⟨Nat.zero_le _, fun hi => absurd hi Bool.noConfusion⟩
  | switch onOff =>
    rw [show c' = c.switched taken onOff from h]
    exact switched_sound hs htaken
  | toggle =>
    rw [show c' = c.switched taken (!c.led.onOff) from h]
    exact switched_sound hs htaken
  | dim level =>
    rw [show c' = c.dimmed taken level from h]
    exact dimmed_sound hs htaken

end Cell

/-! ## The calls of the layer -/

section Calls

variable {b : Board} {env : ℕ → Env} {s : LedState} {i j : ℕ}

theorem pwmChannels_eq (hi : i < maxNumOfLedPwmSw) : pwmChannels i = i := by
  unfold maxNumOfLedPwmSw at hi
  interval_cases i <;> rfl

theorem pwmChannels_lt (hi : i < maxNumOfLedPwmSw) : pwmChannels i < hwPwmChannelMax := by
  rw [pwmChannels_eq hi]
  exact Nat.lt_trans hi (by decide)

/-- A call of the driver for one LED is not seen by another. -/
theorem drive_cell_of_ne {call : PwmCall} {e : Env} (hcall : call.channel = pwmChannels i)
    (hi : i < maxNumOfLedPwmSw) (hj : j < maxNumOfLedPwmSw) (hji : j ≠ i) :
    (s.drive b e call).cell j = s.cell j := by
  have hne : pwmChannels j ≠ call.channel := by
    rw [hcall, pwmChannels_eq hi, pwmChannels_eq hj]
    exact hji
  have hchan := (PwmCall.run_frame b e.hal (s.drv.withTimer e.timer) call).chan _ hne
  exact congrArg (Cell.mk (s.led j)) hchan

theorem drive_turnOn {e : Env} (hi : i < maxNumOfLedPwmSw)
    (hs : (s.cell i).chan.duty ≤ pwmMaxDuty) :
    (s.drive b e (.turnOn (pwmChannels i))).cell i =
      ⟨s.led i, if takes b e i (s.cell i) then { (s.cell i).chan with onOff := true }
        else (s.cell i).chan⟩ :=
  congrArg (Cell.mk (s.led i))
    (pwmTurnOn_chan (s := s.drv.withTimer e.timer) (pwmChannels_lt hi) hs)

theorem drive_turnOff {e : Env} (hi : i < maxNumOfLedPwmSw) :
    (s.drive b e (.turnOff (pwmChannels i))).cell i =
      ⟨s.led i, if takes b e i (s.cell i) then { (s.cell i).chan with onOff := false }
        else (s.cell i).chan⟩ :=
  congrArg (Cell.mk (s.led i))
    (pwmTurnOff_chan (s := s.drv.withTimer e.timer) (pwmChannels_lt hi))

theorem drive_setDuty {e : Env} {duty : ℕ} (hi : i < maxNumOfLedPwmSw) :
    (s.drive b e (.setDuty (pwmChannels i) duty)).cell i =
      ⟨s.led i, if duty ≤ pwmMaxDuty ∧ (s.cell i).chan.onOff = true ∧
        takes b e i (s.cell i) = true then { (s.cell i).chan with duty } else (s.cell i).chan⟩ :=
  congrArg (Cell.mk (s.led i))
    (pwmSetDuty_chan (s := s.drv.withTimer e.timer) (pwmChannels_lt hi))

theorem setLed_cell_of_ne {f : LedPwmStatus → LedPwmStatus} (hji : j ≠ i) :
    (s.setLed i f).cell j = s.cell j := by
  show Cell.mk (Function.update s.led i _ j) _ = _
  rw [Function.update_of_ne hji]
  rfl

theorem switchLed_other {onOff : Bool} (hi : i < maxNumOfLedPwmSw) (hj : j < maxNumOfLedPwmSw)
    (hji : j ≠ i) : (switchLed b env onOff s i).cell j = s.cell j := by
  unfold switchLed
  rcases onOff with _ | _
  · exact (drive_cell_of_ne rfl hi hj hji).trans (setLed_cell_of_ne hji)
  · exact (drive_cell_of_ne rfl hi hj hji).trans (setLed_cell_of_ne hji)

theorem dimLed_other {level : ℕ} (hi : i < maxNumOfLedPwmSw) (hj : j < maxNumOfLedPwmSw)
    (hji : j ≠ i) : (dimLed b env level s i).cell j = s.cell j := by
  unfold dimLed
  split_ifs
  · exact (drive_cell_of_ne rfl hi hj hji).trans (setLed_cell_of_ne hji)
  · rfl

theorem switchLed_own {onOff : Bool} (hi : i < maxNumOfLedPwmSw)
    (hs : (s.cell i).chan.duty ≤ pwmMaxDuty) :
    (switchLed b env onOff s i).cell i =
      (s.cell i).switched (takes b (env i) i (s.cell i)) onOff := by
  unfold switchLed
  rcases onOff with _ | _
  · exact (drive_turnOff (s := s.setLed i _) hi).trans
      (congrArg (Cell.mk · _) (Function.update_self i _ s.led))
  · exact (drive_turnOn (s := s.setLed i _) hi hs).trans
      (congrArg (Cell.mk · _) (Function.update_self i _ s.led))

theorem dimLed_own {level : ℕ} (hi : i < maxNumOfLedPwmSw) :
    (dimLed b env level s i).cell i =
      (s.cell i).dimmed (takes b (env i) i (s.cell i)) level := by
  unfold dimLed
  rcases hon : (s.led i).onOff with _ | _
  · have hoff : (s.cell i).led.onOff ≠ true := by
      show (s.led i).onOff ≠ true
      rw [hon]
      exact Bool.false_ne_true
    rw [if_neg Bool.false_ne_true, Cell.dimmed, if_neg hoff]
  · rw [if_pos rfl, Cell.dimmed, if_pos (show (s.cell i).led.onOff = true from hon)]
    exact (drive_setDuty (s := s.setLed i _) hi).trans
      (congrArg (Cell.mk · _) (Function.update_self i _ s.led))

theorem initLed_other (hi : i < maxNumOfLedPwmSw) (hj : j < maxNumOfLedPwmSw) (hji : j ≠ i) :
    (initLed b env s i).cell j = s.cell j :=
  (setLed_cell_of_ne hji).trans (drive_cell_of_ne rfl hi hj hji)

theorem initLed_own {taken : Bool} :
    CellStep taken (s.cell i) ((initLed b env s i).cell i) .init :=
  ⟨Function.update_self i _ s.led, pwmChannelInit_chan (s := s.drv.withTimer (env i).timer)⟩

/-- A call for one LED. -/
theorem cellStep_single {op : CellOp} {s' : LedState}
    (hother : ∀ k < maxNumOfLedPwmSw, k ≠ j → s'.cell k = s.cell k)
    (hown : CellStep (takes b (env j) j (s.cell j)) (s.cell j) (s'.cell j) op)
    (hi : i < maxNumOfLedPwmSw) :
    CellStep (takes b (env i) i (s.cell i)) (s.cell i) (s'.cell i)
      (if i = j then op else .none) := by
  by_cases hij : i = j
  · rw [if_pos hij, hij]
    exact hown
  · rw [if_neg hij]
    exact hother i hi hij

/-- A call for an LED that does not exist. -/
theorem cellStep_absent {op : CellOp} {taken : Bool} (hj : maxNumOfLedPwmSw ≤ j)
    (hi : i < maxNumOfLedPwmSw) :
    CellStep taken (s.cell i) (s.cell i) (if i = j then op else .none) := by
  rw [if_neg (by omega)]
  rfl

/-- A call for a selection of LEDs. -/
theorem cellStep_selected {op : CellOp} {body : LedState → ℕ → LedState} {bitMap : ℕ}
    (hother : ∀ s i j, i < maxNumOfLedPwmSw → j < maxNumOfLedPwmSw → j ≠ i →
      (body s i).cell j = s.cell j)
    (hown : ∀ s i, i < maxNumOfLedPwmSw → (s.cell i).Sound →
      CellStep (takes b (env i) i (s.cell i)) (s.cell i) ((body s i).cell i) op)
    (hs : (s.cell i).Sound) (hi : i < maxNumOfLedPwmSw) :
    CellStep (takes b (env i) i (s.cell i)) (s.cell i)
      ((forLeds s fun s i => if bitMap.testBit i then body s i else s).cell i)
      (if bitMap.testBit i then op else .none) := by
  refine foldl_range_cells LedState.cell (R := fun i c c' => c.Sound →
    CellStep (takes b (env i) i c) c c' (if bitMap.testBit i then op else .none))
    ?_ ?_ s hi hs
  · intro s i j hi hj hji
    split_ifs
    · exact hother s i j hi hj hji
    · rfl
  · intro s i hi hs
    split_ifs
    · exact hown s i hi hs
    · rfl

/-- What a call does to the cell of each LED. -/
theorem ledStep_cell (call : LedCall) (hs : ∀ i < maxNumOfLedPwmSw, (s.cell i).Sound)
    (hi : i < maxNumOfLedPwmSw) :
    CellStep (takes b (env i) i (s.cell i)) (s.cell i) ((ledStep b s (call, env)).cell i)
      (call.on i) := by
  cases call with
  | init =>
    exact foldl_range_cells LedState.cell
      (R := fun i c c' => CellStep (takes b (env i) i c) c c' .init)
      (fun _ _ _ => initLed_other) (fun _ _ _ => initLed_own) s hi
  | setOnOff j onOff =>
    show CellStep _ _ ((ledPwmSetLedOnOffStatus b env j onOff s).cell i) _
    unfold ledPwmSetLedOnOffStatus
    split_ifs with hj
    · exact cellStep_absent hj hi
    · have hj := Nat.lt_of_not_le hj
      exact cellStep_single (fun _ hk => switchLed_other hj hk) (switchLed_own hj (hs j hj).1) hi
  | setLevel j level =>
    show CellStep _ _ ((ledPwmSetLedLevelStatus b env j level s).cell i) _
    unfold ledPwmSetLedLevelStatus
    split_ifs with hj
    · exact cellStep_absent hj hi
    · have hj := Nat.lt_of_not_le hj
      exact cellStep_single (fun _ hk => dimLed_other hj hk) (dimLed_own hj) hi
  | toggle j =>
    show CellStep _ _ ((ledPwmToggleLedOnOffStatus b env j s).cell i) _
    unfold ledPwmToggleLedOnOffStatus ledPwmSetLedOnOffStatus
    split_ifs with hj
    · exact cellStep_absent hj hi
    · have hj := Nat.lt_of_not_le hj
      exact cellStep_single (fun _ hk => switchLed_other hj hk) (switchLed_own hj (hs j hj).1) hi
  | setSelectedOnOff bitMap onOff =>
    exact cellStep_selected (fun _ _ _ => switchLed_other)
      (fun _ _ hi hs => switchLed_own hi hs.1) (hs i hi) hi
  | setSelectedLevel bitMap level =>
    exact cellStep_selected (fun _ _ _ => dimLed_other)
      (fun _ _ hi _ => dimLed_own hi) (hs i hi) hi
  | toggleSelected bitMap =>
    exact cellStep_selected (fun _ _ _ => switchLed_other)
      (fun _ _ hi hs => switchLed_own hi hs.1) (hs i hi) hi

end Calls

/-! ## Runs -/

theorem takes_init {b : Board} {env : Env} {i : ℕ} {c : Cell} (h : takes b env i c = true) :
    c.chan.init = true := (Bool.and_eq_true_iff.mp h).1

/-- The cells of a run of calls agree exactly as long as every LED is asked for something its
cell may be asked for. -/
theorem agree_iff_of_calls (b : Board) (run : List (LedCall × (ℕ → Env))) :
    Always (ledStep b) Agree .reset run ↔ AllSteps (ledStep b) (StepOk b) .reset run := by
  refine always_iff_allSteps
    (J := fun s => ∀ i < maxNumOfLedPwmSw, (s.cell i).Sound) ?_ ?_ ?_ ?_ run
  · rintro s ⟨call, env⟩ hs - - i hi
    exact cellStep_sound (hs i hi) takes_init (ledStep_cell call hs hi)
  · rintro s ⟨call, env⟩ hs hagree
    exact forall₂_congr fun i hi =>
      cellStep_agrees_iff (hs i hi) (hagree i hi) (ledStep_cell call hs hi)
  · exact fun i _ => ⟨Nat.zero_le _, fun _ => ⟨rfl, rfl⟩⟩
  · exact fun i _ => ⟨rfl, Nat.zero_le _, rfl⟩

/-- The calls that requests make, one after the other, each with what the driver finds. -/
def runOf (parse : List UInt8 → Option Misc.CJson) (requests : List LedRequest)
    (envs : List (ℕ → Env)) : List (LedCall × (ℕ → Env)) :=
  (requests.flatMap (·.calls parse)).zip envs

/-- The LEDs agree with the driver along a run of requests exactly as long as every call that
the requests make asks each LED for something its cell may be asked for. -/
theorem agree_iff (b : Board) (parse : List UInt8 → Option Misc.CJson)
    (requests : List LedRequest) (envs : List (ℕ → Env)) :
    Always (ledStep b) Agree .reset (runOf parse requests envs) ↔
      AllSteps (ledStep b) (StepOk b) .reset (runOf parse requests envs) :=
  agree_iff_of_calls b (runOf parse requests envs)

/-- `{"on_off":true,"level":200}`, parsed. -/
def level200 : Misc.CJson :=
  .item none .object 0 []
    [.item (some (ascii "on_off")) .cTrue 0 [] [], .item (some (ascii "level")) .number 200 [] []]

/-- A `POST` that sets the first LED to `level200`. -/
def postLevel200 : LedRequest :=
  .any true
    { url := some (ascii "/LED_PWM/0")
      method := .post
      data := some (ascii "\x7b\"on_off\":true,\"level\":200\x7d") }

/-- The driver at the initialisation of the application: the timers are not yet in use. -/
def bootEnv : Env := ⟨.reset, .allOk⟩

/-- The driver afterwards: all timers are initialised and the HAL accepts everything. -/
def runningEnv : Env := ⟨{ TimerState.reset with init := fun _ => true }, .allOk⟩

/-- A level above 100 from a client is stored and refused by the driver. -/
theorem not_agree_level200 :
    ¬ Always (ledStep stm32f207) Agree .reset
      (runOf (fun _ => some level200) [.deviceInit, postLevel200]
        [fun _ => bootEnv, fun _ => runningEnv, fun _ => runningEnv]) := by
  intro h
  exact absurd h.last (by decide +kernel)

end WLink.Led
