import WLink.Driver.PwmTm4c
import WLink.Driver.PwmOutputs
import Mathlib.Tactic.SplitIfs

/-!
# The inversion of the outputs of the TM4C1294

A full duty is programmed as a pulse of no width on an inverted output, so the bit of a channel in
`PWMINVERT` is meant to be its polarity, turned round while it is on with a full duty
(`Cell.Lawful`). What a call does to the entry of its channel and to this bit depends on the two
alone (`cell_run`): `onCell` is the driver reduced to them. All functions but one set the
bit to what it is meant to be; `PWM_Channel_Init` looks at the flag of the channel, which is never
set there, and so leaves the bit as it finds it (`invertLaw_iff`).
-/

namespace WLink.Driver.Tm4c

open WLink.Lib

/-! ## Cells -/

/-- The entry of a channel and its bit in `PWMINVERT`. -/
structure Cell where
  entry : PwmChannel
  invert : Bool
deriving DecidableEq, Repr

def PwmState.cell (s : PwmState) (c : ℕ) : Cell := ⟨s.chan c, s.regs.invert c⟩

/-- The bit for a duty. -/
def invertFor (ch : PwmChannel) (duty : ℕ) : Bool :=
  if duty = pwmMaxDuty then !ch.inverse else ch.inverse

/-- What a call on an existing channel does to its cell. -/
def onCell (x : Cell) : PwmCall → Cell
  | .channelInit _ inverse =>
    if x.entry.init then x
    else ⟨{ x.entry with init := true, onOff := false, inverse }, x.entry.inverse || x.invert⟩
  | .channelDeInit _ =>
    if x.entry.init = false then x
    else { x with entry := { x.entry with init := false, onOff := false, inverse := false } }
  | .turnOn _ =>
    if x.entry.init = false then x
    else
      ⟨{ clampDuty x.entry with onOff := true },
        invertFor (clampDuty x.entry) (clampDuty x.entry).duty⟩
  | .turnOnAndSetDuty _ duty =>
    if pwmMaxDuty < duty then x
    else if x.entry.init = false then x
    else ⟨{ x.entry with onOff := true, duty }, invertFor x.entry duty⟩
  | .turnOff _ =>
    if x.entry.init = false then x
    else
      ⟨{ x.entry with onOff := false },
        if x.entry.duty = pwmMaxDuty then x.entry.inverse else x.invert⟩
  | .setDuty _ duty =>
    if pwmMaxDuty < duty then x
    else if x.entry.init = false then x
    else if x.entry.onOff = false then x
    else ⟨{ x.entry with duty }, invertFor x.entry duty⟩
  | .stepDuty _ step direction =>
    if direction = .max then x
    else if x.entry.init = false then x
    else if x.entry.onOff = false then x
    else
      ⟨{ x.entry with duty := steppedDuty x.entry.duty step direction },
        invertFor x.entry (steppedDuty x.entry.duty step direction)⟩
  | _ => x

section Cells

variable {env : PwmEnv} {s : PwmState} {c c' duty : ℕ}

@[simp] theorem cell_setChan {f : PwmChannel → PwmChannel} : (s.setChan c f).cell c' =
    if c' = c then ⟨f (s.chan c), s.regs.invert c⟩ else s.cell c' := by
  unfold PwmState.cell
  by_cases h : c' = c
  · rw [if_pos h, h, PwmState.setChan_chan_self]
    rfl
  · rw [if_neg h, PwmState.setChan_chan_of_ne h]
    rfl

@[simp] theorem cell_setWidth : (s.setWidth env c duty).cell c' = s.cell c' := rfl

@[simp] theorem chan_setWidth : (s.setWidth env c duty).chan = s.chan := rfl

@[simp] theorem chan_setInvert : (s.setInvert c duty).chan = s.chan := rfl

@[simp] theorem invert_setInvert :
    (s.setInvert c duty).regs.invert c = invertFor (s.chan c) duty :=
  Function.update_self ..

@[simp] theorem cell_setInvert : (s.setInvert c duty).cell c' =
    if c' = c then ⟨s.chan c, invertFor (s.chan c) duty⟩ else s.cell c' := by
  unfold PwmState.cell
  by_cases h : c' = c
  · rw [if_pos h, h, invert_setInvert]
    rfl
  · rw [if_neg h]
    exact congrArg _ (Function.update_of_ne h ..)

@[simp] theorem enableBase_chan : s.enableBase.chan = s.chan := by
  unfold PwmState.enableBase
  split <;> rfl

@[simp] theorem enableBase_regs : s.enableBase.regs = s.regs := by
  unfold PwmState.enableBase
  split <;> rfl

@[simp] theorem disableBase_chan : (s.disableBase c).chan = s.chan := by
  unfold PwmState.disableBase
  split <;> rfl

@[simp] theorem disableBase_regs : (s.disableBase c).regs = s.regs := by
  unfold PwmState.disableBase
  split <;> rfl

/-- All channels have a pin. -/
theorem not_offPort : ∀ c < hwPwmChannelMax, ¬ offPort c := by decide

/-! ## What a call does to the cells -/

/-- The cell of channel `c` becomes `y`, the others stay. -/
def PwmState.Turns (s : PwmState) (c : ℕ) (y : Cell) (s' : PwmState) : Prop :=
  ∀ c', s'.cell c' = if c' = c then y else s.cell c'

theorem PwmState.turns_refl : s.Turns c (s.cell c) s := by
  intro c'
  by_cases h : c' = c
  · rw [if_pos h, h]
  · rw [if_neg h]

/-- A step that stores at one channel, behind one that touches no entry and at most its bit. -/
theorem PwmState.turns_setChan {s' : PwmState} {f : PwmChannel → PwmChannel} {y : Cell}
    (hchan : s'.chan = s.chan) (hentry : f (s.chan c) = y.entry)
    (hbit : s'.regs.invert c = y.invert)
    (hother : ∀ c', c' ≠ c → s'.regs.invert c' = s.regs.invert c') :
    s.Turns c y (s'.setChan c f) := by
  intro c'
  rw [cell_setChan]
  by_cases h : c' = c
  · rw [if_pos h, if_pos h, hchan, hentry, hbit]
  · rw [if_neg h, if_neg h]
    unfold PwmState.cell
    rw [hchan, hother c' h]

theorem initRegs_invert {inverse : Bool} :
    (initRegs env c inverse s).invert =
      if (s.chan c).inverse then Function.update s.regs.invert c true else s.regs.invert := by
  unfold initRegs
  dsimp only
  split <;> rfl

theorem pwmChannelInit_turns {inverse : Bool} (hc : c < hwPwmChannelMax) :
    s.Turns c (onCell (s.cell c) (.channelInit c inverse)) (pwmChannelInit env c inverse s).2 := by
  unfold pwmChannelInit onCell PwmState.cell
  rw [if_neg (Nat.not_le.mpr hc), if_neg (not_offPort c hc)]
  dsimp only
  split_ifs
  · exact PwmState.turns_refl
  dsimp only
  refine PwmState.turns_setChan ?_ ?_ ?_ fun c' h => ?_
  · exact enableBase_chan
  · rfl
  · -- the flag decides whether the bit is set, and nothing clears it
    show (initRegs env c inverse s).invert c = ((s.chan c).inverse || s.regs.invert c)
    rw [initRegs_invert]
    rcases (s.chan c).inverse with _ | _
    · rfl
    · exact Function.update_self ..
  · show (initRegs env c inverse s).invert c' = _
    rw [initRegs_invert]
    split
    · exact Function.update_of_ne h ..
    · rfl

theorem pwmChannelDeInit_turns (hc : c < hwPwmChannelMax) :
    s.Turns c (onCell (s.cell c) (.channelDeInit c)) (pwmChannelDeInit c s).2 := by
  unfold pwmChannelDeInit onCell PwmState.cell
  rw [if_neg (Nat.not_le.mpr hc), if_neg (not_offPort c hc)]
  dsimp only
  split_ifs
  · exact PwmState.turns_refl
  have hregs : ({ s with regs := s.regs.setGenEnable (mapSocPwmGen c) false }.disableBase
      c).regs.invert = s.regs.invert := by
    rw [disableBase_regs]
    rfl
  dsimp only
  refine PwmState.turns_setChan ?_ ?_ ?_ fun c' _ => congrFun hregs c'
  · exact disableBase_chan
  · rfl
  · exact congrFun hregs c

/-- Setting the bit for a duty, behind a step that touches no entry and no bit. -/
theorem PwmState.turns_setInvert {s' : PwmState} {f : PwmChannel → PwmChannel} {y : Cell}
    (hchan : s'.chan = s.chan) (hregs : s'.regs.invert = s.regs.invert)
    (hentry : f (s.chan c) = y.entry) (hbit : invertFor (s.chan c) duty = y.invert) :
    s.Turns c y ((s'.setInvert c duty).setChan c f) := by
  refine PwmState.turns_setChan hchan hentry ?_ fun c' h => ?_
  · rw [invert_setInvert, hchan, hbit]
  · rw [← hregs]
    exact Function.update_of_ne h ..

theorem pwmTurnOff_turns (hc : c < hwPwmChannelMax) :
    s.Turns c (onCell (s.cell c) (.turnOff c)) (pwmTurnOff c s).2 := by
  unfold pwmTurnOff onCell PwmState.cell
  rw [if_neg (Nat.not_le.mpr hc)]
  dsimp only
  split_ifs
  · exact PwmState.turns_refl
  · dsimp only
    refine PwmState.turns_setChan ?_ ?_ ?_ fun c' h => ?_
    · rfl
    · rfl
    · exact Function.update_self ..
    · exact Function.update_of_ne h ..
  · dsimp only
    refine PwmState.turns_setChan ?_ ?_ ?_ fun c' _ => rfl
    iterate 3 rfl

theorem pwmSetDuty_turns (hc : c < hwPwmChannelMax) :
    s.Turns c (onCell (s.cell c) (.setDuty c duty)) (pwmSetDuty env c duty s).2 := by
  unfold pwmSetDuty onCell PwmState.cell
  rw [if_neg (Nat.not_le.mpr hc)]
  dsimp only
  split_ifs
  iterate 3 exact PwmState.turns_refl
  dsimp only
  refine PwmState.turns_setInvert ?_ ?_ ?_ ?_
  iterate 4 rfl

theorem pwmStepDuty_turns {step : ℕ} {direction : PwmStepDirection} (hc : c < hwPwmChannelMax) :
    s.Turns c (onCell (s.cell c) (.stepDuty c step direction))
      (pwmStepDuty env c step direction s).2 := by
  unfold pwmStepDuty onCell PwmState.cell
  rw [if_neg (Nat.not_le.mpr hc)]
  dsimp only
  split_ifs
  iterate 3 exact PwmState.turns_refl
  dsimp only
  refine PwmState.turns_setInvert ?_ ?_ ?_ ?_
  iterate 4 rfl

theorem PwmState.Turns.trans {s' s'' : PwmState} {y y' : Cell} (h : s.Turns c y s')
    (h' : s'.Turns c y' s'') : s.Turns c y' s'' := by
  intro c'
  rw [h' c']
  by_cases hc : c' = c
  · rw [if_pos hc, if_pos hc]
  · rw [if_neg hc, if_neg hc, h c', if_neg hc]

theorem pwmTurnOn_turns (hc : c < hwPwmChannelMax) :
    s.Turns c (onCell (s.cell c) (.turnOn c)) (pwmTurnOn env c s).2 := by
  unfold pwmTurnOn onCell PwmState.cell
  rw [if_neg (Nat.not_le.mpr hc)]
  dsimp only
  split_ifs
  · exact PwmState.turns_refl
  -- the duty is stored first, then width and bit are set for what is stored
  have hclamp : s.Turns c ⟨clampDuty (s.chan c), s.regs.invert c⟩ (s.setChan c clampDuty) :=
    PwmState.turns_setChan rfl rfl rfl fun c' _ => rfl
  refine PwmState.Turns.trans hclamp ?_
  dsimp only
  refine PwmState.turns_setInvert ?_ ?_ ?_ ?_
  · rfl
  · rfl
  · rw [PwmState.setChan_chan_self]
  · rw [PwmState.setChan_chan_self]

theorem pwmTurnOnAndSetDuty_turns (hc : c < hwPwmChannelMax) :
    s.Turns c (onCell (s.cell c) (.turnOnAndSetDuty c duty))
      (pwmTurnOnAndSetDuty env c duty s).2 := by
  unfold pwmTurnOnAndSetDuty onCell PwmState.cell
  rw [if_neg (Nat.not_le.mpr hc)]
  dsimp only
  split_ifs with hduty
  · exact PwmState.turns_refl
  · exact PwmState.turns_refl
  -- the duty that passed the check is stored as it is
  have hstore : clampDuty { s.chan c with onOff := true, duty } =
      { s.chan c with onOff := true, duty } := clampDuty_eq (Nat.le_of_not_lt hduty)
  have hwidth : s.Turns c ⟨{ s.chan c with onOff := true, duty }, s.regs.invert c⟩
      ((s.setWidth env c duty).setChan c fun ch => clampDuty { ch with onOff := true, duty }) :=
    PwmState.turns_setChan rfl hstore rfl fun c' _ => rfl
  refine PwmState.Turns.trans hwidth fun c' => ?_
  dsimp only
  rw [cell_setInvert, PwmState.setChan_chan_self, chan_setWidth, hstore]
  rfl

/-- A call that does not succeed changes nothing. -/
theorem run_of_not_ok {call : PwmCall} (h : (run env s call).1 ≠ some .ok) :
    (run env s call).2 = s := by
  have hsplit {x : PwmOpResult × PwmState} (hx : x.1 = .ok ∨ x.2 = s)
      (hok : (x.map some id).1 ≠ some .ok) : (x.map some id).2 = s :=
    hx.resolve_left fun heq => hok (congrArg some heq)
  cases call with
  | channelInit c inverse =>
    refine hsplit (x := pwmChannelInit env c inverse s) ?_ h
    unfold pwmChannelInit
    split_ifs
    iterate 3 exact .inr rfl
    exact .inl rfl
  | channelDeInit c =>
    refine hsplit (x := pwmChannelDeInit c s) ?_ h
    unfold pwmChannelDeInit
    split_ifs
    iterate 3 exact .inr rfl
    exact .inl rfl
  | turnOn c =>
    refine hsplit (x := pwmTurnOn env c s) ?_ h
    unfold pwmTurnOn
    split_ifs
    iterate 2 exact .inr rfl
    exact .inl rfl
  | turnOnAndSetDuty c duty =>
    refine hsplit (x := pwmTurnOnAndSetDuty env c duty s) ?_ h
    unfold pwmTurnOnAndSetDuty
    split_ifs
    iterate 3 exact .inr rfl
    exact .inl rfl
  | turnOff c =>
    refine hsplit (x := pwmTurnOff c s) ?_ h
    unfold pwmTurnOff
    split_ifs
    iterate 2 exact .inr rfl
    iterate 2 exact .inl rfl
  | setDuty c duty =>
    refine hsplit (x := pwmSetDuty env c duty s) ?_ h
    unfold pwmSetDuty
    split_ifs
    iterate 4 exact .inr rfl
    exact .inl rfl
  | stepDuty c step direction =>
    refine hsplit (x := pwmStepDuty env c step direction s) ?_ h
    unfold pwmStepDuty
    split_ifs
    iterate 4 exact .inr rfl
    exact .inl rfl
  | _ => rfl

/-- A call on a channel that does not exist changes nothing. -/
theorem run_of_ge {call : PwmCall} (hc : hwPwmChannelMax ≤ call.channel) :
    (run env s call).2 = s := by
  have hrefused {x : PwmOpResult × PwmState} (hx : x = (.invalidParameter, s)) :
      (x.map some id).2 = s := by
    rw [hx]
    rfl
  cases call with
  | channelInit c inverse => exact hrefused (x := pwmChannelInit env c inverse s) (if_pos hc)
  | channelDeInit c => exact hrefused (x := pwmChannelDeInit c s) (if_pos hc)
  | turnOn c => exact hrefused (x := pwmTurnOn env c s) (if_pos hc)
  | turnOnAndSetDuty c duty =>
    exact hrefused (x := pwmTurnOnAndSetDuty env c duty s) (if_pos hc)
  | turnOff c => exact hrefused (x := pwmTurnOff c s) (if_pos hc)
  | setDuty c duty => exact hrefused (x := pwmSetDuty env c duty s) (if_pos hc)
  | stepDuty c step direction =>
    exact hrefused (x := pwmStepDuty env c step direction s) (if_pos hc)
  | _ => rfl

variable (env s) in
/-- What a call does to the cells: it changes the one of its channel, if there is this channel, as
`onCell` says. -/
theorem cell_run (call : PwmCall) (c' : ℕ) :
    (run env s call).2.cell c' =
      if c' = call.channel ∧ c' < hwPwmChannelMax then onCell (s.cell c') call else s.cell c' := by
  have hturns (hc : call.channel < hwPwmChannelMax) :
      s.Turns call.channel (onCell (s.cell call.channel) call) (run env s call).2 := by
    cases call with
    | channelInit c inverse => exact pwmChannelInit_turns hc
    | channelDeInit c => exact pwmChannelDeInit_turns hc
    | turnOn c => exact pwmTurnOn_turns hc
    | turnOnAndSetDuty c duty => exact pwmTurnOnAndSetDuty_turns hc
    | turnOff c => exact pwmTurnOff_turns hc
    | setDuty c duty => exact pwmSetDuty_turns hc
    | stepDuty c step direction => exact pwmStepDuty_turns hc
    | _ => exact PwmState.turns_refl
  -- a call outside the channels is refused before it touches anything
  rcases Nat.lt_or_ge call.channel hwPwmChannelMax with hc | hc
  · rw [hturns hc c']
    by_cases h : c' = call.channel
    · rw [if_pos h, if_pos ⟨h, h ▸ hc⟩, h]
    · rw [if_neg h, if_neg fun hand => h hand.1]
  · have hnot : ¬ (c' = call.channel ∧ c' < hwPwmChannelMax) := by
      rintro ⟨rfl, hlt⟩
      exact absurd hlt (Nat.not_lt.mpr hc)
    rw [run_of_ge hc, if_neg hnot]

end Cells

/-! ## The law -/

/-- If the channel is initialised, its bit is the polarity, turned round while the channel is on
with a full duty. -/
def Cell.Lawful (x : Cell) : Prop :=
  x.entry.init = true →
    x.invert = (x.entry.inverse ^^ (x.entry.onOff && decide (x.entry.duty = pwmMaxDuty)))

/-- The flags of a channel that is not initialised are clear. -/
def Cell.Tidy (x : Cell) : Prop :=
  x.entry.init = false → x.entry.inverse = false ∧ x.entry.onOff = false

def InvertLaw (s : PwmState) : Prop := ∀ c < hwPwmChannelMax, (s.cell c).Lawful

/-- The call takes a channel whose bit is not the polarity that is asked for. -/
def TakesOtherBit (s : PwmState) : PwmCall → Prop
  | .channelInit c inverse =>
    c < hwPwmChannelMax ∧ (s.chan c).init = false ∧ s.regs.invert c ≠ inverse
  | _ => False

/-- The same of its cell. -/
def Cell.TakenOtherwise (x : Cell) : PwmCall → Prop
  | .channelInit _ inverse => x.entry.init = false ∧ x.invert ≠ inverse
  | _ => False

theorem invertFor_eq (ch : PwmChannel) (duty : ℕ) :
    invertFor ch duty = (ch.inverse ^^ decide (duty = pwmMaxDuty)) := by
  unfold invertFor
  by_cases h : duty = pwmMaxDuty
  · rw [if_pos h, decide_eq_true h, Bool.xor_true]
  · rw [if_neg h, decide_eq_false h, Bool.xor_false]

/-- A cell that is on, with the bit for its duty, is lawful. -/
theorem Cell.lawful_of_on {ch : PwmChannel} {duty : ℕ} (hon : ch.onOff = true)
    (hduty : ch.duty = duty) : Cell.Lawful ⟨ch, invertFor ch duty⟩ := by
  intro _
  show invertFor ch duty = (ch.inverse ^^ (ch.onOff && decide (ch.duty = pwmMaxDuty)))
  rw [invertFor_eq, hon, hduty, Bool.true_and]

/-- On one cell: the one call that may leave another bit is the one that takes the channel. -/
theorem Cell.lawful_onCell_iff {x : Cell} (hlaw : x.Lawful) (htidy : x.Tidy) (call : PwmCall) :
    (onCell x call).Lawful ↔ ¬ x.TakenOtherwise call := by
  cases call with
  | channelInit c inverse =>
    show (if x.entry.init = true then x else _).Lawful ↔
      ¬ (x.entry.init = false ∧ x.invert ≠ inverse)
    rcases hinit : x.entry.init with _ | _
    · obtain ⟨hplain, -⟩ := htidy hinit
      rw [if_neg Bool.false_ne_true, hplain, Bool.false_or]
      constructor
      · intro h hother
        exact hother.2 ((h rfl).trans (Bool.xor_false inverse))
      · intro h _
        by_contra hne
        exact h ⟨rfl, fun heq => hne (heq.trans (Bool.xor_false inverse).symm)⟩
    · rw [if_pos rfl]
      exact iff_of_true hlaw fun h => Bool.noConfusion h.1
  | channelDeInit c =>
    -- a channel that is released has no law to keep
    refine iff_of_true ?_ id
    show (if x.entry.init = false then x else _).Lawful
    split
    · exact hlaw
    · exact fun h => absurd h Bool.false_ne_true
  | turnOn c =>
    refine iff_of_true ?_ id
    show (if x.entry.init = false then x else _).Lawful
    split
    · exact hlaw
    · exact Cell.lawful_of_on rfl rfl
  | turnOnAndSetDuty c duty =>
    refine iff_of_true ?_ id
    show (if pwmMaxDuty < duty then x else if x.entry.init = false then x else _).Lawful
    split_ifs
    · exact hlaw
    · exact hlaw
    · exact Cell.lawful_of_on rfl rfl
  | turnOff c =>
    refine iff_of_true ?_ id
    show (if x.entry.init = false then x else _).Lawful
    split_ifs with hinit hpart
    · exact hlaw
    · -- the bit is set back to the polarity
      exact fun _ => (Bool.xor_false _).symm
    · -- the bit is left, and it was the one for a part of the period
      intro _
      show x.invert = (x.entry.inverse ^^ false)
      rw [hlaw (by simpa using hinit), decide_eq_false hpart, Bool.and_false]
  | setDuty c duty =>
    refine iff_of_true ?_ id
    show (if pwmMaxDuty < duty then x else if x.entry.init = false then x
      else if x.entry.onOff = false then x else _).Lawful
    split_ifs with _ _ hon
    iterate 3 exact hlaw
    exact Cell.lawful_of_on (by simpa using hon) rfl
  | stepDuty c step direction =>
    refine iff_of_true ?_ id
    show (if direction = .max then x else if x.entry.init = false then x
      else if x.entry.onOff = false then x else _).Lawful
    split_ifs with _ _ hon
    iterate 3 exact hlaw
    exact Cell.lawful_of_on (by simpa using hon) rfl
  | _ => exact iff_of_true hlaw id

theorem Cell.tidy_onCell {x : Cell} (htidy : x.Tidy) (call : PwmCall) : (onCell x call).Tidy := by
  -- a call that leaves the channel initialised has nothing to tidy
  have hstays {y : Cell} (hy : y.entry.init = x.entry.init) (hinit : ¬ x.entry.init = false) :
      y.Tidy := fun hfree => absurd (hy.symm.trans hfree) hinit
  cases call with
  | channelInit c inverse =>
    show (if x.entry.init = true then x else _).Tidy
    split
    · exact htidy
    · exact fun h => absurd h Bool.noConfusion
  | channelDeInit c =>
    show (if x.entry.init = false then x else _).Tidy
    split
    · exact htidy
    · exact fun _ => ⟨rfl, rfl⟩
  | turnOn c =>
    show (if x.entry.init = false then x else _).Tidy
    split_ifs with hinit
    · exact htidy
    · refine hstays ?_ hinit
      show (clampDuty x.entry).init = _
      unfold clampDuty
      split <;> rfl
  | turnOnAndSetDuty c duty =>
    show (if pwmMaxDuty < duty then x else if x.entry.init = false then x else _).Tidy
    split_ifs with _ hinit
    iterate 2 exact htidy
    exact hstays rfl hinit
  | turnOff c =>
    show (if x.entry.init = false then x else _).Tidy
    split_ifs with hinit
    · exact htidy
    · exact hstays rfl hinit
    · exact hstays rfl hinit
  | setDuty c duty =>
    show (if pwmMaxDuty < duty then x else if x.entry.init = false then x
      else if x.entry.onOff = false then x else _).Tidy
    split_ifs with _ hinit
    iterate 3 exact htidy
    exact hstays rfl hinit
  | stepDuty c step direction =>
    show (if direction = .max then x else if x.entry.init = false then x
      else if x.entry.onOff = false then x else _).Tidy
    split_ifs with _ hinit
    iterate 3 exact htidy
    exact hstays rfl hinit
  | _ => exact htidy

section Runs

variable {env : PwmEnv} {s : PwmState}

theorem takesOtherBit_iff {call : PwmCall} : TakesOtherBit s call ↔
    call.channel < hwPwmChannelMax ∧ (s.cell call.channel).TakenOtherwise call := by
  cases call with
  | channelInit c inverse => exact Iff.rfl
  | _ => exact ⟨False.elim, fun h => h.2⟩

/-- What one call needs to keep the law. -/
theorem invertLaw_run_iff (hlaw : InvertLaw s) (htidy : ∀ c < hwPwmChannelMax, (s.cell c).Tidy)
    (call : PwmCall) : InvertLaw (run env s call).2 ↔ ¬ TakesOtherBit s call := by
  rw [takesOtherBit_iff]
  constructor
  · rintro h ⟨hc, htaken⟩
    have hcell := h call.channel hc
    rw [cell_run, if_pos ⟨rfl, hc⟩] at hcell
    exact (Cell.lawful_onCell_iff (hlaw _ hc) (htidy _ hc) call).mp hcell htaken
  · intro h c hc
    rw [cell_run]
    split
    · next hown =>
      rw [hown.1] at hc ⊢
      exact (Cell.lawful_onCell_iff (hlaw _ hc) (htidy _ hc) call).mpr fun ht => h ⟨hc, ht⟩
    · exact hlaw c hc

theorem tidy_run (htidy : ∀ c < hwPwmChannelMax, (s.cell c).Tidy) (call : PwmCall) :
    ∀ c < hwPwmChannelMax, ((run env s call).2.cell c).Tidy := by
  intro c hc
  rw [cell_run]
  split
  · exact Cell.tidy_onCell (htidy c hc) call
  · exact htidy c hc

end Runs

/-- After every successful call of a run the bits are right exactly if every `PWM_Channel_Init`
that takes a channel finds its bit as the polarity it asks for. -/
theorem invertLaw_iff (env : PwmEnv) (calls : List PwmCall) :
    AllSteps (fun s call => (run env s call).2)
        (fun s call => (run env s call).1 = some .ok → InvertLaw (run env s call).2) .reset calls ↔
      AllSteps (fun s call => (run env s call).2) (fun s call => ¬ TakesOtherBit s call) .reset
        calls := by
  refine allSteps_congr
    (J := fun s => InvertLaw s ∧ ∀ c < hwPwmChannelMax, (s.cell c).Tidy) ?_ ?_ ?_ calls
  · rintro s call ⟨hlaw, htidy⟩
    rw [← @invertLaw_run_iff env _ hlaw htidy call]
    refine ⟨fun h => ?_, fun h _ => h⟩
    by_cases hok : (run env s call).1 = some .ok
    · exact h hok
    · rw [run_of_not_ok hok]
      exact hlaw
  · rintro s call ⟨hlaw, htidy⟩ h
    refine ⟨?_, tidy_run htidy call⟩
    by_cases hok : (run env s call).1 = some .ok
    · exact h hok
    · show InvertLaw (run env s call).2
      rw [run_of_not_ok hok]
      exact hlaw
  · exact ⟨fun c _ h => absurd h Bool.false_ne_true, fun c _ _ => ⟨rfl, rfl⟩⟩

/-- An inverse channel is taken with its bit clear. -/
theorem not_invertLaw_inverse :
    ¬ AllSteps (fun s call => (run .integer s call).2)
      (fun s call => (run .integer s call).1 = some .ok → InvertLaw (run .integer s call).2) .reset
      [.channelInit 0 true] := by
  rintro ⟨h, -⟩
  have hbit := h (by decide) 0 (by decide) (by decide)
  exact absurd hbit (by decide)

end WLink.Driver.Tm4c
