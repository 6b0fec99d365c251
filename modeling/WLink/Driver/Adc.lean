import WLink.Driver.Peripherals
import WLink.Lib.Run

/-!
# The instances of the ADC

`hwADC_Channel_Init` and `hwADC_Channel_DeInit` with the clocks of the instances and the ADC
interrupt, and runs of them from reset over channels that exist. `Lifecycle` says that an instance
is up while it has a channel and down otherwise, and that the interrupt is enabled while an
instance is up. It holds along a run, and no call touches the queue of another instance, exactly
if the last channel of an instance is only ever released as the last channel of all
(`always_lifecycle_iff`): the loop over the instances asks for the channels of any instance.
-/

namespace WLink.Driver

open Lib

/-! ## The driver and the hardware -/

/-- The ADC driver with the clocks of its instances and the interrupt. -/
structure AdcState where
  drv : PeriphState
  /-- the RCC clock of an instance -/
  clk : ℕ → Bool
  /-- `ADC_NVIC_Init_Status` -/
  nvicInit : Bool
  /-- `ADC_IRQn` is enabled in the NVIC -/
  irq : Bool

def AdcState.reset : AdcState := ⟨.reset, fun _ => false, false, false⟩

/-- The `switch` around the clocks has cases for `hwADC_Instance_1` to `hwADC_Instance_3`. -/
def adcSetClk (inst : ℕ) (v : Bool) (clk : ℕ → Bool) : ℕ → Bool :=
  if inst < 3 then Function.update clk inst v else clk

/-- `hwADC_Channel_Init` with the clock and the interrupt. -/
def hwAdcChannelInit (t : PinTables) (env : PeriphEnv) (ch : ℕ) (s : AdcState) :
    PeriphOpResult × AdcState :=
  let d := t.adcChannel ch
  if t.adcInstanceMax ≤ d.inst then (.invalidParameter, s)
  else if ¬ OnPort d.pin then (.invalidParameter, s)
  else if (s.drv.adcInstance d.inst).init then (.ok, { s with drv := adcTaken s.drv ch d.pin })
  else
    let p := s.drv.adcInstance d.inst
    let (ok, queue, rtos) := msgQCreate (env.create 0) p.queue s.drv.rtos
    if ok = false then
      (.memoryError, { s with drv := s.drv.setAdcInstance d.inst { p with queue } rtos })
    else
      let s := { s with clk := adcSetClk d.inst true s.clk }
      if env.hal 0 = false then
        (.hwError,
          { s with drv := s.drv.setAdcInstance d.inst { p with queue } (rtos.delete queue) })
      else
        let drv := adcTaken (s.drv.setAdcInstance d.inst { init := true, queue } rtos) ch d.pin
        (.ok, { s with drv, nvicInit := true, irq := if s.nvicInit then s.irq else true })

/-- A channel is initialised, whichever instance it is of: `ch_used`. -/
def adcChUsed (t : PinTables) (s : PeriphState) : Bool :=
  (List.range t.adcChannelMax).any s.adcChannel

/-- One round of the loop in `hwADC_Channel_DeInit`; the flag is `inst_used`. -/
def hwAdcReleaseInstance (t : PinTables) (s : AdcState × Bool) (inst : ℕ) : AdcState × Bool :=
  let clk :=
    if adcChUsed t s.1.drv = false ∧ (s.1.drv.adcInstance inst).init = true then
      adcSetClk inst false s.1.clk
    else s.1.clk
  let drv := adcReleaseInstance t s.1.drv inst
  ({ s.1 with drv, clk }, s.2 || (drv.adcInstance inst).init)

/-- The loop over the instances: what it leaves, and whether it has found one in use. -/
def adcSweep (t : PinTables) (s : AdcState) : AdcState × Bool :=
  (List.range t.adcInstanceMax).foldl (hwAdcReleaseInstance t) (s, false)

/-- The interrupt is disabled when no instance is left. -/
def adcIrqOff (instUsed : Bool) (s : AdcState) : AdcState :=
  if instUsed = false ∧ s.nvicInit = true then { s with irq := false, nvicInit := false } else s

/-- The state after the flag of the channel has been cleared. -/
def adcFreed (ch : ℕ) (s : AdcState) : AdcState :=
  { s with drv := { s.drv with adcChannel := Function.update s.drv.adcChannel ch false } }

/-- `hwADC_Channel_DeInit` with the clocks and the interrupt. -/
def hwAdcChannelDeInit (t : PinTables) (ch : ℕ) (s : AdcState) : PeriphOpResult × AdcState :=
  let d := t.adcChannel ch
  if t.adcInstanceMax ≤ d.inst then (.invalidParameter, s)
  else if t.adcChannelMax ≤ ch then (.invalidParameter, s)
  else if s.drv.adcChannel ch = false then (.ok, s)
  else if ¬ OnPort d.pin then (.invalidParameter, s)
  else
    let (s, instUsed) := adcSweep t (adcFreed ch s)
    let s := adcIrqOff instUsed s
    (.ok, { s with drv := s.drv.setPins [d.pin] false })

/-! The functions do to the state of the drivers what those without clocks and interrupt do. -/

theorem hwAdcChannelInit_drv (t : PinTables) (env : PeriphEnv) (ch : ℕ) (s : AdcState) :
    ((hwAdcChannelInit t env ch s).1, (hwAdcChannelInit t env ch s).2.drv) =
      adcChannelInit t env ch s.drv := by
  unfold hwAdcChannelInit adcChannelInit
  dsimp only
  split_ifs <;> rfl

theorem foldl_release_drv (t : PinTables) (s : AdcState × Bool) (l : List ℕ) :
    (l.foldl (hwAdcReleaseInstance t) s).1.drv = l.foldl (adcReleaseInstance t) s.1.drv := by
  induction l generalizing s with
  | nil => rfl
  | cons inst l ih => exact ih (hwAdcReleaseInstance t s inst)

theorem hwAdcChannelDeInit_drv (t : PinTables) (ch : ℕ) (s : AdcState) :
    ((hwAdcChannelDeInit t ch s).1, (hwAdcChannelDeInit t ch s).2.drv) =
      adcChannelDeInit t ch s.drv := by
  have hirq (b : Bool) (s : AdcState) : (adcIrqOff b s).drv = s.drv := by
    unfold adcIrqOff
    split_ifs <;> rfl
  have hsweep := foldl_release_drv t (adcFreed ch s, false) (List.range t.adcInstanceMax)
  unfold hwAdcChannelDeInit adcChannelDeInit
  dsimp only
  split_ifs
  · rfl
  · rfl
  · rfl
  · rw [hirq]
    exact congrArg (fun drv : PeriphState =>
      (PeriphOpResult.ok, drv.setPins [(t.adcChannel ch).pin] false)) hsweep
  · rfl

/-! ## Calls with channels that exist -/

/-- A channel of the table, on an instance and with a pin on a port. -/
structure AdcChannel (t : PinTables) where
  ch : ℕ
  range : ch < t.adcChannelMax
  instRange : (t.adcChannel ch).inst < t.adcInstanceMax
  onPort : OnPort (t.adcChannel ch).pin

/-- The instance of the channel. -/
def AdcChannel.inst {t : PinTables} (c : AdcChannel t) : ℕ := (t.adcChannel c.ch).inst

/-- A call of the driver; `created` says whether the kernel has memory for a queue. -/
inductive AdcCall (t : PinTables)
  | init (c : AdcChannel t) (created : Bool)
  | deInit (c : AdcChannel t)

/-- The instance that a call is about. -/
def AdcCall.inst {t : PinTables} : AdcCall t → ℕ
  | .init c _ => c.inst
  | .deInit c => c.inst

/-- The state a call leaves; the calls of the HAL succeed. -/
def AdcCall.step (t : PinTables) (s : AdcState) : AdcCall t → AdcState
  | .init c created => (hwAdcChannelInit t ⟨fun _ => created, fun _ => true⟩ c.ch s).2
  | .deInit c => (hwAdcChannelDeInit t c.ch s).2

/-! ## What is asked of the instances -/

/-- The queue of the instance exists. -/
def AdcState.HasQueue (s : AdcState) (inst : ℕ) : Prop :=
  ∃ q, (s.drv.adcInstance inst).queue = some q ∧ q ∈ s.drv.rtos.live

/-- The instance is initialised, its clock is on and its queue exists. -/
structure AdcState.Up (s : AdcState) (inst : ℕ) : Prop where
  init : (s.drv.adcInstance inst).init = true
  clk : s.clk inst = true
  queue : s.HasQueue inst

/-- The instance is not initialised, its clock is off and it has no queue. -/
structure AdcState.Down (s : AdcState) (inst : ℕ) : Prop where
  init : (s.drv.adcInstance inst).init = false
  clk : s.clk inst = false
  queue : ¬ s.HasQueue inst

/-- A channel of the instance other than `except` is initialised. -/
def AdcUses (t : PinTables) (s : AdcState) (except : Option ℕ) (inst : ℕ) : Prop :=
  ∃ ch < t.adcChannelMax, some ch ≠ except ∧ s.drv.adcChannel ch = true ∧
    (t.adcChannel ch).inst = inst

instance (t : PinTables) (s : AdcState) (except : Option ℕ) (inst : ℕ) :
    Decidable (AdcUses t s except inst) :=
  inferInstanceAs (Decidable (∃ ch < t.adcChannelMax, _))

/-- An instance is up exactly while it has a channel, the interrupt enabled exactly while there is
an instance. -/
structure Lifecycle (t : PinTables) (s : AdcState) : Prop where
  up : ∀ inst < t.adcInstanceMax, AdcUses t s none inst → s.Up inst
  down : ∀ inst < t.adcInstanceMax, ¬ AdcUses t s none inst → s.Down inst
  irq : s.irq = true ↔ ∃ inst < t.adcInstanceMax, (s.drv.adcInstance inst).init = true

/-- The call neither deletes nor replaces the queue of an instance that it is not about. -/
def LeavesOtherQueues (t : PinTables) (s : AdcState) (call : AdcCall t) : Prop :=
  ∀ inst < t.adcInstanceMax, inst ≠ call.inst →
    ((call.step t s).drv.adcInstance inst).queue = (s.drv.adcInstance inst).queue ∧
      ((call.step t s).HasQueue inst ↔ s.HasQueue inst)

/-- An initialised channel that is the last of its instance is the last of all when it is
released. -/
def LastOfAll (t : PinTables) (s : AdcState) : AdcCall t → Prop
  | .init _ _ => True
  | .deInit c => s.drv.adcChannel c.ch = true → ¬ AdcUses t s (some c.ch) c.inst →
      ∀ ch < t.adcChannelMax, ch ≠ c.ch → s.drv.adcChannel ch = false

/-! ## One call -/

section Steps

variable {t : PinTables} {s : AdcState} {c : AdcChannel t} {inst : ℕ}

/-- Initialised channels have an instance; the queues of the instances are different ones, and the
kernel has made them; the flag for the interrupt is right. -/
structure AdcBooks (t : PinTables) (s : AdcState) : Prop where
  chans : ∀ ch, s.drv.adcChannel ch = true → (t.adcChannel ch).inst < t.adcInstanceMax
  distinct : ∀ i j q, (s.drv.adcInstance i).queue = some q → (s.drv.adcInstance j).queue = some q →
    i = j
  made : ∀ i q, (s.drv.adcInstance i).queue = some q → q < s.drv.rtos.next
  live : ∀ q ∈ s.drv.rtos.live, q < s.drv.rtos.next
  nodup : s.drv.rtos.live.Nodup
  nvic : s.nvicInit = s.irq

@[simp] theorem adcTaken_adcInstance (s : PeriphState) (ch : ℕ) (pin : ℤ) :
    (adcTaken s ch pin).adcInstance = s.adcInstance := rfl

@[simp] theorem adcTaken_rtos (s : PeriphState) (ch : ℕ) (pin : ℤ) :
    (adcTaken s ch pin).rtos = s.rtos := rfl

@[simp] theorem adcTaken_adcChannel (s : PeriphState) (ch : ℕ) (pin : ℤ) :
    (adcTaken s ch pin).adcChannel = Function.update s.adcChannel ch true := rfl

/-! ### Taking a channel -/

theorem step_init_of_up (hup : (s.drv.adcInstance c.inst).init = true) (created : Bool) :
    (AdcCall.init c created).step t s =
      { s with drv := adcTaken s.drv c.ch (t.adcChannel c.ch).pin } := by
  have hinst := Nat.not_le.mpr c.instRange
  have hup' : (s.drv.adcInstance (t.adcChannel c.ch).inst).init = true := hup
  simp [AdcCall.step, hwAdcChannelInit, hinst, c.onPort, hup']

/-- No memory for the queue: nothing has changed. -/
theorem step_init_of_not_created (hup : (s.drv.adcInstance c.inst).init = false) :
    (AdcCall.init c false).step t s = s := by
  have hinst := Nat.not_le.mpr c.instRange
  have hup' : (s.drv.adcInstance (t.adcChannel c.ch).inst).init = false := hup
  have hsame : s.drv.setAdcInstance (t.adcChannel c.ch).inst
      (s.drv.adcInstance (t.adcChannel c.ch).inst) s.drv.rtos = s.drv := by
    unfold PeriphState.setAdcInstance
    rw [Function.update_eq_self]
  simp only [AdcCall.step, hwAdcChannelInit, if_neg hinst, not_not.mpr c.onPort, if_false, hup',
    Bool.false_eq_true, msgQCreate, Rtos.create, if_true]
  rw [← hup', hsame]

/-- The state after the first channel of an instance has been taken. -/
def adcOpened (t : PinTables) (c : AdcChannel t) (s : AdcState) : AdcState where
  drv := adcTaken (s.drv.setAdcInstance c.inst ⟨true, some s.drv.rtos.next⟩
    { s.drv.rtos with
      next := s.drv.rtos.next + 1
      live := s.drv.rtos.next :: s.drv.rtos.live }) c.ch (t.adcChannel c.ch).pin
  clk := adcSetClk c.inst true s.clk
  nvicInit := true
  irq := if s.nvicInit then s.irq else true

theorem step_init_of_created (hup : (s.drv.adcInstance c.inst).init = false) :
    (AdcCall.init c true).step t s = adcOpened t c s := by
  have hinst := Nat.not_le.mpr c.instRange
  have hup' : (s.drv.adcInstance (t.adcChannel c.ch).inst).init = false := hup
  simp [AdcCall.step, hwAdcChannelInit, hinst, c.onPort, hup', msgQCreate, Rtos.create, adcOpened,
    AdcChannel.inst]

/-! ### Releasing a channel -/

theorem step_deInit_of_free (hch : s.drv.adcChannel c.ch = false) :
    (AdcCall.deInit c).step t s = s := by
  have hinst := Nat.not_le.mpr c.instRange
  have hrange := Nat.not_le.mpr c.range
  simp [AdcCall.step, hwAdcChannelDeInit, hinst, hrange, hch]

theorem step_deInit_of_init (hch : s.drv.adcChannel c.ch = true) {s' : AdcState} {instUsed : Bool}
    (hsweep : adcSweep t (adcFreed c.ch s) = (s', instUsed)) :
    (AdcCall.deInit c).step t s =
      { adcIrqOff instUsed s' with
        drv := (adcIrqOff instUsed s').drv.setPins [(t.adcChannel c.ch).pin] false } := by
  have hinst := Nat.not_le.mpr c.instRange
  have hrange := Nat.not_le.mpr c.range
  simp only [AdcCall.step, hwAdcChannelDeInit, if_neg hinst, if_neg hrange, hch,
    Bool.true_eq_false, if_false, not_not.mpr c.onPort, hsweep]

/-- With a channel left, the loop only looks. -/
theorem foldl_release_of_used (hused : adcChUsed t s.drv = true) (l : List ℕ) (b : Bool) :
    l.foldl (hwAdcReleaseInstance t) (s, b) =
      (s, b || l.any fun inst => (s.drv.adcInstance inst).init) := by
  induction l generalizing b with
  | nil => simp
  | cons inst l ih =>
    have hround : hwAdcReleaseInstance t (s, b) inst =
        (s, b || (s.drv.adcInstance inst).init) := by
      have hany : (List.range t.adcChannelMax).any s.drv.adcChannel = true := hused
      simp only [hwAdcReleaseInstance, adcReleaseInstance, hused, hany, Bool.true_eq_false,
        false_and, if_false]
    rw [List.foldl_cons, hround, ih, List.any_cons, Bool.or_assoc]

/-- One round with no channel left: the instance goes. -/
def adcClosed (inst : ℕ) (s : AdcState) : AdcState :=
  { s with
    drv := s.drv.setAdcInstance inst { s.drv.adcInstance inst with init := false }
      (s.drv.rtos.delete (s.drv.adcInstance inst).queue)
    clk := adcSetClk inst false s.clk }

theorem release_of_down (b : Bool) (hdown : (s.drv.adcInstance inst).init = false) :
    hwAdcReleaseInstance t (s, b) inst = (s, b) := by
  simp [hwAdcReleaseInstance, adcReleaseInstance, hdown]

theorem release_of_up (b : Bool) (hused : adcChUsed t s.drv = false)
    (hup : (s.drv.adcInstance inst).init = true) :
    hwAdcReleaseInstance t (s, b) inst = (adcClosed inst s, b) := by
  have hany : (List.range t.adcChannelMax).any s.drv.adcChannel = false := hused
  simp [hwAdcReleaseInstance, adcReleaseInstance, hused, hany, hup, adcClosed,
    PeriphState.setAdcInstance]

/-! ### Instances that a call does not change -/

/-- The instance is as it was. -/
structure SameAt (s s' : AdcState) (inst : ℕ) : Prop where
  cell : s'.drv.adcInstance inst = s.drv.adcInstance inst
  clk : s'.clk inst = s.clk inst
  queue : s'.HasQueue inst ↔ s.HasQueue inst

variable {s' : AdcState}

theorem SameAt.up (h : SameAt s s' inst) (hup : s.Up inst) : s'.Up inst :=
  ⟨by rw [h.cell]; exact hup.init, by rw [h.clk]; exact hup.clk, h.queue.mpr hup.queue⟩

theorem SameAt.down (h : SameAt s s' inst) (hdown : s.Down inst) : s'.Down inst :=
  ⟨by rw [h.cell]; exact hdown.init, by rw [h.clk]; exact hdown.clk,
    fun hq => hdown.queue (h.queue.mp hq)⟩

/-- What a queue depends on. -/
theorem hasQueue_congr (hqueue : (s'.drv.adcInstance inst).queue = (s.drv.adcInstance inst).queue)
    (hlive : ∀ q, (s.drv.adcInstance inst).queue = some q →
      (q ∈ s'.drv.rtos.live ↔ q ∈ s.drv.rtos.live)) : s'.HasQueue inst ↔ s.HasQueue inst := by
  unfold AdcState.HasQueue
  rw [hqueue]
  exact exists_congr fun q => and_congr_right fun hq => hlive q hq

theorem adcSetClk_self {v : Bool} (hinst : inst < 3) (clk : ℕ → Bool) :
    adcSetClk inst v clk inst = v := by
  unfold adcSetClk
  rw [if_pos hinst, Function.update_self]

theorem adcSetClk_of_ne {v : Bool} {j : ℕ} (hj : j ≠ inst) (clk : ℕ → Bool) :
    adcSetClk inst v clk j = clk j := by
  unfold adcSetClk
  split_ifs
  · exact Function.update_of_ne hj v clk
  · rfl

/-! ### The channels of an instance -/

/-- A channel that is taken adds its instance to those in use. -/
theorem adcUses_taken
    (hchan : s'.drv.adcChannel = Function.update s.drv.adcChannel c.ch true) :
    AdcUses t s' none inst ↔ AdcUses t s none inst ∨ inst = c.inst := by
  unfold AdcUses
  rw [hchan]
  constructor
  · rintro ⟨ch, hrange, hnone, hinit, hinst⟩
    by_cases hch : ch = c.ch
    · rw [hch] at hinst
      exact .inr hinst.symm
    · rw [Function.update_of_ne hch] at hinit
      exact .inl ⟨ch, hrange, hnone, hinit, hinst⟩
  · rintro (⟨ch, hrange, hnone, hinit, hinst⟩ | rfl)
    · refine ⟨ch, hrange, hnone, ?_, hinst⟩
      by_cases hch : ch = c.ch
      · rw [hch, Function.update_self]
      · rw [Function.update_of_ne hch]
        exact hinit
    · exact ⟨c.ch, c.range, nofun, Function.update_self .., rfl⟩

theorem adcUses_freed
    (hchan : s'.drv.adcChannel = Function.update s.drv.adcChannel c.ch false) :
    AdcUses t s' none inst ↔ AdcUses t s (some c.ch) inst := by
  unfold AdcUses
  rw [hchan]
  refine exists_congr fun ch => and_congr_right fun _ => ?_
  by_cases hch : ch = c.ch
  · rw [hch, Function.update_self]
    exact iff_of_false (fun h => absurd h.2.1 Bool.false_ne_true) fun h => h.1 rfl
  · rw [Function.update_of_ne hch]
    exact and_congr_left fun _ => iff_of_true nofun fun h => hch (Option.some.inj h)

/-- Leaving out a channel makes no difference to the instances that it is not of. -/
theorem adcUses_except (hinst : inst ≠ c.inst) :
    AdcUses t s (some c.ch) inst ↔ AdcUses t s none inst := by
  refine exists_congr fun ch => and_congr_right fun _ => ?_
  constructor
  · rintro ⟨-, h⟩
    exact ⟨nofun, h⟩
  · rintro ⟨-, hinit, hof⟩
    refine ⟨fun hch => hinst ?_, hinit, hof⟩
    rw [← hof, Option.some.inj hch]
    rfl

theorem Lifecycle.up_of_init (h : Lifecycle t s) (hinst : inst < t.adcInstanceMax)
    (hinit : (s.drv.adcInstance inst).init = true) : s.Up inst := by
  by_cases huses : AdcUses t s none inst
  · exact h.up inst hinst huses
  · rw [(h.down inst hinst huses).init] at hinit
    exact absurd hinit Bool.false_ne_true

/-! ### The steps keep the lifecycle -/

/-- Another channel of an instance that is up. -/
theorem lifecycle_taken (h : Lifecycle t s) (hup : (s.drv.adcInstance c.inst).init = true) :
    Lifecycle t { s with drv := adcTaken s.drv c.ch (t.adcChannel c.ch).pin } := by
  have huses (inst : ℕ) :
      AdcUses t { s with drv := adcTaken s.drv c.ch (t.adcChannel c.ch).pin } none inst ↔
        AdcUses t s none inst ∨ inst = c.inst :=
    adcUses_taken rfl
  have hsame (inst : ℕ) :
      SameAt s { s with drv := adcTaken s.drv c.ch (t.adcChannel c.ch).pin } inst :=
    ⟨rfl, rfl, Iff.rfl⟩
  constructor
  · intro inst hinst hused
    rcases (huses inst).mp hused with hused | rfl
    · exact (hsame inst).up (h.up inst hinst hused)
    · exact (hsame _).up (h.up_of_init c.instRange hup)
  · intro inst hinst hused
    exact (hsame inst).down (h.down inst hinst fun hbefore => hused ((huses inst).mpr (.inl hbefore)))
  · exact h.irq

/-- The instances that are not the one taken first. -/
theorem sameAt_opened (hbooks : AdcBooks t s) (hinst : inst ≠ c.inst) :
    SameAt s (adcOpened t c s) inst := by
  have hcell : (adcOpened t c s).drv.adcInstance inst = s.drv.adcInstance inst :=
    Function.update_of_ne hinst ..
  refine ⟨hcell, adcSetClk_of_ne hinst s.clk, hasQueue_congr (by rw [hcell]) fun q hq => ?_⟩
  -- the new handle is none that an instance already has
  have hne : q ≠ s.drv.rtos.next := Nat.ne_of_lt (hbooks.made inst q hq)
  show q ∈ s.drv.rtos.next :: s.drv.rtos.live ↔ _
  rw [List.mem_cons]
  exact or_iff_right hne

/-- The first channel of an instance. -/
theorem lifecycle_opened (ht : t.adcInstanceMax = 3) (hbooks : AdcBooks t s)
    (h : Lifecycle t s) : Lifecycle t (adcOpened t c s) := by
  have hc : c.inst < 3 := ht ▸ c.instRange
  have huses (inst : ℕ) :
      AdcUses t (adcOpened t c s) none inst ↔ AdcUses t s none inst ∨ inst = c.inst :=
    adcUses_taken rfl
  have hcell : (adcOpened t c s).drv.adcInstance c.inst = ⟨true, some s.drv.rtos.next⟩ :=
    Function.update_self ..
  have hup : (adcOpened t c s).Up c.inst := by
    refine ⟨by rw [hcell], adcSetClk_self hc s.clk, s.drv.rtos.next, by rw [hcell], ?_⟩
    exact List.mem_cons_self
  constructor
  · intro inst hinst hused
    by_cases heq : inst = c.inst
    · rw [heq]
      exact hup
    · exact (sameAt_opened hbooks heq).up (h.up inst hinst (((huses inst).mp hused).resolve_right heq))
  · intro inst hinst hused
    have heq : inst ≠ c.inst := fun heq => hused ((huses inst).mpr (.inr heq))
    exact (sameAt_opened hbooks heq).down
      (h.down inst hinst fun hbefore => hused ((huses inst).mpr (.inl hbefore)))
  · refine iff_of_true ?_ ⟨c.inst, c.instRange, hup.init⟩
    show (if s.nvicInit then s.irq else true) = true
    rw [hbooks.nvic]
    cases s.irq <;> rfl

theorem books_taken (hbooks : AdcBooks t s) :
    AdcBooks t { s with drv := adcTaken s.drv c.ch (t.adcChannel c.ch).pin } := by
  refine ⟨fun ch hch => ?_, hbooks.distinct, hbooks.made, hbooks.live, hbooks.nodup, hbooks.nvic⟩
  by_cases heq : ch = c.ch
  · rw [heq]
    exact c.instRange
  · rw [adcTaken_adcChannel, Function.update_of_ne heq] at hch
    exact hbooks.chans ch hch

theorem books_opened (hbooks : AdcBooks t s) : AdcBooks t (adcOpened t c s) := by
  have hcell (i : ℕ) (q : ℕ) (hq : ((adcOpened t c s).drv.adcInstance i).queue = some q) :
      (i = c.inst ∧ q = s.drv.rtos.next) ∨
        (i ≠ c.inst ∧ (s.drv.adcInstance i).queue = some q ∧ q < s.drv.rtos.next) := by
    have hq' : (Function.update s.drv.adcInstance c.inst ⟨true, some s.drv.rtos.next⟩ i).queue =
        some q := hq
    by_cases hi : i = c.inst
    · rw [hi, Function.update_self] at hq'
      exact .inl ⟨hi, (Option.some.inj hq').symm⟩
    · rw [Function.update_of_ne hi] at hq'
      exact .inr ⟨hi, hq', hbooks.made i q hq'⟩
  constructor
  · exact (books_taken (c := c) hbooks).chans
  · intro i j q hi hj
    rcases hcell i q hi with ⟨hi, hnew⟩ | ⟨-, hi, hlt⟩ <;>
      rcases hcell j q hj with ⟨hj, hnew'⟩ | ⟨-, hj, hlt'⟩
    · rw [hi, hj]
    · omega
    · omega
    · exact hbooks.distinct i j q hi hj
  · intro i q hq
    show q < s.drv.rtos.next + 1
    rcases hcell i q hq with ⟨-, hnew⟩ | ⟨-, -, hlt⟩ <;> omega
  · intro q hq
    show q < s.drv.rtos.next + 1
    rcases List.mem_cons.mp hq with rfl | hq
    · exact Nat.lt_succ_self _
    · exact Nat.lt_succ_of_lt (hbooks.live q hq)
  · exact List.nodup_cons.mpr
      ⟨fun hmem => Nat.lt_irrefl _ (hbooks.live _ hmem), hbooks.nodup⟩
  · show true = if s.nvicInit then s.irq else true
    rw [hbooks.nvic]
    cases s.irq <;> rfl

/-! ### The steps that release -/

/-- A channel is left: only the flag of the released one changes. -/
theorem step_deInit_of_used (hbooks : AdcBooks t s) (h : Lifecycle t s)
    (hch : s.drv.adcChannel c.ch = true)
    (hleft : ∃ ch < t.adcChannelMax, ch ≠ c.ch ∧ s.drv.adcChannel ch = true) :
    (AdcCall.deInit c).step t s =
      { adcFreed c.ch s with
        drv := (adcFreed c.ch s).drv.setPins [(t.adcChannel c.ch).pin] false } := by
  obtain ⟨ch, hrange, hne, hinit⟩ := hleft
  have hinst := hbooks.chans ch hinit
  have hused : adcChUsed t (adcFreed c.ch s).drv = true := by
    refine List.any_eq_true.mpr ⟨ch, List.mem_range.mpr hrange, ?_⟩
    exact (Function.update_of_ne hne ..).trans hinit
  have hany : ((List.range t.adcInstanceMax).any fun inst =>
      ((adcFreed c.ch s).drv.adcInstance inst).init) = true :=
    List.any_eq_true.mpr ⟨_, List.mem_range.mpr hinst,
      (h.up _ hinst ⟨ch, hrange, nofun, hinit, rfl⟩).init⟩
  have hsweep : adcSweep t (adcFreed c.ch s) = (adcFreed c.ch s, true) := by
    unfold adcSweep
    rw [foldl_release_of_used hused, hany, Bool.false_or]
  rw [step_deInit_of_init hch hsweep]
  rfl

/-- No channel is left: the instance of the channel goes, and the interrupt with it. -/
theorem step_deInit_of_last (h : Lifecycle t s) (hch : s.drv.adcChannel c.ch = true)
    (hlast : ∀ ch < t.adcChannelMax, ch ≠ c.ch → s.drv.adcChannel ch = false) :
    (AdcCall.deInit c).step t s =
      { adcIrqOff false (adcClosed c.inst (adcFreed c.ch s)) with
        drv := (adcClosed c.inst (adcFreed c.ch s)).drv.setPins
          [(t.adcChannel c.ch).pin] false } := by
  have hused : adcChUsed t (adcFreed c.ch s).drv = false := by
    refine List.any_eq_false.mpr fun ch hmem => ?_
    rw [Bool.not_eq_true]
    show Function.update s.drv.adcChannel c.ch false ch = false
    by_cases heq : ch = c.ch
    · rw [heq, Function.update_self]
    · rw [Function.update_of_ne heq]
      exact hlast ch (List.mem_range.mp hmem) heq
  have hup : ((adcFreed c.ch s).drv.adcInstance c.inst).init = true :=
    (h.up c.inst c.instRange ⟨c.ch, c.range, nofun, hch, rfl⟩).init
  have hdown (inst : ℕ) (hinst : inst < t.adcInstanceMax) (hne : inst ≠ c.inst) :
      ((adcFreed c.ch s).drv.adcInstance inst).init = false := by
    refine (h.down inst hinst ?_).init
    rintro ⟨ch, hrange, -, hinit, hof⟩
    have hcc : ch ≠ c.ch := fun heq => hne (by rw [← hof, heq]; rfl)
    rw [hlast ch hrange hcc] at hinit
    exact Bool.false_ne_true hinit
  -- only the round of that instance does anything
  have hsweep : adcSweep t (adcFreed c.ch s) = (adcClosed c.inst (adcFreed c.ch s), false) := by
    have hmem : c.inst ∈ List.range t.adcInstanceMax := List.mem_range.mpr c.instRange
    unfold adcSweep
    rw [foldl_eq_of_only List.nodup_range hmem, release_of_up _ hused hup]
    · intro inst hmem hne
      exact release_of_down _ (hdown inst (List.mem_range.mp hmem) hne)
    · intro inst hmem hne
      rw [release_of_up _ hused hup]
      refine release_of_down _ ?_
      have hcell : (adcClosed c.inst (adcFreed c.ch s)).drv.adcInstance inst =
          (adcFreed c.ch s).drv.adcInstance inst := Function.update_of_ne hne ..
      rw [hcell]
      exact hdown inst (List.mem_range.mp hmem) hne
  rw [step_deInit_of_init hch hsweep]
  unfold adcIrqOff
  split_ifs <;> rfl

/-- The state in which a release leaves the driver while there are channels. -/
theorem sameAt_freed (pin : ℤ) (inst : ℕ) :
    SameAt s { adcFreed c.ch s with drv := (adcFreed c.ch s).drv.setPins [pin] false } inst :=
  ⟨rfl, rfl, Iff.rfl⟩

/-- While another channel is left, the release keeps the lifecycle if one is left on the instance:
otherwise the instance stays up without any. -/
theorem lifecycle_freed_iff (h : Lifecycle t s) (hch : s.drv.adcChannel c.ch = true) (pin : ℤ) :
    Lifecycle t { adcFreed c.ch s with drv := (adcFreed c.ch s).drv.setPins [pin] false } ↔
      AdcUses t s (some c.ch) c.inst := by
  have huses (inst : ℕ) :
      AdcUses t { adcFreed c.ch s with drv := (adcFreed c.ch s).drv.setPins [pin] false } none
        inst ↔ AdcUses t s (some c.ch) inst :=
    adcUses_freed rfl
  have hown : AdcUses t s none c.inst := ⟨c.ch, c.range, nofun, hch, rfl⟩
  constructor
  · intro h'
    by_contra hlast
    have hdown := (h'.down c.inst c.instRange fun hused => hlast ((huses _).mp hused)).init
    rw [(sameAt_freed pin c.inst).cell, (h.up c.inst c.instRange hown).init] at hdown
    exact Bool.false_ne_true hdown.symm
  · intro hleft
    have hiff (inst : ℕ) : AdcUses t s (some c.ch) inst ↔ AdcUses t s none inst := by
      by_cases heq : inst = c.inst
      · rw [heq]
        exact iff_of_true hleft hown
      · exact adcUses_except heq
    constructor
    · intro inst hinst hused
      exact (sameAt_freed pin inst).up (h.up inst hinst ((hiff inst).mp ((huses inst).mp hused)))
    · intro inst hinst hused
      exact (sameAt_freed pin inst).down
        (h.down inst hinst fun hb => hused ((huses inst).mpr ((hiff inst).mpr hb)))
    · exact h.irq

/-- The state in which the release of the last channel of all leaves the driver. -/
def adcAllClosed (t : PinTables) (c : AdcChannel t) (s : AdcState) : AdcState :=
  { adcIrqOff false (adcClosed c.inst (adcFreed c.ch s)) with
    drv := (adcClosed c.inst (adcFreed c.ch s)).drv.setPins [(t.adcChannel c.ch).pin] false }

theorem adcAllClosed_clk : (adcAllClosed t c s).clk = adcSetClk c.inst false s.clk := by
  unfold adcAllClosed adcIrqOff
  split_ifs <;> rfl

theorem adcAllClosed_irq (hbooks : AdcBooks t s) : (adcAllClosed t c s).irq = false := by
  show (adcIrqOff false (adcClosed c.inst (adcFreed c.ch s))).irq = false
  have hnvic : s.nvicInit = s.irq := hbooks.nvic
  unfold adcIrqOff
  split_ifs with hon
  · rfl
  · have hoff : s.nvicInit = false := Bool.eq_false_iff.mpr fun hnvic' => hon ⟨rfl, hnvic'⟩
    exact hnvic.symm.trans hoff

theorem adcAllClosed_nvic : (adcAllClosed t c s).nvicInit = false := by
  show (adcIrqOff false (adcClosed c.inst (adcFreed c.ch s))).nvicInit = false
  unfold adcIrqOff
  split_ifs with hon
  · rfl
  · exact Bool.eq_false_iff.mpr fun hnvic' => hon ⟨rfl, hnvic'⟩

theorem adcAllClosed_cell :
    (adcAllClosed t c s).drv.adcInstance = Function.update s.drv.adcInstance c.inst
      { s.drv.adcInstance c.inst with init := false } := rfl

theorem adcAllClosed_queue (inst : ℕ) :
    ((adcAllClosed t c s).drv.adcInstance inst).queue = (s.drv.adcInstance inst).queue := by
  rw [adcAllClosed_cell]
  by_cases heq : inst = c.inst
  · rw [heq, Function.update_self]
  · rw [Function.update_of_ne heq]

/-- Of the queues only that of the instance goes. -/
theorem adcAllClosed_live {q : ℕ} (hq : (s.drv.adcInstance c.inst).queue = some q) :
    (adcAllClosed t c s).drv.rtos = { s.drv.rtos with live := s.drv.rtos.live.erase q } := by
  show s.drv.rtos.delete (s.drv.adcInstance c.inst).queue = _
  rw [hq]
  rfl

theorem sameAt_allClosed (hbooks : AdcBooks t s) (hup : s.Up c.inst) (hinst : inst ≠ c.inst) :
    SameAt s (adcAllClosed t c s) inst := by
  obtain ⟨q, hq, -⟩ := hup.queue
  have hcell : (adcAllClosed t c s).drv.adcInstance inst = s.drv.adcInstance inst := by
    rw [adcAllClosed_cell, Function.update_of_ne hinst]
  refine ⟨hcell, by rw [adcAllClosed_clk, adcSetClk_of_ne hinst],
    hasQueue_congr (adcAllClosed_queue inst) fun q' hq' => ?_⟩
  -- the two instances have different queues
  have hne : q' ≠ q := fun heq => hinst (hbooks.distinct inst c.inst q' hq' (heq ▸ hq))
  rw [adcAllClosed_live hq]
  exact List.mem_erase_of_ne hne

theorem lifecycle_allClosed (ht : t.adcInstanceMax = 3) (hbooks : AdcBooks t s)
    (h : Lifecycle t s) (hch : s.drv.adcChannel c.ch = true)
    (hlast : ∀ ch < t.adcChannelMax, ch ≠ c.ch → s.drv.adcChannel ch = false) :
    Lifecycle t (adcAllClosed t c s) := by
  have hup : s.Up c.inst := h.up c.inst c.instRange ⟨c.ch, c.range, nofun, hch, rfl⟩
  have hnone (inst : ℕ) : ¬ AdcUses t s (some c.ch) inst := by
    rintro ⟨ch, hrange, hne, hinit, -⟩
    rw [hlast ch hrange fun heq => hne (congrArg some heq)] at hinit
    exact Bool.false_ne_true hinit
  have huses (inst : ℕ) : ¬ AdcUses t (adcAllClosed t c s) none inst := fun hused =>
    hnone inst ((adcUses_freed rfl).mp hused)
  have hdown (inst : ℕ) (hinst : inst < t.adcInstanceMax) :
      (adcAllClosed t c s).Down inst := by
    by_cases heq : inst = c.inst
    · obtain ⟨q, hq, -⟩ := hup.queue
      rw [heq]
      refine ⟨by rw [adcAllClosed_cell, Function.update_self], ?_, ?_⟩
      · rw [adcAllClosed_clk, adcSetClk_self (ht ▸ c.instRange)]
      · rintro ⟨q', hq', hlive⟩
        rw [adcAllClosed_queue, hq] at hq'
        rw [adcAllClosed_live hq, ← Option.some.inj hq'] at hlive
        exact hbooks.nodup.not_mem_erase hlive
    · exact (sameAt_allClosed hbooks hup heq).down
        (h.down inst hinst fun hused => hnone inst ((adcUses_except heq).mpr hused))
  constructor
  · exact fun inst _ hused => absurd hused (huses inst)
  · exact fun inst hinst _ => hdown inst hinst
  · rw [adcAllClosed_irq hbooks]
    refine iff_of_false Bool.false_ne_true ?_
    rintro ⟨inst, hinst, hinit⟩
    rw [(hdown inst hinst).init] at hinit
    exact Bool.false_ne_true hinit

theorem books_freed (hbooks : AdcBooks t s) (pin : ℤ) :
    AdcBooks t { adcFreed c.ch s with drv := (adcFreed c.ch s).drv.setPins [pin] false } := by
  refine ⟨fun ch hch => ?_, hbooks.distinct, hbooks.made, hbooks.live, hbooks.nodup, hbooks.nvic⟩
  have hch' : Function.update s.drv.adcChannel c.ch false ch = true := hch
  by_cases heq : ch = c.ch
  · rw [heq, Function.update_self] at hch'
    exact absurd hch' Bool.false_ne_true
  · rw [Function.update_of_ne heq] at hch'
    exact hbooks.chans ch hch'

theorem books_allClosed (hbooks : AdcBooks t s) (hup : s.Up c.inst) :
    AdcBooks t (adcAllClosed t c s) := by
  obtain ⟨q, hq, -⟩ := hup.queue
  constructor
  · exact (books_freed (c := c) hbooks 0).chans
  · intro i j q' hi hj
    rw [adcAllClosed_queue] at hi hj
    exact hbooks.distinct i j q' hi hj
  · intro i q' hi
    rw [adcAllClosed_queue] at hi
    rw [adcAllClosed_live hq]
    exact hbooks.made i q' hi
  · rw [adcAllClosed_live hq]
    exact fun q' hq' => hbooks.live q' (List.mem_of_mem_erase hq')
  · rw [adcAllClosed_live hq]
    exact hbooks.nodup.erase q
  · rw [adcAllClosed_nvic, adcAllClosed_irq hbooks]

/-! ### Every step -/

/-- One call keeps the lifecycle, and leaves the queues of other instances alone, exactly if it does
not release the last channel of its instance while another instance has one. -/
theorem lifecycle_step_iff (ht : t.adcInstanceMax = 3) (hbooks : AdcBooks t s)
    (h : Lifecycle t s) (call : AdcCall t) :
    Lifecycle t (call.step t s) ∧ LeavesOtherQueues t s call ↔ LastOfAll t s call := by
  cases call with
  | init c created =>
    refine iff_of_true ?_ trivial
    unfold LeavesOtherQueues
    by_cases hup : (s.drv.adcInstance c.inst).init = true
    · rw [step_init_of_up hup]
      exact ⟨lifecycle_taken h hup, fun inst _ _ => ⟨rfl, Iff.rfl⟩⟩
    · have hdown : (s.drv.adcInstance c.inst).init = false := Bool.eq_false_iff.mpr hup
      cases created with
      | false =>
        rw [step_init_of_not_created hdown]
        exact ⟨h, fun inst _ _ => ⟨rfl, Iff.rfl⟩⟩
      | true =>
        rw [step_init_of_created hdown]
        refine ⟨lifecycle_opened ht hbooks h, fun inst _ hne => ?_⟩
        have hsame := sameAt_opened hbooks hne
        exact ⟨congrArg AdcInstance.queue hsame.cell, hsame.queue⟩
  | deInit c =>
    unfold LeavesOtherQueues
    by_cases hch : s.drv.adcChannel c.ch = true
    · by_cases hleft : ∃ ch < t.adcChannelMax, ch ≠ c.ch ∧ s.drv.adcChannel ch = true
      · rw [step_deInit_of_used hbooks h hch hleft, lifecycle_freed_iff h hch]
        constructor
        · intro hown _ hlast
          exact absurd hown.1 hlast
        · intro hcond
          refine ⟨by_contra fun hlast => ?_, fun inst _ _ => ⟨rfl, Iff.rfl⟩⟩
          obtain ⟨ch, hrange, hne, hinit⟩ := hleft
          rw [hcond hch hlast ch hrange hne] at hinit
          exact Bool.false_ne_true hinit
      · have hlast : ∀ ch < t.adcChannelMax, ch ≠ c.ch → s.drv.adcChannel ch = false :=
          fun ch hrange hne => Bool.eq_false_iff.mpr fun hinit => hleft ⟨ch, hrange, hne, hinit⟩
        have hup : s.Up c.inst := h.up c.inst c.instRange ⟨c.ch, c.range, nofun, hch, rfl⟩
        have hstep : (AdcCall.deInit c).step t s = adcAllClosed t c s := step_deInit_of_last h hch hlast
        rw [hstep]
        refine iff_of_true ⟨lifecycle_allClosed ht hbooks h hch hlast, fun inst _ hne => ?_⟩
          fun _ _ => hlast
        have hsame := sameAt_allClosed hbooks hup hne
        exact ⟨congrArg AdcInstance.queue hsame.cell, hsame.queue⟩
    · have hfree : s.drv.adcChannel c.ch = false := Bool.eq_false_iff.mpr hch
      rw [step_deInit_of_free hfree]
      exact iff_of_true ⟨h, fun inst _ _ => ⟨rfl, Iff.rfl⟩⟩ fun hinit => absurd hinit hch

theorem books_step (hbooks : AdcBooks t s) (h : Lifecycle t s) (call : AdcCall t) :
    AdcBooks t (call.step t s) := by
  cases call with
  | init c created =>
    by_cases hup : (s.drv.adcInstance c.inst).init = true
    · rw [step_init_of_up hup]
      exact books_taken hbooks
    · have hdown : (s.drv.adcInstance c.inst).init = false := Bool.eq_false_iff.mpr hup
      cases created with
      | false =>
        rw [step_init_of_not_created hdown]
        exact hbooks
      | true =>
        rw [step_init_of_created hdown]
        exact books_opened hbooks
  | deInit c =>
    by_cases hch : s.drv.adcChannel c.ch = true
    · by_cases hleft : ∃ ch < t.adcChannelMax, ch ≠ c.ch ∧ s.drv.adcChannel ch = true
      · rw [step_deInit_of_used hbooks h hch hleft]
        exact books_freed hbooks _
      · have hlast : ∀ ch < t.adcChannelMax, ch ≠ c.ch → s.drv.adcChannel ch = false :=
          fun ch hrange hne => Bool.eq_false_iff.mpr fun hinit => hleft ⟨ch, hrange, hne, hinit⟩
        have hup : s.Up c.inst := h.up c.inst c.instRange ⟨c.ch, c.range, nofun, hch, rfl⟩
        rw [step_deInit_of_last h hch hlast]
        exact books_allClosed hbooks hup
    · rw [step_deInit_of_free (Bool.eq_false_iff.mpr hch)]
      exact hbooks

end Steps

/-! ## Runs from reset -/

theorem books_reset (t : PinTables) : AdcBooks t .reset :=
  ⟨nofun, nofun, nofun, nofun, List.nodup_nil, rfl⟩

theorem lifecycle_reset (t : PinTables) : Lifecycle t .reset := by
  constructor
  · rintro inst - ⟨ch, -, -, hinit, -⟩
    exact absurd hinit Bool.false_ne_true
  · exact fun inst _ _ => ⟨rfl, rfl, fun h => absurd h.choose_spec.1 nofun⟩
  · refine iff_of_false Bool.false_ne_true ?_
    rintro ⟨inst, -, hinit⟩
    exact Bool.false_ne_true hinit

/-- In a run from reset the instances and the interrupt follow the channels, and no call touches the
queue of another instance, exactly if no call releases the last channel of its instance while
another instance has one. -/
theorem always_lifecycle_iff (t : PinTables) (ht : t.adcInstanceMax = 3)
    (calls : List (AdcCall t)) :
    Always (AdcCall.step t) (Lifecycle t) .reset calls ∧
        AllSteps (AdcCall.step t) (LeavesOtherQueues t) .reset calls ↔
      AllSteps (AdcCall.step t) (LastOfAll t) .reset calls := by
  refine always_and_allSteps_iff (J := AdcBooks t) ?_ ?_ (books_reset t) (lifecycle_reset t) calls
  · intro s call hbooks h _
    exact books_step hbooks h call
  · intro s call hbooks h
    exact lifecycle_step_iff ht hbooks h call

/-- The channels 0 (A0, ADC1) and 6 (A6, ADC2) of an STM32F207. -/
def stm32f207Adc0 : AdcChannel stm32f207Tables := ⟨0, by decide, by decide, by decide⟩

def stm32f207Adc6 : AdcChannel stm32f207Tables := ⟨6, by decide, by decide, by decide⟩

/-- One channel is taken and released, then another. -/
theorem always_lifecycle_one_at_a_time :
    Always (AdcCall.step stm32f207Tables) (Lifecycle stm32f207Tables) .reset
        [.init stm32f207Adc0 true, .deInit stm32f207Adc0, .init stm32f207Adc6 true] ∧
      AllSteps (AdcCall.step stm32f207Tables) (LeavesOtherQueues stm32f207Tables) .reset
        [.init stm32f207Adc0 true, .deInit stm32f207Adc0, .init stm32f207Adc6 true] :=
  (always_lifecycle_iff stm32f207Tables rfl _).mpr ⟨trivial, fun _ _ => by decide, trivial, trivial⟩

/-- Channel 0 is released while channel 6 is initialised: ADC1 stays up without a channel. -/
theorem not_lifecycle_two_instances :
    ¬ Always (AdcCall.step stm32f207Tables) (Lifecycle stm32f207Tables) .reset
      [.init stm32f207Adc0 true, .init stm32f207Adc6 true, .deInit stm32f207Adc0] := by
  intro h
  have hdown := (h.last.down 0 (by decide) (by decide)).init
  exact absurd hdown (by decide)

end WLink.Driver
