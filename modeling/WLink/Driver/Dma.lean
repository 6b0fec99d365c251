import WLink.Driver.Peripherals
import WLink.Lib.Run

/-!
# The streams of the DMA controllers

`DMA_Stream_Init` and `DMA_Stream_DeInit`, and `SPI_Master_Init` and `SPI_Master_DeInit` with the
two streams that each port takes and releases. `StreamsKept` says that the flag of a stream tells
whether its interrupt is enabled and its handle has not been de-initialised. It holds along a run
exactly if no stream that is initialised is ever released (`always_streamsKept_iff`):
`DMA_Stream_DeInit` does not clear the flag, so the stream cannot be taken again, either.
-/

namespace WLink.Driver

open Lib

/-! ## The driver -/

/-- What has become of a `DMA_HandleTypeDef`. -/
inductive DmaHandle
  /-- no function of the HAL has seen it -/
  | fresh
  /-- `HAL_DMA_Init` was the last -/
  | ready
  /-- `HAL_DMA_DeInit` was the last -/
  | deInit
deriving DecidableEq, Repr

/-- The DMA driver with the interrupts of the streams. -/
structure DmaState where
  /-- `DMA_Stream_Init_Status` -/
  init : ℕ → Bool
  /-- the interrupt of the stream is enabled in the NVIC -/
  irq : ℕ → Bool
  /-- `g_dma` -/
  handle : ℕ → DmaHandle
  /-- the clocks of DMA1, DMA2 and BDMA -/
  clk : ℕ → Bool

def DmaState.reset : DmaState := ⟨fun _ => false, fun _ => false, fun _ => .fresh, fun _ => false⟩

/-- What `DMA_Stream_Init` and `DMA_Stream_DeInit` return. -/
inductive DmaOpResult
  | ok
  | invalidParameter
deriving DecidableEq, Repr

/-- `hwDMA_Stream_Index_MAX`: eight streams for each of DMA1, DMA2 and, if the chip has one, BDMA. -/
def dmaStreamMax (bdma : Bool) : ℕ := if bdma then 24 else 16

/-- `DMA_Stream_Init`: the clock of the controller and the interrupt of the stream. -/
def dmaStreamInit (bdma : Bool) (stream : ℕ) (s : DmaState) : DmaOpResult × DmaState :=
  if dmaStreamMax bdma ≤ stream then (.invalidParameter, s)
  else if s.init stream then (.ok, s)
  else
    (.ok, { s with
      clk := Function.update s.clk (stream / 8) true
      irq := Function.update s.irq stream true
      init := Function.update s.init stream true })

/-- `DMA_Stream_DeInit`. No transfer is under way, so `HAL_DMA_DeInit` does its work. -/
def dmaStreamDeInit (bdma : Bool) (stream : ℕ) (s : DmaState) : DmaOpResult × DmaState :=
  if dmaStreamMax bdma ≤ stream then (.invalidParameter, s)
  else if s.init stream = false then (.ok, s)
  else
    (.ok, { s with
      handle := Function.update s.handle stream .deInit
      irq := Function.update s.irq stream false })

/-- The streams `SPIx_MASTER_TX_DMA_STREAM` and `SPIx_MASTER_RX_DMA_STREAM` of a port. -/
def spiDmaStreams (bdma : Bool) : ℕ → ℕ × ℕ
  | 0 => (0, 1)
  | 1 => (2, 3)
  | 2 => (4, 5)
  | 3 => (6, 7)
  | 4 => (8, 9)
  | 5 => if bdma then (16, 17) else (10, 11)
  | _ => (0, 0)

/-- `SPI_Config_DMA`. `DMA_Map_Soc_Stream_Base` knows the streams of DMA1 and DMA2. -/
def spiConfigDma (t : PinTables) (bdma : Bool) (index channel dir : ℕ) (s : DmaState) :
    DmaOpResult × DmaState :=
  -- `hwDMA_Peripheral_Direction_MAX`
  if t.spiMax ≤ index ∨ dmaStreamMax bdma ≤ channel ∨ 2 ≤ dir then (.invalidParameter, s)
  else if 16 ≤ channel then (.invalidParameter, s)
  else (.ok, { s with handle := Function.update s.handle channel .ready })

/-- The end of `SPI_Master_Init`. It passes the direction and the stream to `SPI_Config_DMA` in each
other's place; `hwDMA_Peripheral_Direction_TX` is 1, `hwDMA_Peripheral_Direction_RX` 0. -/
def spiTakeStreams (t : PinTables) (bdma : Bool) (index : ℕ) (s : DmaState) : DmaState :=
  let (tx, rx) := spiDmaStreams bdma index
  let s := (dmaStreamInit bdma tx s).2
  let s := (dmaStreamInit bdma rx s).2
  let s := (spiConfigDma t bdma index 1 tx s).2
  (spiConfigDma t bdma index 0 rx s).2

def spiReleaseStreams (bdma : Bool) (index : ℕ) (s : DmaState) : DmaState :=
  let (tx, rx) := spiDmaStreams bdma index
  (dmaStreamDeInit bdma rx (dmaStreamDeInit bdma tx s).2).2

/-! ## Runs -/

/-- The drivers with the DMA controllers. -/
structure DmaRun where
  drv : PeriphState
  dma : DmaState

def DmaRun.reset : DmaRun := ⟨.reset, .reset⟩

/-- `SPI_Master_Init` gets to the streams. -/
def SpiInitTakes (t : PinTables) (env : PeriphEnv) (index opMode : ℕ) (s : PeriphState) : Prop :=
  spiChecks t index opMode s = none ∧ (spiMasterInit t env index opMode s).1 = .ok

instance (t : PinTables) (env : PeriphEnv) (index opMode : ℕ) (s : PeriphState) :
    Decidable (SpiInitTakes t env index opMode s) := inferInstanceAs (Decidable (_ ∧ _))

/-- `SPI_Master_DeInit` gets to the streams. -/
def SpiDeInitTakes (t : PinTables) (index : ℕ) (s : PeriphState) : Prop :=
  index < t.spiMax ∧ (s.spi index).init = true ∧
    ∀ pin ∈ spiPins t index (s.spi index).useCs, OnPort pin

instance (t : PinTables) (index : ℕ) (s : PeriphState) : Decidable (SpiDeInitTakes t index s) :=
  inferInstanceAs (Decidable (_ ∧ _))

/-- A call that takes or releases streams. -/
inductive DmaCall
  | init (stream : ℕ)
  | deInit (stream : ℕ)
  | spiInit (index opMode : ℕ) (env : PeriphEnv)
  | spiDeInit (index : ℕ)

/-- The state a call leaves. -/
def DmaCall.step (t : PinTables) (bdma : Bool) (r : DmaRun) : DmaCall → DmaRun
  | .init stream => { r with dma := (dmaStreamInit bdma stream r.dma).2 }
  | .deInit stream => { r with dma := (dmaStreamDeInit bdma stream r.dma).2 }
  | .spiInit index opMode env =>
    { drv := (spiMasterInit t env index opMode r.drv).2
      dma := if SpiInitTakes t env index opMode r.drv then spiTakeStreams t bdma index r.dma
        else r.dma }
  | .spiDeInit index =>
    { drv := (spiMasterDeInit t index r.drv).2
      dma := if SpiDeInitTakes t index r.drv then spiReleaseStreams bdma index r.dma else r.dma }

/-- The flag of a stream says that its interrupt is enabled and its handle not de-initialised. -/
def StreamsKept (bdma : Bool) (r : DmaRun) : Prop :=
  ∀ stream < dmaStreamMax bdma,
    r.dma.init stream = true ↔ r.dma.irq stream = true ∧ r.dma.handle stream ≠ .deInit

/-- The streams for which a call calls `DMA_Stream_DeInit`. -/
def DmaCall.releases (t : PinTables) (bdma : Bool) (r : DmaRun) : DmaCall → List ℕ
  | .init _ => []
  | .deInit stream => [stream]
  | .spiInit .. => []
  | .spiDeInit index =>
    if SpiDeInitTakes t index r.drv then
      [(spiDmaStreams bdma index).1, (spiDmaStreams bdma index).2]
    else []

/-- No stream that the call releases is initialised. -/
def ReleasesNone (t : PinTables) (bdma : Bool) (r : DmaRun) (call : DmaCall) : Prop :=
  ∀ stream ∈ call.releases t bdma r, stream < dmaStreamMax bdma → r.dma.init stream = false

/-! ## One call -/

section Steps

variable {t : PinTables} {bdma : Bool} {s : DmaState} {r : DmaRun} {stream : ℕ}

/-- The books of the driver while nothing is released: the flag is the interrupt, and no handle has
been de-initialised. -/
structure StreamBooks (s : DmaState) : Prop where
  irq : ∀ stream, s.init stream = s.irq stream
  handle : ∀ stream, s.handle stream ≠ .deInit

theorem StreamBooks.kept (h : StreamBooks r.dma) : StreamsKept bdma r := by
  intro stream _
  rw [h.irq]
  exact ⟨fun hirq => ⟨hirq, h.handle stream⟩, fun hboth => hboth.1⟩

theorem dmaStreamInit_books (h : StreamBooks s) (stream : ℕ) :
    StreamBooks (dmaStreamInit bdma stream s).2 := by
  unfold dmaStreamInit
  split_ifs
  · exact h
  · exact h
  · refine ⟨fun i => ?_, h.handle⟩
    show Function.update s.init stream true i = Function.update s.irq stream true i
    by_cases hi : i = stream
    · rw [hi, Function.update_self, Function.update_self]
    · rw [Function.update_of_ne hi, Function.update_of_ne hi]
      exact h.irq i

theorem spiConfigDma_books (h : StreamBooks s) (index channel dir : ℕ) :
    StreamBooks (spiConfigDma t bdma index channel dir s).2 := by
  unfold spiConfigDma
  split_ifs
  · exact h
  · exact h
  · refine ⟨h.irq, fun i => ?_⟩
    show Function.update s.handle channel .ready i ≠ .deInit
    by_cases hi : i = channel
    · rw [hi, Function.update_self]
      exact nofun
    · rw [Function.update_of_ne hi]
      exact h.handle i

theorem spiTakeStreams_books (h : StreamBooks s) (index : ℕ) :
    StreamBooks (spiTakeStreams t bdma index s) :=
  spiConfigDma_books (spiConfigDma_books
    (dmaStreamInit_books (dmaStreamInit_books h _) _) ..) ..

/-- A release of a stream that is not initialised. -/
theorem dmaStreamDeInit_of_free (hfree : stream < dmaStreamMax bdma → s.init stream = false) :
    (dmaStreamDeInit bdma stream s).2 = s := by
  unfold dmaStreamDeInit
  by_cases hrange : dmaStreamMax bdma ≤ stream
  · rw [if_pos hrange]
  · rw [if_neg hrange, if_pos (hfree (Nat.not_le.mp hrange))]

/-- A release of one that is initialised. -/
theorem dmaStreamDeInit_of_init (hrange : stream < dmaStreamMax bdma)
    (hinit : s.init stream = true) :
    (dmaStreamDeInit bdma stream s).2.irq stream = false := by
  unfold dmaStreamDeInit
  rw [if_neg (Nat.not_le.mpr hrange), if_neg (by rw [hinit]; decide)]
  exact Function.update_self ..

/-- No release touches the flags. -/
@[simp] theorem dmaStreamDeInit_flags (bdma : Bool) (stream : ℕ) (s : DmaState) :
    (dmaStreamDeInit bdma stream s).2.init = s.init := by
  unfold dmaStreamDeInit
  split_ifs <;> rfl

/-- An interrupt that is disabled stays so in a release. -/
theorem dmaStreamDeInit_irq_off {i : ℕ} (hoff : s.irq i = false) :
    (dmaStreamDeInit bdma stream s).2.irq i = false := by
  unfold dmaStreamDeInit
  split_ifs
  · exact hoff
  · exact hoff
  · show Function.update s.irq stream false i = false
    by_cases hi : i = stream
    · rw [hi, Function.update_self]
    · rw [Function.update_of_ne hi]
      exact hoff

/-- Release one stream after the other. -/
def releaseStreams (bdma : Bool) (l : List ℕ) (s : DmaState) : DmaState :=
  l.foldl (fun s stream => (dmaStreamDeInit bdma stream s).2) s

theorem releaseStreams_of_free {l : List ℕ}
    (h : ∀ stream ∈ l, stream < dmaStreamMax bdma → s.init stream = false) :
    releaseStreams bdma l s = s := by
  induction l with
  | nil => rfl
  | cons i l ih =>
    have hi := dmaStreamDeInit_of_free (h i List.mem_cons_self)
    unfold releaseStreams at ih ⊢
    rw [List.foldl_cons, hi]
    exact ih fun stream hmem => h stream (List.mem_cons_of_mem i hmem)

theorem releaseStreams_flags (l : List ℕ) : (releaseStreams bdma l s).init = s.init := by
  induction l generalizing s with
  | nil => rfl
  | cons i l ih => exact ih.trans (dmaStreamDeInit_flags bdma i s)

theorem releaseStreams_irq_off {i : ℕ} (l : List ℕ) (hoff : s.irq i = false) :
    (releaseStreams bdma l s).irq i = false := by
  induction l generalizing s with
  | nil => exact hoff
  | cons j l ih => exact ih (dmaStreamDeInit_irq_off hoff)

/-- An initialised stream among them has no interrupt any more. -/
theorem releaseStreams_irq {l : List ℕ} (hmem : stream ∈ l) (hrange : stream < dmaStreamMax bdma)
    (hinit : s.init stream = true) : (releaseStreams bdma l s).irq stream = false := by
  induction l generalizing s with
  | nil => exact absurd hmem List.not_mem_nil
  | cons i l ih =>
    rcases List.mem_cons.mp hmem with rfl | hmem
    · exact releaseStreams_irq_off l (dmaStreamDeInit_of_init hrange hinit)
    · exact ih hmem (by rw [dmaStreamDeInit_flags]; exact hinit)

/-- What a call leaves of the streams: it releases those of `releases` or takes some. -/
theorem step_dma (h : StreamBooks r.dma) (call : DmaCall) :
    (call.step t bdma r).dma = releaseStreams bdma (call.releases t bdma r) r.dma ∨
      (call.releases t bdma r = [] ∧ StreamBooks (call.step t bdma r).dma) := by
  cases call with
  | init stream => exact .inr ⟨rfl, dmaStreamInit_books h stream⟩
  | deInit stream => exact .inl rfl
  | spiInit index opMode env =>
    refine .inr ⟨rfl, ?_⟩
    unfold DmaCall.step
    dsimp only
    split_ifs
    · exact spiTakeStreams_books h index
    · exact h
  | spiDeInit index =>
    refine .inl ?_
    unfold DmaCall.step DmaCall.releases
    dsimp only
    split_ifs <;> rfl

theorem books_of_releasesNone (h : StreamBooks r.dma) {call : DmaCall}
    (hnone : ReleasesNone t bdma r call) : StreamBooks (call.step t bdma r).dma := by
  have hstep : (call.step t bdma r).dma = releaseStreams bdma (call.releases t bdma r) r.dma ∨ _ :=
    step_dma h call
  rcases hstep with hdma | ⟨-, hbooks⟩
  · rw [hdma, releaseStreams_of_free hnone]
    exact h
  · exact hbooks

/-- A call keeps the flags right exactly if it releases no stream that is initialised: the flag of
such a stream would stay. -/
theorem streamsKept_step_iff (h : StreamBooks r.dma) (call : DmaCall) :
    StreamsKept bdma (call.step t bdma r) ↔ ReleasesNone t bdma r call := by
  refine ⟨fun hkept stream hmem hrange => ?_, fun hnone => (books_of_releasesNone h hnone).kept⟩
  have hstep : (call.step t bdma r).dma = releaseStreams bdma (call.releases t bdma r) r.dma ∨ _ :=
    step_dma h call
  rcases hstep with hdma | ⟨hnil, -⟩
  · by_contra hinit
    rw [Bool.not_eq_false] at hinit
    have hflag : (call.step t bdma r).dma.init stream = true := by
      rw [hdma, releaseStreams_flags]
      exact hinit
    have hon := ((hkept stream hrange).mp hflag).1
    rw [hdma, releaseStreams_irq hmem hrange hinit] at hon
    exact Bool.false_ne_true hon
  · rw [hnil] at hmem
    exact absurd hmem List.not_mem_nil

end Steps

/-! ## Runs from reset -/

theorem streamBooks_reset : StreamBooks DmaRun.reset.dma := ⟨fun _ => rfl, fun _ => nofun⟩

/-- In a run from reset the flags of the streams are right exactly if no call releases a stream that
is initialised. -/
theorem always_streamsKept_iff (t : PinTables) (bdma : Bool) (calls : List DmaCall) :
    Always (DmaCall.step t bdma) (StreamsKept bdma) .reset calls ↔
      AllSteps (DmaCall.step t bdma) (ReleasesNone t bdma) .reset calls := by
  refine always_iff_allSteps (J := fun r : DmaRun => StreamBooks r.dma) ?_ ?_ streamBooks_reset
    streamBooks_reset.kept calls
  · intro r call h _ hnone
    exact books_of_releasesNone h hnone
  · intro r call h _
    exact streamsKept_step_iff h call

/-- Stream 0 is taken, released and taken again: it has its flag and no interrupt. -/
theorem not_streamsKept_again :
    ¬ Always (DmaCall.step stm32f207Tables false) (StreamsKept false) .reset
      [.init 0, .deInit 0, .init 0] := by
  intro h
  have hstream := (h.last 0 (by decide)).mp (by decide)
  exact absurd hstream.1 (by decide)

end WLink.Driver
