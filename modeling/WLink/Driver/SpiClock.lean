import WLink.Driver.SpiTransfer

/-!
# The clock of the SPI masters

`SPI_Master_Init` and `SPI_Change_Frequency` divide the clock of the peripheral by a power of two
for a requested rate, each with its own loop. Both select the smallest divisor whose clock does not
exceed the rate, and the largest one there is if none does (`spiPrescaler_selected`).
-/

namespace WLink.Driver

/-! ## The selection -/

/-- The divisors of `Spi_Master_Baudrate_Prescaler_Table`. -/
def spiMasterBaudratePrescalerTable : List ℕ := [2, 4, 8, 16, 32, 64, 128, 256]

def spiLastIndex : ℕ := spiMasterBaudratePrescalerTable.length - 1

/-- An `int` that is compared with a `uint32_t`. -/
def intAsUint32 (x : ℤ) : ℕ := (x % 2 ^ 32).toNat

/-- `while ((spi_hz > clock_rate_hz) && (prescaler_rank < last_index))`, with a bound on its
rounds. -/
def prescalerLoop (clockRateHz : ℕ) : ℕ → ℤ → ℕ → ℕ
  | 0, _, prescalerRank => prescalerRank
  | fuel + 1, spiHz, prescalerRank =>
    if clockRateHz < intAsUint32 spiHz ∧ prescalerRank < spiLastIndex then
      prescalerLoop clockRateHz fuel (spiHz.tdiv 2) (prescalerRank + 1)
    else prescalerRank

/-- The rank that the loop ends with; `clockFreq` is what `SPI_Master_Get_Clock_Freq` returns. -/
def prescalerRank (clockFreq : ℤ) (clockRateHz : ℕ) : ℕ :=
  prescalerLoop clockRateHz (spiLastIndex + 1) (clockFreq.tdiv 2) 0

/-- The divisor that is written into the handle. -/
def spiPrescaler (clockFreq : ℤ) (clockRateHz : ℕ) : ℕ :=
  spiMasterBaudratePrescalerTable.getD (prescalerRank clockFreq clockRateHz) 0

/-! ## The functions -/

/-- The driver, and the divisors in its handles `g_spi`; `none` is one never assigned. -/
structure SpiClockState where
  periph : PeriphState
  prescaler : ℕ → Option ℕ

/-- `SPI_Master_Init` comes to `HAL_SPI_Init`. -/
def SpiInitReachesHal (t : PinTables) (env : PeriphEnv) (index opMode : ℕ) (s : PeriphState) :
    Prop :=
  spiChecks t index opMode s = none ∧ env.create 0 = true ∧ env.create 1 = true

instance (t : PinTables) (env : PeriphEnv) (index opMode : ℕ) (s : PeriphState) :
    Decidable (SpiInitReachesHal t env index opMode s) := inferInstanceAs (Decidable (_ ∧ _))

namespace SpiClockState

/-- `SPI_Master_Init` with the rate. -/
def masterInit (t : PinTables) (env : PeriphEnv) (clockFreq : ℤ) (index clockRateHz opMode : ℕ)
    (s : SpiClockState) : PeriphOpResult × SpiClockState :=
  ((spiMasterInit t env index opMode s.periph).1,
    { periph := (spiMasterInit t env index opMode s.periph).2
      prescaler :=
        if SpiInitReachesHal t env index opMode s.periph then
          Function.update s.prescaler index (some (spiPrescaler clockFreq clockRateHz))
        else s.prescaler })

/-- `SPI_Change_Frequency`: the result of `HAL_SPI_Init` is not looked at. -/
def changeFrequency (t : PinTables) (lockOk : Bool) (clockFreq : ℤ) (index clockRateHz : ℕ)
    (s : SpiClockState) : SpiOpResult × SpiClockState :=
  if t.spiMax ≤ index then (.invalidParameter, s)
  else if (s.periph.spi index).init = false then (.notInit, s)
  else if t.spiBase index = false then (.invalidParameter, s)
  else if lockOk = false then (.mutexTimeout, s)
  else
    (.ok,
      { s with
        prescaler :=
          Function.update s.prescaler index (some (spiPrescaler clockFreq clockRateHz)) })

end SpiClockState

/-! ## What the loop finds -/

/-- The least `k` from 0 to 7 with a clock that is not above the rate, as a divisor, or 256. -/
def BestPrescaler (f r p : ℕ) : Prop :=
  (∃ k ≤ 7, p = 2 ^ (k + 1) ∧ f / 2 ^ (k + 1) ≤ r ∧ ∀ j < k, r < f / 2 ^ (j + 1)) ∨
    ((∀ k ≤ 7, r < f / 2 ^ (k + 1)) ∧ p = 256)

theorem halve_div (f k : ℕ) : f / 2 ^ k / 2 = f / 2 ^ (k + 1) := by
  rw [Nat.div_div_eq_div_mul, pow_succ]

theorem intAsUint32_natCast {n : ℕ} (h : n < 2 ^ 32) : intAsUint32 n = n := by
  unfold intAsUint32
  omega

/-- From the rank `k` on, all clocks before which are above the rate, the loop ends at the least
rank whose clock is not, or at the last one. -/
theorem prescalerLoop_spec {f r : ℕ} (hf : f < 2 ^ 31) (fuel k : ℕ) (hfuel : 7 < k + fuel)
    (hk : k ≤ 7) (hbefore : ∀ j < k, r < f / 2 ^ (j + 1)) :
    ∃ n ≤ 7, prescalerLoop r fuel ((f / 2 ^ (k + 1) : ℕ) : ℤ) k = n ∧
      (f / 2 ^ (n + 1) ≤ r ∨ n = 7) ∧ ∀ j < n, r < f / 2 ^ (j + 1) := by
  -- the fuel is enough because each round takes a rank, of which there are eight
  induction fuel generalizing k with
  | zero => omega
  | succ fuel ih =>
    have hsmall : f / 2 ^ (k + 1) < 2 ^ 32 := by
      have := Nat.div_le_self f (2 ^ (k + 1))
      omega
    unfold prescalerLoop
    rw [intAsUint32_natCast hsmall]
    split_ifs with hgo
    · obtain ⟨habove, hrank⟩ := hgo
      have hhalf : (((f / 2 ^ (k + 1) : ℕ) : ℤ)).tdiv 2 = ((f / 2 ^ (k + 1 + 1) : ℕ) : ℤ) := by
        rw [← halve_div f (k + 1)]
        exact (Int.ofNat_tdiv _ 2).symm
      rw [hhalf]
      have hlast : spiLastIndex = 7 := rfl
      refine ih (k + 1) (by omega) (by omega) fun j hj => ?_
      rcases Nat.lt_succ_iff_lt_or_eq.mp hj with hj | rfl
      · exact hbefore j hj
      · exact habove
    · refine ⟨k, hk, rfl, ?_, hbefore⟩
      have hlast : spiLastIndex = 7 := rfl
      omega

theorem getD_prescalerTable {n : ℕ} (h : n ≤ 7) :
    spiMasterBaudratePrescalerTable.getD n 0 = 2 ^ (n + 1) := by
  have hall : ∀ n < 8, spiMasterBaudratePrescalerTable.getD n 0 = 2 ^ (n + 1) := by decide
  exact hall n (by omega)

/-- The selected divisor is the best. -/
theorem bestPrescaler_spiPrescaler {f : ℕ} (hf : f < 2 ^ 31) (r : ℕ) :
    BestPrescaler f r (spiPrescaler f r) := by
  obtain ⟨n, hn, hrank, hend, hbefore⟩ := prescalerLoop_spec (r := r) hf (spiLastIndex + 1) 0
    (by decide) (by decide) (fun j hj => absurd hj (Nat.not_lt_zero j))
  have hloop : prescalerRank f r = n := by
    rw [← hrank]
    unfold prescalerRank
    rw [show ((f : ℤ)).tdiv 2 = ((f / 2 ^ (0 + 1) : ℕ) : ℤ) from (Int.ofNat_tdiv f 2).symm]
  unfold BestPrescaler spiPrescaler
  rw [hloop, getD_prescalerTable hn]
  by_cases hfits : f / 2 ^ (n + 1) ≤ r
  · exact .inl ⟨n, hn, rfl, hfits, hbefore⟩
  · -- the loop has come to the last rank, and its clock is above the rate, too
    have hseven : n = 7 := hend.resolve_left hfits
    subst hseven
    refine .inr ⟨fun k hk => ?_, rfl⟩
    rcases Nat.lt_or_eq_of_le hk with hk | rfl
    · exact hbefore k hk
    · exact Nat.not_le.mp hfits

/-- A best divisor keeps the clock within the rate, unless not even the largest does. -/
theorem BestPrescaler.clock {f r p : ℕ} (h : BestPrescaler f r p) :
    f / p ≤ r ∨ (p = 256 ∧ r < f / 256) := by
  rcases h with ⟨k, -, rfl, hle, -⟩ | ⟨hall, rfl⟩
  · exact .inl hle
  · exact .inr ⟨rfl, hall 7 (le_refl 7)⟩

/-- There is one best divisor. -/
theorem BestPrescaler.unique {f r p q : ℕ} (hp : BestPrescaler f r p)
    (hq : BestPrescaler f r q) : p = q := by
  rcases hp with ⟨k, hk, rfl, hle, hbefore⟩ | ⟨hall, rfl⟩
  · rcases hq with ⟨j, hj, rfl, hle', hbefore'⟩ | ⟨hall, -⟩
    · rcases Nat.lt_trichotomy k j with h | rfl | h
      · exact absurd hle (Nat.not_le.mpr (hbefore' k h))
      · rfl
      · exact absurd hle' (Nat.not_le.mpr (hbefore j h))
    · exact absurd hle (Nat.not_le.mpr (hall k hk))
  · rcases hq with ⟨j, hj, -, hle', -⟩ | ⟨-, rfl⟩
    · exact absurd hle' (Nat.not_le.mpr (hall j hj))
    · rfl

/-- `SPI_Master_Init` of a free port that says OK, or that the HAL refuses, has come to
`HAL_SPI_Init`. -/
theorem spiInitReachesHal_of_result {t : PinTables} {env : PeriphEnv} {index opMode : ℕ}
    {s : PeriphState} (hfree : (s.spi index).init = false)
    (h : (spiMasterInit t env index opMode s).1 = .ok ∨
      (spiMasterInit t env index opMode s).1 = .hwError) :
    SpiInitReachesHal t env index opMode s := by
  have hchecks : spiChecks t index opMode s = none := by
    cases hc : spiChecks t index opMode s with
    | none => rfl
    | some r =>
      have hinvalid : r = .invalidParameter := by
        unfold spiChecks at hc
        rw [hfree, if_neg Bool.false_ne_true] at hc
        split_ifs at hc <;> exact (Option.some.inj hc).symm
      unfold spiMasterInit at h
      rw [hc, hinvalid] at h
      exact h.elim PeriphOpResult.noConfusion PeriphOpResult.noConfusion
  -- without one of the two semaphores it would have said that there is no memory
  refine ⟨hchecks, ?_, ?_⟩
  · by_contra h0
    simp [spiMasterInit, hchecks, syncObjCreate, Rtos.create, h0] at h
  · by_contra h1
    by_cases h0 : env.create 0 = true
    · simp [spiMasterInit, hchecks, syncObjCreate, Rtos.create, h0, h1] at h
    · simp [spiMasterInit, hchecks, syncObjCreate, Rtos.create, h0] at h

/-- For a clock of less than 2^31 Hz, `SPI_Master_Init` and `SPI_Change_Frequency` both write the
best divisor into the handle: the clock is not above the requested rate, unless not even the
largest divisor brings it there. -/
theorem spiPrescaler_selected (t : PinTables) (env : PeriphEnv) (lockOk : Bool)
    (f index clockRateHz opMode : ℕ) (s : SpiClockState) (hf : f < 2 ^ 31) :
    ∃ p, BestPrescaler f clockRateHz p ∧
      (f / p ≤ clockRateHz ∨ (p = 256 ∧ clockRateHz < f / 256)) ∧
      ((s.periph.spi index).init = false →
        ((s.masterInit t env f index clockRateHz opMode).1 = .ok ∨
          (s.masterInit t env f index clockRateHz opMode).1 = .hwError) →
        (s.masterInit t env f index clockRateHz opMode).2.prescaler index = some p) ∧
      ((s.changeFrequency t lockOk f index clockRateHz).1 = .ok →
        (s.changeFrequency t lockOk f index clockRateHz).2.prescaler index = some p) := by
  have hbest := bestPrescaler_spiPrescaler hf clockRateHz
  -- both functions have the same loop
  refine ⟨_, hbest, hbest.clock, fun hfree hresult => ?_, fun hok => ?_⟩
  · have hreach := spiInitReachesHal_of_result hfree hresult
    unfold SpiClockState.masterInit
    dsimp only
    rw [if_pos hreach, Function.update_self]
  · unfold SpiClockState.changeFrequency at hok ⊢
    split_ifs at hok ⊢
    exact Function.update_self ..

/-- A driver with all ports initialised and no divisor chosen. -/
def SpiClockState.opened : SpiClockState where
  periph := { PeriphState.reset with spi := fun _ => ⟨true, false, none, none, none⟩ }
  prescaler := fun _ => none

/-- A clock of 60 MHz and a rate of 1 MHz. -/
theorem spiPrescaler_selected_60MHz :
    ∃ p, BestPrescaler 60000000 1000000 p ∧
      (60000000 / p ≤ 1000000 ∨ (p = 256 ∧ 1000000 < 60000000 / 256)) ∧
      ((SpiClockState.opened.periph.spi 0).init = false →
        ((SpiClockState.opened.masterInit stm32f207Tables .allOk (60000000 : ℕ) 0 1000000 0).1 =
            .ok ∨
          (SpiClockState.opened.masterInit stm32f207Tables .allOk (60000000 : ℕ) 0 1000000 0).1 =
            .hwError) →
        (SpiClockState.opened.masterInit stm32f207Tables .allOk
          (60000000 : ℕ) 0 1000000 0).2.prescaler 0 = some p) ∧
      ((SpiClockState.opened.changeFrequency stm32f207Tables true (60000000 : ℕ) 0 1000000).1 =
          .ok →
        (SpiClockState.opened.changeFrequency stm32f207Tables true
          (60000000 : ℕ) 0 1000000).2.prescaler 0 = some p) :=
  spiPrescaler_selected stm32f207Tables .allOk true 60000000 0 1000000 0 .opened (by decide)

/-- The divisor for that is 64: with 32 the clock would be 1.875 MHz. -/
example : spiPrescaler 60000000 1000000 = 64 := by decide

end WLink.Driver
