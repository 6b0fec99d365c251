import WLink.Driver.SpiClock

/-!
# Alternate functions of the SPI and I2C pins

Each of the UART, SPI and I2C drivers has a map from its instances and their pins to alternate
functions, and a function that looks a pin up. `SPI_Master_Init` and `I2C_Master_Init` look their
pins up in the map of the UART driver. They do what the map of their own peripheral says exactly
if the two maps happen to agree on the pins (`afRight_iff`).
-/

namespace WLink.Driver

/-! ## The maps -/

/-- `UART_AF_Map`, `SPI_AF_Map` and `I2C_AF_Map` -/
structure AfEntry where
  index : ℕ
  pin : ℤ
  af : ℕ
deriving DecidableEq, Repr

/-- The loop of the three functions `STM32_…_GetAF`. -/
def getAF : List AfEntry → ℕ → ℤ → ℕ
  | [], _, _ => 0
  | e :: map, index, pin => if e.index = index ∧ e.pin = pin then e.af else getAF map index pin

/-- `UART_Pin_AF_Map`, `SPI_Pin_AF_Map` and `I2C_Pin_AF_Map` -/
structure AfMaps where
  uart : List AfEntry
  spi : List AfEntry
  i2c : List AfEntry

/-- `STM32_UART_GetAF` -/
def stm32UartGetAF (m : AfMaps) : ℕ → ℤ → ℕ := getAF m.uart

/-- `STM32_SPI_GetAF`, which no function calls -/
def stm32SpiGetAF (m : AfMaps) : ℕ → ℤ → ℕ := getAF m.spi

/-- `STM32_I2C_GetAF`, which no function calls -/
def stm32I2cGetAF (m : AfMaps) : ℕ → ℤ → ℕ := getAF m.i2c

/-- The tables with the map of the UART driver. -/
def PinTables.withMaps (t : PinTables) (m : AfMaps) : PinTables :=
  { t with uartGetAF := stm32UartGetAF m }

/-- The map has an entry for the pin of the instance. -/
def HasEntry (map : List AfEntry) (index : ℕ) (pin : ℤ) : Prop :=
  ∃ e ∈ map, e.index = index ∧ e.pin = pin

instance (map : List AfEntry) (index : ℕ) (pin : ℤ) : Decidable (HasEntry map index pin) :=
  inferInstanceAs (Decidable (∃ e ∈ map, _))

theorem getAF_cons (e : AfEntry) (map : List AfEntry) (index : ℕ) (pin : ℤ) :
    getAF (e :: map) index pin =
      if e.index = index ∧ e.pin = pin then e.af else getAF map index pin := rfl

theorem getAF_append (map map' : List AfEntry) (index : ℕ) (pin : ℤ) :
    getAF (map ++ map') index pin =
      if HasEntry map index pin then getAF map index pin else getAF map' index pin := by
  induction map with
  | nil => rw [if_neg (by rintro ⟨e, he, -⟩; exact absurd he List.not_mem_nil), List.nil_append]
  | cons e map ih =>
    rw [List.cons_append, getAF_cons, getAF_cons, ih]
    by_cases he : e.index = index ∧ e.pin = pin
    · rw [if_pos he, if_pos he, if_pos ⟨e, List.mem_cons_self, he⟩]
    · have hsame : HasEntry (e :: map) index pin ↔ HasEntry map index pin := by
        unfold HasEntry
        simp [he]
      rw [if_neg he, if_neg he]
      simp only [hsame]

/-! ## The functions -/

/-- The pins that `SPI_Master_Init` hands to `HAL_GPIO_Init`, each with its `Alternate`. -/
def spiMasterInitPins (t : PinTables) (m : AfMaps) (env : PeriphEnv) (index opMode : ℕ)
    (s : PeriphState) : List (ℤ × ℕ) :=
  if SpiInitReachesHal (t.withMaps m) env index opMode s then
    (spiPins t index (spiHasCs t index)).map fun pin => (pin, stm32UartGetAF m index pin)
  else []

/-- The pins that `I2C_Master_Init` hands to `HAL_GPIO_Init`. -/
def i2cMasterInitPins (t : PinTables) (m : AfMaps) (env : PeriphEnv) (index speedMode : ℕ)
    (s : PeriphState) : List (ℤ × ℕ) :=
  if i2cChecks (t.withMaps m) index speedMode s = none ∧ env.create 0 = true then
    (i2cPins t index).map fun pin => (pin, stm32UartGetAF m index pin)
  else []

/-- A call that initialises a master. -/
inductive AfCall
  | spi (index opMode : ℕ)
  | i2c (index speedMode : ℕ)
deriving DecidableEq, Repr

namespace AfCall

/-- The result of the call and the pins that it programs, if the RTOS and the HAL do what they are
asked for. -/
def run (t : PinTables) (m : AfMaps) (s : PeriphState) : AfCall → PeriphOpResult × List (ℤ × ℕ)
  | spi index opMode =>
    ((spiMasterInit (t.withMaps m) .allOk index opMode s).1,
      spiMasterInitPins t m .allOk index opMode s)
  | i2c index speedMode =>
    ((i2cMasterInit (t.withMaps m) .allOk index speedMode s).1,
      i2cMasterInitPins t m .allOk index speedMode s)

def index : AfCall → ℕ
  | spi index _ => index
  | i2c index _ => index

/-- The pins of the instance. -/
def pins (t : PinTables) : AfCall → List ℤ
  | spi index _ => spiPins t index (spiHasCs t index)
  | i2c index _ => i2cPins t index

/-- The map of the peripheral that is initialised. -/
def ownMap (m : AfMaps) : AfCall → List AfEntry
  | spi _ _ => m.spi
  | i2c _ _ => m.i2c

/-- The arguments are valid and the instance is not initialised yet. -/
def Callable (t : PinTables) (s : PeriphState) : AfCall → Prop
  | spi index opMode => index < t.spiMax ∧ opMode < 4 ∧ (s.spi index).init = false
  | i2c index speedMode =>
    index < t.i2cMax ∧ speedMode < 3 ∧ ¬ (t.i2cLegacyArch = true ∧ speedMode = 2) ∧
      (s.i2c index).init = false

instance (t : PinTables) (s : PeriphState) (c : AfCall) : Decidable (c.Callable t s) :=
  match c with
  | spi _ _ => inferInstanceAs (Decidable (_ ∧ _ ∧ _))
  | i2c _ _ => inferInstanceAs (Decidable (_ ∧ _ ∧ _ ∧ _))

/-- The instance has registers. -/
def hasBase (t : PinTables) : AfCall → Bool
  | spi index _ => t.spiBase index
  | i2c index _ => t.i2cBase index

/-- All pins of the instance are on ports, and it has registers. -/
def Wired (t : PinTables) (c : AfCall) : Prop :=
  (∀ pin ∈ c.pins t, OnPort pin) ∧ c.hasBase t = true

instance (t : PinTables) (c : AfCall) : Decidable (c.Wired t) :=
  inferInstanceAs (Decidable (_ ∧ _))

/-- The pins that are programmed when the call succeeds: all those of the instance, with what the
map of the UART driver says. -/
def programs (t : PinTables) (m : AfMaps) (c : AfCall) : List (ℤ × ℕ) :=
  (c.pins t).map fun pin => (pin, getAF m.uart c.index pin)

/-- The checks of the pins and of the registers, which both functions make. -/
theorem pinChecks_eq {pins : List ℤ} {af : ℤ → ℕ} {base : Bool} {r : Option PeriphOpResult}
    (h : (if ¬ ∀ pin ∈ pins, OnPort pin then some .invalidParameter
      else if ∃ pin ∈ pins, af pin = 0 then some .invalidParameter
      else if base = false then some .invalidParameter else none) = r) :
    (r = none ↔ ((∀ pin ∈ pins, OnPort pin) ∧ base = true) ∧ ∀ pin ∈ pins, af pin ≠ 0) ∧
      ∀ e, r = some e → e = .invalidParameter := by
  rw [← h]
  by_cases hport : ∀ pin ∈ pins, OnPort pin
  swap
  · rw [if_pos hport]
    exact ⟨iff_of_false nofun fun h => hport h.1.1, fun e he => (Option.some.inj he).symm⟩
  rw [if_neg (not_not.mpr hport)]
  by_cases haf : ∃ pin ∈ pins, af pin = 0
  · rw [if_pos haf]
    obtain ⟨pin, hpin, hzero⟩ := haf
    exact ⟨iff_of_false nofun fun h => h.2 pin hpin hzero, fun e he => (Option.some.inj he).symm⟩
  rw [if_neg haf]
  cases base with
  | false =>
    rw [if_pos rfl]
    exact ⟨iff_of_false nofun fun h => Bool.false_ne_true h.1.2,
      fun e he => (Option.some.inj he).symm⟩
  | true =>
    rw [if_neg Bool.noConfusion]
    exact ⟨iff_of_true rfl ⟨⟨hport, rfl⟩, fun pin hpin hzero => haf ⟨pin, hpin, hzero⟩⟩, nofun⟩

section Run

variable {t : PinTables} {m : AfMaps} {s : PeriphState}

/-- The checks of a call of `SPI_Master_Init` whose arguments are valid. -/
theorem spiChecks_callable {index opMode : ℕ} (h : (spi index opMode).Callable t s) :
    (spiChecks (t.withMaps m) index opMode s = none ↔ (spi index opMode).Wired t ∧
      ∀ pin ∈ (spi index opMode).pins t, getAF m.uart index pin ≠ 0) ∧
    ∀ e, spiChecks (t.withMaps m) index opMode s = some e → e = .invalidParameter := by
  obtain ⟨hindex, hmode, hfree⟩ := h
  unfold spiChecks
  rw [if_neg (Nat.not_le.mpr hmode),
    if_neg (Nat.not_le.mpr (show index < (t.withMaps m).spiMax from hindex)),
    if_neg (by rw [hfree]; exact Bool.false_ne_true)]
  exact pinChecks_eq rfl

/-- The checks of a call of `I2C_Master_Init` whose arguments are valid. -/
theorem i2cChecks_callable {index speedMode : ℕ} (h : (i2c index speedMode).Callable t s) :
    (i2cChecks (t.withMaps m) index speedMode s = none ↔ (i2c index speedMode).Wired t ∧
      ∀ pin ∈ (i2c index speedMode).pins t, getAF m.uart index pin ≠ 0) ∧
    ∀ e, i2cChecks (t.withMaps m) index speedMode s = some e → e = .invalidParameter := by
  obtain ⟨hindex, hmode, harch, hfree⟩ := h
  unfold i2cChecks
  rw [if_neg (Nat.not_le.mpr (show index < (t.withMaps m).i2cMax from hindex)),
    if_neg (by rw [hfree]; exact Bool.false_ne_true), if_neg (Nat.not_le.mpr hmode),
    if_neg (show ¬ ((t.withMaps m).i2cLegacyArch = true ∧ _) from harch)]
  exact pinChecks_eq rfl

/-- `SPI_Master_Init` succeeds exactly if its checks pass. -/
theorem run_spi {index opMode : ℕ} (h : (spi index opMode).Callable t s) :
    (((spi index opMode).run t m s).1 = .ok ↔
        spiChecks (t.withMaps m) index opMode s = none) ∧
      (((spi index opMode).run t m s).1 = .ok →
        ((spi index opMode).run t m s).2 = (spi index opMode).programs t m) := by
  have hinvalid := (@spiChecks_callable t m s index opMode h).2
  show ((spiMasterInit (t.withMaps m) .allOk index opMode s).1 = .ok ↔ _) ∧
    ((spiMasterInit (t.withMaps m) .allOk index opMode s).1 = .ok →
      spiMasterInitPins t m .allOk index opMode s = _)
  cases hc : spiChecks (t.withMaps m) index opMode s with
  | none =>
    refine ⟨iff_of_true ?_ rfl, fun _ => if_pos ⟨hc, rfl, rfl⟩⟩
    simp [spiMasterInit, hc, syncObjCreate, lockObjCreate, Rtos.create, PeriphEnv.allOk]
  | some e =>
    have hne : (spiMasterInit (t.withMaps m) .allOk index opMode s).1 ≠ .ok := by
      unfold spiMasterInit
      rw [hc, hinvalid e hc]
      exact PeriphOpResult.noConfusion
    exact ⟨iff_of_false hne (Option.some_ne_none e), fun hok => absurd hok hne⟩

/-- `I2C_Master_Init` succeeds exactly if its checks pass. -/
theorem run_i2c {index speedMode : ℕ} (h : (i2c index speedMode).Callable t s) :
    (((i2c index speedMode).run t m s).1 = .ok ↔
        i2cChecks (t.withMaps m) index speedMode s = none) ∧
      (((i2c index speedMode).run t m s).1 = .ok →
        ((i2c index speedMode).run t m s).2 = (i2c index speedMode).programs t m) := by
  have hinvalid := (@i2cChecks_callable t m s index speedMode h).2
  show ((i2cMasterInit (t.withMaps m) .allOk index speedMode s).1 = .ok ↔ _) ∧
    ((i2cMasterInit (t.withMaps m) .allOk index speedMode s).1 = .ok →
      i2cMasterInitPins t m .allOk index speedMode s = _)
  cases hc : i2cChecks (t.withMaps m) index speedMode s with
  | none =>
    refine ⟨iff_of_true ?_ rfl, fun _ => if_pos ⟨hc, rfl⟩⟩
    simp [i2cMasterInit, hc, syncObjCreate, Rtos.create, PeriphEnv.allOk]
  | some e =>
    have hne : (i2cMasterInit (t.withMaps m) .allOk index speedMode s).1 ≠ .ok := by
      unfold i2cMasterInit
      rw [hc, hinvalid e hc]
      exact PeriphOpResult.noConfusion
    exact ⟨iff_of_false hne (Option.some_ne_none e), fun hok => absurd hok hne⟩

/-- A call succeeds exactly if its instance is wired and the map of the UART driver has a function
for each pin. -/
theorem run_ok_iff {c : AfCall} (h : c.Callable t s) :
    (c.run t m s).1 = .ok ↔ c.Wired t ∧ ∀ pin ∈ c.pins t, getAF m.uart c.index pin ≠ 0 := by
  cases c with
  | spi index opMode =>
    rw [(run_spi h).1]
    exact (spiChecks_callable h).1
  | i2c index speedMode =>
    rw [(run_i2c h).1]
    exact (i2cChecks_callable h).1

theorem run_programs {c : AfCall} (h : c.Callable t s) (hok : (c.run t m s).1 = .ok) :
    (c.run t m s).2 = c.programs t m := by
  cases c with
  | spi index opMode => exact (run_spi h).2 hok
  | i2c index speedMode => exact (run_i2c h).2 hok

end Run

end AfCall

/-! ## Own functions -/

/-- The call succeeds exactly if the map of its own peripheral has an entry for each pin of the
instance, and programs the pins with what that map says. -/
def AfRight (t : PinTables) (m : AfMaps) (s : PeriphState) (c : AfCall) : Prop :=
  ((c.run t m s).1 = .ok ↔ ∀ pin ∈ c.pins t, HasEntry (c.ownMap m) c.index pin) ∧
    ((c.run t m s).1 = .ok →
      (c.run t m s).2 = (c.pins t).map fun pin => (pin, getAF (c.ownMap m) c.index pin))

/-- If the own map has an entry for each pin, the instance is wired and the map of the UART driver
says the same of each pin, and something; if it has not, the instance is not wired or the map of
the UART driver has no function for some pin either. -/
def AfAgree (t : PinTables) (m : AfMaps) (c : AfCall) : Prop :=
  if ∀ pin ∈ c.pins t, HasEntry (c.ownMap m) c.index pin then
    c.Wired t ∧ ∀ pin ∈ c.pins t, getAF m.uart c.index pin ≠ 0 ∧
      getAF m.uart c.index pin = getAF (c.ownMap m) c.index pin
  else ¬ (c.Wired t ∧ ∀ pin ∈ c.pins t, getAF m.uart c.index pin ≠ 0)

/-- `SPI_Master_Init` and `I2C_Master_Init` do what the maps of their peripherals say exactly if
the map of the UART driver happens to say the same. -/
theorem afRight_iff (t : PinTables) (m : AfMaps) (s : PeriphState) (c : AfCall)
    (h : c.Callable t s) : AfRight t m s c ↔ AfAgree t m c := by
  have hok := AfCall.run_ok_iff (m := m) h
  have hprograms := AfCall.run_programs (m := m) h
  unfold AfRight AfAgree
  split_ifs with hown
  · constructor
    · rintro ⟨hiff, hpins⟩
      have hsucceeds := hiff.mpr hown
      obtain ⟨hwired, hnonzero⟩ := hok.mp hsucceeds
      refine ⟨hwired, fun pin hpin => ⟨hnonzero pin hpin, ?_⟩⟩
      have hsame := (hprograms hsucceeds).symm.trans (hpins hsucceeds)
      have hpair := List.map_inj_left.mp hsame pin hpin
      exact (Prod.ext_iff.mp hpair).2
    · rintro ⟨hwired, hsame⟩
      have hsucceeds := hok.mpr ⟨hwired, fun pin hpin => (hsame pin hpin).1⟩
      refine ⟨iff_of_true hsucceeds hown, fun _ => ?_⟩
      rw [hprograms hsucceeds]
      refine List.map_congr_left fun pin hpin => ?_
      rw [(hsame pin hpin).2]
  · rw [← hok]
    constructor
    · exact fun hright hsucceeds => hown (hright.1.mp hsucceeds)
    · exact fun hfails => ⟨iff_of_false hfails hown, fun hsucceeds => absurd hsucceeds hfails⟩

/-! ## The STM32F207 -/

/-- The entries for the pins of an instance that have the same function. -/
def afRow (i af : ℕ) (pins : List ℕ) : List AfEntry := pins.map fun p : ℕ => ⟨i, (p : ℤ), af⟩

/-- The entries of a map, given by instance, function and pins. -/
def afEntries (rows : List (ℕ × ℕ × List ℕ)) : List AfEntry :=
  rows.flatMap fun row => afRow row.1 row.2.1 row.2.2

theorem getAF_row (i af : ℕ) (pins : List ℕ) (index : ℕ) (pin : ℤ) :
    getAF (afRow i af pins) index pin =
      if i = index && pins.any fun p => (p : ℤ) = pin then af else 0 := by
  induction pins with
  | nil => simp [afRow, getAF]
  | cons p pins ih =>
    show getAF (⟨i, (p : ℤ), af⟩ :: afRow i af pins) index pin = _
    rw [getAF_cons, ih, List.any_cons]
    by_cases hi : i = index <;> by_cases hp : (p : ℤ) = pin <;> simp [hi, hp]

theorem hasEntry_row {i af : ℕ} {pins : List ℕ} {index : ℕ} {pin : ℤ} :
    HasEntry (afRow i af pins) index pin ↔
      (i = index && pins.any fun p => (p : ℤ) = pin) = true := by
  unfold HasEntry afRow
  simp only [List.mem_map, Bool.and_eq_true, decide_eq_true_eq, List.any_eq_true]
  constructor
  · rintro ⟨e, ⟨p, hp, rfl⟩, hi, hpin⟩
    exact ⟨hi, p, hp, hpin⟩
  · rintro ⟨hi, p, hp, hpin⟩
    exact ⟨_, ⟨p, hp, rfl⟩, hi, hpin⟩

/-- The lookups are those of `afOf`. -/
theorem getAF_afEntries (rows : List (ℕ × ℕ × List ℕ)) (index : ℕ) (pin : ℤ) :
    getAF (afEntries rows) index pin = afOf rows index pin := by
  unfold afEntries
  induction rows with
  | nil => rfl
  | cons row rows ih =>
    obtain ⟨i, af, pins⟩ := row
    rw [List.flatMap_cons, getAF_append, ih, getAF_row]
    unfold afOf
    rw [List.find?_cons]
    dsimp only
    by_cases hrow : (i = index && pins.any fun p => (p : ℤ) = pin) = true
    · rw [if_pos (hasEntry_row.mpr hrow), if_pos hrow, hrow]
    · rw [if_neg fun h => hrow (hasEntry_row.mp h), Bool.eq_false_iff.mpr hrow]

/-- `SPI_Pin_AF_Map` of the STM32F207 -/
def stm32f207SpiAf : List (ℕ × ℕ × List ℕ) :=
  [(0, 5, [portPin 0 5, portPin 0 6, portPin 0 7, portPin 0 4, portPin 0 15, portPin 1 3,
      portPin 1 4, portPin 1 5]),
    (1, 5, [portPin 1 13, portPin 1 14, portPin 1 15, portPin 1 12, portPin 1 9, portPin 2 2,
      portPin 2 3, portPin 1 10]),
    (2, 6, [portPin 1 3, portPin 1 4, portPin 1 5, portPin 0 4, portPin 0 15, portPin 2 10,
      portPin 2 11, portPin 2 12])]

/-- `I2C_Pin_AF_Map` of the STM32F207 -/
def stm32f207I2cAf : List (ℕ × ℕ × List ℕ) :=
  [(0, 4, [portPin 1 6, portPin 1 7, portPin 1 8, portPin 1 9]),
    (1, 4, [portPin 1 10, portPin 1 11, portPin 5 0, portPin 5 1]),
    (2, 4, [portPin 0 8, portPin 2 9])]

def stm32f207AfMaps : AfMaps where
  uart := afEntries stm32f207UartAf
  spi := afEntries stm32f207SpiAf
  i2c := afEntries stm32f207I2cAf

/-- The maps go with the tables. -/
theorem stm32f207Tables_withMaps : stm32f207Tables.withMaps stm32f207AfMaps = stm32f207Tables := by
  have hlookup : stm32UartGetAF stm32f207AfMaps = stm32f207Tables.uartGetAF := by
    funext index pin
    exact getAF_afEntries stm32f207UartAf index pin
  unfold PinTables.withMaps
  rw [hlookup]

/-- The iff for SPI1. -/
theorem afRight_spi1_iff :
    AfRight stm32f207Tables stm32f207AfMaps .reset (.spi 0 0) ↔
      AfAgree stm32f207Tables stm32f207AfMaps (.spi 0 0) :=
  afRight_iff stm32f207Tables stm32f207AfMaps .reset (.spi 0 0) (by decide)

/-- All pins of SPI1 have their functions in the map of the SPI driver, none in that of the UART
driver, and the port cannot be opened. -/
theorem not_afRight_spi1 :
    (AfCall.spi 0 0).Callable stm32f207Tables .reset ∧
      ¬ AfRight stm32f207Tables stm32f207AfMaps .reset (.spi 0 0) := by
  have hcallable : (AfCall.spi 0 0).Callable stm32f207Tables .reset := by decide
  refine ⟨hcallable, fun hright => ?_⟩
  have hown : ∀ pin ∈ (AfCall.spi 0 0).pins stm32f207Tables,
      HasEntry ((AfCall.spi 0 0).ownMap stm32f207AfMaps) 0 pin := by decide
  obtain ⟨-, hnonzero⟩ := (AfCall.run_ok_iff hcallable).mp (hright.1.mpr hown)
  exact absurd hnonzero (by decide)

end WLink.Driver
