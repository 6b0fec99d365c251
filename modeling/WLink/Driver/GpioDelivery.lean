import WLink.Driver.GpioTm4c
import WLink.Lib.Run
import Mathlib.Tactic.SplitIfs

/-!
# The delivery of the GPIO interrupts of the TM4C1294

All pins of a port share one vector and one word of flags. `gpioIrqHandler` takes the whole word
for the mask of one pin, so it serves exactly one pending pin, and `gpioInterruptDeInit` takes the
vector from all pins of the port. A run delivers its interrupts exactly if no two initialised pins
of a port are ever pending at once and none with a handler is pending while the vector is gone
(`delivered_iff`).
-/

namespace WLink.Driver.Tm4c

open WLink.Lib

/-! ## Pins and masks -/

/-- A pin is an index of the tables. -/
def IsPin (pin : ℤ) : Prop := 0 ≤ pin ∧ pin < hwGpioPinMax

instance (pin : ℤ) : Decidable (IsPin pin) := inferInstanceAs (Decidable (_ ∧ _))

theorem length_pins : pins.length = 90 := by decide

theorem place_lt : ∀ e ∈ pins, e.2 < 8 := by decide

theorem nodup_pins : pins.Nodup := by decide +kernel

theorem pinEntry_eq_some {pin : ℤ} {e : GpioPort × ℕ} :
    pinEntry pin = some e ↔ 0 ≤ pin ∧ pins[pin.toNat]? = some e := by
  unfold pinEntry
  split
  · exact ⟨fun h => absurd h (Option.some_ne_none e).symm, fun h => absurd h.1 (by omega)⟩
  · exact ⟨fun h => ⟨by omega, h⟩, fun h => h.2⟩

theorem isPin_of_entry {pin : ℤ} {e : GpioPort × ℕ} (h : pinEntry pin = some e) : IsPin pin := by
  obtain ⟨hpos, hget⟩ := pinEntry_eq_some.mp h
  obtain ⟨hlt, -⟩ := List.getElem?_eq_some_iff.mp hget
  rw [length_pins] at hlt
  unfold IsPin hwGpioPinMax
  omega

theorem place_lt_of_entry {pin : ℤ} {port : GpioPort} {n : ℕ}
    (h : pinEntry pin = some (port, n)) : n < 8 :=
  place_lt _ (List.mem_of_getElem? (pinEntry_eq_some.mp h).2)

/-- No two pins have the same place. -/
theorem pinEntry_inj {pin pin' : ℤ} {e : GpioPort × ℕ} (h : pinEntry pin = some e)
    (h' : pinEntry pin' = some e) : pin = pin' := by
  obtain ⟨hpos, hget⟩ := pinEntry_eq_some.mp h
  obtain ⟨hpos', hget'⟩ := pinEntry_eq_some.mp h'
  have hlt : pin.toNat < pins.length := (List.getElem?_eq_some_iff.mp hget).1
  have hnat : pin.toNat = pin'.toNat :=
    (List.getElem?_inj hlt nodup_pins).mp (hget.trans hget'.symm)
  omega

theorem getLsbD_gpioPin {n : ℕ} (hn : n < 8) (i : ℕ) :
    (gpioPin n).getLsbD i = decide (n = i) := by
  unfold gpioPin
  rw [BitVec.getLsbD_twoPow, decide_eq_true (by omega), Bool.true_and]

theorem gpioPin_inj {n m : ℕ} (hn : n < 8) (hm : m < 8) (h : gpioPin n = gpioPin m) : n = m := by
  have hbit : (gpioPin n).getLsbD m = true := by
    rw [h, getLsbD_gpioPin hm]
    exact decide_eq_true rfl
  rw [getLsbD_gpioPin hn] at hbit
  exact of_decide_eq_true hbit

/-- The mask of one pin leads to this pin. -/
theorem gpioMapIntPinByMask_gpioPin {pin : ℤ} {port : GpioPort} {n : ℕ}
    (h : pinEntry pin = some (port, n)) : gpioMapIntPinByMask port (gpioPin n) = pin := by
  obtain ⟨hpos, hget⟩ := pinEntry_eq_some.mp h
  obtain ⟨hlt, hat⟩ := List.getElem?_eq_some_iff.mp hget
  have hfind : (pins.findIdx? fun e => e.1 = port && gpioPin e.2 = gpioPin n) =
      some pin.toNat := by
    refine List.findIdx?_eq_some_iff_getElem.mpr ⟨hlt, ?_, fun j hj hmatch => ?_⟩
    · rw [hat]
      simp
    · -- an earlier match would be the same pin
      have hjlt : j < pins.length := by omega
      obtain ⟨hport, hmask⟩ : (pins[j]).1 = port ∧ gpioPin (pins[j]).2 = gpioPin n := by
        simpa using hmatch
      have hplace : (pins[j]).2 = n :=
        gpioPin_inj (place_lt _ (List.getElem_mem hjlt)) (place_lt_of_entry h) hmask
      have hsame : pins[j]? = pins[pin.toNat]? := by
        rw [hget, List.getElem?_eq_getElem hjlt]
        exact congrArg some (Prod.ext hport hplace)
      have hidx : j = pin.toNat := (List.getElem?_inj hjlt nodup_pins).mp hsame
      omega
  unfold gpioMapIntPinByMask
  rw [hfind]
  exact Int.toNat_of_nonneg hpos

/-- A mask that leads to a pin is the mask of this pin. -/
theorem entry_of_gpioMapIntPinByMask {port : GpioPort} {mask : BitVec 32}
    (h : IsPin (gpioMapIntPinByMask port mask)) :
    ∃ n, pinEntry (gpioMapIntPinByMask port mask) = some (port, n) ∧ mask = gpioPin n := by
  unfold gpioMapIntPinByMask at h ⊢
  cases hfind : pins.findIdx? fun e => e.1 = port && gpioPin e.2 = mask with
  | none =>
    rw [hfind] at h
    exact absurd h (by decide)
  | some i =>
    obtain ⟨hlt, hmatch, -⟩ := List.findIdx?_eq_some_iff_getElem.mp hfind
    obtain ⟨hport, hmask⟩ : (pins[i]).1 = port ∧ gpioPin (pins[i]).2 = mask := by
      simpa using hmatch
    refine ⟨(pins[i]).2, pinEntry_eq_some.mpr ⟨Int.natCast_nonneg i, ?_⟩, hmask.symm⟩
    show pins[i]? = _
    rw [List.getElem?_eq_getElem hlt, ← hport]

theorem gpioMapPinIntMask_gpioPin : ∀ n < 8, gpioMapPinIntMask (gpioPin n) = gpioPin n := by
  decide +kernel

theorem gpioPin_ne_zero : ∀ n < 8, gpioPin n ≠ 0 := by decide +kernel

/-! ## Runs -/

/-- A call of the driver, or that pins of a port are pending. -/
inductive GpioEvent
  | call (c : GpioCall)
  | interrupt (port : GpioPort) (ris : BitVec 32)
deriving DecidableEq, Repr

/-- The handler of a port changes nothing that the driver keeps. -/
def GpioEvent.step (s : GpioState) : GpioEvent → GpioState
  | .call c => (c.run s).2
  | .interrupt .. => s

/-- What the processor does while the pins of `ris` are pending: it runs the handler of the port if
an enabled pin is among them and the vector is there. -/
def takeInterrupt (port : GpioPort) (ris : BitVec 32) (s : GpioState) : Option IrqRun :=
  if s.vector port = true ∧ ris &&& s.im port ≠ 0 then some (gpioIrqHandler port ris s) else none

/-- The pin is one of the port, initialised and pending. -/
def Pending (s : GpioState) (port : GpioPort) (ris : BitVec 32) (pin : ℤ) : Prop :=
  ∃ n, pinEntry pin = some (port, n) ∧ ris.getLsbD n = true ∧ s.pinInit pin = true

/-- The handler of the port stays within its tables and calls the handler of every pending pin
exactly once. -/
structure Delivers (s : GpioState) (port : GpioPort) (ris : BitVec 32) : Prop where
  index : ∀ r, takeInterrupt port ris s = some r → IsPin r.intPin
  calls : ∀ pin handler, Pending s port ris pin → s.irqHandlers pin = some handler →
    ∃ r action, takeInterrupt port ris s = some r ∧ actionOf (s.irqMode pin) = some action ∧
      r.calls.filter (·.pin = pin) = [⟨handler, pin, action⟩]

def GpioEvent.Delivers (s : GpioState) : GpioEvent → Prop
  | .call _ => True
  | .interrupt port ris => Tm4c.Delivers s port ris

/-- While the vector of the port is there, at most one of its initialised pins is pending; while it
is not, none of those that have a handler. -/
def GpioEvent.OneAtATime (s : GpioState) : GpioEvent → Prop
  | .call _ => True
  | .interrupt port ris =>
    (s.vector port = true →
      ∀ pin pin', Pending s port ris pin → Pending s port ris pin' → pin = pin') ∧
    (s.vector port = false → ∀ pin, Pending s port ris pin → s.irqHandlers pin = none)

/-! ## Calls -/

section Calls

variable {s : GpioState} {pin : ℤ}

/-- What `GPIO_Interrupt_Init` does, if anything. -/
theorem gpioInterruptInit_cases (pin : ℤ) (mode : ℕ) (s : GpioState) :
    (gpioInterruptInit pin mode s).2 = s ∨
    ∃ port n, pinEntry pin = some (port, n) ∧ mode < hwGpioInterruptModeMax ∧
      (gpioInterruptInit pin mode s).2 =
        (((s.setVector port true).intEnable port (gpioPin n)).setIrqMode pin mode).setPinInit pin
          true := by
  unfold gpioInterruptInit gpioMapSocPortBase gpioMapSocPinMask
  cases hentry : pinEntry pin with
  | none =>
    dsimp only [Option.map_none]
    split_ifs <;> exact .inl rfl
  | some e =>
    obtain ⟨port, n⟩ := e
    have hn : n < 8 := place_lt_of_entry hentry
    dsimp only [Option.map_some]
    have hmask : ¬ (gpioPin n = 0 ∨ gpioPin n = 0) := fun h => gpioPin_ne_zero n hn (h.elim id id)
    rw [gpioMapPinIntMask_gpioPin n hn, if_neg hmask]
    split_ifs with _ hmode
    iterate 3 exact .inl rfl
    exact .inr ⟨port, n, rfl, Nat.lt_of_not_le hmode, rfl⟩

/-- What `GPIO_Interrupt_DeInit` does, if anything. -/
theorem gpioInterruptDeInit_cases (pin : ℤ) (s : GpioState) :
    ((pinEntry pin = none ∨ s.pinInit pin = false) ∧ (gpioInterruptDeInit pin s).2 = s) ∨
    ∃ port n, pinEntry pin = some (port, n) ∧ s.pinInit pin = true ∧
      (gpioInterruptDeInit pin s).2 =
        ((s.intDisable port (gpioPin n)).setVector port false).setPinInit pin false := by
  unfold gpioInterruptDeInit gpioMapSocPortBase gpioMapSocPinMask
  cases hentry : pinEntry pin with
  | none =>
    dsimp only [Option.map_none]
    split_ifs <;> exact .inl ⟨.inl rfl, rfl⟩
  | some e =>
    obtain ⟨port, n⟩ := e
    have hn : n < 8 := place_lt_of_entry hentry
    dsimp only [Option.map_some]
    have hmask : ¬ (gpioPin n = 0 ∨ gpioPin n = 0) := fun h => gpioPin_ne_zero n hn (h.elim id id)
    rw [gpioMapPinIntMask_gpioPin n hn, if_neg hmask,
      if_neg (Int.not_le.mpr (isPin_of_entry hentry).2)]
    split_ifs with hinit
    · exact .inl ⟨.inr hinit, rfl⟩
    · exact .inr ⟨port, n, rfl, by simpa using hinit, rfl⟩

/-- The enabled bits of a port are its initialised pins, and these have a mode. -/
structure Books (s : GpioState) : Prop where
  im : ∀ port n, (s.im port).getLsbD n = true ↔
    ∃ pin, pinEntry pin = some (port, n) ∧ s.pinInit pin = true
  mode : ∀ pin, s.pinInit pin = true → s.irqMode pin < hwGpioInterruptModeMax

theorem Books.reset : Books .reset := by
  refine ⟨fun port n => ?_, fun pin h => absurd h Bool.false_ne_true⟩
  show (0 : BitVec 32).getLsbD n = true ↔ ∃ pin, _ ∧ false = true
  simp

/-- Setting a bit and the flag of its pin together keeps the books. -/
theorem Books.set (h : Books s) {s' : GpioState} {port : GpioPort} {n : ℕ} {v : Bool}
    (hentry : pinEntry pin = some (port, n))
    (him : ∀ port' m, (s'.im port').getLsbD m =
      if port' = port ∧ m = n then v else (s.im port').getLsbD m)
    (hinit : s'.pinInit = Function.update s.pinInit pin v)
    (hmode : ∀ pin', s'.pinInit pin' = true → s'.irqMode pin' < hwGpioInterruptModeMax) :
    Books s' := by
  refine ⟨fun port' m => ?_, hmode⟩
  -- the place that is set is the one of the pin alone (`pinEntry_inj`)
  rw [him, hinit]
  by_cases hplace : port' = port ∧ m = n
  · obtain ⟨rfl, rfl⟩ := hplace
    rw [if_pos ⟨rfl, rfl⟩]
    constructor
    · intro hv
      exact ⟨pin, hentry, by rw [Function.update_self]; exact hv⟩
    · rintro ⟨pin', hentry', hv⟩
      rw [pinEntry_inj hentry' hentry, Function.update_self] at hv
      exact hv
  · rw [if_neg hplace, h.im]
    refine exists_congr fun pin' => and_congr_right fun hentry' => ?_
    have hne : pin' ≠ pin := by
      rintro rfl
      obtain ⟨rfl, rfl⟩ : port = port' ∧ n = m := by simpa using hentry.symm.trans hentry'
      exact hplace ⟨rfl, rfl⟩
    rw [Function.update_of_ne hne]

theorem Books.interruptInit (h : Books s) (pin : ℤ) (mode : ℕ) :
    Books (gpioInterruptInit pin mode s).2 := by
  rcases gpioInterruptInit_cases pin mode s with hsame | ⟨port, n, hentry, hmode, hnew⟩
  · rw [hsame]
    exact h
  rw [hnew]
  have hn : n < 8 := place_lt_of_entry hentry
  refine h.set (v := true) hentry (fun port' m => ?_) rfl fun pin' hinit => ?_
  · show (Function.update s.im port (s.im port ||| gpioPin n) port').getLsbD m = _
    by_cases hport : port' = port
    · rw [hport, Function.update_self, BitVec.getLsbD_or, getLsbD_gpioPin hn]
      by_cases hm : m = n
      · rw [if_pos ⟨rfl, hm⟩, decide_eq_true hm.symm, Bool.or_true]
      · rw [if_neg fun hand => hm hand.2, decide_eq_false (Ne.symm hm), Bool.or_false]
    · rw [Function.update_of_ne hport, if_neg fun hand => hport hand.1]
  · show Function.update s.irqMode pin mode pin' < _
    by_cases hpin : pin' = pin
    · rw [hpin, Function.update_self]
      exact hmode
    · have hinit' : Function.update s.pinInit pin true pin' = true := hinit
      rw [Function.update_of_ne hpin] at hinit' ⊢
      exact h.mode pin' hinit'

theorem Books.interruptDeInit (h : Books s) (pin : ℤ) : Books (gpioInterruptDeInit pin s).2 := by
  rcases gpioInterruptDeInit_cases pin s with ⟨-, hsame⟩ | ⟨port, n, hentry, -, hnew⟩
  · rw [hsame]
    exact h
  rw [hnew]
  have hn : n < 8 := place_lt_of_entry hentry
  refine h.set (v := false) hentry (fun port' m => ?_) rfl fun pin' hinit => ?_
  · show (Function.update s.im port (s.im port &&& ~~~gpioPin n) port').getLsbD m = _
    by_cases hport : port' = port
    · rw [hport, Function.update_self, BitVec.getLsbD_and, BitVec.getLsbD_not, getLsbD_gpioPin hn]
      by_cases hm : m = n
      · rw [if_pos ⟨rfl, hm⟩, decide_eq_true hm.symm, Bool.not_true, Bool.and_false, Bool.and_false]
      · rw [if_neg fun hand => hm hand.2, decide_eq_false (Ne.symm hm), Bool.not_false,
          Bool.and_true]
        cases hbit : (s.im port).getLsbD m with
        | false => rfl
        | true => rw [decide_eq_true (BitVec.lt_of_getLsbD hbit), Bool.and_true]
    · rw [Function.update_of_ne hport, if_neg fun hand => hport hand.1]
  · have hinit' : Function.update s.pinInit pin false pin' = true := hinit
    by_cases hpin : pin' = pin
    · rw [hpin, Function.update_self] at hinit'
      exact absurd hinit' Bool.false_ne_true
    · rw [Function.update_of_ne hpin] at hinit'
      exact h.mode pin' hinit'

/-- Every call keeps the books. -/
theorem Books.run (h : Books s) (c : GpioCall) : Books (c.run s).2 := by
  cases c with
  | interruptInit pin mode => exact h.interruptInit pin mode
  | interruptDeInit pin => exact h.interruptDeInit pin
  | registerInterruptHandler pin handler =>
    show Books (gpioRegisterInterruptHandler pin handler s).2
    unfold gpioRegisterInterruptHandler
    split_ifs
    iterate 2 exact h
    exact ⟨h.im, h.mode⟩
  | unregisterInterruptHandler pin =>
    show Books (gpioUnregisterInterruptHandler pin s).2
    unfold gpioUnregisterInterruptHandler
    split_ifs
    · exact h
    · exact ⟨h.im, h.mode⟩

/-- A port loses its vector with the release of one of its pins, whichever it is. -/
theorem vector_lost_iff {port : GpioPort} (c : GpioCall) (hvector : s.vector port = true) :
    (c.run s).2.vector port = false ↔
      ∃ pin n, c = .interruptDeInit pin ∧ pinEntry pin = some (port, n) ∧ s.pinInit pin = true := by
  have hkept (hc : ∀ pin, c ≠ .interruptDeInit pin) (hstay : (c.run s).2.vector port = true) :
      (c.run s).2.vector port = false ↔
        ∃ pin n, c = .interruptDeInit pin ∧ pinEntry pin = some (port, n) ∧
          s.pinInit pin = true := by
    refine iff_of_false (by rw [hstay]; exact Bool.noConfusion) ?_
    rintro ⟨pin, n, heq, -⟩
    exact hc pin heq
  cases c with
  | interruptInit pin mode =>
    refine hkept (fun _ => GpioCall.noConfusion) ?_
    show (gpioInterruptInit pin mode s).2.vector port = true
    rcases gpioInterruptInit_cases pin mode s with hsame | ⟨port', n, -, -, hnew⟩
    · rw [hsame, hvector]
    · rw [hnew]
      show Function.update s.vector port' true port = true
      by_cases hport : port = port'
      · rw [hport, Function.update_self]
      · rw [Function.update_of_ne hport, hvector]
  | interruptDeInit pin =>
    show (gpioInterruptDeInit pin s).2.vector port = false ↔ _
    rcases gpioInterruptDeInit_cases pin s with ⟨hno, hsame⟩ | ⟨port', n, hentry, hinit, hnew⟩
    · -- the pin is none, or not initialised
      rw [hsame, hvector]
      refine iff_of_false Bool.noConfusion ?_
      rintro ⟨pin', n, heq, hentry, hinit⟩
      obtain rfl : pin = pin' := GpioCall.interruptDeInit.inj heq
      rcases hno with hno | hno
      · exact absurd (hno.symm.trans hentry) (Option.some_ne_none _).symm
      · exact absurd (hno.symm.trans hinit) Bool.false_ne_true
    · rw [hnew]
      show Function.update s.vector port' false port = false ↔ _
      -- the release takes the vector of its own port and no other
      by_cases hport : port = port'
      · subst hport
        exact iff_of_true (Function.update_self ..) ⟨pin, n, rfl, hentry, hinit⟩
      · rw [Function.update_of_ne hport, hvector]
        refine iff_of_false Bool.noConfusion ?_
        rintro ⟨pin', m, heq, hentry', -⟩
        obtain rfl : pin = pin' := GpioCall.interruptDeInit.inj heq
        have hplace : port' = port ∧ n = m := by simpa using hentry.symm.trans hentry'
        exact hport hplace.1.symm
  | registerInterruptHandler pin handler =>
    refine hkept (fun _ => GpioCall.noConfusion) ?_
    show (gpioRegisterInterruptHandler pin handler s).2.vector port = true
    unfold gpioRegisterInterruptHandler
    split_ifs <;> exact hvector
  | unregisterInterruptHandler pin =>
    refine hkept (fun _ => GpioCall.noConfusion) ?_
    show (gpioUnregisterInterruptHandler pin s).2.vector port = true
    unfold gpioUnregisterInterruptHandler
    split_ifs <;> exact hvector

end Calls

/-! ## One interrupt -/

section Interrupts

variable {s : GpioState} {port : GpioPort} {ris : BitVec 32} {pin : ℤ}

/-- The flags that the handler reads are those of the pending pins. -/
theorem flags_iff (h : Books s) (n : ℕ) : (ris &&& s.im port).getLsbD n = true ↔
    ∃ pin, pinEntry pin = some (port, n) ∧ ris.getLsbD n = true ∧ s.pinInit pin = true := by
  rw [BitVec.getLsbD_and, Bool.and_eq_true, h.im]
  constructor
  · rintro ⟨hris, pin, hentry, hinit⟩
    exact ⟨pin, hentry, hris, hinit⟩
  · rintro ⟨pin, hentry, hris, hinit⟩
    exact ⟨hris, pin, hentry, hinit⟩

theorem flags_ne_zero (h : Books s) (hpending : Pending s port ris pin) :
    ris &&& s.im port ≠ 0 := by
  obtain ⟨n, hentry, hris, hinit⟩ := hpending
  have hbit : (ris &&& s.im port).getLsbD n = true := (flags_iff h n).mpr ⟨pin, hentry, hris, hinit⟩
  intro hzero
  rw [hzero] at hbit
  exact absurd hbit (by simp)

/-- If one pin only is pending, the flags are its mask. -/
theorem flags_eq (h : Books s) {n : ℕ} (hentry : pinEntry pin = some (port, n))
    (hpending : Pending s port ris pin)
    (honly : ∀ pin', Pending s port ris pin' → pin' = pin) : ris &&& s.im port = gpioPin n := by
  have hn : n < 8 := place_lt_of_entry hentry
  -- bit by bit: a bit of the flags is a pending pin, and there is one only
  refine BitVec.eq_of_getLsbD_eq fun i _ => Bool.eq_iff_iff.mpr ?_
  rw [getLsbD_gpioPin hn, decide_eq_true_iff, flags_iff h]
  constructor
  · rintro ⟨pin', hentry', hris, hinit⟩
    obtain rfl : pin' = pin := honly pin' ⟨i, hentry', hris, hinit⟩
    simpa using hentry.symm.trans hentry'
  · rintro rfl
    obtain ⟨m, hentry', hris, hinit⟩ := hpending
    obtain rfl : n = m := by simpa using hentry.symm.trans hentry'
    exact ⟨pin, hentry, hris, hinit⟩

theorem exists_pending (h : Books s) (hflags : ris &&& s.im port ≠ 0) :
    ∃ pin, Pending s port ris pin := by
  -- without a pending pin every bit of the flags is clear
  by_contra hnone
  refine hflags (BitVec.eq_of_getLsbD_eq fun i _ => ?_)
  show (ris &&& s.im port).getLsbD i = (0#32).getLsbD i
  rw [BitVec.getLsbD_zero]
  refine Bool.eq_false_iff.mpr fun hbit => hnone ?_
  obtain ⟨pin, hentry, hris, hinit⟩ := (flags_iff h i).mp hbit
  exact ⟨pin, i, hentry, hris, hinit⟩

theorem actionOf_of_lt {mode : ℕ} (h : mode < hwGpioInterruptModeMax) :
    ∃ action, actionOf mode = some action := by
  match mode, h with
  | 0, _ => exact ⟨_, rfl⟩
  | 1, _ => exact ⟨_, rfl⟩
  | 2, _ => exact ⟨_, rfl⟩

theorem takeInterrupt_of_pending (h : Books s) (hvector : s.vector port = true)
    (hpending : Pending s port ris pin) :
    takeInterrupt port ris s = some (gpioIrqHandler port ris s) :=
  if_pos ⟨hvector, flags_ne_zero h hpending⟩

theorem takeInterrupt_of_not_vector (hvector : s.vector port = false) :
    takeInterrupt port ris s = none :=
  if_neg fun hand => absurd hand.1 (by rw [hvector]; exact Bool.false_ne_true)

/-- A handler that stays within its tables has one pending pin only. -/
theorem eq_of_index (h : Books s) (hindex : IsPin (gpioIrqHandler port ris s).intPin) {pin' : ℤ}
    (hpending : Pending s port ris pin) (hpending' : Pending s port ris pin') : pin = pin' := by
  -- an index within the tables comes from flags that are the mask of one pin
  obtain ⟨n, hindexed, hflags⟩ := entry_of_gpioMapIntPinByMask hindex
  have hplace {p : ℤ} (hp : Pending s port ris p) : pinEntry p = some (port, n) := by
    obtain ⟨m, hentry, hris, hinit⟩ := hp
    have hbit : (ris &&& s.im port).getLsbD m = true := (flags_iff h m).mpr ⟨p, hentry, hris, hinit⟩
    rw [hflags, getLsbD_gpioPin (place_lt_of_entry hindexed)] at hbit
    rw [hentry, of_decide_eq_true hbit]
  exact pinEntry_inj (hplace hpending) (hplace hpending')

/-- A single pending pin is served. -/
theorem delivers_of_single (h : Books s) (hpending : Pending s port ris pin)
    (honly : ∀ pin', Pending s port ris pin' → pin' = pin) (hvector : s.vector port = true) :
    Delivers s port ris := by
  obtain ⟨n, hentry, hris, hinit⟩ := hpending
  have hpin : (gpioIrqHandler port ris s).intPin = pin := by
    show gpioMapIntPinByMask port (ris &&& s.im port) = pin
    rw [flags_eq h hentry ⟨n, hentry, hris, hinit⟩ honly, gpioMapIntPinByMask_gpioPin hentry]
  have htake := takeInterrupt_of_pending h hvector ⟨n, hentry, hris, hinit⟩
  refine ⟨fun r hr => ?_, fun pin' handler hpending' hhandler => ?_⟩
  · obtain rfl : gpioIrqHandler port ris s = r := Option.some.inj (htake.symm.trans hr)
    rw [hpin]
    exact isPin_of_entry hentry
  · obtain rfl : pin' = pin := honly pin' hpending'
    obtain ⟨action, haction⟩ := actionOf_of_lt (h.mode pin' hinit)
    refine ⟨_, action, htake, haction, ?_⟩
    have hcalls : (gpioIrqHandler port ris s).calls = [⟨handler, pin', action⟩] := by
      have hpin' : gpioMapIntPinByMask port (ris &&& s.im port) = pin' := hpin
      unfold gpioIrqHandler
      dsimp only
      rw [hpin', haction, hhandler]
    rw [hcalls]
    simp

/-- What one interrupt needs. -/
theorem delivers_iff (h : Books s) (e : GpioEvent) : e.Delivers s ↔ e.OneAtATime s := by
  cases e with
  | call c => exact Iff.rfl
  | interrupt port ris =>
    show Delivers s port ris ↔ _ ∧ _
    rcases hvector : s.vector port with _ | _
    · -- the handler does not run
      have hnone : takeInterrupt port ris s = none := takeInterrupt_of_not_vector hvector
      constructor
      · refine fun hd => ⟨fun hv => absurd hv Bool.false_ne_true, fun _ pin hpending => ?_⟩
        cases hhandler : s.irqHandlers pin with
        | none => rfl
        | some handler =>
          obtain ⟨r, action, htake, -⟩ := hd.calls pin handler hpending hhandler
          exact absurd (hnone.symm.trans htake) (Option.some_ne_none r).symm
      · rintro ⟨-, hquiet⟩
        refine ⟨fun r hr => absurd (hnone.symm.trans hr) (Option.some_ne_none r).symm,
          fun pin handler hpending hhandler => ?_⟩
        exact absurd (hhandler.symm.trans (hquiet rfl pin hpending)) (Option.some_ne_none handler)
    · -- the handler runs if a pin is pending
      constructor
      · refine fun hd => ⟨fun _ pin pin' hpending hpending' => ?_,
          fun hv => absurd hv Bool.noConfusion⟩
        exact eq_of_index h (hd.index _ (takeInterrupt_of_pending h hvector hpending)) hpending
          hpending'
      · rintro ⟨hone, -⟩
        by_cases hflags : ris &&& s.im port = 0
        · -- nothing is pending
          have hnone : takeInterrupt port ris s = none := if_neg fun hand => hand.2 hflags
          refine ⟨fun r hr => absurd (hnone.symm.trans hr) (Option.some_ne_none r).symm,
            fun pin handler hpending _ => absurd hflags (flags_ne_zero h hpending)⟩
        · obtain ⟨pin, hpending⟩ := exists_pending h hflags
          exact delivers_of_single h hpending (fun pin' hp => hone rfl pin' pin hp hpending) hvector

end Interrupts

/-- A run delivers its interrupts exactly if it has them one at a time. -/
theorem delivered_iff (events : List GpioEvent) :
    AllSteps GpioEvent.step (fun s e => e.Delivers s) .reset events ↔
      AllSteps GpioEvent.step (fun s e => e.OneAtATime s) .reset events := by
  refine allSteps_congr (J := Books) (fun s e h => delivers_iff h e) ?_ .reset events
  intro s e h _
  cases e with
  | call c => exact h.run c
  | interrupt port ris => exact h

/-- Neither two pins at once nor a pin behind the release of its neighbour are served. -/
theorem not_delivered_portA :
    ¬ AllSteps GpioEvent.step (fun s e => e.Delivers s) .reset
        [.call (.interruptInit (pinAt .a 0) 0), .call (.interruptInit (pinAt .a 1) 0),
          .call (.registerInterruptHandler (pinAt .a 0) (some 7)), .interrupt .a 3] ∧
      ¬ AllSteps GpioEvent.step (fun s e => e.Delivers s) .reset
        [.call (.interruptInit (pinAt .a 0) 0), .call (.interruptInit (pinAt .a 1) 0),
          .call (.registerInterruptHandler (pinAt .a 0) (some 7)),
          .call (.interruptDeInit (pinAt .a 1)), .interrupt .a 1] := by
  constructor
  · rintro ⟨-, -, -, hd, -⟩
    have hindex := hd.index _ rfl
    exact absurd hindex (by decide +kernel)
  · rintro ⟨-, -, -, -, hd, -⟩
    obtain ⟨r, action, htake, -⟩ := hd.calls (pinAt .a 0) 7
      ⟨0, by decide +kernel, by decide +kernel, by decide +kernel⟩ (by decide +kernel)
    rw [takeInterrupt_of_not_vector (by decide +kernel)] at htake
    exact absurd htake (Option.some_ne_none r).symm

end WLink.Driver.Tm4c
