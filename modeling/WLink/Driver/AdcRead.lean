import WLink.Driver.Peripherals
import WLink.Lib.PortOwn

/-!
# Reading a channel of the ADC

`hwADC_Read_MiniVolt` as the calls of a port: the channels of an instance share its regular group,
whose conversion the interrupt puts into the queue of the instance, which holds one item.
`SamplesOwn` says that the calls that return `hwADC_OK` have used the value of a conversion they
have started, of the channel they were asked for. In a run in which a call only starts a conversion
while nothing else can fill the queue and the group is still set to its channel, this is so
(`samplesOwn_of_allSteps`). A conversion that ends after the wait has timed out and before
`HAL_ADC_Stop_IT` leaves its value to the next call (`not_samplesOwn_late`).
-/

namespace WLink.Driver

open Lib

/-! ## The driver -/

inductive AdcOpStatus
  | ok
  | invalidParameter
  | notInit
  | hwError
  deriving DecidableEq

/-- `ADC_Channel_To_HAL`; `ADC_CHANNEL_k` is the channel `k` of the hardware. -/
def adcChannelToHal (ch : ℕ) : ℕ := if ch < 16 then ch else 0

/-- A call of `hwADC_Read_MiniVolt` for a channel of the instance. -/
structure AdcRead (t : PinTables) (inst : ℕ) where
  ch : ℕ
  /-- `readMv` is not `NULL` -/
  readMv : Bool
  ofInst : (t.adcChannel ch).inst = inst

variable {t : PinTables} {inst : ℕ}

/-- `hwADC_Read_MiniVolt`, with `ADC_Channel_Init_Status`. Of the calls of the HAL none is asked
for its result. -/
def hwAdcReadMiniVolt (init : ℕ → Bool) (c : AdcRead t inst) :
    ℕ → Command Unit Unit ℕ AdcOpStatus
  | 0 =>
    if t.adcInstanceMax ≤ inst then .ret .invalidParameter
    else if c.readMv = false ∨ t.adcChannelMax ≤ c.ch then .ret .invalidParameter
    else if init c.ch = false then .ret .notInit
    else .config (adcChannelToHal c.ch)
  | 1 => .start [()] none 2
  | 2 => .wait () (adcChannelToHal c.ch) 3 5
  | 3 => .stop ()
  | 4 => .ret .ok
  | 5 => .stop ()
  | _ => .ret .hwError

/-- An instance of the ADC. `HAL_ADC_ConvCpltCallback` writes to the queue of the instance, and
there is no callback for errors; `HAL_ADC_Start_IT` does not look at what the instance is doing. -/
def adcPort (t : PinTables) (inst : ℕ) (init : ℕ → Bool) :
    Port (AdcRead t inst) Unit Unit ℕ AdcOpStatus where
  program := hwAdcReadMiniVolt init
  signals := fun _ _ ok => if ok = true then [()] else []
  supersedes := fun _ _ => true
  reset := 0

/-- The raw value that a call has used. -/
def adcItemRaw (x : Returned (AdcRead t inst) ℕ AdcOpStatus) : Option ℕ :=
  x.running.took.getLast?.map fun e => e.2.value

/-- A call that returns `hwADC_OK` has used the value of a conversion that it has started, of its
channel, and that was complete before it returned. -/
def SamplesOwn (s : PortState (AdcRead t inst) Unit Unit ℕ AdcOpStatus) : Prop :=
  ∀ x ∈ s.log, x.result = .ok → ∃ d ∈ x.running.seen,
    d.ticket = ⟨x.running.id, adcChannelToHal x.running.call.ch⟩ ∧ d.ok = true ∧
      adcItemRaw x = some d.value

instance (s : PortState (AdcRead t inst) Unit Unit ℕ AdcOpStatus) : Decidable (SamplesOwn s) :=
  inferInstanceAs (Decidable (∀ x ∈ s.log, x.result = .ok → ∃ d ∈ x.running.seen, _))

/-! ## What a call waits for -/

/-- A call waits for its conversion from its start until it has read the queue. -/
def adcAwaits (c : AdcRead t inst) (pc : ℕ) : Option ℕ :=
  if pc = 2 then some (adcChannelToHal c.ch) else none

def adcWaited (c : AdcRead t inst) (pc : ℕ) : List ℕ :=
  if pc = 3 ∨ pc = 4 then [adcChannelToHal c.ch] else []

/-! Of each kind of command there is one. -/

section

variable {init : ℕ → Bool} {c : AdcRead t inst} {pc : ℕ}

theorem hwAdcReadMiniVolt_wait {i : Unit} {q y x : ℕ}
    (h : hwAdcReadMiniVolt init c pc = .wait i q y x) :
    pc = 2 ∧ q = adcChannelToHal c.ch ∧ y = 3 := by
  unfold hwAdcReadMiniVolt at h
  split at h
  · split_ifs at h
  all_goals cases h
  exact ⟨rfl, rfl, rfl⟩

theorem hwAdcReadMiniVolt_start {chans : List Unit} {req : Option ℕ} {x : ℕ}
    (h : hwAdcReadMiniVolt init c pc = .start chans req x) :
    pc = 1 ∧ req = none ∧ x = 2 := by
  unfold hwAdcReadMiniVolt at h
  split at h
  · split_ifs at h
  all_goals cases h
  exact ⟨rfl, rfl, rfl⟩

theorem hwAdcReadMiniVolt_ret_ok (h : hwAdcReadMiniVolt init c pc = .ret .ok) : pc = 4 := by
  unfold hwAdcReadMiniVolt at h
  split at h
  · split_ifs at h
    all_goals cases h
  all_goals cases h
  rfl

/-- The ways through the commands other than those that start and take something. -/
theorem hwAdcReadMiniVolt_passes {pc' : ℕ} (h : (hwAdcReadMiniVolt init c pc).Passes pc pc') :
    pc = 0 ∧ pc' = 1 ∨ pc = 2 ∧ pc' = 5 ∨ pc = 3 ∧ pc' = 4 ∨ pc = 5 ∧ pc' = 6 := by
  unfold hwAdcReadMiniVolt at h
  split at h
  · split_ifs at h
    · exact h.elim
    · exact h.elim
    · exact h.elim
    · exact .inl ⟨rfl, h⟩
  · exact h.elim
  · exact .inr (.inl ⟨rfl, h⟩)
  · exact .inr (.inr (.inl ⟨rfl, h⟩))
  · exact h.elim
  · exact .inr (.inr (.inr ⟨rfl, h⟩))
  · exact h.elim

end

def adcDiscipline (t : PinTables) (inst : ℕ) (init : ℕ → Bool) :
    Discipline (adcPort t inst init) where
  awaits := fun c pc _ => adcAwaits c pc
  waited := adcWaited
  fresh := fun _ => ⟨fun _ => rfl, rfl⟩
  idle := by
    intro c pc hnowait i
    refine if_neg fun hpc => ?_
    subst hpc
    exact hnowait () (adcChannelToHal c.ch) 3 5 rfl
  pass := by
    intro c pc pc' hpass
    obtain ⟨rfl, rfl⟩ | ⟨rfl, rfl⟩ | ⟨rfl, rfl⟩ | ⟨rfl, rfl⟩ := hwAdcReadMiniVolt_passes hpass <;>
      exact ⟨fun _ => rfl, rfl⟩
  wait := by
    intro c pc i q y x hprogram
    obtain ⟨rfl, rfl, rfl⟩ := hwAdcReadMiniVolt_wait hprogram
    exact ⟨rfl, rfl, nofun⟩
  start := by
    intro c pc chans req x hprogram
    obtain ⟨rfl, -, rfl⟩ := hwAdcReadMiniVolt_start hprogram
    exact ⟨rfl, rfl, (), nofun⟩
  signals := by
    intro c pc chans req x hprogram k hk q ok i hreq hi
    obtain ⟨rfl, -, -⟩ := hwAdcReadMiniVolt_start hprogram
    exact nofun

/-! ## Runs -/

variable {init : ℕ → Bool}

theorem samplesOwn_of_kept {s : PortState (AdcRead t inst) Unit Unit ℕ AdcOpStatus}
    (hkept : (adcDiscipline t inst init).Kept s)
    (htracked : (adcDiscipline t inst init).Tracked s) : SamplesOwn s := by
  intro x hx hok
  obtain ⟨hret, hwaited, hseen⟩ := htracked.log x hx
  rw [hok] at hret
  have hpc := hwAdcReadMiniVolt_ret_ok hret
  rw [hpc] at hwaited
  obtain ⟨e, htook, hreq⟩ := List.map_eq_singleton_iff.mp hwaited
  have he : e ∈ x.running.took := htook ▸ List.mem_singleton_self e
  obtain ⟨hticket, hdone⟩ := hkept.log x hx e he
  refine ⟨e.2, hseen e he, ?_, hdone, ?_⟩
  · rw [hticket, hreq]
  · unfold adcItemRaw
    rw [htook]
    rfl

/-- In a run in which the conversions are started undisturbed, and with the group set to the channel
of the call, the samples belong to their calls. -/
theorem samplesOwn_of_allSteps (t : PinTables) (inst : ℕ) (init : ℕ → Bool)
    (es : List (PortEvent (AdcRead t inst) Unit))
    (h : AllSteps (adcPort t inst init).step (adcDiscipline t inst init).Clean
      (adcPort t inst init).init es) :
    Always (adcPort t inst init).step SamplesOwn (adcPort t inst init).init es := by
  have hkept := Discipline.always_kept _ h
  have htracked := Discipline.always_tracked (adcDiscipline t inst init) es
  exact (hkept.and htracked).imp fun s hs => samplesOwn_of_kept hs.1 hs.2

/-- A call for a channel of the first instance of the board. -/
def adcReadCall (ch : ℕ) (h : (stm32f207Tables.adcChannel ch).inst = 0) :
    PortEvent (AdcRead stm32f207Tables 0) Unit := .call 0 ⟨ch, true, h⟩

/-- A task reads a channel, and the conversion is complete in time. -/
def adcOneRead : List (PortEvent (AdcRead stm32f207Tables 0) Unit) :=
  [adcReadCall 3 rfl, .run 0 .go, .run 0 (.on ()), .done () true 1234, .run 0 .go, .run 0 .go,
    .run 0 .go]

/-- The run of one call is clean, and its sample is its own. -/
theorem samplesOwn_oneRead :
    Always (adcPort stm32f207Tables 0 fun _ => true).step SamplesOwn
      (adcPort stm32f207Tables 0 fun _ => true).init adcOneRead := by
  refine samplesOwn_of_allSteps stm32f207Tables 0 (fun _ => true) adcOneRead
    ⟨trivial, Discipline.clean_run _ _ rfl nofun, ?_, nofun, Discipline.clean_run _ _ rfl nofun,
      Discipline.clean_run _ _ rfl nofun, Discipline.clean_run _ _ rfl nofun, trivial⟩
  intro r chans req x hr hprogram
  cases hr
  cases hprogram
  constructor
  · intro k hk
    refine Discipline.undisturbed_of_alone _ _ _ _ (fun _ => rfl) (fun _ => rfl) fun u hu => ?_
    exact (Function.update_of_ne hu _ _).trans (Function.update_of_ne hu _ fun _ => none)
  · intro k hk i q hi
    cases hi
    rfl
  · exact nofun

/-- The conversion of a call that has timed out is complete before it is stopped; the next call
returns its value for another channel. -/
def adcLateRead : List (PortEvent (AdcRead stm32f207Tables 0) Unit) :=
  [adcReadCall 0 rfl, .run 0 .go, .run 0 (.on ()), .run 0 .fail, .done () true 77, .run 0 .go,
    .run 0 .go, adcReadCall 1 rfl, .run 0 .go, .run 0 (.on ()), .run 0 .go, .run 0 .go, .run 0 .go]

theorem not_samplesOwn_late :
    ¬ Always (adcPort stm32f207Tables 0 fun _ => true).step SamplesOwn
      (adcPort stm32f207Tables 0 fun _ => true).init adcLateRead :=
  fun h => absurd h.last (by decide +kernel)

end WLink.Driver
