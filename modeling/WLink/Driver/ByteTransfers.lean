import WLink.Driver.SpiTransfer
import WLink.Driver.UartTransfer

/-!
# Bytes on SPI and UART

What the calls of the SPI driver and of the UART driver say of their bytes, and what they leave to
the HAL. In runs in which the calls start their operations while nothing else can signal their
semaphores, and no call gives up an operation that is still in flight, every byte that is reported
has been transferred for the call that reports it, and no operation outlasts its call
(`bytes_transferred`). A call whose time is up leaves its operation active, and the next call takes
its completion (`not_bytes_late`).
-/

namespace WLink.Driver

open Lib

/-- The reported bytes are those of the calls, and nothing is left of calls that have returned. -/
def SpiSound (s : PortState SpiCall Unit SpiSync SpiOp SpiOpResult) : Prop :=
  SpiBytesOwn s ∧ s.NothingLeft

def UartSound (s : PortState UartCall UartDir UartDir UartOp UartOpResult) : Prop :=
  UartBytesOwn s ∧ s.NothingLeft

/-- The operations are started undisturbed, and no call gives one up. -/
def SpiClean (t : PinTables) (index : ℕ) (init : Bool)
    (s : PortState SpiCall Unit SpiSync SpiOp SpiOpResult) (e : PortEvent SpiCall Unit) : Prop :=
  (spiDiscipline t index init).Clean s e ∧ (spiPort t index init).Patient s e

def UartClean (t : PinTables) (index : ℕ) (init : Bool)
    (s : PortState UartCall UartDir UartDir UartOp UartOpResult)
    (e : PortEvent UartCall UartDir) : Prop :=
  (uartDiscipline t index init).Clean s e ∧ (uartPort t index init).Patient s e

section

variable {t : PinTables} {index : ℕ} {init : Bool}

theorem spiSound_of_allSteps {es : List (PortEvent SpiCall Unit)}
    (h : AllSteps (spiPort t index init).step (SpiClean t index init)
      (spiPort t index init).init es) :
    Always (spiPort t index init).step SpiSound (spiPort t index init).init es := by
  have hsettled := Discipline.always_settled (spiDiscipline t index init) (h.imp fun _ _ hs => hs.1)
    (h.imp fun _ _ hs => hs.2)
  have htracked := Discipline.always_tracked (spiDiscipline t index init) es
  exact (hsettled.and htracked).imp fun s hs =>
    ⟨spiBytesOwn_of_kept hs.1.2.1 hs.2, hs.1.1.nothingLeft hs.1.2.2⟩

theorem uartSound_of_allSteps {es : List (PortEvent UartCall UartDir)}
    (h : AllSteps (uartPort t index init).step (UartClean t index init)
      (uartPort t index init).init es) :
    Always (uartPort t index init).step UartSound (uartPort t index init).init es := by
  have hsettled := Discipline.always_settled (uartDiscipline t index init)
    (h.imp fun _ _ hs => hs.1) (h.imp fun _ _ hs => hs.2)
  have htracked := Discipline.always_tracked (uartDiscipline t index init) es
  exact (hsettled.and htracked).imp fun s hs =>
    ⟨uartBytesOwn_of_kept hs.1.2.1 hs.2, hs.1.1.nothingLeft hs.1.2.2⟩

end

/-- In runs of clean steps, on any peripheral of the two kinds. -/
theorem bytes_transferred (t : PinTables) (index : ℕ) (init : Bool)
    (es : List (PortEvent SpiCall Unit)) (es' : List (PortEvent UartCall UartDir)) :
    (AllSteps (spiPort t index init).step (SpiClean t index init) (spiPort t index init).init es →
      Always (spiPort t index init).step SpiSound (spiPort t index init).init es) ∧
    (AllSteps (uartPort t index init).step (UartClean t index init)
        (uartPort t index init).init es' →
      Always (uartPort t index init).step UartSound (uartPort t index init).init es') :=
  ⟨spiSound_of_allSteps, uartSound_of_allSteps⟩

/-- A byte goes out by SPI. -/
def spiOneByte : List (PortEvent SpiCall Unit) :=
  [.call 0 (.writeByte 0x9f), .run 0 .go, .run 0 .go, .run 0 (.on ()), .done () true 0,
    .run 0 .go, .run 0 .go, .run 0 .go]

theorem spiClean_oneByte :
    AllSteps (spiPort stm32f207Tables 0 true).step (SpiClean stm32f207Tables 0 true)
      (spiPort stm32f207Tables 0 true).init spiOneByte := by
  refine ⟨⟨trivial, trivial⟩, ⟨Discipline.clean_run _ _ rfl nofun, trivial⟩,
    ⟨Discipline.clean_run _ _ rfl nofun, trivial⟩, ⟨?_, trivial⟩, ⟨nofun, trivial⟩,
    ⟨Discipline.clean_run _ _ rfl nofun, trivial⟩, ⟨Discipline.clean_run _ _ rfl nofun, trivial⟩,
    ⟨Discipline.clean_run _ _ rfl nofun, trivial⟩, trivial⟩
  intro r chans req x hr hprogram
  cases hr
  cases hprogram
  constructor
  · intro k hk
    refine Discipline.undisturbed_of_alone _ _ _ _ ?_ (fun _ => rfl) fun u hu => ?_
    · intro i
      cases i <;> rfl
    · exact (Function.update_of_ne hu _ _).trans ((Function.update_of_ne hu _ _).trans
        (Function.update_of_ne hu _ fun _ => none))
  · intro k hk i q hi
    cases i
    · exact Option.some.inj hi
    · exact absurd hi nofun
  · exact nofun

/-- A byte comes in by the UART. -/
def uartOneByte : List (PortEvent UartCall UartDir) :=
  [.call 0 (.read true 1), .run 0 .go, .run 0 .go, .run 0 (.on .rx), .done .rx true 0,
    .run 0 .go, .run 0 .go]

theorem uartClean_oneByte :
    AllSteps (uartPort stm32f207Tables 0 true).step (UartClean stm32f207Tables 0 true)
      (uartPort stm32f207Tables 0 true).init uartOneByte := by
  refine ⟨⟨trivial, trivial⟩, ⟨Discipline.clean_run _ _ rfl nofun, trivial⟩,
    ⟨Discipline.clean_run _ _ rfl nofun, trivial⟩, ⟨?_, trivial⟩, ⟨nofun, trivial⟩,
    ⟨Discipline.clean_run _ _ rfl nofun, trivial⟩, ⟨Discipline.clean_run _ _ rfl nofun, trivial⟩,
    trivial⟩
  intro r chans req x hr hprogram
  cases hr
  cases hprogram
  constructor
  · intro k hk
    refine Discipline.undisturbed_of_alone _ _ _ _ ?_ (fun k => ?_) fun u hu => ?_
    · intro i
      cases i <;> rfl
    · cases k <;> rfl
    · exact (Function.update_of_ne hu _ _).trans ((Function.update_of_ne hu _ _).trans
        (Function.update_of_ne hu _ fun _ => none))
  · intro k hk i q hi
    cases i
    · exact Option.some.inj hi
    · exact absurd hi nofun
  · exact nofun

theorem bytes_transferred_one :
    Always (spiPort stm32f207Tables 0 true).step SpiSound
        (spiPort stm32f207Tables 0 true).init spiOneByte ∧
      Always (uartPort stm32f207Tables 0 true).step UartSound
        (uartPort stm32f207Tables 0 true).init uartOneByte :=
  ⟨(bytes_transferred stm32f207Tables 0 true spiOneByte uartOneByte).1 spiClean_oneByte,
    (bytes_transferred stm32f207Tables 0 true spiOneByte uartOneByte).2 uartClean_oneByte⟩

/-- A byte is not out when the time of its call is up. The next call finds the HAL busy, and takes
the late completion for its own. -/
def spiLate : List (PortEvent SpiCall Unit) :=
  [.call 0 (.writeByte 1), .run 0 .go, .run 0 .go, .run 0 (.on ()), .run 0 .fail, .run 0 .go,
    .run 0 .go, .call 0 (.writeByte 2), .run 0 .go, .run 0 .go, .run 0 .fail, .done () true 0,
    .run 0 .go, .run 0 .go, .run 0 .go]

theorem not_bytes_late :
    ¬ Always (spiPort stm32f207Tables 0 true).step SpiBytesOwn
        (spiPort stm32f207Tables 0 true).init spiLate ∧
      ¬ Always (spiPort stm32f207Tables 0 true).step PortState.NothingLeft
        (spiPort stm32f207Tables 0 true).init (spiLate.take 7) := by
  constructor
  · exact fun h => absurd h.last (by decide +kernel)
  · intro h
    exact h.last _ List.mem_cons_self () ⟨0, .transmit 1⟩ rfl rfl

end WLink.Driver
