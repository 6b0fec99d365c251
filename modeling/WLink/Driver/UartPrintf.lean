import WLink.Lib.CString
import WLink.Lib.Exec
import WLink.Lib.Polls

/-!
# `UART_Printf`

What is logged is formatted into a buffer of 256 bytes, of which `vsnprintf` writes what it stores of
the text and the NUL. The loop goes up to the number that it returns, which is the length of the
whole text. `PrintfSends` says that what has been stored of the text is sent and that nothing else is
read; `printfSends_iff` says that this is so up to 255 bytes.
-/

namespace WLink.Driver

open Lib

/-- What `vsnprintf` makes of its arguments: a text, or a negative result. -/
inductive Formatted
  | text (bytes : List UInt8)
  | failed (len : ℤ) (hlen : len < 0)

namespace Formatted

def bytes : Formatted → List UInt8
  | text bytes => bytes
  | failed _ _ => []

/-- The result of `vsnprintf`: the number of bytes that there would be with enough space. -/
def len : Formatted → ℤ
  | text bytes => bytes.length
  | failed len _ => len

/-- What `vsnprintf` writes into a buffer of `size` bytes. -/
def stored (size : ℕ) : Formatted → List UInt8
  | text bytes => bytes.take (size - 1) ++ [0]
  | failed _ _ => []

/-- A buffer of `size` bytes behind `vsnprintf`; a byte that has not been written is nothing. -/
def buffer (size : ℕ) (f : Formatted) : List (Option UInt8) :=
  (f.stored size).map some ++ List.replicate (size - (f.stored size).length) none

end Formatted

/-- `sizeof(buffer)` -/
def printfSize : ℕ := 256

/-- How far the loop of `UART_Printf` is, and what it has sent. -/
structure PrintfState where
  i : ℕ
  sent : List UInt8

/-- A byte of the buffer: one that nobody has written, or that is behind the buffer, is not to be
read. -/
def bufferAt (buffer : List (Option UInt8)) (i : ℕ) : Option UInt8 := (buffer[i]?).join

/-- The loop of `UART_Printf`, which polls until a byte is taken. `MAP_UARTCharPutNonBlocking` gets
the byte itself, so that it is read in front of each poll (`early`); `HAL_UART_Transmit` gets its
address, and reads it when it takes it. A transmission that is not refused as `HAL_BUSY` succeeds: no
one increments the tick of the HAL, so that its timeout is never over. -/
def printfLoop (early : Bool) (buffer : List (Option UInt8)) (len : ℤ) :
    Poller Bool PrintfState (Except Fault Unit) where
  test := fun s =>
    -- `len` is the result of `vsnprintf`, not the size of the buffer
    if (s.i : ℤ) < len then
      if early = true ∧ bufferAt buffer s.i = none then some (.error .read) else none
    else some (.ok ())
  ask := fun s takes =>
    if takes = true then
      match bufferAt buffer s.i with
      | some b => .ok ⟨s.i + 1, s.sent ++ [b]⟩
      | none => .error (.error .read)
    else .ok s

/-- The loop ends without reading what it should not, and has sent the first 255 bytes of the text or
as many as there are. -/
def PrintfSends (early : Bool) (f : Formatted) (takes : ℕ → Bool) : Prop :=
  ∃ polls s, (printfLoop early (f.buffer printfSize) f.len).Ends takes ⟨0, []⟩ polls s (.ok ()) ∧
    s.sent = f.bytes.take 255

/-- `UART_Printf` of the STM32, which formats only if the UART of the log is initialised. -/
def Stm32PrintfRight (init : Bool) (f : Formatted) (takes : ℕ → Bool) : Prop :=
  init = true → PrintfSends false f takes

/-- `UART_Printf` of the TM4C1294 -/
def Tm4cPrintfRight (f : Formatted) (takes : ℕ → Bool) : Prop := PrintfSends true f takes

/-! ## The buffer -/

section Buffer

variable {f : Formatted} {size i : ℕ} {b : UInt8}

theorem bufferAt_buffer (f : Formatted) (size i : ℕ) :
    bufferAt (f.buffer size) i = (f.stored size)[i]? := by
  unfold bufferAt Formatted.buffer
  rcases Nat.lt_or_ge i (f.stored size).length with hlt | hle
  · rw [List.getElem?_append_left (by rwa [List.length_map]), List.getElem?_map,
      List.getElem?_eq_getElem hlt]
    rfl
  · rw [List.getElem?_append_right (by rwa [List.length_map]), List.getElem?_eq_none hle]
    rw [List.getElem?_replicate]
    split_ifs <;> rfl

theorem length_stored_le (f : Formatted) : (f.stored printfSize).length ≤ 256 := by
  cases f with
  | failed len hneg => exact Nat.zero_le _
  | text bytes =>
    change (bytes.take 255 ++ [0]).length ≤ 256
    rw [List.length_append, List.length_take, List.length_singleton]
    omega

theorem length_bytes_le (hlen : f.len ≤ 255) : f.bytes.length ≤ 255 := by
  cases f with
  | failed len hneg => exact Nat.zero_le _
  | text bytes =>
    have h : (bytes.length : ℤ) ≤ 255 := hlen
    change bytes.length ≤ 255
    omega

/-- Of a text that fits, the whole is stored. -/
theorem take_stored (hlen : f.len ≤ 255) : (f.stored printfSize).take f.len.toNat = f.bytes := by
  cases f with
  | failed len hneg => exact List.take_nil
  | text bytes =>
    have hle : bytes.length ≤ 255 := length_bytes_le hlen
    change (bytes.take 255 ++ [0]).take bytes.length = bytes
    rw [List.take_of_length_le hle, List.take_left]

end Buffer

/-! ## The loop -/

section Loop

variable {early : Bool} {f : Formatted} {takes : ℕ → Bool} {p polls : ℕ} {s : PrintfState}

/-- The loop has sent the first bytes of what is stored, one for each poll at which a byte has been
taken, and not more than there should be. -/
def PrintfInv (f : Formatted) (takes : ℕ → Bool) (p : ℕ) (s : PrintfState) : Prop :=
  s.i = taken takes p ∧ s.sent = (f.stored printfSize).take s.i ∧
    s.i ≤ (f.stored printfSize).length ∧ (s.i : ℤ) ≤ max f.len 0

theorem printfInv_zero (f : Formatted) (takes : ℕ → Bool) : PrintfInv f takes 0 ⟨0, []⟩ :=
  ⟨rfl, rfl, Nat.zero_le _, le_max_right _ _⟩

theorem PrintfInv.ask {s' : PrintfState} (h : PrintfInv f takes p s) (htest : (s.i : ℤ) < f.len)
    (hask : (printfLoop early (f.buffer printfSize) f.len).ask s (takes p) = .ok s') :
    PrintfInv f takes (p + 1) s' := by
  obtain ⟨hi, hsent, hle, hlen⟩ := h
  change (if takes p = true then _ else _) = _ at hask
  cases hp : takes p
  · -- the byte is tried again
    rw [hp, if_neg Bool.false_ne_true] at hask
    cases hask
    exact ⟨hi.trans (taken_not_ready hp).symm, hsent, hle, hlen⟩
  · rw [hp, if_pos rfl, bufferAt_buffer] at hask
    cases hcell : (f.stored printfSize)[s.i]? with
    | none =>
      rw [hcell] at hask
      exact absurd hask nofun
    | some b =>
      rw [hcell] at hask
      cases hask
      obtain ⟨hlt, -⟩ := List.getElem?_eq_some_iff.mp hcell
      refine ⟨?_, ?_, hlt, ?_⟩
      · rw [taken_ready hp, hi]
      · rw [List.take_add_one, hcell, hsent]
        rfl
      · push_cast
        omega

theorem printfLoop_test_none (h : (printfLoop early (f.buffer printfSize) f.len).test s = none) :
    (s.i : ℤ) < f.len := by
  by_contra hle
  have hend : (printfLoop early (f.buffer printfSize) f.len).test s = some (.ok ()) := if_neg hle
  rw [hend] at h
  exact absurd h nofun

/-- The loop has come to its end. -/
theorem printfInv_of_ends (h : (printfLoop early (f.buffer printfSize) f.len).Ends takes ⟨0, []⟩
    polls s (.ok ())) : PrintfInv f takes polls s ∧ f.len ≤ s.i := by
  have hkeeps := h.keeps (printfInv_zero f takes) fun i x x' hx htest hask =>
    hx.ask (printfLoop_test_none htest) hask
  rcases hkeeps with ⟨hinv, htest⟩ | ⟨i, -, -, -, hask⟩
  · refine ⟨hinv, ?_⟩
    by_contra hlt
    change (if (s.i : ℤ) < f.len then _ else _) = _ at htest
    rw [if_pos (not_le.mp hlt)] at htest
    split_ifs at htest
    cases htest
  · change (if takes i = true then _ else _) = _ at hask
    split_ifs at hask
    split at hask <;> cases hask

/-- The state of the loop after some polls. -/
def printfAt (f : Formatted) (takes : ℕ → Bool) (p : ℕ) : PrintfState :=
  ⟨taken takes p, (f.stored printfSize).take (taken takes p)⟩

/-- There is a byte to read for each byte of a text that fits. -/
theorem exists_stored {i : ℕ} (hlen : f.len ≤ 255) (hi : (i : ℤ) < f.len) :
    ∃ b, (f.stored printfSize)[i]? = some b := by
  cases f with
  | failed len hneg =>
    have hi' : (i : ℤ) < len := hi
    omega
  | text bytes =>
    have hi' : (i : ℤ) < bytes.length := hi
    have hle : (bytes.length : ℤ) ≤ 255 := hlen
    refine ⟨_, List.getElem?_eq_getElem ?_⟩
    change _ < (bytes.take 255 ++ [0]).length
    rw [List.length_append, List.length_take]
    omega

/-- Until the text is over, the loop goes on with each byte that is taken. -/
theorem printfLoop_after (hlen : f.len ≤ 255) (hgo : ∀ q < p, (taken takes q : ℤ) < f.len) :
    (printfLoop early (f.buffer printfSize) f.len).after takes ⟨0, []⟩ p =
      (printfLoop early (f.buffer printfSize) f.len).enter p
        (printfAt f takes p) := by
  refine Poller.after_eq (printfAt f takes) rfl fun q hq => ?_
  have hlt := hgo q hq
  obtain ⟨b, hb⟩ := exists_stored hlen hlt
  constructor
  · change (if (taken takes q : ℤ) < f.len then _ else _) = _
    rw [if_pos hlt]
    refine if_neg fun hearly => ?_
    have hcell : (f.stored printfSize)[taken takes q]? = none :=
      (bufferAt_buffer f printfSize _).symm.trans hearly.2
    exact absurd (hb.symm.trans hcell) nofun
  · change (if takes q = true then _ else _) = _
    cases htakes : takes q
    · unfold printfAt
      rw [if_neg Bool.false_ne_true, taken_not_ready htakes]
    · have hcell : bufferAt (f.buffer printfSize) (printfAt f takes q).i = some b :=
        (bufferAt_buffer f printfSize _).trans hb
      rw [if_pos rfl, hcell]
      unfold printfAt
      rw [taken_ready htakes, List.take_add_one, hb]
      rfl

/-- The loop sends what it should of a text of at most 255 bytes, if these are all taken in the end,
and of no longer text. -/
theorem printfSends_iff (early : Bool) (f : Formatted) (takes : ℕ → Bool) :
    PrintfSends early f takes ↔ f.len ≤ 255 ∧ ∃ p, f.len ≤ (taken takes p : ℤ) := by
  constructor
  · rintro ⟨polls, s, hends, hsent⟩
    obtain ⟨⟨hi, hsent', hle, -⟩, hlen⟩ := printfInv_of_ends hends
    refine ⟨?_, polls, by rw [← hi]; exact hlen⟩
    -- a longer text would have been sent with its NUL
    by_contra hlong
    have hstored := length_stored_le f
    have hlength := congrArg List.length (hsent'.symm.trans hsent)
    rw [List.length_take, List.length_take] at hlength
    omega
  · rintro ⟨hlen, hex⟩
    obtain ⟨p, hp, hfirst⟩ : ∃ p, f.len ≤ taken takes p ∧ ∀ q < p, (taken takes q : ℤ) < f.len :=
      ⟨Nat.find hex, Nat.find_spec hex, fun q hq => not_le.mp (Nat.find_min hex hq)⟩
    refine ⟨p, _, Poller.ends_of_test (printfLoop_after hlen hfirst) (if_neg (not_lt.mpr hp)), ?_⟩
    obtain ⟨q, hq, htaken⟩ := exists_taken_eq (show f.len.toNat ≤ taken takes p by omega)
    obtain rfl : q = p := by
      by_contra hne
      have hlt := hfirst q (by omega)
      omega
    change (f.stored printfSize).take (taken takes q) = f.bytes.take 255
    rw [htaken, take_stored hlen, List.take_of_length_le (length_bytes_le hlen)]

end Loop

/-- `UART_Printf` of the STM32 and of the TM4C1294 send what has been formatted, and nothing else, if
it is not longer than 255 bytes and the UART takes it in the end. -/
theorem printfRight_iff (init : Bool) (f : Formatted) (takes : ℕ → Bool) :
    (Stm32PrintfRight init f takes ↔
      init = false ∨ f.len ≤ 255 ∧ ∃ p, f.len ≤ (taken takes p : ℤ)) ∧
    (Tm4cPrintfRight f takes ↔ f.len ≤ 255 ∧ ∃ p, f.len ≤ (taken takes p : ℤ)) := by
  refine ⟨?_, printfSends_iff true f takes⟩
  unfold Stm32PrintfRight
  rw [printfSends_iff]
  cases init <;> simp

/-- What `HTTP_Server_Task` logs of a request of its first client. -/
def requestUrlLine (url : List UInt8) : Formatted :=
  .text (ascii "[0] Request URL = " ++ url ++ ascii "\n")

/-- A long URL is sent with what is behind the buffer. -/
theorem not_printfRight_url :
    ¬ Stm32PrintfRight true (requestUrlLine (List.replicate 300 97)) (fun _ => true) ∧
      ¬ Tm4cPrintfRight (requestUrlLine (List.replicate 300 97)) (fun _ => true) := by
  have hlen : ¬ (requestUrlLine (List.replicate 300 97)).len ≤ 255 := by decide +kernel
  refine ⟨fun h => ?_, fun h => ?_⟩
  · exact hlen ((printfSends_iff _ _ _).mp (h rfl)).1
  · exact hlen ((printfSends_iff _ _ _).mp h).1

end WLink.Driver
