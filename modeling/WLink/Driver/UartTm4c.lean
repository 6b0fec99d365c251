import WLink.Driver.UartLoops
import WLink.Lib.Polls

/-!
# `UART_Read` and `UART_Write` of the TM4C1294

Both poll a FIFO and sleep for a millisecond after each poll that finds it not ready. The loop of
`UART_Read` has no way out for a character, and the time is compared the wrong way around: any time
but none is up after the first millisecond. `ReadRight` and `WriteRight` say that a call ends,
that no byte is lost or sent twice and that `hwUART_Busy` means that the time was up, and
`tm4cTransfersRight_iff` says when they hold.
-/

namespace WLink.Driver

open Lib

/-- `hwUART_Index_MAX` -/
def tm4cUartMax : ℕ := 8

/-- What is polled gives a negative `char`: no character is -1, and `charSigned` says that the
compiler takes a `char` as signed. -/
def recvNegative (charSigned : Bool) : Option UInt8 → Bool
  | none => charSigned
  | some b => charSigned && decide (128 ≤ b.toNat)

/-- `wait_ms++`, and `timeoutMs>=wait_ms` -/
def timeIsUp (timeoutMs waitMs : ℕ) : Bool := decide ((waitMs + 1) % 2 ^ 32 ≤ timeoutMs)

/-- The inner loop of `UART_Read`, which counts `wait_ms`. There is no `break`: the next poll
comes also after a character. -/
def recvLoop (charSigned : Bool) (timeoutMs : ℕ) : Poller (Option UInt8) ℕ UartOpResult where
  test := fun _ => none
  ask := fun waitMs recv =>
    -- a character that is not negative is taken from the FIFO and forgotten
    if recvNegative charSigned recv = true then
      if timeIsUp timeoutMs waitMs = true then .error .busy else .ok ((waitMs + 1) % 2 ^ 32)
    else .ok waitMs

/-- What `UART_Write` counts, and the offsets of the bytes that the FIFO has taken. -/
structure SendState where
  sendBytes : ℕ
  waitMs : ℕ
  sent : List ℕ

/-- The loops of `UART_Write`. A `uint16_t` counts the bytes. -/
def sendLoop (size timeoutMs : ℕ) : Poller Bool SendState UartOpResult where
  test := fun s => if s.sendBytes < size then none else some (.count s.sendBytes)
  ask := fun s ready =>
    -- `send_bytes++`, and `wait_ms = 0` for the next byte
    if ready = true then .ok ⟨(s.sendBytes + 1) % 65536, 0, s.sent ++ [s.sendBytes]⟩
    else if timeIsUp timeoutMs s.waitMs = true then .error .busy
    else .ok { s with waitMs := (s.waitMs + 1) % 2 ^ 32 }

/-- A call of `UART_Read` returns after some polls, with some bytes in its buffer. The
inner loop is never left but by `return`, so that no byte is written. -/
def ReadReturns (charSigned : Bool) (index : ℕ) (dataRd : Bool) (size timeoutMs : ℕ)
    (recv : ℕ → Option UInt8) (polls : ℕ) (data : List UInt8) (result : UartOpResult) : Prop :=
  data = [] ∧
    if tm4cUartMax ≤ index ∨ dataRd = false then polls = 0 ∧ result = .invalidParameter
    else if 0 < size then
      ∃ waitMs, (recvLoop charSigned timeoutMs).Ends recv 0 polls waitMs result
    else polls = 0 ∧ result = .count 0

/-- A call of `UART_Write` returns after some polls, with the bytes at some offsets sent. -/
def WriteReturns (index size timeoutMs : ℕ) (ready : ℕ → Bool) (polls : ℕ) (sent : List ℕ)
    (result : UartOpResult) : Prop :=
  if tm4cUartMax ≤ index then polls = 0 ∧ sent = [] ∧ result = .invalidParameter
  else
    ∃ s, (sendLoop size timeoutMs).Ends ready ⟨0, 0, []⟩ polls s result ∧ s.sent = sent

/-- `hwUART_Busy` means that at the end the FIFO has not been ready for as many polls as it should
have been waited for. -/
def BusyRight (shortEnums : Bool) (timeoutMs : ℕ) (ready : ℕ → Bool) (polls : ℕ)
    (result : UartOpResult) : Prop :=
  result.value shortEnums = UartOpResult.busy.value shortEnums → timeoutMs ≤ waited ready polls

/-- `UART_Read` returns, and its buffer has what it has taken out of the FIFO. -/
def ReadRight (charSigned shortEnums : Bool) (index : ℕ) (dataRd : Bool) (size timeoutMs : ℕ)
    (recv : ℕ → Option UInt8) : Prop :=
  ∃ polls data result,
    ReadReturns charSigned index dataRd size timeoutMs recv polls data result ∧
      data = (List.range polls).filterMap recv ∧
      BusyRight shortEnums timeoutMs (fun i => (recv i).isSome) polls result

/-- `UART_Write` returns, has sent the first bytes of its buffer in order, and all of them if it
returns a number. -/
def WriteRight (shortEnums : Bool) (index size timeoutMs : ℕ) (ready : ℕ → Bool) : Prop :=
  ∃ polls sent result,
    WriteReturns index size timeoutMs ready polls sent result ∧
      (∃ k ≤ size, sent = List.range k) ∧ (∀ n, result = .count n → sent = List.range size) ∧
      BusyRight shortEnums timeoutMs ready polls result

/-- The polls in a row at which the FIFO is not ready after which the time is up. With no time at
all it is up when `wait_ms` has wrapped around. -/
def patience (timeoutMs : ℕ) : ℕ := if 1 ≤ timeoutMs then 1 else 2 ^ 32

/-! ## The time -/

section Time

variable {timeoutMs w : ℕ}

theorem patience_pos (timeoutMs : ℕ) : 0 < patience timeoutMs := by
  unfold patience
  split_ifs <;> omega

/-- What `hwUART_Busy` says is right for no time and for a millisecond. -/
theorem le_patience_iff (timeoutMs : ℕ) : timeoutMs ≤ patience timeoutMs ↔ timeoutMs ≤ 1 := by
  unfold patience
  split_ifs <;> omega

theorem timeIsUp_iff (hw : w < patience timeoutMs) :
    timeIsUp timeoutMs w = true ↔ w + 1 = patience timeoutMs := by
  unfold timeIsUp patience at *
  rw [decide_eq_true_iff]
  split_ifs at * <;> omega

theorem waitMs_eq (hw : w + 1 < patience timeoutMs) : (w + 1) % 2 ^ 32 = w + 1 := by
  refine Nat.mod_eq_of_lt (hw.trans_le ?_)
  unfold patience
  split_ifs <;> omega

end Time

/-! ## `UART_Read` -/

section Read

variable {charSigned shortEnums : Bool} {index size timeoutMs : ℕ} {dataRd : Bool}
variable {recv : ℕ → Option UInt8} {polls p : ℕ} {data : List UInt8} {result : UartOpResult}

/-- While there is no character, the loop counts until the time is up. -/
theorem recvLoop_after (hsigned : charSigned = true) (hp : p < patience timeoutMs)
    (hnone : ∀ i < p, recv i = none) :
    (recvLoop charSigned timeoutMs).after recv 0 p =
      (recvLoop charSigned timeoutMs).enter p p := by
  refine Poller.after_eq (fun i => i) rfl fun i hi => ⟨rfl, ?_⟩
  have hup : ¬ timeIsUp timeoutMs i = true := by
    rw [timeIsUp_iff (hi.trans hp)]
    omega
  change (if recvNegative charSigned (recv i) = true then
    if timeIsUp timeoutMs i = true then _ else _ else _) = _
  rw [hnone i hi, if_pos (show recvNegative charSigned none = true from hsigned), if_neg hup,
    waitMs_eq (show i + 1 < patience timeoutMs by omega)]

theorem recvLoop_ends (hsigned : charSigned = true)
    (hnone : ∀ i < patience timeoutMs, recv i = none) :
    (recvLoop charSigned timeoutMs).Ends recv 0 (patience timeoutMs) (patience timeoutMs - 1)
      .busy := by
  obtain ⟨p, hp⟩ : ∃ p, patience timeoutMs = p + 1 :=
    Nat.exists_eq_add_one.mpr (patience_pos timeoutMs)
  have hup : timeIsUp timeoutMs p = true := (timeIsUp_iff (by omega)).mpr hp.symm
  rw [hp, Nat.add_sub_cancel]
  have hafter := recvLoop_after hsigned (show p < patience timeoutMs by omega) fun i hi =>
    hnone i (by omega)
  refine Poller.ends_of_ask hafter rfl ?_
  change (if recvNegative charSigned (recv p) = true then _ else _) = _
  rw [hnone p (by omega), if_pos (show recvNegative charSigned none = true from hsigned),
    if_pos hup]

/-- With an unsigned `char` nothing is ever negative. -/
theorem not_recvLoop_ends (hsigned : charSigned = false) {waitMs : ℕ} :
    ¬ (recvLoop charSigned timeoutMs).Ends recv 0 polls waitMs result := by
  refine Poller.not_ends (fun _ => 0) rfl fun i => ⟨rfl, ?_⟩
  have hnegative : ¬ recvNegative charSigned (recv i) = true := by
    rw [hsigned]
    cases recv i <;> exact Bool.noConfusion
  exact if_neg hnegative

/-- A call that loses no character has found none until the time was up. -/
theorem recvLoop_of_ends {waitMs : ℕ}
    (h : (recvLoop charSigned timeoutMs).Ends recv 0 polls waitMs result)
    (hnone : ∀ i < polls, recv i = none) :
    charSigned = true ∧ polls = patience timeoutMs ∧ result = .busy := by
  have hsigned : charSigned = true := by
    by_contra hnot
    exact not_recvLoop_ends (Bool.eq_false_iff.mpr hnot) h
  have hle : patience timeoutMs ≤ polls := by
    by_contra hlt
    -- the loop still asks then
    have hasks := recvLoop_after hsigned (not_le.mp hlt) hnone
    rw [h.after] at hasks
    exact absurd hasks nofun
  -- so that it is the run that waits for nothing
  obtain ⟨hpolls, -, hresult⟩ := h.unique
    (recvLoop_ends hsigned fun i hi => hnone i (hi.trans_le hle))
  exact ⟨hsigned, hpolls, hresult⟩

theorem filterMap_range_eq_nil : (List.range p).filterMap recv = [] ↔ ∀ i < p, recv i = none := by
  simp [List.filterMap_eq_nil_iff]

/-- `UART_Read` keeps what it promises if there is nothing to read, or if no character comes before
the time is up and that is at most a millisecond. -/
theorem readRight_iff (charSigned shortEnums : Bool) (index : ℕ) (dataRd : Bool)
    (size timeoutMs : ℕ) (recv : ℕ → Option UInt8) :
    ReadRight charSigned shortEnums index dataRd size timeoutMs recv ↔
      (tm4cUartMax ≤ index ∨ dataRd = false) ∨ size = 0 ∨
        charSigned = true ∧ timeoutMs ≤ 1 ∧ ∀ i < patience timeoutMs, recv i = none := by
  unfold ReadRight ReadReturns BusyRight
  by_cases hrefused : tm4cUartMax ≤ index ∨ dataRd = false
  · refine iff_of_true ⟨0, [], .invalidParameter, ⟨rfl, ?_⟩, rfl, fun h => ?_⟩ (.inl hrefused)
    · rw [if_pos hrefused]
      exact ⟨rfl, rfl⟩
    · exact absurd h (by cases shortEnums <;> decide)
  rcases Nat.eq_zero_or_pos size with hsize | hsize
  · refine iff_of_true ⟨0, [], .count 0, ⟨rfl, ?_⟩, rfl, fun h => ?_⟩ (.inr (.inl hsize))
    · rw [if_neg hrefused, if_neg (by omega)]
      exact ⟨rfl, rfl⟩
    · exact absurd h (by cases shortEnums <;> decide)
  simp only [if_neg hrefused, if_pos hsize]
  constructor
  · rintro ⟨polls, data, result, ⟨rfl, waitMs, hends⟩, hdata, hbusy⟩
    have hnone := filterMap_range_eq_nil.mp hdata.symm
    obtain ⟨hsigned, rfl, rfl⟩ := recvLoop_of_ends hends hnone
    refine .inr (.inr ⟨hsigned, ?_, hnone⟩)
    exact (le_patience_iff timeoutMs).mp ((hbusy rfl).trans (waited_le _ _))
  · rintro (h | h | ⟨hsigned, htime, hnone⟩)
    · exact absurd h hrefused
    · omega
    · refine ⟨patience timeoutMs, [], .busy, ⟨rfl, _, recvLoop_ends hsigned hnone⟩,
        (filterMap_range_eq_nil.mpr hnone).symm, fun _ => ?_⟩
      rw [waited_eq_self fun i hi => by rw [hnone i hi]; rfl]
      exact (le_patience_iff timeoutMs).mpr htime

end Read

/-! ## `UART_Write` -/

section Write

variable {shortEnums : Bool} {index size timeoutMs : ℕ} {ready : ℕ → Bool} {polls p i : ℕ}

/-- The state of `UART_Write` after some polls. -/
def sendAt (ready : ℕ → Bool) (p : ℕ) : SendState :=
  ⟨taken ready p % 65536, waited ready p, (List.range (taken ready p)).map (· % 65536)⟩

theorem sendLoop_test (h : taken ready p % 65536 < size) :
    (sendLoop size timeoutMs).test (sendAt ready p) = none := if_pos h

theorem sendLoop_ask (hp : waited ready p < patience timeoutMs)
    (hp' : waited ready (p + 1) < patience timeoutMs) :
    (sendLoop size timeoutMs).ask (sendAt ready p) (ready p) = .ok (sendAt ready (p + 1)) := by
  change (if ready p = true then _ else _) = _
  unfold sendAt
  cases hready : ready p
  · rw [waited_not_ready hready] at hp' ⊢
    have hup : ¬ timeIsUp timeoutMs (waited ready p) = true := by
      rw [timeIsUp_iff hp]
      omega
    rw [if_neg Bool.false_ne_true, if_neg hup, taken_not_ready hready, waitMs_eq hp']
  · rw [if_pos rfl, taken_ready hready, waited_ready hready, List.range_succ, List.map_append,
      Nat.mod_add_mod]
    rfl

theorem sendLoop_after (hpatient : ∀ q ≤ p, waited ready q < patience timeoutMs)
    (hgo : ∀ q < p, taken ready q % 65536 < size) :
    (sendLoop size timeoutMs).after ready ⟨0, 0, []⟩ p =
      (sendLoop size timeoutMs).enter p (sendAt ready p) :=
  Poller.after_eq (sendAt ready) rfl fun q hq => ⟨sendLoop_test (hgo q hq),
    sendLoop_ask (hpatient q hq.le) (hpatient (q + 1) hq)⟩

/-- The time is up at the first row of polls that is long enough. -/
theorem sendLoop_busy (hwait : waited ready (i + 1) = patience timeoutMs) (hready : ready i = false)
    (hpatient : ∀ q ≤ i, waited ready q < patience timeoutMs)
    (hgo : ∀ q ≤ i, taken ready q % 65536 < size) :
    (sendLoop size timeoutMs).Ends ready ⟨0, 0, []⟩ (i + 1) (sendAt ready i) .busy := by
  refine Poller.ends_of_ask (sendLoop_after hpatient fun q hq => hgo q hq.le)
    (sendLoop_test (hgo i le_rfl)) ?_
  have hup : timeIsUp timeoutMs (waited ready i) = true := by
    rw [timeIsUp_iff (hpatient i le_rfl), ← waited_not_ready hready, hwait]
  change (if ready i = true then _ else _) = _
  rw [hready, if_neg Bool.false_ne_true]
  exact if_pos hup

/-- All bytes have been sent. -/
theorem sendLoop_count (hsize : size ≤ 65535) (htaken : taken ready p = size)
    (hfirst : ∀ q < p, taken ready q < size)
    (hpatient : ∀ q ≤ p, waited ready q < patience timeoutMs) :
    (sendLoop size timeoutMs).Ends ready ⟨0, 0, []⟩ p (sendAt ready p) (.count size) := by
  refine Poller.ends_of_test (sendLoop_after hpatient fun q hq => ?_) ?_
  · have hlt := hfirst q hq
    rw [Nat.mod_eq_of_lt (by omega)]
    exact hlt
  · have hmod : taken ready p % 65536 = size := by
      rw [htaken]
      exact Nat.mod_eq_of_lt (by omega)
    change (if taken ready p % 65536 < size then _ else
      some (UartOpResult.count (taken ready p % 65536))) = _
    rw [hmod, if_neg (lt_irrefl size)]

theorem sent_eq_range {k : ℕ} (hk : k ≤ 65536) :
    (List.range k).map (· % 65536) = List.range k := by
  conv_rhs => rw [← List.map_id (List.range k)]
  exact List.map_congr_left fun i hi => Nat.mod_eq_of_lt ((List.mem_range.mp hi).trans_le hk)

/-- Where the counter has wrapped around, the first byte has been sent again. -/
theorem sent_ne_range {k n : ℕ} (hk : 65536 < k) :
    (List.range k).map (· % 65536) ≠ List.range n := by
  intro heq
  have hlength := congrArg List.length heq
  rw [List.length_map, List.length_range, List.length_range] at hlength
  have hat := congrArg (fun l => l[65536]?) heq
  simp [← hlength, List.getElem?_range hk] at hat

/-- How a call of as many bytes as the counter can hold ends: all of them are sent within the
patience for each, or the time is up for one of them. -/
theorem sendLoop_of_le (hsize : size ≤ 65535) :
    (TakesWithin (patience timeoutMs) ready size ∧ ∃ p, waited ready p = 0 ∧
      (sendLoop size timeoutMs).Ends ready ⟨0, 0, []⟩ p (sendAt ready p) (.count size) ∧
      taken ready p = size) ∨
    (¬ TakesWithin (patience timeoutMs) ready size ∧ ∃ i,
      waited ready (i + 1) = patience timeoutMs ∧
      (sendLoop size timeoutMs).Ends ready ⟨0, 0, []⟩ (i + 1) (sendAt ready i) .busy ∧
      taken ready i < size) := by
  by_cases htakes : TakesWithin (patience timeoutMs) ready size
  · obtain ⟨p, htaken, hfirst, hpatient, hlast⟩ := htakes.first
    exact .inl ⟨htakes, p, hlast, sendLoop_count hsize htaken hfirst hpatient, htaken⟩
  · obtain ⟨i, hready, hwait, hpatient⟩ := exists_first_wait (patience_pos timeoutMs)
      ((exists_waits_or_takes (patience timeoutMs) ready size).resolve_right htakes)
    -- the bytes have not all been taken before, or they would be within the patience
    have hlt : ∀ q ≤ i, taken ready q < size := by
      intro q hq
      by_contra hle
      obtain ⟨q', hq', heq⟩ := exists_taken_eq (not_lt.mp hle)
      exact htakes ⟨q', heq, fun r hr => hpatient r (hr.trans (hq'.trans hq))⟩
    refine .inr ⟨htakes, i, hwait, sendLoop_busy hwait hready hpatient fun q hq => ?_, hlt i le_rfl⟩
    have hq' := hlt q hq
    rw [Nat.mod_eq_of_lt (by omega)]
    exact hq'

/-- How a call of more bytes ends if it does: the time is up, and the bytes are the right ones if
the counter has not come around until then. -/
theorem sendLoop_of_lt (hsize : 65535 < size) :
    ((∃ p, patience timeoutMs ≤ waited ready p) ∧ ∃ i,
      waited ready (i + 1) = patience timeoutMs ∧
      (sendLoop size timeoutMs).Ends ready ⟨0, 0, []⟩ (i + 1) (sendAt ready i) .busy ∧
      (taken ready i ≤ 65536 ↔ ¬ TakesWithin (patience timeoutMs) ready 65537)) ∨
    (TakesWithin (patience timeoutMs) ready 65537 ∧ ∀ polls s result,
      ¬ (sendLoop size timeoutMs).Ends ready ⟨0, 0, []⟩ polls s result) := by
  have hgo : ∀ q, taken ready q % 65536 < size := fun q =>
    (Nat.mod_lt _ (by omega : 65536 > 0)).trans_le (by omega)
  by_cases hwaits : ∃ p, patience timeoutMs ≤ waited ready p
  · -- the loop ends with the first row, whatever it has sent by then
    obtain ⟨i, hready, hwait, hpatient⟩ := exists_first_wait (patience_pos timeoutMs) hwaits
    refine .inl ⟨hwaits, i, hwait, sendLoop_busy hwait hready hpatient fun q _ => hgo q, ?_⟩
    constructor
    · rintro hle ⟨q, htaken, hq⟩
      have hqi : q ≤ i := by
        by_contra hlt
        have hearly := hq (i + 1) (by omega)
        omega
      have hmono := @taken_mono ready q i hqi
      omega
    · intro htakes
      by_contra hlt
      obtain ⟨q, hq, htaken⟩ := exists_taken_eq (not_le.mp hlt)
      exact htakes ⟨q, htaken, fun r hr => hpatient r (hr.trans hq)⟩
  · -- no row is long enough, and the counter is never at the size
    have htakes := (exists_waits_or_takes _ ready 65537).resolve_left hwaits
    push Not at hwaits
    refine .inr ⟨htakes, fun polls s result => ?_⟩
    exact Poller.not_ends (sendAt ready) rfl fun q => ⟨sendLoop_test (hgo q),
      sendLoop_ask (hwaits q) (hwaits (q + 1))⟩

/-- A number of bytes that is returned is taken for `hwUART_Busy` only if it is cut to a byte. -/
theorem value_count_eq_busy {n : ℕ} :
    (UartOpResult.count n).value shortEnums = UartOpResult.busy.value shortEnums ↔
      shortEnums = true ∧ n % 256 = 253 := by
  cases shortEnums with
  | false =>
    change (n : ℤ) = -3 ↔ _
    constructor
    · omega
    · exact fun h => Bool.noConfusion h.1
  | true =>
    change toSigned 8 (n % 256) = -3 ↔ _
    unfold toSigned
    constructor
    · intro h
      split_ifs at h
      exact ⟨rfl, by omega⟩
    · rintro ⟨-, h⟩
      rw [h]
      rfl

/-- A call returns one thing only. -/
theorem writeRight_iff_of_ends {result : UartOpResult} {s : SendState}
    (hindex : index < tm4cUartMax)
    (h : (sendLoop size timeoutMs).Ends ready ⟨0, 0, []⟩ polls s result) :
    WriteRight shortEnums index size timeoutMs ready ↔
      (∃ k ≤ size, s.sent = List.range k) ∧ (∀ n, result = .count n → s.sent = List.range size) ∧
        BusyRight shortEnums timeoutMs ready polls result := by
  unfold WriteRight WriteReturns
  simp only [if_neg (not_le.mpr hindex)]
  constructor
  · rintro ⟨polls', sent, result', ⟨s', hends, rfl⟩, hright⟩
    obtain ⟨rfl, rfl, rfl⟩ := hends.unique h
    exact hright
  · exact fun hright => ⟨polls, s.sent, result, ⟨s, h, rfl⟩, hright⟩

/-- When `UART_Write` keeps what it promises for as many bytes as it can count. -/
theorem writeRight_of_le (hindex : index < tm4cUartMax) (hsize : size ≤ 65535) :
    WriteRight shortEnums index size timeoutMs ready ↔
      (2 ≤ timeoutMs → TakesWithin (patience timeoutMs) ready size) ∧
        (shortEnums = true → 1 ≤ timeoutMs → size % 256 = 253 →
          ¬ TakesWithin (patience timeoutMs) ready size) := by
  rcases @sendLoop_of_le size timeoutMs ready hsize with
    ⟨htakes, p, hlast, hends, htaken⟩ | ⟨htakes, i, hwait, hends, hlt⟩
  · have hsent : (sendAt ready p).sent = List.range size := by
      change (List.range (taken ready p)).map (· % 65536) = _
      rw [htaken, sent_eq_range (by omega)]
    rw [writeRight_iff_of_ends hindex hends]
    unfold BusyRight
    rw [value_count_eq_busy, hlast]
    constructor
    · rintro ⟨-, -, hbusy⟩
      refine ⟨fun _ => htakes, fun hshort htime hmod => ?_⟩
      have hle := hbusy ⟨hshort, hmod⟩
      omega
    · rintro ⟨-, hnever⟩
      refine ⟨⟨size, le_rfl, hsent⟩, fun _ _ => hsent, fun ⟨hshort, hmod⟩ => ?_⟩
      by_contra hpos
      exact hnever hshort (by omega) hmod htakes
  · have hsent : (sendAt ready i).sent = List.range (taken ready i) := sent_eq_range (by omega)
    rw [writeRight_iff_of_ends hindex hends]
    unfold BusyRight
    rw [hwait, le_patience_iff]
    constructor
    · rintro ⟨-, -, hbusy⟩
      refine ⟨fun htime => ?_, fun _ _ _ => htakes⟩
      have hle := hbusy rfl
      omega
    · rintro ⟨hall, -⟩
      refine ⟨⟨_, hlt.le, hsent⟩, nofun, fun _ => ?_⟩
      by_contra htime
      exact htakes (hall (by omega))

/-- When it does for more bytes. -/
theorem writeRight_of_lt (hindex : index < tm4cUartMax) (hsize : 65535 < size) :
    WriteRight shortEnums index size timeoutMs ready ↔
      timeoutMs ≤ 1 ∧ ¬ TakesWithin (patience timeoutMs) ready 65537 := by
  rcases @sendLoop_of_lt size timeoutMs ready hsize with
    ⟨-, i, hwait, hends, hle⟩ | ⟨htakes, hnever⟩
  · rw [writeRight_iff_of_ends hindex hends, ← hle]
    unfold BusyRight
    rw [hwait, le_patience_iff]
    constructor
    · rintro ⟨⟨k, -, hsent⟩, -, hbusy⟩
      refine ⟨hbusy rfl, ?_⟩
      by_contra hlt
      exact sent_ne_range (not_le.mp hlt) hsent
    · rintro ⟨htime, hlt⟩
      exact ⟨⟨_, by omega, sent_eq_range hlt⟩, nofun, fun _ => htime⟩
  · refine iff_of_false ?_ fun h => h.2 htakes
    rintro ⟨polls, sent, result, hreturns, -⟩
    unfold WriteReturns at hreturns
    rw [if_neg (not_le.mpr hindex)] at hreturns
    obtain ⟨s, hends, -⟩ := hreturns
    exact hnever polls s result hends

theorem writeRight_iff (shortEnums : Bool) (index size timeoutMs : ℕ) (ready : ℕ → Bool) :
    WriteRight shortEnums index size timeoutMs ready ↔
      tm4cUartMax ≤ index ∨
      (size ≤ 65535 ∧ (2 ≤ timeoutMs → TakesWithin (patience timeoutMs) ready size) ∧
        (shortEnums = true → 1 ≤ timeoutMs → size % 256 = 253 →
          ¬ TakesWithin (patience timeoutMs) ready size)) ∨
      (65535 < size ∧ timeoutMs ≤ 1 ∧ ¬ TakesWithin (patience timeoutMs) ready 65537) := by
  by_cases hindex : tm4cUartMax ≤ index
  · refine iff_of_true ⟨0, [], .invalidParameter, ?_, ⟨0, Nat.zero_le _, rfl⟩, nofun, fun h => ?_⟩
      (.inl hindex)
    · unfold WriteReturns
      rw [if_pos hindex]
      exact ⟨rfl, rfl, rfl⟩
    · exact absurd h (by cases shortEnums <;> decide)
  by_cases hsize : size ≤ 65535
  · rw [writeRight_of_le (not_le.mp hindex) hsize]
    constructor
    · exact fun h => .inr (.inl ⟨hsize, h⟩)
    · rintro (h | h | h)
      · exact absurd h hindex
      · exact h.2
      · omega
  · rw [writeRight_of_lt (not_le.mp hindex) (not_le.mp hsize)]
    constructor
    · exact fun h => .inr (.inr ⟨not_le.mp hsize, h⟩)
    · rintro (h | h | h)
      · exact absurd h hindex
      · omega
      · exact h.2

end Write

/-- When `UART_Read` and `UART_Write` end, lose no byte, send no byte twice and call the FIFO busy
only when the time is up. -/
theorem tm4cTransfersRight_iff (charSigned shortEnums : Bool) (index : ℕ) (dataRd : Bool)
    (size timeoutMs : ℕ) (recv : ℕ → Option UInt8) (ready : ℕ → Bool) :
    (ReadRight charSigned shortEnums index dataRd size timeoutMs recv ↔
      (tm4cUartMax ≤ index ∨ dataRd = false) ∨ size = 0 ∨
        charSigned = true ∧ timeoutMs ≤ 1 ∧ ∀ i < patience timeoutMs, recv i = none) ∧
    (WriteRight shortEnums index size timeoutMs ready ↔
      tm4cUartMax ≤ index ∨
      (size ≤ 65535 ∧ (2 ≤ timeoutMs → TakesWithin (patience timeoutMs) ready size) ∧
        (shortEnums = true → 1 ≤ timeoutMs → size % 256 = 253 →
          ¬ TakesWithin (patience timeoutMs) ready size)) ∨
      (65535 < size ∧ timeoutMs ≤ 1 ∧ ¬ TakesWithin (patience timeoutMs) ready 65537)) :=
  ⟨readRight_iff charSigned shortEnums index dataRd size timeoutMs recv,
    writeRight_iff shortEnums index size timeoutMs ready⟩

/-- A byte that is there is read again and again, and a byte that the FIFO would take after a
millisecond is given up although the caller waits for ten. -/
theorem not_tm4cTransfersRight_one :
    ¬ ReadRight false false 0 true 1 10 (fun _ => some 65) ∧
      ¬ WriteRight false 0 1 10 (fun i => decide (0 < i)) := by
  constructor
  · rw [readRight_iff]
    decide
  · rw [writeRight_of_le (by decide) (by decide)]
    rintro ⟨htakes, -⟩
    exact Bool.noConfusion (takesWithin_one_iff.mp (htakes (by decide)) 0 Nat.zero_lt_one)

end WLink.Driver
