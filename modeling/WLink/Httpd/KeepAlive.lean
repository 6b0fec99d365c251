import WLink.Httpd.ContentLength

/-!
# The timeout of a connection that is kept alive

A request that asks for its connection to be kept alive sets the period of the connection timer.
The parser copies what its lookup of `Keep-Alive` finds, takes it with `atoi` for seconds and
multiplies in 32 bits; the form `timeout=N`, which the server itself sends, is no number to `atoi`.
`periodSane_iff` says for which heads the period is not zero and the one that is declared.

* `KeepAliveHead` -- a head with a `Connection` header that asks to be kept alive
* `PeriodSane` -- the timer gets a period that is not zero, and N seconds for `timeout=N`
* `PeriodRead` -- the heads for which it does
-/

namespace WLink.Httpd

open WLink.Lib CString Exec

/-! ## Heads -/

/-- A request head that asks for its connection to be kept alive. -/
structure KeepAliveHead where
  line : RequestLine
  fields : List HeaderField
  keepsAlive : ∃ f ∈ fields, f.name.map lowerCase = httpConnection.map lowerCase ∧
    httpKeepAliveLowerCase <+: f.value.map lowerCase

namespace KeepAliveHead

variable (h : KeepAliveHead)

def lines : List HeaderLine := h.fields.map HeaderField.line

/-- The bytes of a head. -/
def text : List UInt8 := h.line.text ++ crlf ++ headerBlock h.lines

/-- The value of the `Keep-Alive` header. -/
def keepAlive : Option (List UInt8) :=
  (h.fields.find? fun f => f.name.map lowerCase = httpKeepAlive.map lowerCase).map (·.value)

end KeepAliveHead

/-- The value is `timeout=N`, and further parameters may follow. -/
def IsTimeout (value : List UInt8) (n : ℕ) : Prop :=
  ∃ digits rest, value = ascii "timeout=" ++ digits ++ rest ∧ digits ≠ [] ∧
    (∀ b ∈ digits, isDigit b = true) ∧ (∀ b bs, rest = b :: bs → isDigit b = false) ∧
    n = numeralValue digits

/-- The period is the timeout that the head declares, if it declares one. -/
def KeepAliveHead.Declares (h : KeepAliveHead) (periodMs : ℕ) : Prop :=
  ∀ value n, h.keepAlive = some value → IsTimeout value n → periodMs = n * 1000

/-- The connection is kept alive, and its timer is given one period: it is not zero, and it is the
declared one. -/
def PeriodSane (h : KeepAliveHead) (conn : Conn) (tail : List UInt8) : Prop :=
  ∃ s periodMs, (exec parseInMsgHeaders (.start conn (h.text ++ 0 :: tail))).2 = s ∧
    s.conn.connetionMode = .keepAlive ∧ s.periods = [periodMs] ∧ periodMs ≠ 0 ∧ h.Declares periodMs

/-- The request line can be taken apart, and the lookup of `Connection` finds a text that asks for
the connection to be kept alive. Where the lookup of `Keep-Alive` finds nothing, five seconds are
declared or nothing is. What it finds fits the buffer of 20 bytes and is a number of seconds that
does not vanish when it is multiplied in 32 bits, and is then the declared one. -/
structure PeriodRead (h : KeepAliveHead) : Prop where
  clear : h.line.VersionClear
  found : ∃ c, headerText httpConnection h.lines = some c ∧ ReadsKeepAlive c
  absent : headerText httpKeepAlive h.lines = none → h.Declares httpTimeoutTimerMs
  read : ∀ text, headerText httpKeepAlive h.lines = some text →
    ∃ k, copiedNumber text = some k ∧ k % 2 ^ 29 ≠ 0 ∧ h.Declares (k * 1000 % 2 ^ 32)

/-! ## What the parser makes of the timer -/

/-- The periods given to the timer, and the connection mode. -/
def timerFrame (s : ParseState) : List ℕ × HttpdConnectionMode := (s.periods, s.conn.connetionMode)

/-- The period that the texts of the headers lead to, if the copy fits. -/
def keepAlivePeriod (lines : List HeaderLine) : Option ℕ :=
  match headerText httpKeepAlive lines with
  | none => some httpTimeoutTimerMs
  | some text => (copiedNumber text).map fun k => k * 1000 % 2 ^ 32

theorem keeps_timerFrame_copyValue (size v e : ℕ) : Keeps timerFrame (copyValue size v e) :=
  Keeps.bind (Keeps.update fun _ => rfl) fun _ => Keeps.viewE _

theorem keeps_timerFrame_parseContentLength (secondLine : ℕ) :
    Keeps timerFrame (parseContentLength secondLine) := by
  unfold parseContentLength
  refine Keeps.bind (Keeps.viewE _) fun line => ?_
  split
  · refine Keeps.bind (keeps_timerFrame_copyValue _ _ _) fun buf => ?_
    refine Keeps.bind (Keeps.lift _) fun len => ?_
    exact Keeps.update fun _ => rfl
  · exact Keeps.pure _

theorem keeps_timerFrame_parseAcceptEncoding (secondLine : ℕ) :
    Keeps timerFrame (parseAcceptEncoding secondLine) := by
  unfold parseAcceptEncoding
  refine Keeps.bind (Keeps.viewE _) fun line => ?_
  split
  · refine Keeps.bind (keeps_timerFrame_copyValue _ _ _) fun buf => ?_
    exact Keeps.update fun _ => rfl
  · exact Keeps.pure _

/-- No period has been given to the timer unless the connection has become a WebSocket. -/
def Untimed (s : ParseState) : Prop := s.periods = [] ∨ s.conn.connetionMode = .upgrade

theorem untimed_readMem {α β : Type} {g : List UInt8 → Except Fault α} {f : α → Parse β}
    {s : ParseState} (hs : s.periods = []) (hf : ∀ v, Untimed (exec (f v) s).2) :
    Untimed (exec (readMem g >>= f) s).2 := by
  rw [exec_bind, exec_readMem]
  cases g s.mem with
  | error e => exact Or.inl hs
  | ok v => exact hf v

theorem untimed_parseUpgrade (secondLine : ℕ) {s : ParseState} (hs : s.periods = []) :
    Untimed (exec (parseUpgrade secondLine) s).2 := by
  unfold parseUpgrade
  refine untimed_readMem hs fun upgradeWs => ?_
  cases upgradeWs with
  | none => exact Or.inl hs
  | some upgradeWs =>
    refine untimed_readMem hs fun websocket => ?_
    cases websocket with
    | false => exact Or.inl hs
    | true =>
      refine untimed_readMem hs fun key => ?_
      cases key with
      | none => exact Or.inl hs
      | some key =>
        refine untimed_readMem hs fun e => ?_
        rw [exec_bind, exec_poke]
        by_cases he : e < s.mem.length
        · rw [if_pos he]
          exact Or.inr rfl
        · rw [if_neg he]
          exact Or.inl hs

theorem not_readsUpgrade_of_keepAlive {c : List UInt8} (h : ReadsKeepAlive c) : ¬ ReadsUpgrade c := by
  rintro ⟨lit', hlit', hpre'⟩
  obtain ⟨lit, hlit, hpre⟩ := h
  have hne : ∀ a ∈ [httpKeepAlive, httpKeepAliveLowerCase],
      ∀ b ∈ [httpUpgrade, httpUpgradeLowerCase], a[0]? ≠ b[0]? ∧ a ≠ [] ∧ b ≠ [] := by
    decide +kernel
  obtain ⟨hdiff, hnil, hnil'⟩ := hne lit hlit lit' hlit'
  obtain ⟨t, rfl⟩ := hpre
  obtain ⟨t', ht'⟩ := hpre'
  refine hdiff ?_
  have hhead := congrArg (·[0]?) ht'
  rw [List.getElem?_append_left (List.length_pos_of_ne_nil hnil'),
    List.getElem?_append_left (List.length_pos_of_ne_nil hnil)] at hhead
  exact hhead.symm

section

variable {lines : List HeaderLine} {p : ℕ}

/-- What the timer gets for a text in which `Connection` is found. -/
theorem timerFrame_parseKeepAlive {s : ParseState} {connStr : ℕ} {c rest : List UInt8}
    (h : StrAt s.mem p (crlf ++ headerBlock lines))
    (hconn : StrAt s.mem connStr (c ++ crlf ++ rest)) :
    timerFrame (exec (parseKeepAlive (p + 2) connStr) s).2 =
      if ReadsKeepAlive c then (s.periods ++ (keepAlivePeriod lines).toList, .keepAlive)
      else (s.periods, .close) := by
  obtain ⟨b, hb, hb'⟩ := startsWithAny_line hconn
    [httpKeepAlive, httpKeepAliveLowerCase] (by decide)
  obtain ⟨hnone, hsome⟩ := lookupLine_lines h (by decide : IsName httpKeepAlive)
  unfold parseKeepAlive keepAlivePeriod
  simp only [exec_bind, exec_setConn, exec_readMem, hb]
  cases b with
  | false =>
    have hnot : ¬ ReadsKeepAlive c := fun hk => absurd (hb'.mpr hk) (by decide)
    rw [if_neg hnot]
    rfl
  | true =>
    have hkeep : ReadsKeepAlive c := hb'.mp rfl
    rw [if_pos hkeep]
    simp only [if_true, exec_bind, exec_setConn, exec_readMem]
    cases htext : headerText httpKeepAlive lines with
    | none =>
      rw [hnone htext]
      rfl
    | some text =>
      obtain ⟨v, hv, hcopy⟩ := hsome text htext
      rw [hv]
      dsimp only
      rw [exec_bind, exec_copyValue hcopy
        (s := ⟨s.mem, { s.conn with connetionMode := .keepAlive }, s.copies, s.periods⟩) rfl]
      -- the copy may overrun its 20 bytes, and reading the number may leave them
      unfold copiedNumber
      cases storeAt (List.replicate 20 0) 0 text with
      | error e =>
        show (s.periods, HttpdConnectionMode.keepAlive) = (s.periods ++ [], .keepAlive)
        rw [List.append_nil]
      | ok buf =>
        have hbuf : (Except.ok buf >>= atoi) = atoi buf := rfl
        rw [hbuf]
        dsimp only
        rw [exec_bind, exec_lift]
        cases atoi buf with
        | error e =>
          show (s.periods, HttpdConnectionMode.keepAlive) = (s.periods ++ [], .keepAlive)
          rw [List.append_nil]
        | ok z => rfl

theorem timerFrame_parsePlain (p connStr : ℕ) (s : ParseState) :
    timerFrame (exec (parsePlain (p + 2) connStr) s).2 =
      timerFrame (exec (parseKeepAlive (p + 2) connStr) s).2 := by
  unfold parsePlain
  rw [exec_bind]
  rcases exec (parseKeepAlive (p + 2) connStr) s with ⟨e | u, t⟩
  · rfl
  · have hkeep : Keeps timerFrame (do
        parseContentLength (p + 2)
        parseAcceptEncoding (p + 2)
        let _contType ← readMem (getHeaderValue · (p + 2) httpContentType)
        pure (0 : ℤ)) :=
      Keeps.bind (keeps_timerFrame_parseContentLength _) fun _ =>
        Keeps.bind (keeps_timerFrame_parseAcceptEncoding _) fun _ =>
          Keeps.bind (Keeps.viewE _) fun _ => Keeps.pure _
    exact hkeep t

/-- What the timer gets for the headers. -/
theorem timed_parseHeaderLines {s : ParseState} (h : StrAt s.mem p (crlf ++ headerBlock lines))
    (hs : s.periods = []) :
    (∀ c, headerText httpConnection lines = some c → ReadsKeepAlive c →
      timerFrame (exec (parseHeaderLines (p + 2)) s).2 =
        ((keepAlivePeriod lines).toList, .keepAlive)) ∧
    ((¬ ∃ c, headerText httpConnection lines = some c ∧ ReadsKeepAlive c) →
      Untimed (exec (parseHeaderLines (p + 2)) s).2) := by
  obtain ⟨mem, conn, copies, periods⟩ := s
  obtain rfl : periods = [] := hs
  have hhost : ∃ o, getHost mem (p + 2) = .ok o := by
    obtain ⟨hnone, hsome⟩ := getHeaderValue_lines (by decide : IsName httpHost) h
    unfold getHost
    cases htext : headerText httpHost lines with
    | none => exact ⟨none, hnone htext⟩
    | some text =>
      obtain ⟨v, rest, hv, -⟩ := hsome text htext
      exact ⟨some v, hv⟩
  obtain ⟨o, ho⟩ := hhost
  obtain ⟨hlookup, hlookup'⟩ := getHeaderValue_lines (by decide : IsName httpConnection) h
  unfold parseHeaderLines
  simp only [exec_bind, exec_setConn, exec_readMem, ho]
  cases htext : headerText httpConnection lines with
  | none =>
    rw [hlookup htext]
    exact ⟨fun c hc => (by cases hc), fun _ => Or.inl rfl⟩
  | some c =>
    obtain ⟨v, rest, hv, hstr⟩ := hlookup' c htext
    obtain ⟨b, hb, hb'⟩ := startsWithAny_line hstr [httpUpgrade, httpUpgradeLowerCase]
      (by decide)
    rw [hv]
    simp only [exec_bind, exec_readMem, hb, Option.some.injEq]
    cases b with
    | true =>
      -- a `Connection` that reads as an upgrade does not read as one to keep alive
      have hupgrade : ReadsUpgrade c := hb'.mp rfl
      refine ⟨fun c' hc' hkeep => ?_, fun _ => untimed_parseUpgrade _ rfl⟩
      rw [← hc'] at hkeep
      exact absurd hupgrade (not_readsUpgrade_of_keepAlive hkeep)
    | false =>
      have hframe := (timerFrame_parsePlain p v _).trans
        (timerFrame_parseKeepAlive (s := ⟨mem, { conn with hostName := o }, copies, []⟩) h hstr)
      refine ⟨fun c' hc' hkeep => ?_, fun hnot => ?_⟩
      · obtain rfl := hc'
        rw [if_pos hkeep] at hframe
        exact hframe
      · rw [if_neg fun hkeep => hnot ⟨c, rfl, hkeep⟩] at hframe
        exact Or.inl (congrArg Prod.fst hframe)

end

/-! ## Heads that get a sane period -/

theorem httpTimeoutTimerMs_ne : httpTimeoutTimerMs ≠ 0 := by decide

/-- Only a multiple of 2^29 vanishes when it is multiplied by 1000 in 32 bits. -/
theorem mul_thousand_mod {k : ℕ} : k * 1000 % 2 ^ 32 ≠ 0 ↔ k % 2 ^ 29 ≠ 0 := by
  omega

/-- The period that is read is sane. -/
theorem periodRead_iff (h : KeepAliveHead) :
    PeriodRead h ↔
      h.line.VersionClear ∧ (∃ c, headerText httpConnection h.lines = some c ∧ ReadsKeepAlive c) ∧
        ∃ periodMs, keepAlivePeriod h.lines = some periodMs ∧ periodMs ≠ 0 ∧
          h.Declares periodMs := by
  unfold keepAlivePeriod
  constructor
  · rintro ⟨hclear, hfound, habsent, hread⟩
    refine ⟨hclear, hfound, ?_⟩
    cases htext : headerText httpKeepAlive h.lines with
    | none => exact ⟨_, rfl, httpTimeoutTimerMs_ne, habsent htext⟩
    | some text =>
      obtain ⟨k, hk, hmod, hdeclares⟩ := hread text htext
      exact ⟨_, congrArg (Option.map fun k => k * 1000 % 2 ^ 32) hk, mul_thousand_mod.mpr hmod,
        hdeclares⟩
  · rintro ⟨hclear, hfound, periodMs, hperiod, hne, hdeclares⟩
    refine ⟨hclear, hfound, fun hnone => ?_, fun text htext => ?_⟩
    · rw [hnone] at hperiod
      cases hperiod
      exact hdeclares
    · rw [htext] at hperiod
      obtain ⟨k, hk, rfl⟩ := Option.map_eq_some_iff.mp hperiod
      exact ⟨k, hk, mul_thousand_mod.mp hne, hdeclares⟩

/-- Behind a request line that can be taken apart it is the headers that matter. -/
theorem KeepAliveHead.exec_clear (h : KeepAliveHead) (conn : Conn) (tail : List UInt8)
    (hclear : h.line.VersionClear) :
    ∃ s, StrAt s.mem h.line.text.length (crlf ++ headerBlock h.lines) ∧ s.periods = [] ∧
      exec parseInMsgHeaders (.start conn (h.text ++ 0 :: tail)) =
        exec (parseHeaderLines (h.line.text.length + 2)) s := by
  have hstr : StrAt (h.text ++ 0 :: tail) 0 (h.line.text ++ crlf ++ headerBlock h.lines) :=
    h.line.strAt_head (nul_notMem_headerBlock h.lines) rfl
  obtain ⟨s, hexec, -, -, -, hdrop, -⟩ :=
    parseRequestLine_clear (s := .start conn (h.text ++ 0 :: tail)) hstr hclear
  have hlines : StrAt s.mem h.line.text.length (crlf ++ headerBlock h.lines) := by
    have hadvance := hstr.advance (k := h.line.text.length) (by
      rw [List.append_assoc, List.length_append]
      exact Nat.le_add_right _ _)
    rw [Nat.zero_add, List.append_assoc, List.drop_left] at hadvance
    obtain ⟨hnul, t, ht⟩ := hadvance
    exact ⟨hnul, t, hdrop.trans ht⟩
  have hperiods : s.periods = [] := by
    have hkeep := keeps_parseRequestLine_frame (.start conn (h.text ++ 0 :: tail))
    rw [hexec] at hkeep
    exact congrArg (fun t => t.2.2.1) hkeep
  exact ⟨s, hlines, hperiods, exec_bind_ok hexec⟩

theorem PeriodSane.read {h : KeepAliveHead} {conn : Conn} {tail : List UInt8}
    (hsane : PeriodSane h conn tail) : PeriodRead h := by
  obtain ⟨s, periodMs, hexec, hmode, hperiods, hne, hdeclares⟩ := hsane
  rw [periodRead_iff]
  by_cases hclear : h.line.VersionClear
  · obtain ⟨s', hlines, hnone, hrun⟩ := h.exec_clear conn tail hclear
    obtain ⟨htimed, huntimed⟩ := timed_parseHeaderLines hlines hnone
    rw [← hrun, hexec] at htimed huntimed
    -- a single period can only be the one of a connection that is kept alive
    by_cases hfound : ∃ c, headerText httpConnection h.lines = some c ∧ ReadsKeepAlive c
    · refine ⟨hclear, hfound, periodMs, ?_, hne, hdeclares⟩
      obtain ⟨c, hc, hkeep⟩ := hfound
      have hlist : s.periods = (keepAlivePeriod h.lines).toList :=
        congrArg Prod.fst (htimed c hc hkeep)
      rw [hperiods] at hlist
      cases hread : keepAlivePeriod h.lines with
      | none =>
        rw [hread] at hlist
        cases hlist
      | some k =>
        rw [hread] at hlist
        cases hlist
        rfl
    · rcases huntimed hfound with hempty | hupgrade
      · rw [hperiods] at hempty
        cases hempty
      · rw [hmode] at hupgrade
        cases hupgrade
  · have hstr : StrAt (h.text ++ 0 :: tail) 0 (h.line.text ++ crlf ++ headerBlock h.lines) :=
      h.line.strAt_head (nul_notMem_headerBlock h.lines) rfl
    have hfault : exec parseInMsgHeaders (.start conn (h.text ++ 0 :: tail)) = (.error .read, _) :=
      exec_bind_error
        (parseRequestLine_not_clear (s := .start conn (h.text ++ 0 :: tail)) hstr hclear)
    rw [hfault] at hexec
    rw [← hexec] at hperiods
    cases hperiods

theorem PeriodRead.periodSane {h : KeepAliveHead} (hread : PeriodRead h) (conn : Conn)
    (tail : List UInt8) : PeriodSane h conn tail := by
  obtain ⟨hclear, ⟨c, hc, hkeep⟩, periodMs, hperiod, hne, hdeclares⟩ := (periodRead_iff h).mp hread
  obtain ⟨s, hlines, hnone, hrun⟩ := h.exec_clear conn tail hclear
  have hframe := (timed_parseHeaderLines hlines hnone).1 c hc hkeep
  rw [hperiod] at hframe
  exact ⟨_, periodMs, congrArg Prod.snd hrun, congrArg Prod.snd hframe, congrArg Prod.fst hframe,
    hne, hdeclares⟩

/-- A connection that is kept alive gets a sane period if and only if the request line can be taken
apart, the request to keep it alive is found, and the timeout that is read is a number that does not
vanish and is the declared one. -/
theorem periodSane_iff (h : KeepAliveHead) (conn : Conn) (tail : List UInt8) :
    PeriodSane h conn tail ↔ PeriodRead h :=
  ⟨PeriodSane.read, fun hread => hread.periodSane conn tail⟩

/-! ## The form that the server sends -/

/-- To `atoi` a text that starts with a letter is zero. -/
theorem copiedNumber_timeout (rest : List UInt8) :
    copiedNumber (ascii "timeout=" ++ rest) = none ∨
      copiedNumber (ascii "timeout=" ++ rest) = some 0 := by
  unfold copiedNumber
  by_cases hfit : 0 + (ascii "timeout=" ++ rest).length ≤ (List.replicate 20 (0 : UInt8)).length
  · rw [storeAt_ok hfit]
    exact Or.inr rfl
  · rw [storeAt_overrun (Nat.lt_of_not_le hfit)]
    exact Or.inl rfl

/-- If a value `timeout=N` is what is read, the period is never sane. -/
theorem not_periodSane_timeout {h : KeepAliveHead} (conn : Conn) (tail : List UInt8)
    {rest : List UInt8} (hread : headerText httpKeepAlive h.lines = some (ascii "timeout=" ++ rest)) :
    ¬ PeriodSane h conn tail := by
  intro hsane
  obtain ⟨k, hk, hmod, -⟩ := hsane.read.read _ hread
  rcases copiedNumber_timeout rest with hnone | hzero
  · rw [hnone] at hk
    cases hk
  · rw [hzero] at hk
    cases hk
    exact hmod rfl

def keepAliveField : HeaderField :=
  { closeField with value := httpKeepAliveLowerCase, value_plain := by decide +kernel }

def timeoutField : HeaderField :=
  ⟨httpKeepAlive, 1, ascii "timeout=5, max=1", by decide +kernel, by decide +kernel⟩

/-- A request that asks for what the server itself offers. -/
def timeoutHead : KeepAliveHead where
  line := indexLine
  fields := [keepAliveField, timeoutField]
  keepsAlive := ⟨keepAliveField, by simp, by decide +kernel, by decide +kernel⟩

/-- `Keep-Alive: timeout=5, max=1` sets the period of the timer to zero. -/
theorem not_periodSane_timeoutHead :
    IsTimeout timeoutField.value 5 ∧ ¬ PeriodSane timeoutHead .fresh [0] := by
  constructor
  · exact ⟨ascii "5", ascii ", max=1", by decide +kernel, by decide, by decide +kernel,
      fun b bs heq => by cases heq; decide, by decide +kernel⟩
  · exact not_periodSane_timeout .fresh [0]
      (show _ = some (ascii "timeout=" ++ ascii "5, max=1") by decide +kernel)

end WLink.Httpd
