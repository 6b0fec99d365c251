import WLink.Httpd.RequestLine

/-!
# Copies out of a request head

The parser copies header values into buffers of 20 and 64 bytes, and the accept key is put
together in one of 512 bytes; none of the copies looks at the length of what it copies.
`copiesFit_iff` says that they all fit exactly if the values that the parser comes across are
short enough.

The proof runs through `Logs`: which copies a part of the parser adds to the log while it only
reads the memory.
-/

namespace WLink.Httpd

open WLink.Lib CString Exec

/-! ## Statement -/

/-- Every copy made so far stays inside its buffer and leaves it with a NUL. -/
def CopiesFit (s : ParseState) : Prop := ∀ c ∈ s.copies, c.Fits

/-- A request head: a string that ends with a blank line and fits `http_cmd_buf` with its
NUL. -/
structure IsRequestHead (head : List UInt8) : Prop where
  nul_notMem : 0 ∉ head
  blank_line : crlf ++ crlf <:+ head
  length_lt : head.length < httpdCmdBufSize

/-- The value of a header, if there is one, leaves room for a NUL in `size` bytes. -/
def LineFits (m : List UInt8) (p : ℕ) (name : List UInt8) (size : ℕ) : Prop :=
  ∀ v e, lookupLine m p name = .ok (some (v, some e)) → e - v < size

/-- The key of a WebSocket handshake, if it is one, leaves room for the UUID and a NUL. -/
def KeyFits (m : List UInt8) (p : ℕ) : Prop :=
  ∀ upgradeWs key e, getHeaderValue m p httpUpgrade = .ok (some upgradeWs) →
    startsWithAny m upgradeWs [webSocketIdentifierUpper, webSocketIdentifierLower] = .ok true →
    getHeaderValue m p webSocketKeyIdentifier = .ok (some key) → keyEnd m key = .ok e →
    e - key + webSocketUuid.length < 512

/-- The values fit that the parser looks at, depending on the `Connection` header. -/
def HeadersFit (m : List UInt8) (p : ℕ) (method : HttpdMethod) : Prop :=
  ∀ connStr, getHeaderValue m p httpConnection = .ok (some connStr) →
    (startsWithAny m connStr [httpUpgrade, httpUpgradeLowerCase] = .ok true →
      method = .get → KeyFits m p) ∧
    (startsWithAny m connStr [httpUpgrade, httpUpgradeLowerCase] = .ok false →
      (startsWithAny m connStr [httpKeepAlive, httpKeepAliveLowerCase] = .ok true →
        LineFits m p httpKeepAlive 20) ∧
      LineFits m p httpContentLength 20 ∧ LineFits m p httpAcceptEncoding 64)

/-- The values fit in the headers that follow a request line, if there is one. -/
def HeadFits (s : ParseState) : Prop :=
  ∀ secondLine s', exec parseRequestLine s = (.ok (some secondLine), s') →
    HeadersFit s'.mem secondLine s'.conn.requestType

/-! ## Logging -/

/-- On the memory `m` the computation adds copies that fit exactly if `P`, and if they fit it
comes to its end. -/
def Logs {α : Type} (m : List UInt8) (x : Parse α) (P : Prop) : Prop :=
  ∀ s, s.mem = m →
    (CopiesFit (exec x s).2 ↔ CopiesFit s ∧ P) ∧
      (CopiesFit (exec x s).2 → ∃ a, (exec x s).1 = .ok a)

namespace Logs

variable {α β : Type} {m : List UInt8} {x : Parse α} {P Q : Prop}

theorem congr (h : Logs m x P) (hPQ : P ↔ Q) : Logs m x Q := fun s hs => by
  rw [← hPQ]
  exact h s hs

theorem pure (a : α) : Logs m (pure a) True := fun _ _ =>
  ⟨(and_iff_left trivial).symm, fun _ => ⟨a, rfl⟩⟩

theorem setConn (f : Conn → Conn) : Logs m (setConn f) True := fun _ _ =>
  ⟨(and_iff_left trivial).symm, fun _ => ⟨(), rfl⟩⟩

theorem changePeriod (periodMs : ℕ) : Logs m (changePeriod periodMs) True := fun _ _ =>
  ⟨(and_iff_left trivial).symm, fun _ => ⟨(), rfl⟩⟩

/-- What the parts of a sequence log. -/
theorem bind {f : α → Parse β} (hx : Logs m x P) (hmem : Keeps ParseState.mem x)
    (hf : ∀ a, Logs m (f a) Q) : Logs m (x >>= f) (P ∧ Q) := by
  intro s hs
  obtain ⟨hiff, hok⟩ := hx s hs
  have hm := hmem s
  rw [exec_bind, ← and_assoc, ← hiff]
  rcases h : exec x s with ⟨e | a, s'⟩
  · have hbad : ¬ CopiesFit s' := by
      intro hfit
      rw [h] at hok
      obtain ⟨a, ha⟩ := hok hfit
      cases ha
    exact ⟨⟨fun hc => absurd hc hbad, fun hc => hc.1⟩, fun hc => absurd hc hbad⟩
  · rw [h] at hm
    exact hf a s' (hm.trans hs)

/-- A part that logs nothing in front of one that does. -/
theorem bind_quiet {f : α → Parse β} (hx : Logs m x True) (hmem : Keeps ParseState.mem x)
    (hf : ∀ a, Logs m (f a) Q) : Logs m (x >>= f) Q :=
  (hx.bind hmem hf).congr (and_iff_right trivial)

/-- A read whose result is known. -/
theorem read {g : List UInt8 → Except Fault α} {f : α → Parse β} {v : α} (hv : g m = .ok v)
    (hf : Logs m (f v) P) : Logs m (readMem g >>= f) P := by
  intro s hs
  have hexec : exec (readMem g) s = (.ok v, s) := by rw [exec_readMem, hs, hv]
  rw [exec_bind_ok hexec]
  exact hf s hs

end Logs

/-- A buffer that a copy fits has a NUL behind it. -/
theorem storeAt_zeros {size : ℕ} {bs : List UInt8} (h : bs.length < size) :
    ∃ buf, storeAt (List.replicate size 0) 0 bs = .ok buf ∧ 0 ∈ buf := by
  refine ⟨_, storeAt_ok (by rw [List.length_replicate]; omega), ?_⟩
  apply List.mem_append_right
  rw [List.drop_replicate]
  exact List.mem_replicate.mpr ⟨by omega, rfl⟩

/-- A copy, and what is done with the buffer afterwards. -/
theorem Logs.copyValue {β : Type} {m : List UInt8} {size v e : ℕ} {f : List UInt8 → Parse β}
    (hkeep : ∀ buf, Keeps ParseState.copies (f buf))
    (hok : ∀ buf, 0 ∈ buf → ∀ s, ∃ b, (exec (f buf) s).1 = .ok b) :
    Logs m (copyValue size v e >>= f) (e - v < size) := by
  intro s hs
  have hcopies : (exec (Httpd.copyValue size v e >>= f) s).2.copies =
      s.copies ++ [⟨size, e - v⟩] := by
    have hkeep' : Keeps ParseState.copies
        (readMem (fun m => storeAt (List.replicate size 0) 0 ((m.drop v).take (e - v))) >>= f) :=
      Keeps.bind (Keeps.viewE _) hkeep
    show (exec ((logCopy size (e - v) >>= fun _ => readMem _) >>= f) s).2.copies = _
    rw [bind_assoc, exec_bind, exec_logCopy]
    exact hkeep' _
  have hfit : CopiesFit (exec (Httpd.copyValue size v e >>= f) s).2 ↔
      CopiesFit s ∧ e - v < size := by
    unfold CopiesFit
    rw [hcopies]
    simp only [List.mem_append, List.mem_singleton, or_imp, forall_and, forall_eq]
    rfl
  refine ⟨hfit, fun h => ?_⟩
  have hlen : ((m.drop v).take (e - v)).length < size :=
    Nat.lt_of_le_of_lt (List.length_take_le _ _) (hfit.mp h).2
  obtain ⟨buf, hbuf, hnul⟩ := storeAt_zeros hlen
  have hexec : exec (Httpd.copyValue size v e) s =
      (.ok buf, { s with copies := s.copies ++ [⟨size, e - v⟩] }) := by
    show exec (logCopy size (e - v) >>= fun _ => readMem _) s = _
    rw [exec_bind, exec_logCopy]
    simp only [exec_readMem, hs, hbuf]
  rw [exec_bind_ok hexec]
  exact hok buf hnul _

/-! ## Reading in front of the end of the head -/

section

variable {m : List UInt8} {n p : ℕ} (h : HeadEnd m n)

include h

theorem startsWithAny_ok (hp : p ≤ n) {lits : List (List UInt8)} (hlits : ∀ l ∈ lits, 0 ∉ l) :
    ∃ b, startsWithAny m p lits = .ok b := by
  obtain ⟨s, hs, -⟩ := StrAt.exists_of_nul h.nul hp
  induction lits with
  | nil => exact ⟨false, rfl⟩
  | cons l ls ih =>
    rw [startsWithAny, startsWith_eq hs (hlits l List.mem_cons_self)]
    by_cases hl : l <+: s
    · exact ⟨true, by rw [decide_eq_true hl]; rfl⟩
    · rw [decide_eq_false hl]
      exact ih fun l' hl' => hlits l' (List.mem_cons_of_mem _ hl')

theorem lookupLine_ok (hp : 2 ≤ p) (hpn : p ≤ n) {name : List UInt8} (hname : IsName name) :
    ∃ r, lookupLine m p name = .ok r := by
  obtain ⟨r, hr, hrange⟩ := getHeaderValue_ok h hname hp hpn
  rw [lookupLine, hr]
  cases r with
  | none => exact ⟨none, rfl⟩
  | some v =>
    have hv := (hrange v rfl).2
    rcases strstr_ok h.nul hv (show 0 ∉ crlf by decide) (by decide) with he | ⟨e, he, -⟩
    · exact ⟨some (v, none), by show (strstr m v crlf >>= _) = _; rw [he]; rfl⟩
    · exact ⟨some (v, some e), by show (strstr m v crlf >>= _) = _; rw [he]; rfl⟩

/-! ## What the stages log -/

theorem logs_parseKeepAlive (hp : 2 ≤ p) (hpn : p ≤ n) {connStr : ℕ} (hc : connStr ≤ n) :
    Logs m (parseKeepAlive p connStr)
      (startsWithAny m connStr [httpKeepAlive, httpKeepAliveLowerCase] = .ok true →
        LineFits m p httpKeepAlive 20) := by
  obtain ⟨b, hb⟩ := startsWithAny_ok h hc
    (show ∀ l ∈ [httpKeepAlive, httpKeepAliveLowerCase], 0 ∉ l by decide)
  obtain ⟨r, hr⟩ := lookupLine_ok h hp hpn (show IsName httpKeepAlive by decide)
  unfold parseKeepAlive LineFits
  refine Logs.bind_quiet (Logs.setConn _) (Keeps.update fun _ => rfl) fun _ => ?_
  refine Logs.read hb ?_
  rw [hb, hr]
  cases b with
  | false => exact (Logs.pure ()).congr (by simp)
  | true =>
    refine Logs.bind_quiet (Logs.setConn _) (Keeps.update fun _ => rfl) fun _ => ?_
    refine Logs.read hr ?_
    rcases r with _ | ⟨v, _ | e⟩
    · exact (Logs.bind_quiet (Logs.setConn _) (Keeps.update fun _ => rfl)
        fun _ => Logs.changePeriod _).congr (by simp)
    · exact (Logs.bind_quiet (Logs.setConn _) (Keeps.update fun _ => rfl)
        fun _ => Logs.changePeriod _).congr (by simp)
    · refine Logs.congr (P := e - v < 20) (Logs.copyValue (fun buf => ?_) fun buf hbuf s => ?_)
        (by simp)
      · exact Keeps.bind (Keeps.lift _) fun _ => Keeps.bind (Keeps.update fun _ => rfl)
          fun _ => Keeps.update fun _ => rfl
      · obtain ⟨z, hz⟩ := atoi_ok hbuf
        exact ⟨(), by simp [exec_bind, hz]⟩

theorem logs_parseContentLength (hp : 2 ≤ p) (hpn : p ≤ n) :
    Logs m (parseContentLength p) (LineFits m p httpContentLength 20) := by
  obtain ⟨r, hr⟩ := lookupLine_ok h hp hpn (show IsName httpContentLength by decide)
  unfold parseContentLength LineFits
  refine Logs.read hr ?_
  rw [hr]
  rcases r with _ | ⟨v, _ | e⟩
  · exact (Logs.pure ()).congr (by simp)
  · exact (Logs.pure ()).congr (by simp)
  · refine Logs.congr (P := e - v < 20) (Logs.copyValue (fun buf => ?_) fun buf hbuf s => ?_)
      (by simp)
    · exact Keeps.bind (Keeps.lift _) fun _ => Keeps.update fun _ => rfl
    · obtain ⟨z, hz⟩ := atoi_ok hbuf
      exact ⟨(), by simp [exec_bind, hz]⟩

theorem logs_parseAcceptEncoding (hp : 2 ≤ p) (hpn : p ≤ n) :
    Logs m (parseAcceptEncoding p) (LineFits m p httpAcceptEncoding 64) := by
  obtain ⟨r, hr⟩ := lookupLine_ok h hp hpn (show IsName httpAcceptEncoding by decide)
  unfold parseAcceptEncoding LineFits
  refine Logs.read hr ?_
  rw [hr]
  rcases r with _ | ⟨v, _ | e⟩
  · exact (Logs.pure ()).congr (by simp)
  · exact (Logs.pure ()).congr (by simp)
  · refine Logs.congr (P := e - v < 64) (Logs.copyValue (fun buf => ?_) fun buf _ s => ?_)
      (by simp)
    · exact Keeps.update fun _ => rfl
    · exact ⟨(), rfl⟩

theorem logs_parsePlain (hp : 2 ≤ p) (hpn : p ≤ n) {connStr : ℕ} (hc : connStr ≤ n) :
    Logs m (parsePlain p connStr)
      ((startsWithAny m connStr [httpKeepAlive, httpKeepAliveLowerCase] = .ok true →
          LineFits m p httpKeepAlive 20) ∧
        LineFits m p httpContentLength 20 ∧ LineFits m p httpAcceptEncoding 64) := by
  obtain ⟨r, hr, -⟩ := getHeaderValue_ok h (show IsName httpContentType by decide) hp hpn
  unfold parsePlain
  refine Logs.bind (logs_parseKeepAlive h hp hpn hc)
    ((keeps_parseKeepAlive _ _).comp Prod.fst) fun _ => ?_
  refine Logs.bind (logs_parseContentLength h hp hpn)
    ((keeps_parseContentLength _).comp Prod.fst) fun _ => ?_
  refine Logs.congr (Logs.bind (Q := True) (logs_parseAcceptEncoding h hp hpn)
    ((keeps_parseAcceptEncoding _).comp Prod.fst) fun _ => ?_) (and_iff_left trivial)
  exact Logs.read hr (Logs.pure 0)

/-- The end of the key lies inside the string that the key is a part of. -/
theorem keyEnd_ok {key : ℕ} (hkey : key ≤ n) :
    ∃ e str, keyEnd m key = .ok e ∧ StrAt m key str ∧ key ≤ e ∧ e ≤ key + str.length := by
  obtain ⟨str, hstr, -⟩ := StrAt.exists_of_nul h.nul hkey
  have hfind := strstr_eq hstr (show 0 ∉ crlf by decide) (by decide)
  unfold keyEnd
  rw [hfind]
  cases hk : findSub crlf str with
  | none =>
    refine ⟨key + str.length, str, ?_, hstr, Nat.le_add_right _ _, Nat.le_refl _⟩
    show (strlen m key >>= _) = _
    rw [strlen_eq hstr]
    rfl
  | some k =>
    have := findSub_add_length_le hk
    exact ⟨key + k, str, rfl, hstr, Nat.le_add_right _ _, by omega⟩

/-- A handshake that is complete cuts the head at the end of its key. -/
theorem parseUpgrade_run (hp : 2 ≤ p) (hpn : p ≤ n) (s : ParseState) (hs : s.mem = m) :
    (∃ r, exec (parseUpgrade p) s = (.ok r, s) ∧ KeyFits m p) ∨
      ∃ r s' key str, exec (parseUpgrade p) s = (.ok r, s') ∧ s'.copies = s.copies ∧
        s'.conn.requestType = s.conn.requestType ∧ s'.conn.websocketClient = true ∧
        s'.conn.clientKey = some key ∧ StrAt s'.mem key str ∧
        (KeyFits m p ↔ str.length + webSocketUuid.length < 512) := by
  obtain ⟨r₁, hr₁, hrange₁⟩ := getHeaderValue_ok h (show IsName httpUpgrade by decide) hp hpn
  obtain ⟨r₂, hr₂, hrange₂⟩ :=
    getHeaderValue_ok h (show IsName webSocketKeyIdentifier by decide) hp hpn
  subst hs
  unfold KeyFits
  cases r₁ with
  | none =>
    refine Or.inl ⟨-1, ?_, by simp [hr₁]⟩
    simp only [parseUpgrade, exec_bind, exec_readMem, hr₁, exec_pure]
  | some w =>
    obtain ⟨b, hb⟩ := startsWithAny_ok h (hrange₁ w rfl).2
      (show ∀ l ∈ [webSocketIdentifierUpper, webSocketIdentifierLower], 0 ∉ l by decide)
    cases b with
    | false =>
      refine Or.inl ⟨-1, ?_, ?_⟩
      · simp only [parseUpgrade, exec_bind, exec_readMem, hr₁, hb, exec_ite, exec_pure]
        rfl
      · intro w' key e hw' hws
        cases hr₁.symm.trans hw'
        cases hb.symm.trans hws
    | true =>
      cases r₂ with
      | none =>
        refine Or.inl ⟨-1, ?_, by simp [hr₂]⟩
        simp only [parseUpgrade, exec_bind, exec_readMem, hr₁, hb, hr₂, exec_pure, if_true]
      | some key =>
        obtain ⟨e, str, he, hstr, hle, hlen⟩ := keyEnd_ok h (hrange₂ key rfl).2
        obtain ⟨k, rfl⟩ := Nat.exists_eq_add_of_le hle
        have hk : k ≤ str.length := by omega
        have hlt := hstr.length_lt
        have hmem : key + k < s.mem.length := by omega
        refine Or.inr ⟨0, { s with
            mem := s.mem.set (key + k) 0
            conn := { s.conn with
              clientKey := some key, websocketClient := true, connetionMode := .upgrade }
            periods := s.periods ++ [websocketTimeoutTimerMs % 2 ^ 32] },
          key, str.take k, ?_, rfl, rfl, rfl, rfl, hstr.set_mem hk, ?_⟩
        · simp only [parseUpgrade, exec_bind, exec_readMem, hr₁, hb, hr₂, he, exec_poke, hmem,
            exec_setConn, exec_changePeriod, exec_pure, if_true]
        · simp only [List.length_take_of_le hk, hr₁, hr₂, Except.ok.injEq, Option.some.injEq]
          constructor
          · intro hfit
            have := hfit w key (key + k) rfl hb rfl he
            omega
          · rintro hfit w' key' e' - - rfl he'
            rw [he] at he'
            cases he'
            omega

end

/-! ## The whole head -/

/-- The request line adds no copies and does not touch the WebSocket flag. -/
theorem keeps_parseRequestLine :
    Keeps (fun s : ParseState => (s.copies, s.conn.websocketClient)) parseRequestLine := by
  unfold parseRequestLine
  refine Keeps.bind (Keeps.update fun _ => rfl) fun _ => ?_
  refine Keeps.bind (Keeps.viewE _) fun lineEnd => ?_
  split
  · exact Keeps.pure _
  refine Keeps.bind (Keeps.viewE _) fun method => ?_
  refine Keeps.bind (Keeps.update fun _ => rfl) fun _ => ?_
  apply Keeps.ite (Keeps.pure _)
  refine Keeps.bind (Keeps.viewE _) fun path => ?_
  refine Keeps.bind (Keeps.update fun _ => rfl) fun _ => ?_
  split
  · exact Keeps.pure _
  refine Keeps.bind (Keeps.viewE _) fun blank => ?_
  have hpoke : ∀ p b, Keeps (fun s : ParseState => (s.copies, s.conn.websocketClient))
      (poke p b) := by
    intro p b s
    rw [exec_poke]
    split <;> rfl
  split
  · exact Keeps.pure _
  refine Keeps.bind (hpoke _ _) fun _ => ?_
  refine Keeps.bind (Keeps.viewE _) fun args => ?_
  split
  · refine Keeps.bind (hpoke _ _) fun _ => ?_
    exact Keeps.bind (Keeps.update fun _ => rfl) fun _ => Keeps.pure _
  · exact Keeps.bind (Keeps.update fun _ => rfl) fun _ => Keeps.pure _

/-- A byte that a search for one character has found. -/
theorem getElem?_of_strstr {m : List UInt8} {p q : ℕ} {c : UInt8}
    (h : strstr m p [c] = .ok (some q)) : m[q]? = some c := by
  have := List.prefix_iff_getElem?.mp (prefix_of_strstr h) 0 (by simp)
  rwa [List.getElem?_drop] at this

/-- Behind a request line the head still ends as it did. -/
theorem parseRequestLine_headEnd {n secondLine : ℕ} {s s' : ParseState} (h : HeadEnd s.mem n)
    (hexec : exec parseRequestLine s = (.ok (some secondLine), s')) :
    HeadEnd s'.mem n ∧ 2 ≤ secondLine ∧ secondLine ≤ n := by
  unfold parseRequestLine at hexec
  rw [exec_setConn_bind] at hexec
  obtain ⟨lineEnd, hline, hexec⟩ := exec_readMem_bind_eq_ok.mp hexec
  rcases strstr_ok h.nul (Nat.zero_le n) (show 0 ∉ crlf by decide) (by decide) with
    hnone | ⟨q, hq, -, hqn, -⟩
  · cases hnone.symm.trans hline
    cases hexec
  cases hq.symm.trans hline
  have hlen : crlf.length = 2 := rfl
  obtain ⟨method, -, hexec⟩ := exec_readMem_bind_eq_ok.mp hexec
  rw [exec_setConn_bind, exec_ite] at hexec
  split at hexec
  · cases hexec
  obtain ⟨path, -, hexec⟩ := exec_readMem_bind_eq_ok.mp hexec
  rw [exec_setConn_bind] at hexec
  cases path with
  | none => cases hexec
  | some url =>
    obtain ⟨blank, hblank, hexec⟩ := exec_readMem_bind_eq_ok.mp hexec
    cases blank with
    | none => cases hexec
    | some e =>
      have h₁ := h.set (getElem?_of_strstr hblank) (by decide)
      obtain ⟨-, hexec⟩ := exec_poke_bind_eq_ok.mp hexec
      obtain ⟨args, hargs, hexec⟩ := exec_readMem_bind_eq_ok.mp hexec
      cases args with
      | none =>
        rw [exec_setConn_bind] at hexec
        cases hexec
        exact ⟨h₁, by omega, by omega⟩
      | some a =>
        have h₂ := h₁.set (getElem?_of_strstr hargs) (by decide)
        obtain ⟨-, hexec⟩ := exec_poke_bind_eq_ok.mp hexec
        rw [exec_setConn_bind] at hexec
        cases hexec
        exact ⟨h₂, by omega, by omega⟩

section

variable (encode : List UInt8 → List UInt8) {s s' : ParseState}

/-- Without a handshake there is no accept key. -/
theorem parseThenAccept_idle {x : Except Fault ℤ} (hexec : exec parseInMsgHeaders s = (x, s'))
    (hws : s'.conn.websocketClient = false) : (exec (parseThenAccept encode) s).2 = s' := by
  unfold parseThenAccept
  cases x with
  | error e => rw [exec_bind_error hexec]
  | ok r =>
    rw [exec_bind_ok hexec]
    simp [exec_bind, hws]

/-- What the accept key of a handshake is copied into. -/
theorem parseThenAccept_copies {r : ℤ} {key : ℕ} {str : List UInt8}
    (hexec : exec parseInMsgHeaders s = (.ok r, s')) (hws : s'.conn.websocketClient = true)
    (hkey : s'.conn.clientKey = some key) (hstr : StrAt s'.mem key str) :
    CopiesFit (exec (parseThenAccept encode) s).2 ↔
      CopiesFit s' ∧
        (s'.conn.requestType = .get → str.length + webSocketUuid.length < 512) := by
  unfold parseThenAccept
  rw [exec_bind_ok hexec]
  by_cases hget : s'.conn.requestType = .get
  · have hfit : ∀ t : ParseState, CopiesFit t ↔ ∀ c ∈ t.copies, c.used < c.size := fun _ => Iff.rfl
    have huuid : webSocketUuid.length = 36 := rfl
    by_cases hlen : 512 ≤ str.length
    · simp [exec_bind, hget, hws, hkey, createAcceptKey, cstring_eq hstr, strcat, hlen, hfit,
        or_imp, forall_and]
      omega
    · by_cases hlen' : 512 ≤ str.length + webSocketUuid.length
      · simp [exec_bind, hget, hws, hkey, createAcceptKey, cstring_eq hstr, strcat, hlen, hlen',
          hfit, or_imp, forall_and]
      · simp [exec_bind, hget, hws, hkey, createAcceptKey, cstring_eq hstr, strcat, hlen, hlen',
          hfit, or_imp, forall_and]
        omega
  · simp [exec_bind, hget]

end

theorem HeadEnd.of_head {head tail : List UInt8} (h : IsRequestHead head) :
    HeadEnd (head ++ 0 :: tail) head.length := by
  obtain ⟨front, hfront⟩ := h.blank_line
  have hlen : front.length + 4 = head.length := by
    rw [← hfront, List.length_append]
    rfl
  refine ⟨by omega, ?_, ?_⟩
  · rw [List.getElem?_append_right (Nat.le_refl _), Nat.sub_self]
    rfl
  · rw [List.getElem?_append_left (by omega), ← hfront,
      List.getElem?_append_right (by rw [List.length_append]; simp [crlf, ascii]),
      List.length_append]
    simp [crlf, ascii]

/-- The copies of the headers fit exactly if the values do. -/
theorem parseHeaderLines_fits (encode : List UInt8 → List UInt8) {s₀ s : ParseState} {n p : ℕ}
    (hstart : exec parseInMsgHeaders s₀ = exec (parseHeaderLines p) s) (h : HeadEnd s.mem n)
    (hp : 2 ≤ p) (hpn : p ≤ n) (hcopies : s.copies = []) (hws : s.conn.websocketClient = false) :
    CopiesFit (exec (parseThenAccept encode) s₀).2 ↔
      HeadersFit s.mem p s.conn.requestType := by
  obtain ⟨host, hhost, -⟩ := getHeaderValue_ok h (show IsName httpHost by decide) hp hpn
  obtain ⟨r, hr, hrange⟩ := getHeaderValue_ok h (show IsName httpConnection by decide) hp hpn
  have hempty : ∀ t : ParseState, t.copies = [] → CopiesFit t := by
    intro t ht c hc
    rw [ht] at hc
    cases hc
  -- the state once the host is set
  obtain ⟨s₁, hs₁, hmem, hcopies₁, hws₁, hmethod⟩ :
      ∃ s₁, s₁ = { s with conn := { s.conn with hostName := host } } ∧ s₁.mem = s.mem ∧
        s₁.copies = [] ∧ s₁.conn.websocketClient = false ∧
        s₁.conn.requestType = s.conn.requestType := ⟨_, rfl, rfl, hcopies, hws, rfl⟩
  have hfit₁ := hempty s₁ hcopies₁
  unfold HeadersFit
  cases r with
  | none =>
    have hexec : exec (parseHeaderLines p) s = (.ok 0, s₁) := by
      simp only [parseHeaderLines, getHost, exec_bind, exec_readMem, hhost, exec_setConn, hr,
        exec_pure, hs₁]
    rw [parseThenAccept_idle encode (hstart.trans hexec) hws₁]
    simp [hr, hfit₁]
  | some c =>
    obtain ⟨b, hb⟩ := startsWithAny_ok h (hrange c rfl).2
      (show ∀ l ∈ [httpUpgrade, httpUpgradeLowerCase], 0 ∉ l by decide)
    have hexec : exec (parseHeaderLines p) s =
        exec (if b then parseUpgrade p else parsePlain p c) s₁ := by
      simp only [parseHeaderLines, getHost, exec_bind, exec_readMem, hhost, exec_setConn, hr, hb,
        hs₁]
    rw [← hmem] at h
    cases b with
    | false =>
      obtain ⟨hfit, -⟩ := logs_parsePlain h hp hpn (hrange c rfl).2 s₁ rfl
      have hkeep := keeps_parsePlain p c s₁
      unfold plainFields at hkeep
      simp only [Prod.mk.injEq] at hkeep
      rw [parseThenAccept_idle encode (hstart.trans hexec) (hkeep.2.2.1.trans hws₁)]
      show CopiesFit (exec (parsePlain p c) _).2 ↔ _
      rw [hfit, hmem]
      simp [hr, hb, hfit₁]
    | true =>
      rcases parseUpgrade_run h hp hpn s₁ rfl with
        ⟨r, hrun, hkey⟩ | ⟨r, s', key, str, hrun, hc', hm', hw', hk', hstr, hkey⟩
      · rw [hmem] at hkey
        rw [parseThenAccept_idle encode (hstart.trans (hexec.trans hrun)) hws₁]
        simp [hr, hb, hfit₁, hkey]
      · rw [hmem] at hkey
        rw [parseThenAccept_copies encode (hstart.trans (hexec.trans hrun)) hw' hk' hstr, hm',
          hmethod]
        simp [hr, hb, hempty s' (hc'.trans hcopies₁), hkey]

/-- All copies that the parser and the accept key make out of a request head fit their buffers
if and only if the header values that they are made from are short enough. -/
theorem copiesFit_iff (encode : List UInt8 → List UInt8) (head tail : List UInt8)
    (h : IsRequestHead head) (conn : Conn) (hws : conn.websocketClient = false) :
    CopiesFit (exec (parseThenAccept encode) (.start conn (head ++ 0 :: tail))).2 ↔
      HeadFits (.start conn (head ++ 0 :: tail)) := by
  have hkeep := keeps_parseRequestLine (.start conn (head ++ 0 :: tail))
  have hnil : CopiesFit (.start conn (head ++ 0 :: tail)) := fun c hc => by cases hc
  unfold HeadFits
  rcases hexec : exec parseRequestLine (.start conn (head ++ 0 :: tail)) with ⟨e | _ | p, s⟩
  all_goals
    rw [hexec] at hkeep
    obtain ⟨hcopies, hws'⟩ := Prod.mk.inj hkeep
  · have hrun : exec parseInMsgHeaders (.start conn (head ++ 0 :: tail)) = (.error e, s) :=
      exec_bind_error hexec
    rw [parseThenAccept_idle encode hrun (hws'.trans hws)]
    unfold CopiesFit
    rw [hcopies]
    constructor
    · intro _ _ _ h
      cases h
    · exact fun _ => hnil
  · have hrun : exec parseInMsgHeaders (.start conn (head ++ 0 :: tail)) = (.ok (-1), s) :=
      exec_bind_ok hexec
    rw [parseThenAccept_idle encode hrun (hws'.trans hws)]
    unfold CopiesFit
    rw [hcopies]
    constructor
    · intro _ _ _ h
      cases h
    · exact fun _ => hnil
  · have hrun : exec parseInMsgHeaders (.start conn (head ++ 0 :: tail)) =
        exec (parseHeaderLines p) s := exec_bind_ok hexec
    obtain ⟨hend, hp, hpn⟩ := parseRequestLine_headEnd (HeadEnd.of_head h) hexec
    rw [parseHeaderLines_fits encode hrun hend hp hpn hcopies (hws'.trans hws)]
    constructor
    · intro hfit p' s' heq
      cases heq
      exact hfit
    · exact fun hfit => hfit p s rfl

/-- A request with two headers whose values are copied. -/
def shortHead : List UInt8 :=
  ascii "GET / HTTP/1.1\r\nConnection: keep-alive\r\nKeep-Alive: timeout=5\r\n\r\n"

theorem headFits_shortHead : HeadFits (.start .fresh (shortHead ++ 0 :: [])) :=
  (copiesFit_iff id shortHead [] ⟨by decide, by decide, by decide⟩ .fresh rfl).mp
    (by unfold CopiesFit Copy.Fits; decide)

/-- A `Keep-Alive` value of 22 bytes. -/
def longHead : List UInt8 :=
  ascii "GET / HTTP/1.1\r\nConnection: keep-alive\r\nKeep-Alive: timeout=5, max=1000000\r\n\r\n"

/-- It is copied into `keep_alive_time_str_buf`, which has 20 bytes. -/
theorem not_copiesFit_longHead :
    IsRequestHead longHead ∧
      ¬ CopiesFit (exec (parseThenAccept id) (.start .fresh (longHead ++ 0 :: []))).2 := by
  refine ⟨⟨by decide, by decide, by decide⟩, ?_⟩
  unfold CopiesFit Copy.Fits
  decide +kernel

end WLink.Httpd
