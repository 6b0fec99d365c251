import WLink.Httpd.Task
import WLink.Httpd.DispatchTheorems

/-!
# What a request leaves alone

Frames and postconditions of the two computations that a request goes through.

* `keeps_parseInMsgHeaders`, `parseInMsgHeaders_upgrade` -- the parser writes the fields of a
  request and no others, and it makes a WebSocket of a connection only together with the timeout
  of one
* `dispatch_outcome` -- a request that has been dispatched leaves a connection that is marked, or
  a WebSocket whose handshake has been answered
-/

namespace WLink.Httpd

open WLink.Lib CString NeonRtFs Exec

/-! ## The parser -/

/-- The record without the fields that the parser writes. -/
def Conn.unparsed (c : Conn) : Conn :=
  { c with
    connetionMode := .close
    connectionKeepAliveTime := 0
    websocketClient := false
    clientKey := none
    requestType := .unknown
    url := none
    hostName := none
    isLargeData := false
    dataLen := 0
    dataBuff := none
    acceptEncoding := []
    getArgs := none }

/-- What the request line leaves alone. -/
def lineFrame (s : ParseState) : Conn × Bool × List ℕ × ℕ :=
  (s.conn.unparsed, s.conn.websocketClient, s.periods, s.conn.dataLen)

theorem keeps_lineFrame_poke (p : ℕ) (b : UInt8) : Keeps lineFrame (poke p b) := by
  intro s
  rw [exec_poke]
  split <;> rfl

theorem keeps_parseRequestLine_frame : Keeps lineFrame parseRequestLine := by
  unfold parseRequestLine
  refine Keeps.bind (Keeps.update fun _ => rfl) fun _ => ?_
  refine Keeps.bind (Keeps.viewE _) fun lineEnd => ?_
  split
  · exact Keeps.pure _
  refine Keeps.bind (Keeps.viewE _) fun method => ?_
  refine Keeps.bind (Keeps.update fun _ => rfl) fun _ => ?_
  refine Keeps.ite (Keeps.pure _) ?_
  refine Keeps.bind (Keeps.viewE _) fun path => ?_
  refine Keeps.bind (Keeps.update fun _ => rfl) fun _ => ?_
  split
  · exact Keeps.pure _
  refine Keeps.bind (Keeps.viewE _) fun blank => ?_
  split
  · exact Keeps.pure _
  refine Keeps.bind (keeps_lineFrame_poke _ _) fun _ => ?_
  refine Keeps.bind (Keeps.viewE _) fun args => ?_
  split
  · refine Keeps.bind (keeps_lineFrame_poke _ _) fun _ => ?_
    exact Keeps.bind (Keeps.update fun _ => rfl) fun _ => Keeps.pure _
  · exact Keeps.bind (Keeps.update fun _ => rfl) fun _ => Keeps.pure _

/-- What the headers of a request that is no upgrade leave alone. -/
def plainFrame (s : ParseState) : Conn × Bool := (s.conn.unparsed, s.conn.websocketClient)

theorem keeps_parsePlain_frame (secondLine connStr : ℕ) :
    Keeps plainFrame (parsePlain secondLine connStr) :=
  (keeps_headerFrame_parsePlain secondLine connStr).comp fun t =>
    (t.2.unparsed, t.2.websocketClient)

/-- What the headers of an upgrade leave alone. -/
def upgradeFrame (s : ParseState) : Conn × ℕ := (s.conn.unparsed, s.conn.dataLen)

theorem keeps_parseUpgrade_frame (secondLine : ℕ) :
    Keeps upgradeFrame (parseUpgrade secondLine) := by
  unfold parseUpgrade
  refine Keeps.bind (Keeps.viewE _) fun upgradeWs => ?_
  split
  · exact Keeps.pure _
  refine Keeps.bind (Keeps.viewE _) fun websocket => ?_
  refine Keeps.ite ?_ (Keeps.pure _)
  refine Keeps.bind (Keeps.viewE _) fun key => ?_
  split
  · exact Keeps.pure _
  refine Keeps.bind (Keeps.viewE _) fun e => ?_
  refine Keeps.bind ((keeps_lineFrame_poke _ _).comp fun t => (t.1, t.2.2.2)) fun _ => ?_
  refine Keeps.bind (Keeps.update fun _ => rfl) fun _ => ?_
  exact Keeps.bind (Keeps.update fun _ => rfl) fun _ => Keeps.pure _

/-- The parser leaves the fields alone that are not about the request. -/
theorem keeps_parseInMsgHeaders : Keeps (fun s => s.conn.unparsed) parseInMsgHeaders := by
  unfold parseInMsgHeaders parseHeaderLines
  refine Keeps.bind (keeps_parseRequestLine_frame.comp Prod.fst) fun secondLine => ?_
  split
  · exact Keeps.pure _
  refine Keeps.bind (Keeps.viewE _) fun host => ?_
  refine Keeps.bind (Keeps.update fun _ => rfl) fun _ => ?_
  refine Keeps.bind (Keeps.viewE _) fun connStr => ?_
  split
  · exact Keeps.pure _
  refine Keeps.bind (Keeps.viewE _) fun upgrade => ?_
  exact Keeps.ite ((keeps_parseUpgrade_frame _).comp Prod.fst)
    ((keeps_parsePlain_frame _ _).comp Prod.fst)

/-- A connection that is no WebSocket, and whose timer has not been touched. -/
def NoUpgrade (s : ParseState) : Prop := s.conn.websocketClient = false ∧ s.periods = []

/-- A connection that has become a WebSocket has got the timeout of one. -/
def UpgradeTimed (s : ParseState) : Prop :=
  s.conn.websocketClient = true → s.periods = [websocketTimeoutTimerMs]

theorem NoUpgrade.timed {s : ParseState} (h : NoUpgrade s) : UpgradeTimed s := by
  intro hclient
  rw [h.1] at hclient
  cases hclient

theorem triple_setConn {P : ParseState → Prop} {f : Conn → Conn}
    (h : ∀ s, P s → P { s with conn := f s.conn }) : Triple P (setConn f) (fun _ => P) :=
  Triple.update h

theorem parseUpgrade_timed (secondLine : ℕ) :
    Triple NoUpgrade (parseUpgrade secondLine)
      (fun ret s => UpgradeTimed s ∧ (ret < 0 → s.conn.websocketClient = false)) := by
  have hfail : Triple NoUpgrade (pure (-1) : Parse ℤ)
      (fun ret s => UpgradeTimed s ∧ (ret < 0 → s.conn.websocketClient = false)) :=
    Triple.pure fun s h => ⟨h.timed, fun _ => h.1⟩
  unfold parseUpgrade
  refine (Triple.viewE _).bind fun upgradeWs => ?_
  split
  · exact hfail
  refine (Triple.viewE _).bind fun websocket => ?_
  refine Triple.ite (fun _ => ?_) fun _ => hfail
  refine (Triple.viewE _).bind fun key => ?_
  split
  · exact hfail
  refine (Triple.viewE _).bind fun e => ?_
  have hpoke : Triple NoUpgrade (poke e 0) (fun _ => NoUpgrade) :=
    Triple.of_keeps ((keeps_lineFrame_poke e 0).comp fun t => (t.2.1, t.2.2.1))
      (fun t => t.1 = false ∧ t.2 = [])
  refine hpoke.bind fun _ => ?_
  intro s ret s' h hexec
  cases hexec
  refine ⟨fun _ => ?_, fun hret => absurd hret (by decide)⟩
  show s.periods ++ [websocketTimeoutTimerMs % 2 ^ 32] = _
  rw [h.2]
  rfl

/-- The parser makes a WebSocket of a connection only together with the timeout of one. -/
theorem parseInMsgHeaders_upgrade :
    Triple NoUpgrade parseInMsgHeaders (fun _ => UpgradeTimed) := by
  have hline : Triple NoUpgrade parseRequestLine (fun _ => NoUpgrade) :=
    Triple.of_keeps (keeps_parseRequestLine_frame.comp fun t => (t.2.1, t.2.2.1))
      (fun t => t.1 = false ∧ t.2 = [])
  unfold parseInMsgHeaders parseHeaderLines
  refine hline.bind fun secondLine => ?_
  split
  · exact Triple.pure fun s h => h.timed
  refine (Triple.viewE _).bind fun host => ?_
  refine (triple_setConn fun _ h => h).bind fun _ => ?_
  refine (Triple.viewE _).bind fun connStr => ?_
  split
  · exact Triple.pure fun s h => h.timed
  refine (Triple.viewE _).bind fun upgrade => ?_
  apply Triple.ite
  · intro _
    exact (parseUpgrade_timed _).imp (fun _ h => h) fun _ _ h => h.1
  · intro _
    refine (Triple.of_keeps ((keeps_parsePlain_frame _ _).comp Prod.snd) (fun b => b = false)).imp
      (fun _ h => h.1) fun _ s h hclient => ?_
    exact absurd (hclient.symm.trans h) (by decide)

/-! ## Sending -/

section

variable (io : Io)

theorem keeps_conn_httpSendHeader (statusCode : ℕ) (contentType : List UInt8) (contentLength : ℤ)
    (isGzip : Bool) (newUrl : Option (List UInt8)) :
    Keeps HttpState.conn
      (httpSendHeader io statusCode contentType contentLength isGzip newUrl) := by
  unfold httpSendHeader
  refine Keeps.bind (Keeps.view _) fun block => ?_
  split
  · exact Keeps.pure _
  refine Keeps.bind (Keeps.view _) fun conn => Keeps.bind (Keeps.lift _) fun _ => ?_
  refine Keeps.bind ?_ fun status => Keeps.ite (Keeps.pure _) (Keeps.pure _)
  exact Keeps.bind (Keeps.view _) fun _ => Keeps.bind (Keeps.update fun _ => rfl) fun _ =>
    Keeps.pure _

theorem keeps_conn_sendBody (bs : List UInt8) : Keeps HttpState.conn (sendBody io bs) :=
  Keeps.bind (Keeps.view _) fun _ => Keeps.bind (Keeps.update fun _ => rfl) fun _ => Keeps.pure _

theorem keeps_conn_openFile (fileName : List UInt8) :
    Keeps HttpState.conn (openFile io fileName) := by
  intro s
  rw [openFile, exec_mk]
  cases neonRtFsOpen s.img s.initDone (io.malloc s.events sizeofNeonRtFsFile).isSome fileName <;>
    rfl

theorem keeps_conn_sendLoop (sendLen : ℕ → ℕ) (fuel : ℕ) (fh : NeonRtFsFile) (buf : List UInt8) :
    Keeps HttpState.conn (sendLoop io sendLen fuel fh buf) := by
  induction fuel generalizing fh buf with
  | zero => exact Keeps.lift _
  | succ fuel ih =>
    unfold sendLoop
    refine Keeps.bind (Keeps.view _) fun img => Keeps.bind (Keeps.lift _) fun read => ?_
    exact Keeps.bind (keeps_conn_sendBody io _) fun status => Keeps.ite (ih _ _) (Keeps.pure _)

theorem keeps_conn_sendFile (sendLen : ℕ → ℕ) (fh : NeonRtFsFile) :
    Keeps HttpState.conn (sendFile io sendLen fh) := by
  unfold sendFile
  refine Keeps.bind (Keeps.view _) fun block => ?_
  split
  · exact Keeps.pure _
  · exact Keeps.bind (Keeps.view _) fun img => keeps_conn_sendLoop io _ _ _ _

theorem keeps_conn_httpdSendWebFile : Keeps HttpState.conn (httpdSendWebFile io) := by
  unfold httpdSendWebFile
  refine Keeps.bind (Keeps.view _) fun s => ?_
  split
  · exact Keeps.pure _
  refine Keeps.bind (Keeps.lift _) fun contentType => Keeps.bind (Keeps.lift _) fun name => ?_
  refine Keeps.bind (keeps_conn_openFile io _) fun file => ?_
  split
  · exact Keeps.pure _
  refine Keeps.bind (keeps_conn_httpSendHeader io _ _ _ _ _) fun r => Keeps.ite (Keeps.pure _) ?_
  exact Keeps.bind (keeps_conn_sendFile io _ _) fun _ => Keeps.pure _

theorem keeps_conn_httpdSendPage (page : Page) (newUrl : Option (List UInt8)) :
    Keeps HttpState.conn (httpdSendPage io page newUrl) := by
  have hbody : ∀ file, Keeps HttpState.conn (sendPageBody io page file) := by
    intro file
    cases file with
    | some fh => exact keeps_conn_sendFile io _ _
    | none => exact Keeps.bind (keeps_conn_sendBody io _) fun _ => Keeps.pure _
  unfold httpdSendPage
  refine Keeps.bind (keeps_conn_openFile io _) fun file => Keeps.bind (Keeps.view _) fun conn => ?_
  refine Keeps.bind (Keeps.lift _) fun refused => Keeps.ite ?_ ?_
  · refine Keeps.bind (keeps_conn_httpSendHeader io _ _ _ _ _) fun r => Keeps.ite (Keeps.pure _) ?_
    exact Keeps.bind (keeps_conn_sendBody io _) fun _ => Keeps.pure _
  · refine Keeps.bind (Keeps.lift _) fun contentType => ?_
    refine Keeps.bind (keeps_conn_httpSendHeader io _ _ _ _ _) fun r => Keeps.ite (Keeps.pure _) ?_
    exact Keeps.bind (hbody _) fun _ => Keeps.pure _

end

/-! ## The dispatch -/

/-- The record without the fields that the methods write. -/
def Conn.unanswered (c : Conn) : Conn := { c with websocketAuth := false, url := none, cgi := none }

def answerFrame (s : HttpState) : Conn := s.conn.unanswered

section

variable {io : Io} {urls : UrlTables} {handlers : Handlers}
  (hkeeps : ∀ cgi, Keeps HttpState.conn (handlers cgi))

theorem keeps_isMatchCgi : Keeps answerFrame (isMatchCgi urls) := by
  have hsearch : ∀ table url, Keeps answerFrame (searchUrls table url) := by
    intro table url
    unfold searchUrls
    split
    · exact Keeps.bind (Keeps.update fun _ => rfl) fun _ => Keeps.pure _
    · exact Keeps.pure _
  unfold isMatchCgi
  refine Keeps.bind (Keeps.view _) fun s => ?_
  split
  · exact Keeps.pure _
  refine Keeps.bind (Keeps.lift _) fun u => Keeps.bind (hsearch _ _) fun _ => ?_
  exact Keeps.bind (hsearch _ _) fun _ => Keeps.pure _

theorem keeps_clearCgi : Keeps answerFrame clearCgi := Keeps.update fun _ => rfl

theorem keeps_httpdNotFound : Keeps answerFrame (httpdNotFound io) :=
  (keeps_conn_httpdSendPage io notFoundPage none).comp Conn.unanswered

theorem keeps_acceptWebsocket : Keeps answerFrame (acceptWebsocket io) := by
  unfold acceptWebsocket
  refine Keeps.bind (Keeps.view _) fun block => ?_
  split
  · exact Keeps.pure _
  refine Keeps.bind (Keeps.view _) fun s => ?_
  split
  · exact Keeps.lift _
  refine Keeps.bind (Keeps.lift _) fun key => Keeps.bind (Keeps.lift _) fun acceptKey => ?_
  refine Keeps.bind (Keeps.view _) fun buf => ?_
  split
  · exact Keeps.pure _
  refine Keeps.bind (Keeps.lift _) fun _ => Keeps.bind ?_ fun status => ?_
  · exact Keeps.bind (Keeps.view _) fun _ => Keeps.bind (Keeps.update fun _ => rfl) fun _ =>
      Keeps.pure _
  · exact Keeps.bind (Keeps.update fun _ => rfl) fun _ => Keeps.pure _

theorem keeps_sendUrl : Keeps answerFrame (sendUrl io) := by
  have hweb : Keeps answerFrame (httpdSendWebFile io) :=
    (keeps_conn_httpdSendWebFile io).comp Conn.unanswered
  unfold sendUrl
  refine Keeps.bind (Keeps.view _) fun s => ?_
  split
  · exact Keeps.lift _
  refine Keeps.bind (Keeps.lift _) fun u => Keeps.ite ?_ ?_
  · exact Keeps.bind (Keeps.update fun _ => rfl) fun _ => hweb
  · exact Keeps.bind hweb fun r => Keeps.ite keeps_httpdNotFound (Keeps.pure _)

include hkeeps

theorem keeps_callCgi : Keeps answerFrame (callCgi handlers) := by
  unfold callCgi
  refine Keeps.bind (Keeps.view _) fun cgi => ?_
  split
  · exact Keeps.lift _
  · exact Keeps.bind (Keeps.update fun _ => rfl) fun _ => (hkeeps _).comp Conn.unanswered

theorem keeps_runCgi : Keeps answerFrame (runCgi io handlers) :=
  Keeps.bind (keeps_callCgi hkeeps) fun _ => Keeps.bind keeps_clearCgi fun _ =>
    Keeps.ite keeps_httpdNotFound (Keeps.pure _)

theorem keeps_httpdProcessPostRequest :
    Keeps answerFrame (httpdProcessPostRequest io urls handlers) := by
  unfold httpdProcessPostRequest
  have hnotFound : Keeps answerFrame (do
      let _r ← httpdNotFound io
      pure httpdCgiDone) := Keeps.bind keeps_httpdNotFound fun _ => Keeps.pure _
  refine Keeps.bind keeps_isMatchCgi fun isMatch => Keeps.ite ?_ hnotFound
  refine Keeps.ite (Keeps.pure _) (Keeps.bind (keeps_callCgi hkeeps) fun r => ?_)
  refine Keeps.bind keeps_clearCgi fun _ => Keeps.ite (Keeps.pure _) ?_
  exact Keeps.ite hnotFound (Keeps.pure _)

theorem keeps_httpdProcessPutRequest :
    Keeps answerFrame (httpdProcessPutRequest io urls handlers) := by
  unfold httpdProcessPutRequest
  refine Keeps.bind keeps_isMatchCgi fun isMatch => Keeps.ite ?_ ?_
  · exact Keeps.bind (keeps_runCgi hkeeps) fun _ => Keeps.bind keeps_clearCgi fun _ => Keeps.pure _
  · exact Keeps.bind keeps_httpdNotFound fun _ => Keeps.bind keeps_clearCgi fun _ => Keeps.pure _

theorem keeps_httpdProcessGetRequest :
    Keeps answerFrame (httpdProcessGetRequest io urls handlers) := by
  unfold httpdProcessGetRequest
  refine Keeps.bind (Keeps.view _) fun client => Keeps.ite keeps_acceptWebsocket ?_
  refine Keeps.bind keeps_isMatchCgi fun isMatch => Keeps.ite ?_ ?_
  · exact Keeps.bind (keeps_runCgi hkeeps) fun _ => Keeps.pure _
  · exact Keeps.bind keeps_sendUrl fun _ => Keeps.pure _

/-- The methods leave the fields alone that are not about the answer. -/
theorem keeps_processRequest : Keeps answerFrame (processRequest io urls handlers) := by
  unfold processRequest
  refine Keeps.bind (Keeps.view _) fun c => ?_
  split
  · exact Keeps.ite (keeps_httpdProcessPostRequest hkeeps) (Keeps.pure _)
  · exact keeps_httpdProcessGetRequest hkeeps
  · exact Keeps.ite (keeps_httpdProcessPutRequest hkeeps) (Keeps.pure _)
  · exact keeps_httpdProcessPutRequest hkeeps
  · exact Keeps.pure _

theorem keeps_conn_runLeftCgi : Keeps HttpState.conn (runLeftCgi handlers) := by
  unfold runLeftCgi callCgi
  refine Keeps.bind (Keeps.view _) fun c => Keeps.ite ?_ (Keeps.pure _)
  refine Keeps.bind (Keeps.bind (Keeps.view _) fun cgi => ?_) fun _ => Keeps.pure _
  split
  · exact Keeps.lift _
  · exact Keeps.bind (Keeps.update fun _ => rfl) fun _ => hkeeps _

end

/-- What `WebSocketServer_CreateAcceptKey` makes of the key in a head. -/
def AcceptKey (mem : List UInt8) (c : Conn) (acceptKey : List UInt8) : Prop :=
  ∃ clientKey key, c.clientKey = some clientKey ∧ cstring mem clientKey = .ok key ∧
    acceptKeyOf key = .ok acceptKey

/-- The handshake has been answered: the connection may send and receive frames, and the head that
accepts its key has been sent, with the result that `send` gave. -/
def Answered (io : Io) (s s' : HttpState) : Prop :=
  s'.conn.websocketAuth = true ∧ ∃ key, AcceptKey s.urlMem s.conn key ∧
    .head (upgradeHead key) (io.send s.events (upgradeHead key).render) ∈ s'.events

/-- What a method comes to: the request is done, or it was a handshake that has been answered. -/
def Outcome (io : Io) (s : HttpState) (r : ℤ) (s' : HttpState) : Prop :=
  r = httpdCgiDone ∨ IsUpgrade s.conn ∧ Answered io s s'

theorem acceptWebsocket_outcome (io : Io) {s : HttpState} (h : IsUpgrade s.conn) :
    Triple (· = s) (acceptWebsocket io) (Outcome io s) := by
  have hview : ∀ {α : Type} (f : HttpState → α),
      Triple (· = s) (Exec.view f) (fun _ => (· = s)) := fun f => Triple.view fun _ ht => ht
  have hdone : Triple (· = s) (pure httpdCgiDone) (Outcome io s) := Triple.pure fun _ _ => Or.inl rfl
  unfold acceptWebsocket
  refine (hview _).bind fun block => ?_
  split
  · exact hdone
  refine Triple.bind (Q := fun t t' => t' = s ∧ t = s) (Triple.view fun t ht => ⟨ht, ht⟩) fun t => ?_
  -- without a key the reading of it faults, so there is no outcome
  rintro t' r s' ⟨ht', rfl⟩ hexec
  cases hclientKey : t.conn.clientKey with
  | none =>
    rw [hclientKey] at hexec
    cases hexec
  | some clientKey =>
    rw [hclientKey] at hexec
    obtain ⟨key, t₁, hkey, hexec⟩ := exec_bind_eq_ok.mp hexec
    obtain ⟨hread, rfl⟩ := Prod.mk.inj hkey
    obtain ⟨acceptKey, t₂, haccept, hexec⟩ := exec_bind_eq_ok.mp hexec
    obtain ⟨hok, rfl⟩ := Prod.mk.inj haccept
    refine Triple.bind (hview _) (fun buf => ?_) t' r s' ht' hexec
    split
    · exact hdone
    refine (Triple.lift _).bind fun _ => ?_
    rintro t'' r s' rfl hexec
    cases hexec
    exact Or.inr ⟨h, rfl, acceptKey, ⟨clientKey, key, hclientKey, hread, hok⟩,
      List.mem_append_right _ List.mem_cons_self⟩

/-- Every request but a handshake is done when its method returns. -/
theorem processRequest_outcome (io : Io) (urls : UrlTables) (handlers : Handlers) (s : HttpState) :
    Triple (· = s) (processRequest io urls handlers) (Outcome io s) := by
  have hdone : ∀ P : HttpState → Prop, Triple P (pure httpdCgiDone) (Outcome io s) :=
    fun P => Triple.pure fun _ _ => Or.inl rfl
  -- all methods but `GET` end with `HTTPD_CGI_DONE`
  have hput : Triple (· = s) (httpdProcessPutRequest io urls handlers) (Outcome io s) := by
    unfold httpdProcessPutRequest
    refine Triple.seq fun isMatch => Triple.ite (fun _ => ?_) fun _ => ?_
    · exact Triple.seq fun _ => Triple.seq fun _ => hdone _
    · exact Triple.seq fun _ => Triple.seq fun _ => hdone _
  have hpost : Triple (· = s) (httpdProcessPostRequest io urls handlers) (Outcome io s) := by
    unfold httpdProcessPostRequest
    refine Triple.seq fun isMatch => Triple.ite (fun _ => ?_) fun _ => Triple.seq fun _ => hdone _
    refine Triple.ite (fun _ => hdone _) fun _ => Triple.seq fun r => Triple.seq fun _ => ?_
    exact Triple.ite (fun _ => hdone _) fun _ =>
      Triple.ite (fun _ => Triple.seq fun _ => hdone _) fun _ => hdone _
  have hget (htype : s.conn.requestType = .get) :
      Triple (· = s) (httpdProcessGetRequest io urls handlers) (Outcome io s) := by
    unfold httpdProcessGetRequest
    refine Triple.bind (Q := fun client t => t = s ∧ client = s.conn.websocketClient)
      (Triple.view fun t ht => ⟨ht, by rw [ht]⟩) fun client => Triple.ite (fun hclient => ?_)
        fun _ => ?_
    · rintro t r t' ⟨ht, rfl⟩
      exact acceptWebsocket_outcome io ⟨htype, hclient⟩ t r t' ht
    · refine Triple.seq fun isMatch => Triple.ite (fun _ => ?_) fun _ => ?_
      · exact Triple.seq fun _ => hdone _
      · exact Triple.seq fun _ => hdone _
  unfold processRequest
  refine Triple.bind (Q := fun c t => t = s ∧ c = s.conn)
    (Triple.view fun t ht => ⟨ht, by rw [ht]⟩) fun c => ?_
  rintro t r t' ⟨ht, rfl⟩ hexec
  cases htype : s.conn.requestType with
  | post =>
    rw [htype] at hexec
    exact Triple.ite (fun _ => hpost) (fun _ => hdone _) t r t' ht hexec
  | get =>
    rw [htype] at hexec
    exact hget htype t r t' ht hexec
  | put =>
    rw [htype] at hexec
    exact Triple.ite (fun _ => hput) (fun _ => hdone _) t r t' ht hexec
  | delete =>
    rw [htype] at hexec
    exact hput t r t' ht hexec
  | unknown =>
    rw [htype] at hexec
    exact hdone (· = s) t r t' ht hexec

/-- What the end of a request that is not done leaves alone. -/
def endFrame (s : HttpState) : Bool × Bool × Option ConnTimer × List HttpEvent :=
  (s.conn.websocketClient, s.conn.websocketAuth, s.conn.connectionTimeoutTimer, s.events)

theorem keeps_endRequest {r : ℤ} (hr : r ≠ httpdCgiDone) : Keeps endFrame (endRequest r) := by
  unfold endRequest
  rw [if_neg hr]
  refine Keeps.bind (Keeps.update fun s => ?_) fun _ => Keeps.pure _
  show endFrame { s with conn := if s.conn.dataBuff.isSome then _ else s.conn } = _
  split <;> rfl

/-- A handshake that has been answered leaves its connection with the timer it had. -/
def Upgraded (io : Io) (s s' : HttpState) : Prop :=
  IsUpgrade s.conn ∧ Answered io s s' ∧ s'.conn.websocketClient = true ∧
    s'.conn.connectionTimeoutTimer = s.conn.connectionTimeoutTimer

section

variable {io : Io} {urls : UrlTables} {handlers : Handlers}
  (hkeeps : ∀ cgi, Keeps HttpState.conn (handlers cgi))
  (hsends : ∀ cgi s, s.events <+: (exec (handlers cgi) s).2.events)
include hsends

theorem prefix_events_runLeftCgi (s : HttpState) :
    s.events <+: (exec (runLeftCgi handlers) s).2.events := by
  have hkeep : ∀ {α : Type} {x : Http α}, Keeps HttpState.events x →
      Preserves (fun t => s.events <+: t.events) x :=
    fun h => Preserves.of_keeps h (s.events <+: ·)
  have hcall : Preserves (fun t => s.events <+: t.events) (callCgi handlers) := by
    unfold callCgi
    refine (hkeep (Keeps.view _)).bind fun cgi => ?_
    split
    · exact hkeep (Keeps.lift _)
    · exact Preserves.bind (fun t ht => ht.trans (List.prefix_append _ _)) fun _ t ht =>
        ht.trans (hsends _ t)
  have hall : Preserves (fun t => s.events <+: t.events) (runLeftCgi handlers) :=
    (hkeep (Keeps.view _)).bind fun c =>
      Preserves.ite (hcall.bind fun _ => Preserves.pure _) (Preserves.pure _)
  exact hall s (List.prefix_refl _)

include hkeeps

/-- A request that has been dispatched leaves a connection that is marked, or a WebSocket whose
handshake has been answered. -/
theorem dispatch_outcome {s s' : HttpState}
    (h : exec (dispatch io urls handlers) s = (.ok (), s')) :
    s'.conn.connectionDestructFlag = true ∨ Upgraded io s s' := by
  unfold dispatch at h
  obtain ⟨r, s₁, hprocess, h⟩ := exec_bind_eq_ok.mp h
  obtain ⟨_, s₂, hleft, hend⟩ := exec_bind_eq_ok.mp h
  by_cases hr : r = httpdCgiDone
  · obtain ⟨t, hend', -, -, hflag⟩ := exec_endRequest r s₂
    rw [hend] at hend'
    cases hend'
    exact Or.inl (hflag hr)
  · right
    obtain hdone | ⟨hupgrade, hauth, key, hkey, hhead⟩ :=
      processRequest_outcome io urls handlers s s r s₁ rfl hprocess
    · exact absurd hdone hr
    -- what the upgrade has set is not touched by the rest of the dispatch
    have hframe : s₁.conn.unanswered = s.conn.unanswered := by
      have hkept : Keeps answerFrame (processRequest io urls handlers) :=
        keeps_processRequest hkeeps
      have := hkept s
      rwa [hprocess] at this
    have hconn : s₂.conn = s₁.conn := by
      have := keeps_conn_runLeftCgi hkeeps s₁
      rwa [hleft] at this
    have hevents : s₁.events <+: s₂.events := by
      have := prefix_events_runLeftCgi hsends s₁
      rwa [hleft] at this
    have hfields : endFrame s' =
        (s₁.conn.websocketClient, s₁.conn.websocketAuth, s₁.conn.connectionTimeoutTimer, s₂.events) := by
      have := keeps_endRequest hr s₂
      rw [hend] at this
      rw [this, endFrame, hconn]
    obtain ⟨hclient, hauth', htimer, hevents'⟩ : s'.conn.websocketClient = _ ∧
        s'.conn.websocketAuth = _ ∧ s'.conn.connectionTimeoutTimer = _ ∧ s'.events = _ := by
      simpa [endFrame] using hfields
    refine ⟨hupgrade, ⟨hauth'.trans hauth, key, hkey, ?_⟩, ?_, ?_⟩
    · rw [hevents']
      exact hevents.subset hhead
    · rw [hclient]
      exact (congrArg (·.websocketClient) hframe).trans hupgrade.2
    · rw [htimer]
      exact congrArg (·.connectionTimeoutTimer) hframe

end

end WLink.Httpd
