import WLink.Httpd.TaskTheorems
import WLink.Lib.Run

/-!
# Runs of the server task

What holds of a connection over all passes and all times at which its timer expires. Each result
has a condition on the passes: a pass that breaks it may leave the connection in a state in which
the next pass takes something for what it is not.

* `parsesAtStart_of_allSteps` -- only the first byte of the client is parsed as the start of a head
* `waitsWatched_of_allSteps` -- a client that stops sending is noticed by the timer
* `handshakeFirst_of_allSteps` -- no frames before the handshake
-/

namespace WLink.Httpd

open WLink.Lib Exec

/-! ## Heads and bodies -/

/-- Every byte range that was parsed starts with the first byte of the client. -/
def ParsesAtStart (s : TaskState) : Prop := ∀ p ∈ s.parses, p = 0

theorem NoRequest.parsesAtStart {s s' : TaskState} (logs : NoRequest s s')
    (h : ParsesAtStart s) : ParsesAtStart s' := by
  intro p hp
  rw [logs.parses] at hp
  exact h p hp

/-- The pass does not leave the connection in the middle of a head or in front of a body: a full
buffer has a blank line, and there is memory for the body of a request. -/
def KeepsBoundary (s : TaskState) : TaskEvent → Prop
  | .pass env =>
    ¬ HeadOverflows env s ∧ ∀ out, s.request env = some out → HasBody out.2.conn → env.body.isSome
  | .timeout => True

/-- The next head that is received starts with the first byte of the client. -/
structure AtBoundary (s : TaskState) : Prop where
  parses : ParsesAtStart s
  next : s.Ended ∨ s.conn.websocketClient = true ∨ s.taken = 0

theorem AtBoundary.step {s : TaskState} {e : TaskEvent} (h : AtBoundary s) (hfit : RecvKeepsContract s e)
    (hkeeps : KeepsBoundary s e) : AtBoundary (taskStep s e) := by
  cases taskStep_result hfit with
  | ended logs ended => exact ⟨logs.parsesAtStart h.parses, Or.inl ended⟩
  | idle logs conn taken live =>
    refine ⟨logs.parsesAtStart h.parses, ?_⟩
    rw [conn, taken, TaskState.Ended, conn]
    refine h.next.imp_left fun hended => hended.imp_left fun hlive => ?_
    by_contra hnot
    exact absurd (live (by simpa using hnot)) (by simp [hlive])
  | overflow logs conn overflows => exact absurd overflows hkeeps.1
  | websocket logs client live flag stays =>
    refine ⟨logs.parsesAtStart h.parses, Or.inr (Or.inl ?_)⟩
    exact (congrArg (·.websocketClient) stays.1).trans client
  | @request env out request takesUp =>
    obtain ⟨hlive, hflag, hclient, -⟩ :=
      TaskState.receivesHead_iff.mp (TaskState.request_eq request).1
    have htaken : s.taken = 0 := by
      obtain hended | hws | htaken := h.next
      · exact absurd hended (TaskState.not_ended hlive hflag)
      · exact absurd (hclient.symm.trans hws) (by decide)
      · exact htaken
    constructor
    · intro p hp
      rw [takesUp.parses] at hp
      obtain hp | hp := List.mem_append.mp hp
      · exact h.parses p hp
      · exact (List.mem_singleton.mp hp).trans htaken
    · obtain hended | ⟨-, hunstored | hws⟩ := takesUp.exit
      · exact Or.inl hended
      · have hbody := hkeeps.2 out request (hasBody_timed.mp hunstored.1)
        rw [hunstored.2.1] at hbody
        cases hbody
      · exact Or.inr (Or.inl hws.client)

/-- Head and body bytes are not confused: in a run in which no pass breaks off within a head or in
front of a body, only the first head of the client is parsed. -/
theorem parsesAtStart_of_allSteps (sock : ℤ) (old : Conn) (optionsSet : Bool)
    (stream img : List UInt8) (initDone : Bool) (es : List TaskEvent)
    (hfit : AllSteps taskStep RecvKeepsContract (.start sock old optionsSet stream img initDone) es)
    (hkeeps : AllSteps taskStep KeepsBoundary (.start sock old optionsSet stream img initDone) es) :
    Always taskStep ParsesAtStart (.start sock old optionsSet stream img initDone) es := by
  have hstart : AtBoundary (.start sock old optionsSet stream img initDone) :=
    ⟨fun p hp => absurd hp List.not_mem_nil, Or.inr (Or.inr rfl)⟩
  exact (always_of_allSteps (fun s e hs h => hs.step h.1 h.2) hstart (hfit.and hkeeps)).imp
    fun s h => h.parses

/-- A callback that does nothing. -/
def CgiCallback.quiet : CgiCallback where
  run := pure httpdCgiDone
  keeps_conn := Keeps.pure _
  sends _ := List.prefix_refl _

/-- A pass in which the client sends so many bytes of a head, and what `mem_Malloc` gives for a
body. -/
def PassEnv.arriving (n : ℕ) (body : Option (List UInt8)) : PassEnv where
  cmdBuf := true
  head := List.replicate n (.got 1)
  expires := false
  body := body
  bodyRecvs := []
  io := .ideal
  urls := ⟨[], []⟩
  callbacks := fun _ => .quiet
  ws :=
    { frame := ⟨0, 0, 0, 0, []⟩
      headerBuf := []
      lenDataBuf := []
      maskingKeyBuf := []
      header := .closed
      lenData := .closed
      maskingKey := .closed
      block := none
      payload := .closed }

theorem recvKeepsContract_arriving {s : TaskState} {n : ℕ} (body : Option (List UInt8))
    (h : n ≤ s.stream.length) : RecvKeepsContract s (.pass (.arriving n body)) := recvsFit_replicate h

/-- A connection on which a client sends these bytes to a server without files. -/
def TaskState.sending (stream : List UInt8) : TaskState :=
  .start 5 Conn.fresh true stream [] true

def getHead : List UInt8 := ascii "GET / HTTP/1.1\r\n\r\n"

/-- A head that announces a body of one byte. -/
def postHead : List UInt8 :=
  ascii "POST / HTTP/1.1\r\nConnection: Close\r\nContent-Length: 1\r\n\r\n"

theorem parsesAtStart_get :
    AllSteps taskStep KeepsBoundary (.sending getHead) [.pass (.arriving 18 none)] ∧
      Always taskStep ParsesAtStart (.sending getHead) [.pass (.arriving 18 none)] := by
  have hkeeps : AllSteps taskStep KeepsBoundary (.sending getHead) [.pass (.arriving 18 none)] := by
    refine ⟨⟨fun h => absurd h.2.2 (by decide), fun out hout hbody => ?_⟩, trivial⟩
    have hlen : ((TaskState.sending getHead).request (.arriving 18 none)).map
        (fun out => out.2.conn.dataLen) = some 0 := by decide +kernel
    rw [hout] at hlen
    exact absurd (Option.some.inj hlen) hbody.1.ne'
  exact ⟨hkeeps, parsesAtStart_of_allSteps 5 Conn.fresh true getHead [] true _
    ⟨recvKeepsContract_arriving none (by decide), trivial⟩ hkeeps⟩

/-- A body for which there is no memory is taken for a head. -/
theorem not_parsesAtStart_unstored :
    ¬ (AllSteps taskStep RecvKeepsContract (.sending (postHead ++ getHead))
        [.pass (.arriving 57 none), .pass (.arriving 18 none)] →
      Always taskStep ParsesAtStart (.sending (postHead ++ getHead))
        [.pass (.arriving 57 none), .pass (.arriving 18 none)]) := by
  intro h
  have hlast := (h ⟨recvKeepsContract_arriving none (by decide +kernel),
    recvKeepsContract_arriving none (by decide +kernel), trivial⟩).last
  have hparses : ([.pass (.arriving 57 none), .pass (.arriving 18 none)].foldl taskStep
      (.sending (postHead ++ getHead))).parses = [0, 57] := by decide +kernel
  exact absurd (hlast 57 (by rw [hparses]; decide)) (by decide)

/-! ## The timer -/

/-- Whenever the task has waited for the client, the connection was watched. -/
def WaitsWatched (s : TaskState) : Prop := ∀ c ∈ s.waits, Watched c

/-- A request whose body is received starts the timer: the last period that the parser gives to
the timer is not 0. -/
def KeepsWatch (s : TaskState) : TaskEvent → Prop
  | .pass env => ∀ out, s.request env = some out → HasBody out.2.conn →
    ∃ p, out.2.periods.getLast? = some p ∧ p ≠ 0
  | .timeout => True

/-- A connection that is still served is watched. -/
structure InWatch (s : TaskState) : Prop where
  waits : WaitsWatched s
  next : s.live = true → Watched s.conn

theorem NoRequest.waitsWatched {s s' : TaskState} (logs : NoRequest s s') (h : InWatch s) :
    WaitsWatched s' := by
  intro c hc
  obtain hc | ⟨rfl, hlive, -⟩ := logs.waits c hc
  · exact h.waits c hc
  · exact h.next hlive

theorem watched_of_ended {s : TaskState} (h : s.Ended) (hlive : s.live = true) : Watched s.conn := by
  obtain hdead | hflag := h
  · exact absurd (hlive.symm.trans hdead) (by decide)
  · exact Or.inl hflag

/-- Neither an expiry nor the parser takes a timer away. -/
theorem isSome_timer_request {s : TaskState} {env : PassEnv} {out : Parsed}
    (h : s.request env = some out) (htimer : s.conn.connectionTimeoutTimer.isSome) :
    out.2.conn.connectionTimeoutTimer.isSome := by
  obtain ⟨-, buf, rfl⟩ := TaskState.request_eq h
  have hexpire : (s.expireIf env.expires).conn.connectionTimeoutTimer.isSome := by
    cases env.expires with
    | false => exact htimer
    | true =>
      show s.conn.expire.connectionTimeoutTimer.isSome
      unfold Conn.expire
      split
      · exact (isSome_timer_timerStop s.conn).trans htimer
      · exact htimer
  have hparse : (exec parseInMsgHeaders
      (.start (s.expireIf env.expires).conn.timerStop buf)).2.conn.connectionTimeoutTimer =
        (s.expireIf env.expires).conn.timerStop.connectionTimeoutTimer :=
    congrArg (·.connectionTimeoutTimer) (keeps_parseInMsgHeaders _)
  show (exec parseInMsgHeaders _).2.conn.connectionTimeoutTimer.isSome
  rw [hparse, isSome_timer_timerStop]
  exact hexpire

/-- A request for a WebSocket starts the timer. -/
theorem periods_of_upgrade {s : TaskState} {env : PassEnv} {out : Parsed}
    (h : s.request env = some out) {ret : ℤ} (hret : out.1 = .ok ret)
    (hclient : out.2.conn.websocketClient = true) :
    out.2.periods = [websocketTimeoutTimerMs] := by
  obtain ⟨hreceives, buf, rfl⟩ := TaskState.request_eq h
  obtain ⟨-, -, hplain, -⟩ := TaskState.receivesHead_iff.mp hreceives
  have hstart : (s.expireIf env.expires).conn.websocketClient = false := by
    cases env.expires with
    | false => exact hplain
    | true =>
      show s.conn.expire.websocketClient = false
      unfold Conn.expire
      split <;> exact hplain
  exact parseInMsgHeaders_upgrade _ ret _ ⟨hstart, rfl⟩ (Prod.ext hret rfl) hclient

theorem InWatch.step {s : TaskState} {e : TaskEvent} (h : InWatch s) (hfit : RecvKeepsContract s e)
    (hkeeps : KeepsWatch s e) : InWatch (taskStep s e) := by
  cases taskStep_result hfit with
  | ended logs ended => exact ⟨logs.waitsWatched h, watched_of_ended ended⟩
  | idle logs conn taken live => exact ⟨logs.waitsWatched h, fun hlive => conn ▸ h.next (live hlive)⟩
  | overflow logs conn overflows =>
    have hlive := (TaskState.receivesHead_iff.mp overflows.1).1
    exact ⟨logs.waitsWatched h, fun _ => conn ▸ h.next hlive⟩
  | websocket logs client live flag stays =>
    exact ⟨logs.waitsWatched h, fun _ => stays.2 (h.next live)⟩
  | @request env out request takesUp =>
    obtain ⟨hlive, hflag, -, -⟩ :=
      TaskState.receivesHead_iff.mp (TaskState.request_eq request).1
    have hwatched := h.next hlive
    have htimer := isSome_timer_request request (hwatched.timer hflag)
    -- the request is watched if it has a body, and if it has become a WebSocket
    have hbody (hb : HasBody out.2.timed) : out.2.timed.armed = true := by
      obtain ⟨p, hlast, hp⟩ := hkeeps out request (hasBody_timed.mp hb)
      exact timed_armed hlast hp htimer
    constructor
    · intro c hc
      obtain hc | rfl | ⟨rfl, hb⟩ := takesUp.waits c hc
      · exact h.waits c hc
      · exact hwatched
      · exact Or.inr (hbody hb)
    · intro hlive'
      obtain hended | ⟨⟨ret, hret⟩, hunstored | hws⟩ := takesUp.exit
      · exact watched_of_ended hended hlive'
      · right
        have heq : (taskStep s (.pass env)).conn.armed = out.2.timed.armed :=
          congrArg (·.armed) hunstored.2.2
        rw [heq]
        exact hbody hunstored.1
      · right
        obtain ⟨timer, htimed⟩ := timed_eq out.2
        have hclient : out.2.conn.websocketClient = true := by
          have := hws.isUpgrade.2
          rwa [htimed] at this
        have hperiods := periods_of_upgrade request hret hclient
        have harmed : out.2.timed.armed = true :=
          timed_armed (p := websocketTimeoutTimerMs) (by rw [hperiods]; rfl) (by decide) htimer
        unfold Conn.armed at harmed ⊢
        rw [hws.timer]
        exact harmed

/-- The watchdog covers every wait: in a run in which every request with a body starts the timer,
the task only ever waits for a client whose connection is marked or whose timer is running. -/
theorem waitsWatched_of_allSteps (sock : ℤ) (old : Conn) (optionsSet : Bool)
    (stream img : List UInt8) (initDone : Bool) (es : List TaskEvent)
    (hfit : AllSteps taskStep RecvKeepsContract (.start sock old optionsSet stream img initDone) es)
    (hkeeps : AllSteps taskStep KeepsWatch (.start sock old optionsSet stream img initDone) es) :
    Always taskStep WaitsWatched (.start sock old optionsSet stream img initDone) es := by
  have hstart : InWatch (.start sock old optionsSet stream img initDone) := by
    refine ⟨fun c hc => absurd hc List.not_mem_nil, fun _ => ?_⟩
    cases optionsSet with
    | false => exact Or.inl rfl
    | true => exact watched_timerReStart rfl
  exact (always_of_allSteps (fun s e hs h => hs.step h.1 h.2) hstart (hfit.and hkeeps)).imp
    fun s h => h.waits

/-- A head that announces a body of one byte on a connection that is kept alive. -/
def keptPostHead : List UInt8 :=
  ascii "POST / HTTP/1.1\r\nConnection: keep-alive\r\nContent-Length: 1\r\n\r\n"

theorem waitsWatched_keepAlive :
    AllSteps taskStep KeepsWatch (.sending keptPostHead) [.pass (.arriving 62 (some [0]))] ∧
      Always taskStep WaitsWatched (.sending keptPostHead) [.pass (.arriving 62 (some [0]))] := by
  have hkeeps : AllSteps taskStep KeepsWatch (.sending keptPostHead)
      [.pass (.arriving 62 (some [0]))] := by
    refine ⟨fun out hout _ => ⟨httpTimeoutTimerMs, ?_, by decide⟩, trivial⟩
    have hperiods : ((TaskState.sending keptPostHead).request (.arriving 62 (some [0]))).map
        (fun out => out.2.periods) = some [httpTimeoutTimerMs] := by decide +kernel
    rw [hout] at hperiods
    exact congrArg List.getLast? (Option.some.inj hperiods)
  exact ⟨hkeeps, waitsWatched_of_allSteps 5 Conn.fresh true keptPostHead [] true _
    ⟨recvKeepsContract_arriving _ (by decide +kernel), trivial⟩ hkeeps⟩

/-- A client that announces a body and sends none is waited for without a timer. -/
theorem not_waitsWatched_close :
    ¬ (AllSteps taskStep RecvKeepsContract (.sending postHead) [.pass (.arriving 57 (some [0]))] →
      Always taskStep WaitsWatched (.sending postHead) [.pass (.arriving 57 (some [0]))]) := by
  intro h
  have hlast := (h ⟨recvKeepsContract_arriving _ (by decide +kernel), trivial⟩).last
  have hunwatched : ¬ ∀ c ∈ ([.pass (.arriving 57 (some [0]))].foldl taskStep
      (.sending postHead)).waits, Watched c := by decide +kernel
  exact hunwatched hlast

/-! ## The handshake -/

/-- The answer to a handshake has been sent, and all of it. -/
def HandshakeSent (evs : List HttpEvent) : Prop :=
  ∃ key, .head (upgradeHead key) (upgradeHead key).render.length ∈ evs

/-- A connection that the next pass serves as a WebSocket has the answer to its handshake and is
authenticated. -/
def HandshakeFirst (s : TaskState) : Prop :=
  s.live = true → s.conn.websocketClient = true → s.conn.connectionDestructFlag = false →
    s.conn.websocketAuth = true ∧ HandshakeSent s.http

/-- The handshake of a request for a WebSocket goes through: if the request is taken to have a body
there is memory for it, and `send` accepts all of the answer. -/
def CompletesHandshake (s : TaskState) : TaskEvent → Prop
  | .pass env => ∀ out, s.request env = some out → out.2.conn.websocketClient = true →
    (HasBody out.2.conn → env.body.isSome) ∧
      (out.2.conn.requestType = .get → ∀ key, AcceptKey out.2.mem out.2.conn key →
        env.io.send s.http (upgradeHead key).render = (upgradeHead key).render.length)
  | .timeout => True

theorem HandshakeFirst.step {s : TaskState} {e : TaskEvent} (h : HandshakeFirst s)
    (hfit : RecvKeepsContract s e) (hkeeps : CompletesHandshake s e) : HandshakeFirst (taskStep s e) := by
  intro hlive' hclient' hflag'
  have hnot : ¬ (taskStep s e).Ended := TaskState.not_ended hlive' hflag'
  cases taskStep_result hfit with
  | ended logs ended => exact absurd ended hnot
  | idle logs conn taken live =>
    rw [conn] at hclient' hflag' ⊢
    rw [logs.http]
    exact h (live hlive') hclient' hflag'
  | overflow logs conn overflows =>
    obtain ⟨-, -, hplain, -⟩ := TaskState.receivesHead_iff.mp overflows.1
    rw [conn, hplain] at hclient'
    cases hclient'
  | websocket logs client live flag stays =>
    rw [logs.http, show (taskStep s _).conn.websocketAuth = s.conn.websocketAuth from
      congrArg (·.websocketAuth) stays.1]
    exact h live client flag
  | @request env out request takesUp =>
    obtain ⟨timer, htimed⟩ := timed_eq out.2
    obtain hended | ⟨-, hunstored | hws⟩ := takesUp.exit
    · exact absurd hended hnot
    · have hclient : out.2.conn.websocketClient = true := by
        have heq : (taskStep s (.pass env)).conn.websocketClient = out.2.timed.websocketClient :=
          congrArg (·.websocketClient) hunstored.2.2
        rw [heq, htimed] at hclient'
        exact hclient'
      have hbody := (hkeeps out request hclient).1 (hasBody_timed.mp hunstored.1)
      rw [hunstored.2.1] at hbody
      cases hbody
    · obtain ⟨key, hkey, hsent⟩ := hws.sent
      have hupgrade := hws.isUpgrade
      rw [htimed] at hkey hupgrade
      rw [(hkeeps out request hupgrade.2).2 hupgrade.1 key hkey] at hsent
      exact ⟨hws.auth, key, hsent⟩

/-- No WebSocket traffic before the handshake: in a run in which every handshake that is begun goes
through, a connection that is not marked and that the next pass serves as a WebSocket has been
authenticated, and the answer to its handshake has been sent. -/
theorem handshakeFirst_of_allSteps (sock : ℤ) (old : Conn) (optionsSet : Bool)
    (stream img : List UInt8) (initDone : Bool) (es : List TaskEvent)
    (hfit : AllSteps taskStep RecvKeepsContract (.start sock old optionsSet stream img initDone) es)
    (hkeeps : AllSteps taskStep CompletesHandshake
      (.start sock old optionsSet stream img initDone) es) :
    Always taskStep HandshakeFirst (.start sock old optionsSet stream img initDone) es := by
  have hstart : HandshakeFirst (.start sock old optionsSet stream img initDone) := by
    intro _ hclient
    cases optionsSet <;> cases hclient
  exact always_of_allSteps (fun s e hs h => hs.step h.1 h.2) hstart (hfit.and hkeeps)

def handshakeHead : List UInt8 :=
  ascii "GET / HTTP/1.1\r\nConnection: Upgrade\r\nUpgrade: websocket\r\nSec-WebSocket-Key: x\r\n\r\n"

theorem handshakeFirst_handshake :
    AllSteps taskStep CompletesHandshake (.sending handshakeHead) [.pass (.arriving 81 none)] ∧
      Always taskStep HandshakeFirst (.sending handshakeHead) [.pass (.arriving 81 none)] := by
  have hkeeps : AllSteps taskStep CompletesHandshake (.sending handshakeHead)
      [.pass (.arriving 81 none)] := by
    refine ⟨fun out hout _ => ⟨fun hbody => ?_, fun _ key _ => rfl⟩, trivial⟩
    have hlen : ((TaskState.sending handshakeHead).request (.arriving 81 none)).map
        (fun out => out.2.conn.dataLen) = some 0 := by decide +kernel
    rw [hout] at hlen
    exact absurd (Option.some.inj hlen) hbody.1.ne'
  exact ⟨hkeeps, handshakeFirst_of_allSteps 5 Conn.fresh true handshakeHead [] true _
    ⟨recvKeepsContract_arriving _ (by decide +kernel), trivial⟩ hkeeps⟩

/-- A handshake for which the length of an earlier body is still there is not answered, and the
connection is then served as a WebSocket. -/
theorem not_handshakeFirst_unstored :
    ¬ (AllSteps taskStep RecvKeepsContract (.sending (postHead ++ handshakeHead))
        [.pass (.arriving 57 none), .pass (.arriving 81 none)] →
      Always taskStep HandshakeFirst (.sending (postHead ++ handshakeHead))
        [.pass (.arriving 57 none), .pass (.arriving 81 none)]) := by
  intro h
  obtain ⟨s, hs⟩ : ∃ s, s = [.pass (.arriving 57 none), .pass (.arriving 81 none)].foldl taskStep
    (.sending (postHead ++ handshakeHead)) := ⟨_, rfl⟩
  have hlast : HandshakeFirst s := by
    rw [hs]
    exact (h ⟨recvKeepsContract_arriving _ (by decide +kernel), recvKeepsContract_arriving _ (by decide +kernel),
      trivial⟩).last
  obtain ⟨hlive, hclient, hflag, hauth⟩ : s.live = true ∧ s.conn.websocketClient = true ∧
      s.conn.connectionDestructFlag = false ∧ s.conn.websocketAuth = false := by
    rw [hs]
    decide +kernel
  exact absurd (hauth.symm.trans (hlast hlive hclient hflag).1) (by decide)

end WLink.Httpd
