import WLink.Httpd.RequestFrames

/-!
# Steps of the server task

What a pass over a connection can come to, whatever the client sends and whatever `recv`, `send`
and `mem_Malloc` give. `StepResult` lists the results, `taskStep_result` is the case analysis that
facts about runs start from.

* `answerRequest_cases`, `receiveRequest_cases`, `parseRequest_takesUp` -- what follows a head
* `wsPass_stays` -- a WebSocket stays one
* `taskStep_result` -- a whole step
-/

namespace WLink.Httpd

open WLink.Lib Exec

/-! ## Requests -/

/-- What the parser makes of a head. -/
abbrev Parsed := Except Fault ℤ × ParseState

/-- The record with the timer as the parser has set it. -/
def ParseState.timed (s : ParseState) : Conn := s.periods.foldl Conn.changePeriod s.conn

def Conn.parse (c : Conn) (cmdBuf : List UInt8) : Parsed :=
  exec parseInMsgHeaders (.start c.timerStop cmdBuf)

namespace TaskState

/-- The pass receives a head. -/
def receivesHead (s : TaskState) (env : PassEnv) : Bool :=
  s.live && !s.conn.connectionDestructFlag && !s.conn.websocketClient && env.cmdBuf

/-- The request that the pass takes up: the head in front of the stream, if all of it arrives. -/
def request (s : TaskState) (env : PassEnv) : Option Parsed :=
  if s.receivesHead env then
    (headEnd s.stream).bind fun q =>
      if q + 4 ≤ storedBytes env.head then
        some ((s.expireIf env.expires).conn.parse (headBuffer s.stream q))
      else none
  else none

/-- Nothing more is done for the connection but to give its record back. -/
def Ended (s : TaskState) : Prop := s.live = false ∨ s.conn.connectionDestructFlag = true

theorem not_ended {s : TaskState} (hlive : s.live = true)
    (hflag : s.conn.connectionDestructFlag = false) : ¬ s.Ended := by
  rintro (hdead | hmarked)
  · exact absurd (hlive.symm.trans hdead) (by decide)
  · exact absurd (hflag.symm.trans hmarked) (by decide)

end TaskState

/-- The results of `recv` in the head loop fit the socket. -/
def RecvKeepsContract (s : TaskState) : TaskEvent → Prop
  | .pass env => RecvsFit 1 s.stream env.head
  | .timeout => True

/-- A request has become a WebSocket, and the answer to its handshake has been sent. -/
structure BecameWebsocket (env : PassEnv) (mem : List UInt8) (c : Conn) (evs : List HttpEvent)
    (s' : TaskState) : Prop where
  isUpgrade : IsUpgrade c
  client : s'.conn.websocketClient = true
  auth : s'.conn.websocketAuth = true
  timer : s'.conn.connectionTimeoutTimer = c.connectionTimeoutTimer
  sent : ∃ key, AcceptKey mem c key ∧
    .head (upgradeHead key) (env.io.send evs (upgradeHead key).render) ∈ s'.http

/-! ## The exits of a pass -/

section

variable (env : PassEnv) (mem : List UInt8) (s : TaskState)

/-- What the dispatch leaves alone. -/
theorem answerRequest_frame :
    (answerRequest env mem s).parses = s.parses ∧ (answerRequest env mem s).waits = s.waits := by
  unfold answerRequest
  dsimp only
  split <;> exact ⟨rfl, rfl⟩

theorem answerRequest_cases :
    (answerRequest env mem s).Ended ∨
      BecameWebsocket env mem s.conn s.http (answerRequest env mem s) := by
  unfold answerRequest
  obtain ⟨out, hout⟩ : ∃ out, out =
    exec (dispatch env.io env.urls env.handlers) ⟨s.img, s.initDone, s.conn, mem, s.http⟩ := ⟨_, rfl⟩
  obtain ⟨r, t⟩ := out
  rw [← hout]
  cases r with
  | error e => exact Or.inl (Or.inl rfl)
  | ok u =>
    obtain hflag | ⟨hupgrade, ⟨hauth, hsent⟩, hclient, htimer⟩ := dispatch_outcome
      (fun cgi => (env.callbacks cgi).keeps_conn) (fun cgi => (env.callbacks cgi).sends) hout.symm
    · exact Or.inl (Or.inr hflag)
    · exact Or.inr ⟨hupgrade, hclient, hauth, htimer, hsent⟩

/-- The record without the fields that the body loop writes. -/
def Conn.unreceived (c : Conn) : Conn :=
  { c with isLargeData := false, dataBuff := none, connectionDestructFlag := false }

theorem receiveBody_unreceived (block : Option (List UInt8)) (rs : List RecvResult) (conn : Conn)
    (stream : List UInt8) :
    (receiveBody block rs conn stream).2.1.unreceived = conn.unreceived := by
  unfold receiveBody
  split
  · rfl
  split
  · rfl
  cases block with
  | none => rfl
  | some old =>
    show (leaveBodyLoop conn _).2.1.unreceived = _
    unfold leaveBodyLoop
    split <;> rfl

theorem bodyLoop_ne_noMemory (dataLen : ℕ) (rs : List RecvResult) (b : BodyState) :
    (bodyLoop dataLen rs b).1 ≠ .ok .noMemory := by
  induction rs generalizing b with
  | nil => exact fun h => by cases h
  | cons r rs ih =>
    unfold bodyLoop
    split
    · exact fun h => by cases h
    · split
      · exact ih b
      · exact fun h => by cases h
    · split
      · exact fun h => by cases h
      · dsimp only
        split
        · exact ih _
        · exact fun h => by cases h

theorem leaveBodyLoop_fst (conn : Conn) (out : Except Fault BodyExit × BodyState) :
    (leaveBodyLoop conn out).1 = out.1 := by
  unfold leaveBodyLoop
  split <;> rfl

/-- A body for which there is no memory. -/
theorem receiveBody_noMemory {block : Option (List UInt8)} {rs : List RecvResult} {conn : Conn}
    {stream : List UInt8} (h : (receiveBody block rs conn stream).1 = .ok .noMemory) :
    HasBody conn ∧ block = none := by
  unfold receiveBody at h
  split at h
  · cases h
  · next hzero =>
    split at h
    · cases h
    · next hsmall =>
      cases block with
      | none => exact ⟨⟨by omega, by omega⟩, rfl⟩
      | some old =>
        exact absurd ((leaveBodyLoop_fst conn _).symm.trans h) (bodyLoop_ne_noMemory _ _ _)

/-- A connection that is lost is marked. -/
theorem receiveBody_clientClose {block : Option (List UInt8)} {rs : List RecvResult} {conn : Conn}
    {stream : List UInt8} (h : (receiveBody block rs conn stream).1 = .ok .clientClose) :
    (receiveBody block rs conn stream).2.1.connectionDestructFlag = true := by
  unfold receiveBody at h ⊢
  split at h
  · cases h
  · next hzero =>
    split at h
    · cases h
    · next hsmall =>
      rw [if_neg hzero, if_neg hsmall]
      cases block with
      | none => cases h
      | some old =>
        have hleave : ∀ out, (leaveBodyLoop conn out).1 = .ok .clientClose →
            (leaveBodyLoop conn out).2.1.connectionDestructFlag = true := by
          rintro ⟨_ | exit, b⟩ hout
          · cases hout
          · cases exit <;> first | rfl | cases hout
        exact hleave _ h

/-- What happened to the logs while a body was received. -/
structure ReceivedFrom (env : PassEnv) (s s' : TaskState) : Prop where
  parses : s'.parses = s.parses
  waits : ∀ c ∈ s'.waits, c ∈ s.waits ∨ c = s.conn ∧ HasBody s.conn

theorem receiveRequest_logs : ReceivedFrom env s (receiveRequest env mem s) := by
  have hwait : ReceivedFrom env s (if HasBody s.conn ∧ env.body.isSome then s.wait else s) := by
    split
    · next h =>
      refine ⟨rfl, fun c hc => ?_⟩
      obtain hc | hc := List.mem_append.mp hc
      · exact Or.inl hc
      · exact Or.inr ⟨List.mem_singleton.mp hc, h.1⟩
    · exact ⟨rfl, fun c hc => Or.inl hc⟩
  unfold receiveRequest
  dsimp only
  split
  · exact ⟨hwait.parses, hwait.waits⟩
  · exact ⟨hwait.parses, hwait.waits⟩
  · exact ⟨hwait.parses, hwait.waits⟩
  · exact ⟨hwait.parses, hwait.waits⟩
  · obtain ⟨hparses, hwaits⟩ := answerRequest_frame env mem _
    exact ⟨hparses.trans hwait.parses, fun c hc => hwait.waits c (hwaits ▸ hc)⟩

/-- The pass ends without memory for the body, and the connection stays what it is. -/
def Unstored (env : PassEnv) (c : Conn) (s' : TaskState) : Prop :=
  HasBody c ∧ env.body = none ∧ s'.conn.unreceived = c.unreceived

theorem receiveRequest_cases :
    (receiveRequest env mem s).Ended ∨ Unstored env s.conn (receiveRequest env mem s) ∨
      BecameWebsocket env mem s.conn s.http (receiveRequest env mem s) := by
  obtain ⟨t, ht, hconn, hhttp⟩ :
      ∃ t, t = (if HasBody s.conn ∧ env.body.isSome then s.wait else s) ∧ t.conn = s.conn ∧
        t.http = s.http := by
    refine ⟨_, rfl, ?_⟩
    split <;> exact ⟨rfl, rfl⟩
  -- receiving a body touches neither the method nor the WebSocket's flags
  have hkeep := (receiveBody_unreceived env.body env.bodyRecvs t.conn t.stream).trans
    (congrArg Conn.unreceived hconn)
  unfold receiveRequest
  rw [← ht]
  dsimp only
  split
  · exact Or.inl (Or.inl rfl)
  · exact Or.inl (Or.inl rfl)
  · next h =>
    obtain ⟨hbody, hblock⟩ := receiveBody_noMemory h
    exact Or.inr (Or.inl ⟨hconn ▸ hbody, hblock, hkeep⟩)
  · next h => exact Or.inl (Or.inr (receiveBody_clientClose h))
  · obtain hended | h := answerRequest_cases env mem
      ((t.setConn (receiveBody env.body env.bodyRecvs t.conn t.stream).2.1).takeTo
        (receiveBody env.body env.bodyRecvs t.conn t.stream).2.2)
    · exact Or.inl hended
    · refine Or.inr (Or.inr ⟨⟨?_, ?_⟩, h.client, h.auth, h.timer.trans ?_, ?_⟩)
      · exact (congrArg (·.requestType) hkeep).symm.trans h.isUpgrade.1
      · exact (congrArg (·.websocketClient) hkeep).symm.trans h.isUpgrade.2
      · exact congrArg (·.connectionTimeoutTimer) hkeep
      · obtain ⟨key, ⟨clientKey, k, hclientKey, hk⟩, hsent⟩ := h.sent
        refine ⟨key, ⟨clientKey, k, ?_, hk⟩, hhttp ▸ hsent⟩
        exact (congrArg (·.clientKey) hkeep).symm.trans hclientKey

/-- What follows a head that has been parsed. -/
def FollowsUp (env : PassEnv) (out : Parsed) (evs : List HttpEvent) (s' : TaskState) : Prop :=
  s'.Ended ∨ (∃ ret, out.1 = .ok ret) ∧
    (Unstored env out.2.timed s' ∨ BecameWebsocket env out.2.mem out.2.timed evs s')

/-- What a pass does that takes up a request. -/
structure TakesUp (env : PassEnv) (out : Parsed) (s s' : TaskState) : Prop where
  parses : s'.parses = s.parses ++ [s.taken]
  waits : ∀ c ∈ s'.waits, c ∈ s.waits ∨ c = s.conn ∨ c = out.2.timed ∧ HasBody out.2.timed
  exit : FollowsUp env out s.http s'

theorem parseRequest_takesUp (start : ℕ) (cmdBuf : List UInt8) :
    (parseRequest env start cmdBuf s).parses = s.parses ++ [start] ∧
      (∀ c ∈ (parseRequest env start cmdBuf s).waits, c ∈ s.waits ∨
        c = (s.conn.parse cmdBuf).2.timed ∧ HasBody (s.conn.parse cmdBuf).2.timed) ∧
      FollowsUp env (s.conn.parse cmdBuf) s.http (parseRequest env start cmdBuf s) := by
  unfold parseRequest
  dsimp only
  split
  · exact ⟨rfl, fun c hc => Or.inl hc, Or.inl (Or.inl rfl)⟩
  · next ret hret =>
    obtain ⟨t, ht⟩ : ∃ t : TaskState, t = TaskState.setConn
        { s.setConn s.conn.timerStop with parses := s.parses ++ [start] }
        (s.conn.parse cmdBuf).2.timed := ⟨_, rfl⟩
    obtain ⟨hparses, hwaits⟩ := receiveRequest_logs env (s.conn.parse cmdBuf).2.mem t
    have hcases := receiveRequest_cases env (s.conn.parse cmdBuf).2.mem t
    subst ht
    exact ⟨hparses, hwaits, hcases.imp_right fun h => ⟨⟨ret, hret⟩, h⟩⟩

end

/-! ## Passes over a WebSocket -/

/-- The connection is marked or its timer is running. -/
def Watched (c : Conn) : Prop := c.connectionDestructFlag = true ∨ c.armed = true

instance (c : Conn) : Decidable (Watched c) := inferInstanceAs (Decidable (_ ∨ _))

/-- The record without its timer and its mark. -/
def Conn.unserved (c : Conn) : Conn :=
  { c with connectionTimeoutTimer := none, connectionDestructFlag := false }

/-- The WebSocket stays one, and it stays watched. -/
def StaysWebsocket (c c' : Conn) : Prop := c'.unserved = c.unserved ∧ (Watched c → Watched c')

theorem StaysWebsocket.refl (c : Conn) : StaysWebsocket c c := ⟨rfl, id⟩

@[simp] theorem isSome_timer_timerStop (c : Conn) :
    c.timerStop.connectionTimeoutTimer.isSome = c.connectionTimeoutTimer.isSome :=
  Option.isSome_map

/-- A timer that is restarted runs. -/
theorem watched_timerReStart {c : Conn} (h : c.connectionTimeoutTimer.isSome) :
    Watched c.timerReStart := by
  right
  obtain ⟨t, ht⟩ := Option.isSome_iff_exists.mp h
  unfold Conn.armed Conn.timerReStart
  rw [ht]
  rfl

theorem Watched.timer {c : Conn} (h : Watched c) (hflag : c.connectionDestructFlag = false) :
    c.connectionTimeoutTimer.isSome := by
  obtain h | h := h
  · exact absurd (hflag.symm.trans h) (by decide)
  · unfold Conn.armed at h
    cases ht : c.connectionTimeoutTimer with
    | none =>
      rw [ht] at h
      cases h
    | some t => rfl

section

variable {s : WsState} (hflag : s.conn.connectionDestructFlag = false)
include hflag

theorem handleWsFrame_stays (frame : WsFrame) (n : ℕ) (buf : List UInt8) :
    StaysWebsocket s.conn (handleWsFrame s frame n buf).conn := by
  have hrestart : Watched s.conn → Watched s.conn.timerStop.timerReStart := by
    intro h
    apply watched_timerReStart
    rw [isSome_timer_timerStop]
    exact h.timer hflag
  unfold handleWsFrame
  split
  · exact ⟨rfl, fun _ => Or.inl rfl⟩
  dsimp only
  split
  · have hpong : ∀ (t : WsState) payload, (t.sendPong payload).conn = t.conn := by
      intro t payload
      unfold WsState.sendPong
      split
      · rfl
      · split <;> rfl
    rw [hpong]
    exact ⟨rfl, hrestart⟩
  · split
    · exact ⟨rfl, fun _ => Or.inl rfl⟩
    · split <;> exact ⟨rfl, hrestart⟩

theorem receiveWsPayload_stays (frame : WsFrame) (r : RecvResult) (buf : List UInt8) :
    StaysWebsocket s.conn (receiveWsPayload s frame r buf).conn := by
  have hstored : ∀ (ret : ℤ) (bs stream : List UInt8), StaysWebsocket s.conn
      (if ret = 0 then WsState.destruct { s with stream := stream }
        else handleWsFrame { s with stream := stream } frame ret.toNat bs).conn := by
    intro ret bs stream
    split
    · exact ⟨rfl, fun _ => Or.inl rfl⟩
    · exact handleWsFrame_stays (s := { s with stream := stream }) hflag frame _ bs
  unfold receiveWsPayload
  split
  · exact ⟨rfl, fun _ => Or.inl rfl⟩
  · refine ⟨rfl, fun h => ?_⟩
    obtain h | h := h
    · exact absurd (hflag.symm.trans h) (by decide)
    · exact Or.inr h
  · exact hstored _ _ _

end

/-- A pass over a WebSocket leaves a WebSocket that is watched. -/
theorem wsPass_stays (s : WsState) (env : WsEnv) : StaysWebsocket s.conn (wsPass s env).conn := by
  unfold wsPass
  split
  · exact StaysWebsocket.refl _
  · next hflag =>
    dsimp only
    split
    · exact StaysWebsocket.refl _
    split
    · exact StaysWebsocket.refl _
    split
    · exact StaysWebsocket.refl _
    · exact receiveWsPayload_stays (by simpa using hflag) _ _ _

/-! ## Steps -/

/-- The logs of a step that takes up no request. -/
structure NoRequest (s s' : TaskState) : Prop where
  parses : s'.parses = s.parses
  http : s'.http = s.http
  waits : ∀ c ∈ s'.waits, c ∈ s.waits ∨
    c = s.conn ∧ s.live = true ∧ s.conn.connectionDestructFlag = false

/-- A full buffer of bytes arrives, and no blank line is found in it. -/
def HeadOverflows (env : PassEnv) (s : TaskState) : Prop :=
  s.receivesHead env = true ∧ headEnd s.stream = none ∧ httpdCmdBufSize ≤ storedBytes env.head

/-- What a step can come to. -/
inductive StepResult (s s' : TaskState) : TaskEvent → Prop
  | ended {e : TaskEvent} (logs : NoRequest s s') (ended : s'.Ended) : StepResult s s' e
  | idle {e : TaskEvent} (logs : NoRequest s s') (conn : s'.conn = s.conn)
    (taken : s'.taken = s.taken) (live : s'.live = true → s.live = true) : StepResult s s' e
  | overflow {env : PassEnv} (logs : NoRequest s s') (conn : s'.conn = s.conn)
    (overflows : HeadOverflows env s) : StepResult s s' (.pass env)
  | websocket {env : PassEnv} (logs : NoRequest s s') (client : s.conn.websocketClient = true)
    (live : s.live = true) (flag : s.conn.connectionDestructFlag = false)
    (stays : StaysWebsocket s.conn s'.conn) : StepResult s s' (.pass env)
  | request {env : PassEnv} {out : Parsed} (request : s.request env = some out)
    (takesUp : TakesUp env out s s') : StepResult s s' (.pass env)

theorem Conn.expire_cases (c : Conn) : c.expire = c ∨ c.expire.connectionDestructFlag = true := by
  unfold Conn.expire
  split
  · exact Or.inr rfl
  · exact Or.inl rfl

theorem TaskState.expireIf_cases (s : TaskState) (expires : Bool) :
    (s.expireIf expires).conn = s.conn ∨
      (s.expireIf expires).conn.connectionDestructFlag = true := by
  cases expires with
  | false => exact Or.inl rfl
  | true => exact s.conn.expire_cases

theorem serveHttp_result {s : TaskState} {env : PassEnv} (hfit : RecvsFit 1 s.stream env.head)
    (hlive : s.live = true) (hflag : s.conn.connectionDestructFlag = false)
    (hclient : s.conn.websocketClient = false) : StepResult s (serveHttp env s) (.pass env) := by
  obtain ⟨hcomplete, hfull⟩ := headLoop_start env.head s.stream hfit
  -- a pass that waits once and parses nothing
  have hquiet : ∀ s' : TaskState, s'.parses = s.parses → s'.http = s.http →
      s'.waits = s.waits ++ [s.conn] → NoRequest s s' := by
    intro s' hparses hhttp hwaits
    refine ⟨hparses, hhttp, fun c hc => ?_⟩
    rw [hwaits] at hc
    obtain hc | hc := List.mem_append.mp hc
    · exact Or.inl hc
    · exact Or.inr ⟨List.mem_singleton.mp hc, hlive, hflag⟩
  unfold serveHttp
  split
  · next hbuf =>
    have hreceives : s.receivesHead env = true := by
      simp [TaskState.receivesHead, hlive, hflag, hclient, hbuf]
    dsimp only
    split
    · exact .ended (hquiet _ rfl rfl rfl) (Or.inl rfl)
    · exact .ended (hquiet _ rfl rfl rfl) (Or.inl rfl)
    · exact .ended (hquiet _ rfl rfl rfl) (Or.inr rfl)
    · next hout =>
      obtain ⟨hnone, hstored⟩ := hfull hout
      rw [Nat.zero_add] at hstored
      -- the buffer is full without the end of a head: nothing is answered
      obtain ⟨t, ht⟩ : ∃ t, t = s.wait.takeTo (headLoop env.head (.start s.stream)).2.stream :=
        ⟨_, rfl⟩
      have hlogs : NoRequest s (t.expireIf env.expires) := by
        rw [ht]
        cases env.expires <;> exact hquiet _ rfl rfl rfl
      rw [← ht]
      obtain hconn | hexpired := t.expireIf_cases env.expires
      · exact .overflow hlogs (hconn.trans (ht ▸ rfl)) ⟨hreceives, hnone, hstored⟩
      · exact .ended hlogs (Or.inr hexpired)
    · next q hout =>
      obtain ⟨hend, hstored, hcmd, -⟩ := hcomplete q hout
      rw [Nat.zero_add] at hstored
      obtain ⟨t, ht⟩ : ∃ t, t =
        (s.wait.takeTo (headLoop env.head (.start s.stream)).2.stream).expireIf env.expires :=
        ⟨_, rfl⟩
      obtain ⟨hconn, hparses, hhttp, hwaits⟩ : t.conn = (s.expireIf env.expires).conn ∧
          t.parses = s.parses ∧ t.http = s.http ∧ t.waits = s.waits ++ [s.conn] := by
        rw [ht]
        cases env.expires <;> exact ⟨rfl, rfl, rfl, rfl⟩
      obtain ⟨hparsed, hwaited, hexit⟩ := parseRequest_takesUp env t s.taken (headBuffer s.stream q)
      rw [hcmd, ← ht]
      rw [hconn, hhttp] at hexit
      rw [hparses] at hparsed
      -- the head is complete, and it is the one that the parser gets
      have hrequest : s.request env =
          some ((s.expireIf env.expires).conn.parse (headBuffer s.stream q)) := by
        rw [TaskState.request, if_pos hreceives, hend]
        exact if_pos hstored
      refine .request hrequest ⟨hparsed, fun d hd => ?_, hexit⟩
      rw [hconn, hwaits] at hwaited
      obtain hd | hd := hwaited d hd
      · exact (List.mem_append.mp hd).imp_right fun hd => Or.inl (List.mem_singleton.mp hd)
      · exact Or.inr (Or.inr hd)
  · exact .idle ⟨rfl, rfl, fun c hc => Or.inl hc⟩ rfl rfl id

/-- Every step has one of these results. -/
theorem taskStep_result {s : TaskState} {e : TaskEvent} (hfit : RecvKeepsContract s e) :
    StepResult s (taskStep s e) e := by
  have hsame : ∀ s' : TaskState, s'.parses = s.parses → s'.http = s.http → s'.waits = s.waits →
      NoRequest s s' := fun s' hparses hhttp hwaits =>
    ⟨hparses, hhttp, fun c hc => Or.inl (hwaits ▸ hc)⟩
  cases e with
  | timeout =>
    obtain hconn | hflag := s.expireIf_cases true
    · exact .idle (hsame _ rfl rfl rfl) hconn rfl id
    · exact .ended (hsame _ rfl rfl rfl) (Or.inr hflag)
  | pass env =>
    show StepResult s (servePass env s) _
    unfold servePass
    split
    · next hlive => exact .ended (hsame _ rfl rfl rfl) (Or.inl hlive)
    · next hlive =>
      have hlive : s.live = true := by simpa using hlive
      split
      · exact .ended (hsame _ rfl rfl rfl) (Or.inl rfl)
      · next hflag =>
        have hflag : s.conn.connectionDestructFlag = false := by simpa using hflag
        split
        · next hclient =>
          refine .websocket ⟨rfl, rfl, fun c hc => ?_⟩ hclient hlive hflag (wsPass_stays _ env.ws)
          obtain hc | hc := List.mem_append.mp hc
          · exact Or.inl hc
          · exact Or.inr ⟨List.mem_singleton.mp hc, hlive, hflag⟩
        · next hclient => exact serveHttp_result hfit hlive hflag (by simpa using hclient)

/-! ## The record after the parser -/

/-- The timer's commands leave the rest of the record alone. -/
theorem timed_eq (s : ParseState) :
    ∃ timer, s.timed = { s.conn with connectionTimeoutTimer := timer } := by
  have hfold : ∀ (periods : List ℕ) (c : Conn), ∃ timer,
      periods.foldl Conn.changePeriod c = { c with connectionTimeoutTimer := timer } := by
    intro periods
    induction periods with
    | nil => exact fun c => ⟨_, rfl⟩
    | cons p periods ih => exact fun c => ih (c.changePeriod p)
  exact hfold s.periods s.conn

theorem hasBody_timed {s : ParseState} : HasBody s.timed ↔ HasBody s.conn := by
  obtain ⟨timer, htimer⟩ := timed_eq s
  rw [htimer]
  rfl

/-- The last period counts. -/
theorem timed_armed {s : ParseState} {p : ℕ} (hlast : s.periods.getLast? = some p) (hp : p ≠ 0)
    (htimer : s.conn.connectionTimeoutTimer.isSome) : s.timed.armed = true := by
  obtain ⟨periods, hperiods⟩ : ∃ periods, s.periods = periods ++ [p] := by
    rw [List.getLast?_eq_some_iff] at hlast
    exact hlast
  have hfold : (periods.foldl Conn.changePeriod s.conn).connectionTimeoutTimer.isSome := by
    clear hperiods
    induction periods using List.reverseRecOn with
    | nil => exact htimer
    | append_singleton periods p ih =>
      rw [List.foldl_append]
      show (Option.map _ _).isSome = true
      rw [Option.isSome_map]
      exact ih
  obtain ⟨t, ht⟩ := Option.isSome_iff_exists.mp hfold
  unfold ParseState.timed
  rw [hperiods, List.foldl_append]
  show (((periods.foldl Conn.changePeriod s.conn).connectionTimeoutTimer.map _).map _).getD false = _
  rw [ht]
  simp [hp]

theorem TaskState.request_eq {s : TaskState} {env : PassEnv} {out : Parsed}
    (h : s.request env = some out) :
    s.receivesHead env = true ∧ ∃ buf, out = (s.expireIf env.expires).conn.parse buf := by
  unfold request at h
  split at h
  · next hreceives =>
    obtain ⟨q, -, hq⟩ := Option.bind_eq_some_iff.mp h
    split at hq
    · exact ⟨hreceives, _, (Option.some.inj hq).symm⟩
    · cases hq
  · cases h

theorem TaskState.receivesHead_iff {s : TaskState} {env : PassEnv} :
    s.receivesHead env = true ↔ s.live = true ∧ s.conn.connectionDestructFlag = false ∧
      s.conn.websocketClient = false ∧ env.cmdBuf = true := by
  simp [receivesHead, and_assoc]

end WLink.Httpd
