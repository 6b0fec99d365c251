import WLink.Httpd.TaskRuns
import WLink.Lib.Run

/-!
# The loop over the clients

One pass of `HTTP_Server_Task` over the connection pool: slot after slot, each served as
`servePass` serves a connection. What has been received for one client is parsed, answered and
waited for before the next slot comes, so what goes wrong for one client can keep the others from
being served. `PassRight` says that it does not, and that a client whose socket has failed is
marked; `passRight_iff` says when this is so.

* `slotExit` -- how the loop goes on behind a slot
* `clientTurn`, `clientLoop` -- one round of the loop, and the loop
* `passRecvs` -- the results of `recv` that are looked at for a slot
-/

namespace WLink.Httpd

open WLink.Lib Exec CString

/-! ## Leaving the loop -/

/-- How the loop over the clients goes on. -/
inductive SlotExit
  /-- `continue`, or the end of the body of the loop -/
  | next
  /-- `break` -/
  | leave
  /-- A loop around `recv` has not come to its end, or the behaviour is undefined. -/
  | stuck
deriving DecidableEq, Repr

/-- The payload's `recv` fails, and `errno` does not say that it would block. -/
def payloadBreaks : RecvResult → Bool
  | .failed (some sockErrno) _ => sockErrno ≠ eagain ∧ sockErrno ≠ ewouldblock
  | _ => false

/-- The pass over a WebSocket comes to the `recv` of a payload. -/
def reachesPayload (s : WsState) (env : WsEnv) : Bool :=
  let out := receiveWsFrame s.conn env s.stream
  s.conn.connectionDestructFlag = false ∧ 0 ≤ out.1 ∧ out.2.1.payloadLength ≠ 0 ∧ env.block.isSome

/-- The connection as the pass over a WebSocket sees it. -/
def TaskState.wsState (s : TaskState) : WsState := ⟨s.conn, s.stream, s.ws⟩

/-- How the loop goes on behind the slot of a connection. -/
def slotExit (env : PassEnv) (s : TaskState) : SlotExit :=
  if s.conn.connectionDestructFlag then .next
  else if s.conn.websocketClient then
    if reachesPayload s.wsState env.ws && payloadBreaks env.ws.payload then .leave else .next
  else if (serveHttp env s).live then .next
  else .stuck

/-! ## What is received for a slot -/

/-- The results that the head loop takes. -/
def headRecvs : List RecvResult → HeadState → List RecvResult
  | [], _ => []
  | r :: rs, s =>
    r :: match r.verdict with
      | .close => []
      | .retry =>
        match headCondition s with
        | (.ok none, s) => headRecvs rs s
        | _ => []
      | .store n =>
        match storeAt s.cmdBuf s.recvLen (s.stream.take n) with
        | .error _ => []
        | .ok cmdBuf =>
          match headCondition ⟨cmdBuf, (s.recvLen + n) % 2 ^ 16, s.stream.drop n, s.scans⟩ with
          | (.ok none, s) => headRecvs rs s
          | _ => []

/-- The results that the body loop takes. -/
def bodyRecvs (dataLen : ℕ) : List RecvResult → BodyState → List RecvResult
  | [], _ => []
  | r :: rs, s =>
    r :: match r.verdict with
      | .close => []
      | .retry => if s.cgiRecvLen < dataLen then bodyRecvs dataLen rs s else []
      | .store n =>
        match storeAt s.dataBuff s.cgiRecvLen (s.stream.take n) with
        | .error _ => []
        | .ok dataBuff =>
          let s' : BodyState := ⟨dataBuff, (s.cgiRecvLen + n) % 2 ^ 16, s.stream.drop n⟩
          if s'.cgiRecvLen < dataLen then bodyRecvs dataLen rs s' else []

/-- The results behind a head that is complete. -/
def requestRecvs (env : PassEnv) (cmdBuf : List UInt8) (s : TaskState) : List RecvResult :=
  let out := exec parseInMsgHeaders (.start s.conn.timerStop cmdBuf)
  match out.1, env.body with
  | .ok _, some old =>
    if HasBody out.2.timed then bodyRecvs out.2.timed.dataLen env.bodyRecvs ⟨old, 0, s.stream⟩
    else []
  | _, _ => []

/-- The results of a pass over a connection that has not become a WebSocket. -/
def httpRecvs (env : PassEnv) (s : TaskState) : List RecvResult :=
  if env.cmdBuf then
    let out := headLoop env.head (.start s.stream)
    let s' := s.wait.takeTo out.2.stream
    headRecvs env.head (.start s.stream) ++
      match out.1 with
      | .ok (.complete _) => requestRecvs env out.2.cmdBuf (s'.expireIf env.expires)
      | _ => []
  else []

/-- The results that `WebSocketServer_ReceiveWsFrame` takes, from its end on. -/
def maskingKeyRecvs (env : WsEnv) (isMasked : UInt8) : List RecvResult :=
  if isMasked ≠ 0 then [env.maskingKey] else []

def lengthRecvs (env : WsEnv) (size : ℕ) (isMasked : UInt8) : List RecvResult :=
  env.lenData ::
    if (recvInto env.lenData (env.lenDataBuf.take size) []).1 ≤ 0 then []
    else maskingKeyRecvs env isMasked

def frameRecvs (conn : Conn) (env : WsEnv) (stream : List UInt8) : List RecvResult :=
  if conn.connectionDestructFlag then []
  else if conn.socketId < 0 then []
  else
    let (ret, buf, _) := recvInto env.header env.headerBuf stream
    env.header ::
      if ret ≤ 0 then []
      else
        let payloadLength := (buf.getD 1 0 &&& payloadMask).toNat
        let isMasked := buf.getD 1 0 &&& isMaskedMask
        if payloadLength = 126 then lengthRecvs env 2 isMasked
        else if payloadLength = 127 then lengthRecvs env 8 isMasked
        else maskingKeyRecvs env isMasked

/-- The results of a pass over a WebSocket. -/
def wsRecvs (s : WsState) (env : WsEnv) : List RecvResult :=
  frameRecvs s.conn env s.stream ++ if reachesPayload s env then [env.payload] else []

/-- The results of `recv` that the pass over a connection looks at. -/
def passRecvs (env : PassEnv) (s : TaskState) : List RecvResult :=
  if s.conn.connectionDestructFlag then []
  else if s.conn.websocketClient then wsRecvs s.wsState env.ws
  else httpRecvs env s

/-- The socket has failed: `getsockopt` fails, or gives an error that waiting does not mend. -/
def RecvResult.Fatal : RecvResult → Prop
  | .failed none _ => True
  | .failed (some sockErrno) _ => sockErrno ≠ 0 ∧ sockErrno ≠ eagain ∧ sockErrno ≠ ewouldblock
  | _ => False

instance : (r : RecvResult) → Decidable r.Fatal
  | .got _ => inferInstanceAs (Decidable False)
  | .closed => inferInstanceAs (Decidable False)
  | .failed none _ => inferInstanceAs (Decidable True)
  | .failed (some _) _ => inferInstanceAs (Decidable (_ ∧ _))

/-! ## The loop -/

/-- `HTTPd_WebSocketd_Client_List` with what the connections share, and of the pass so far: the
slots that have been served, what `recv` has given for them, and whether the loop has been left. -/
structure ClientList where
  img : List UInt8
  initDone : Bool
  slot : ℕ → Option TaskState
  served : List ℕ
  recvs : ℕ → List RecvResult
  left : Bool

/-- What the surroundings of the pass are: those of each slot, and whether its timer has expired
before its turn. -/
structure PoolEnv where
  pass : ℕ → PassEnv
  expired : ℕ → Bool

namespace ClientList

/-- The connection in a slot when its turn comes. -/
def turn (p : ClientList) (env : PoolEnv) (i : ℕ) : Option TaskState :=
  (p.slot i).map fun s =>
    { s with img := p.img, initDone := p.initDone, live := true }.expireIf (env.expired i)

/-- The slot has been served; a record that was marked is given back. -/
def serve (p : ClientList) (env : PassEnv) (i : ℕ) (s : TaskState) : ClientList where
  img := (servePass env s).img
  initDone := (servePass env s).initDone
  slot := Function.update p.slot i
    (if s.conn.connectionDestructFlag then none else some (servePass env s))
  served := p.served ++ [i]
  recvs := Function.update p.recvs i (passRecvs env s)
  left := slotExit env s ≠ .next

end ClientList

/-- The round of a slot. -/
def clientTurn (env : PoolEnv) (p : ClientList) (i : ℕ) : ClientList :=
  if p.left then p
  else
    match p.turn env i with
    | none => p
    | some s => p.serve (env.pass i) i s

/-- A pool at the start of a pass. -/
def ClientList.start (img : List UInt8) (initDone : Bool) (slot : ℕ → Option TaskState) :
    ClientList :=
  ⟨img, initDone, slot, [], fun _ => [], false⟩

/-- The loop over the clients. -/
def clientLoop (env : PoolEnv) (p : ClientList) : ClientList :=
  (List.range httpdMaxClients).foldl (clientTurn env) p

/-! ## What the loop is for -/

/-- If the socket of the client in the slot has failed, the connection is marked. -/
def ClientList.Marks (p : ClientList) (i : ℕ) : Prop :=
  ∀ r ∈ p.recvs i, r.Fatal → ∃ s, p.slot i = some s ∧ s.conn.connectionDestructFlag = true

/-- Every client is served, and one whose socket has failed is marked. -/
structure PassRight (env : PoolEnv) (p : ClientList) : Prop where
  serves : ∀ i < httpdMaxClients, p.slot i ≠ none → i ∈ (clientLoop env p).served
  marks : ∀ i ∈ (clientLoop env p).served, (clientLoop env p).Marks i

/-- The socket of a WebSocket fails while a frame's header is received, or in the `recv` of a
payload, without the timer having marked the connection meanwhile. -/
def FailsUnmarked (env : WsEnv) (s : WsState) : Prop :=
  (∃ r ∈ frameRecvs s.conn env s.stream, r.Fatal) ∨
    reachesPayload s env = true ∧
      ∃ sockErrno, env.payload = .failed (some sockErrno) false ∧ env.payload.Fatal

/-- The turn of a slot: the loop goes on behind it if there are more clients, and it does not fail
unmarked. -/
def TurnRight (env : PoolEnv) (p : ClientList) (i : ℕ) : Prop :=
  p.left = false → ∀ s, p.turn env i = some s →
    (slotExit (env.pass i) s = .next ∨ ∀ j, i < j → j < httpdMaxClients → p.slot j = none) ∧
      (s.conn.connectionDestructFlag = false → s.conn.websocketClient = true →
        ¬ FailsUnmarked (env.pass i).ws s.wsState)

/-! ## Failures -/

theorem RecvResult.Fatal.verdict {r : RecvResult} (h : r.Fatal) : r.verdict = .close := by
  cases r with
  | got n => exact h.elim
  | closed => exact h.elim
  | failed sockErrno destructFlag =>
    cases sockErrno with
    | none => rfl
    | some e =>
      obtain ⟨hzero, hagain, hblock⟩ := h
      unfold RecvResult.verdict
      dsimp only
      rw [if_neg (not_or.mpr ⟨hagain, hblock⟩), if_neg hzero, ite_self]

theorem RecvResult.Fatal.recvInto {r : RecvResult} (h : r.Fatal) (buf stream : List UInt8) :
    (recvInto r buf stream).1 = -1 := by
  cases r with
  | got n => exact h.elim
  | closed => exact h.elim
  | failed sockErrno destructFlag => rfl

/-- A socket that fails in the head loop ends it. -/
theorem headLoop_of_fatal {rs : List RecvResult} {s : HeadState} {r : RecvResult}
    (hr : r ∈ headRecvs rs s) (hfatal : r.Fatal) : (headLoop rs s).1 = .ok .clientClose := by
  induction rs generalizing s with
  | nil => exact absurd hr List.not_mem_nil
  | cons r' rs ih =>
    unfold headRecvs at hr
    unfold headLoop
    rcases List.mem_cons.mp hr with rfl | hr
    · rw [hfatal.verdict]
    · cases hverdict : r'.verdict with
      | close => rfl
      | retry =>
        rw [hverdict] at hr
        dsimp only at hr ⊢
        obtain ⟨res, t, hcond⟩ : ∃ res t, headCondition s = (res, t) := ⟨_, _, rfl⟩
        rw [hcond] at hr ⊢
        rcases res with e | (_ | exit)
        · exact absurd hr List.not_mem_nil
        · exact ih hr
        · exact absurd hr List.not_mem_nil
      | store n =>
        rw [hverdict] at hr
        dsimp only at hr ⊢
        cases hstore : storeAt s.cmdBuf s.recvLen (s.stream.take n) with
        | error e =>
          rw [hstore] at hr
          exact absurd hr List.not_mem_nil
        | ok cmdBuf =>
          rw [hstore] at hr
          dsimp only at hr ⊢
          obtain ⟨res, t, hcond⟩ : ∃ res t, headCondition
              ⟨cmdBuf, (s.recvLen + n) % 2 ^ 16, s.stream.drop n, s.scans⟩ = (res, t) := ⟨_, _, rfl⟩
          rw [hcond] at hr ⊢
          rcases res with e | (_ | exit)
          · exact absurd hr List.not_mem_nil
          · exact ih hr
          · exact absurd hr List.not_mem_nil

/-- The same for the body loop. -/
theorem bodyLoop_of_fatal {dataLen : ℕ} {rs : List RecvResult} {s : BodyState} {r : RecvResult}
    (hr : r ∈ bodyRecvs dataLen rs s) (hfatal : r.Fatal) :
    (bodyLoop dataLen rs s).1 = .ok .clientClose := by
  induction rs generalizing s with
  | nil => exact absurd hr List.not_mem_nil
  | cons r' rs ih =>
    unfold bodyRecvs at hr
    unfold bodyLoop
    rcases List.mem_cons.mp hr with rfl | hr
    · rw [hfatal.verdict]
    · cases hverdict : r'.verdict with
      | close => rfl
      | retry =>
        rw [hverdict] at hr
        dsimp only at hr ⊢
        split at hr
        · next hlt =>
          rw [if_pos hlt]
          exact ih hr
        · exact absurd hr List.not_mem_nil
      | store n =>
        rw [hverdict] at hr
        dsimp only at hr ⊢
        cases hstore : storeAt s.dataBuff s.cgiRecvLen (s.stream.take n) with
        | error e =>
          rw [hstore] at hr
          exact absurd hr List.not_mem_nil
        | ok dataBuff =>
          rw [hstore] at hr
          dsimp only at hr ⊢
          split at hr
          · next hlt =>
            rw [if_pos hlt]
            exact ih hr
          · exact absurd hr List.not_mem_nil

theorem receiveBody_of_fatal {old : List UInt8} {rs : List RecvResult} {conn : Conn}
    {stream : List UInt8} {r : RecvResult} (hbody : HasBody conn)
    (hr : r ∈ bodyRecvs conn.dataLen rs ⟨old, 0, stream⟩) (hfatal : r.Fatal) :
    (receiveBody (some old) rs conn stream).1 = .ok .clientClose := by
  unfold receiveBody
  rw [if_neg (Nat.ne_of_gt hbody.1), if_neg (Nat.not_lt.mpr hbody.2)]
  dsimp only
  rw [leaveBodyLoop_fst]
  exact bodyLoop_of_fatal hr hfatal

theorem parseRequest_of_fatal {env : PassEnv} {start : ℕ} {cmdBuf : List UInt8} {s : TaskState}
    {r : RecvResult} (hr : r ∈ requestRecvs env cmdBuf s) (hfatal : r.Fatal) :
    (parseRequest env start cmdBuf s).conn.connectionDestructFlag = true := by
  unfold requestRecvs at hr
  unfold parseRequest
  obtain ⟨out, hout⟩ : ∃ out, exec parseInMsgHeaders (.start s.conn.timerStop cmdBuf) = out :=
    ⟨_, rfl⟩
  dsimp only [TaskState.setConn] at hr ⊢
  rw [hout] at hr ⊢
  cases hres : out.1 with
  | error e =>
    rw [hres] at hr
    cases hr
  | ok ret =>
    cases hblock : env.body with
    | none =>
      rw [hres, hblock] at hr
      cases hr
    | some old =>
      rw [hres, hblock] at hr
      dsimp only at hr ⊢
      split at hr
      · next hbody =>
        have hclose := receiveBody_of_fatal hbody hr hfatal
        have hmark := receiveBody_clientClose hclose
        unfold receiveRequest
        dsimp only
        rw [if_pos ⟨hbody, by rw [hblock]; rfl⟩, hblock]
        dsimp only [TaskState.wait]
        unfold ParseState.timed at hclose hmark
        rw [hclose]
        exact hmark
      · cases hr

/-- A client that has not become a WebSocket is marked if its socket fails. -/
theorem serveHttp_of_fatal {env : PassEnv} {s : TaskState} {r : RecvResult}
    (hr : r ∈ httpRecvs env s) (hfatal : r.Fatal) :
    (serveHttp env s).conn.connectionDestructFlag = true := by
  unfold httpRecvs at hr
  unfold serveHttp
  split at hr
  · next hbuf =>
    rw [if_pos hbuf]
    dsimp only at hr ⊢
    rcases List.mem_append.mp hr with hr | hr
    · rw [headLoop_of_fatal hr hfatal]
      rfl
    · obtain ⟨exit, hexit⟩ : ∃ exit, (headLoop env.head (.start s.stream)).1 = exit := ⟨_, rfl⟩
      rw [hexit] at hr ⊢
      split at hr
      · exact parseRequest_of_fatal hr hfatal
      · cases hr
  · cases hr

/-! ## Failures of a WebSocket -/

/-- A masking key that is not received. -/
theorem receiveMaskingKey_of_fatal {env : WsEnv} {frame : WsFrame} {bs : List UInt8}
    {r : RecvResult} (hr : r ∈ maskingKeyRecvs env frame.isMasked) (hfatal : r.Fatal) :
    (receiveMaskingKey env frame bs).1 < 0 := by
  unfold maskingKeyRecvs at hr
  unfold receiveMaskingKey
  split at hr
  · next hmasked =>
    rw [List.mem_singleton.mp hr] at hfatal
    rw [if_pos hmasked]
    dsimp only
    rw [hfatal.recvInto, if_pos (by decide)]
    exact (by decide : (-1 : ℤ) < 0)
  · cases hr

/-- A length, or the masking key behind it, that is not received. -/
theorem receiveLength_of_fatal {env : WsEnv} {size : ℕ} {frame : WsFrame} {bs : List UInt8}
    {r : RecvResult} (hr : r ∈ lengthRecvs env size frame.isMasked) (hfatal : r.Fatal) :
    (receiveLength env size frame bs).1 < 0 := by
  unfold lengthRecvs at hr
  unfold receiveLength
  dsimp only
  rcases List.mem_cons.mp hr with rfl | hr
  · rw [hfatal.recvInto, if_pos (by decide)]
    exact (by decide : (-1 : ℤ) < 0)
  · have hret : (recvInto env.lenData (env.lenDataBuf.take size) bs).1 =
        (recvInto env.lenData (env.lenDataBuf.take size) []).1 := by
      cases env.lenData <;> rfl
    rw [hret]
    split at hr
    · cases hr
    · next hpos =>
      rw [if_neg hpos]
      exact receiveMaskingKey_of_fatal hr hfatal

/-- A frame whose header is not received has a negative result. -/
theorem receiveWsFrame_of_fatal {conn : Conn} {env : WsEnv} {stream : List UInt8} {r : RecvResult}
    (hr : r ∈ frameRecvs conn env stream) (hfatal : r.Fatal) :
    (receiveWsFrame conn env stream).1 < 0 := by
  unfold frameRecvs at hr
  unfold receiveWsFrame
  split at hr
  · cases hr
  · next hflag =>
    rw [if_neg hflag]
    split at hr
    · cases hr
    · next hsocket =>
      rw [if_neg hsocket]
      dsimp only at hr ⊢
      rcases List.mem_cons.mp hr with rfl | hr
      · rw [hfatal.recvInto, if_pos (by decide)]
        exact (by decide : (-1 : ℤ) < 0)
      · split at hr
        · cases hr
        · next hpos =>
          rw [if_neg hpos]
          -- the length's size decides which calls come behind
          split at hr
          · next h126 =>
            rw [if_pos h126]
            exact receiveLength_of_fatal hr hfatal
          · next h126 =>
            rw [if_neg h126]
            split at hr
            · next h127 =>
              rw [if_pos h127]
              exact receiveLength_of_fatal hr hfatal
            · next h127 =>
              rw [if_neg h127]
              exact receiveMaskingKey_of_fatal hr hfatal

section Marks

variable {s : WsState} {env : WsEnv}

/-- A pass without the payload's `recv` leaves the connection as it is. -/
theorem wsPass_conn_of_not_reaches (hflag : s.conn.connectionDestructFlag = false)
    (hnot : reachesPayload s env = false) : (wsPass s env).conn = s.conn := by
  obtain ⟨ret, frame, stream, hout⟩ : ∃ ret frame stream,
      receiveWsFrame s.conn env s.stream = (ret, frame, stream) := ⟨_, _, _, rfl⟩
  -- the pass ends at one of its three tests
  unfold reachesPayload at hnot
  unfold wsPass
  rw [hout] at hnot ⊢
  rw [if_neg (by rw [hflag]; decide)]
  dsimp only at hnot ⊢
  split_ifs with hret hlen
  · rfl
  · rfl
  cases hblock : env.block with
  | none => rfl
  | some buf =>
    rw [hflag, hblock] at hnot
    simp [hlen] at hnot
    omega

/-- A pass that gets to the payload's `recv` has received the header of a frame. -/
theorem wsPass_of_reaches (hflag : s.conn.connectionDestructFlag = false)
    (hreached : reachesPayload s env = true) :
    (∀ r ∈ frameRecvs s.conn env s.stream, ¬ r.Fatal) ∧
      ∃ frame stream buf,
        wsPass s env = receiveWsPayload { s with stream := stream } frame env.payload buf := by
  obtain ⟨ret, frame, stream, hout⟩ : ∃ ret frame stream,
      receiveWsFrame s.conn env s.stream = (ret, frame, stream) := ⟨_, _, _, rfl⟩
  have hall := of_decide_eq_true hreached
  rw [hout] at hall
  obtain ⟨-, hret, hlen, hblock⟩ := hall
  obtain ⟨buf, hbuf⟩ := Option.isSome_iff_exists.mp hblock
  refine ⟨fun r hr hfatal => ?_, frame, stream, buf, ?_⟩
  · have hlt := receiveWsFrame_of_fatal hr hfatal
    rw [hout] at hlt
    exact Int.not_le.mpr hlt hret
  · unfold wsPass
    rw [hout, if_neg (by rw [hflag]; decide), hbuf]
    dsimp only
    rw [if_neg (Int.not_lt.mpr hret), if_neg hlen]

/-- The pass over a WebSocket marks a client whose socket fails exactly if it does not fail
unmarked. -/
theorem wsPass_marks_iff (hflag : s.conn.connectionDestructFlag = false) :
    (∀ r ∈ wsRecvs s env, r.Fatal → (wsPass s env).conn.connectionDestructFlag = true) ↔
      ¬ FailsUnmarked env s := by
  cases hreached : reachesPayload s env with
  | false =>
    unfold wsRecvs FailsUnmarked
    rw [hreached, wsPass_conn_of_not_reaches hflag hreached, hflag]
    simp
  | true =>
    obtain ⟨hquiet, frame, stream, buf, hpass⟩ := wsPass_of_reaches hflag hreached
    have hrecvs : wsRecvs s env = frameRecvs s.conn env s.stream ++ [env.payload] := by
      unfold wsRecvs
      rw [hreached]
      rfl
    -- the header has been received, so the payload's `recv` alone can fail
    have hmarks : (∀ r ∈ wsRecvs s env, r.Fatal →
        (wsPass s env).conn.connectionDestructFlag = true) ↔
        (env.payload.Fatal → (wsPass s env).conn.connectionDestructFlag = true) := by
      rw [hrecvs]
      constructor
      · exact fun h => h env.payload (List.mem_append_right _ (List.mem_singleton_self _))
      · intro h r hr hfatal
        rcases List.mem_append.mp hr with hr | hr
        · exact absurd hfatal (hquiet r hr)
        · rw [List.mem_singleton.mp hr] at hfatal
          exact h hfatal
    rw [hmarks, hpass]
    unfold FailsUnmarked
    rw [or_iff_right fun ⟨r, hr, hfatal⟩ => hquiet r hr hfatal, hreached]
    cases hpayload : env.payload with
    | got n => simp [RecvResult.Fatal]
    | closed => simp [RecvResult.Fatal]
    | failed sockErrno destructFlag =>
      cases sockErrno with
      | none => simp [receiveWsPayload, WsState.destruct]
      | some e =>
        unfold receiveWsPayload
        dsimp only
        rw [hflag]
        cases destructFlag <;> simp

end Marks

/-! ## A turn -/

/-- The turn of a slot is right for its client exactly if it does not fail unmarked. -/
theorem marks_serve_iff {p : ClientList} {env : PassEnv} {i : ℕ} {s : TaskState}
    (hlive : s.live = true) :
    (p.serve env i s).Marks i ↔ (s.conn.connectionDestructFlag = false →
      s.conn.websocketClient = true → ¬ FailsUnmarked env.ws s.wsState) := by
  have hslot : (p.serve env i s).slot i =
      if s.conn.connectionDestructFlag then none else some (servePass env s) :=
    Function.update_self ..
  have hrecvs : (p.serve env i s).recvs i = passRecvs env s := Function.update_self ..
  unfold ClientList.Marks
  rw [hslot, hrecvs]
  cases hflag : s.conn.connectionDestructFlag with
  | true => simp [passRecvs, hflag]
  | false =>
    have hpass : servePass env s =
        if s.conn.websocketClient then serveWebsocket env s else serveHttp env s := by
      unfold servePass
      rw [if_neg (by simp [hlive]), if_neg (by simp [hflag])]
    cases hclient : s.conn.websocketClient with
    | true =>
      have hws : (∀ r ∈ wsRecvs s.wsState env.ws, r.Fatal →
          (wsPass s.wsState env.ws).conn.connectionDestructFlag = true) ↔
          ¬ FailsUnmarked env.ws s.wsState := wsPass_marks_iff hflag
      have hrecvs : passRecvs env s = wsRecvs s.wsState env.ws := by
        simp [passRecvs, hflag, hclient]
      rw [hpass, hrecvs, hclient]
      simp only [Bool.false_eq_true, if_false, if_true, Option.some.injEq, exists_eq_left',
        true_imp_iff]
      exact hws
    | false =>
      have hrecvs : passRecvs env s = httpRecvs env s := by
        simp [passRecvs, hflag, hclient]
      rw [hpass, hrecvs, hclient]
      simp only [Bool.false_eq_true, if_false, false_imp_iff, imp_true_iff, iff_true]
      exact fun r hr hfatal => ⟨_, rfl, serveHttp_of_fatal hr hfatal⟩

/-! ## The slots behind a turn -/

section Rounds

variable (env : PoolEnv)

/-- A turn leaves the other slots, and what has been received for them, as they are. -/
theorem clientTurn_frame {p : ClientList} {i j : ℕ} (hij : i ≠ j) :
    (clientTurn env p j).slot i = p.slot i ∧ (clientTurn env p j).recvs i = p.recvs i := by
  unfold clientTurn
  split
  · exact ⟨rfl, rfl⟩
  · split
    · exact ⟨rfl, rfl⟩
    · exact ⟨Function.update_of_ne hij .., Function.update_of_ne hij ..⟩

/-- Only the slot of a turn is served in it. -/
theorem mem_served_clientTurn {p : ClientList} {i j : ℕ} (hij : i ≠ j) :
    i ∈ (clientTurn env p j).served ↔ i ∈ p.served := by
  unfold clientTurn
  split
  · rfl
  · split
    · rfl
    · simp [ClientList.serve, hij]

theorem rounds_frame {es : List ℕ} {p : ClientList} {i : ℕ} (hi : i ∉ es) :
    (es.foldl (clientTurn env) p).slot i = p.slot i ∧
      (es.foldl (clientTurn env) p).recvs i = p.recvs i ∧
      (i ∈ (es.foldl (clientTurn env) p).served ↔ i ∈ p.served) := by
  induction es generalizing p with
  | nil => exact ⟨rfl, rfl, Iff.rfl⟩
  | cons e es ih =>
    have hie : i ≠ e := List.ne_of_not_mem_cons hi
    obtain ⟨hslot, hrecvs, hserved⟩ :=
      ih (p := clientTurn env p e) (List.not_mem_of_not_mem_cons hi)
    obtain ⟨hslot', hrecvs'⟩ := clientTurn_frame env (p := p) hie
    exact ⟨hslot.trans hslot', hrecvs.trans hrecvs',
      hserved.trans (mem_served_clientTurn env hie)⟩

/-- The mark of a client is settled once its turn is over. -/
theorem marks_rounds_iff {es : List ℕ} {p : ClientList} {i : ℕ} (hi : i ∉ es) :
    (es.foldl (clientTurn env) p).Marks i ↔ p.Marks i := by
  obtain ⟨hslot, hrecvs, -⟩ := rounds_frame env (p := p) hi
  unfold ClientList.Marks
  rw [hslot, hrecvs]

/-- Behind a `break` nothing happens any more. -/
theorem rounds_of_left {es : List ℕ} {p : ClientList} (hleft : p.left = true) :
    es.foldl (clientTurn env) p = p ∧ AllSteps (clientTurn env) (TurnRight env) p es := by
  induction es with
  | nil => exact ⟨rfl, trivial⟩
  | cons e es ih =>
    have hturn : clientTurn env p e = p := by
      unfold clientTurn
      rw [if_pos hleft]
    rw [List.foldl_cons, AllSteps, hturn]
    refine ⟨ih.1, ?_, ih.2⟩
    intro hnot
    rw [hleft] at hnot
    cases hnot

theorem ClientList.turn_eq_none {p : ClientList} {i : ℕ} : p.turn env i = none ↔ p.slot i = none :=
  Option.map_eq_none_iff

/-- A connection whose turn comes has not been marked as gone. -/
theorem ClientList.turn_live {p : ClientList} {i : ℕ} {s : TaskState}
    (hturn : p.turn env i = some s) : s.live = true := by
  obtain ⟨s', -, rfl⟩ := Option.map_eq_some_iff.mp hturn
  unfold TaskState.expireIf
  split <;> rfl

/-- What the slots from `k` on need: each client is served, and those that are served are marked
if their sockets fail. -/
def RightFrom (env : PoolEnv) (p : ClientList) (k n : ℕ) : Prop :=
  (∀ i, k ≤ i → i < k + n → p.slot i ≠ none →
    i ∈ ((List.range' k n).foldl (clientTurn env) p).served) ∧
  ∀ i ∈ ((List.range' k n).foldl (clientTurn env) p).served, k ≤ i →
    ((List.range' k n).foldl (clientTurn env) p).Marks i

theorem not_mem_range'_succ (k n : ℕ) : k ∉ List.range' (k + 1) n := by
  rw [List.mem_range'_1]
  omega

/-- A round of an empty slot. -/
theorem rightFrom_succ_of_none {p : ClientList} {k n : ℕ} (hserved : ∀ i ∈ p.served, i < k)
    (hnone : p.slot k = none) : RightFrom env p k (n + 1) ↔ RightFrom env p (k + 1) n := by
  have hturn : clientTurn env p k = p := by
    unfold clientTurn
    rw [(ClientList.turn_eq_none env).mpr hnone, ite_self]
  have hnot : k ∉ ((List.range' (k + 1) n).foldl (clientTurn env) p).served := by
    rw [(rounds_frame env (not_mem_range'_succ k n)).2.2]
    exact fun hk => Nat.lt_irrefl k (hserved k hk)
  unfold RightFrom
  rw [List.range'_succ, List.foldl_cons, hturn]
  constructor
  · rintro ⟨hserves, hmarks⟩
    exact ⟨fun i hki hin => hserves i (by omega) (by omega),
      fun i hi hki => hmarks i hi (by omega)⟩
  · rintro ⟨hserves, hmarks⟩
    constructor
    · intro i hki hin hslot
      have hik : i ≠ k := fun h => hslot (h ▸ hnone)
      exact hserves i (by omega) (by omega) hslot
    · intro i hi hki
      have hik : i ≠ k := fun h => hnot (h ▸ hi)
      exact hmarks i hi (by omega)

/-- A round of a slot in use. -/
theorem rightFrom_succ_of_some {p : ClientList} {k n : ℕ} {s : TaskState} (hopen : p.left = false)
    (hturn : p.turn env k = some s) :
    RightFrom env p k (n + 1) ↔
      (p.serve (env.pass k) k s).Marks k ∧
        RightFrom env (p.serve (env.pass k) k s) (k + 1) n := by
  have hround : clientTurn env p k = p.serve (env.pass k) k s := by
    unfold clientTurn
    rw [if_neg (by rw [hopen]; decide), hturn]
  have hframe := rounds_frame env (p := p.serve (env.pass k) k s) (not_mem_range'_succ k n)
  have hmark := marks_rounds_iff env (p := p.serve (env.pass k) k s)
    (not_mem_range'_succ k n)
  have hself : k ∈ ((List.range' (k + 1) n).foldl (clientTurn env)
      (p.serve (env.pass k) k s)).served :=
    hframe.2.2.mpr (List.mem_append_right _ (List.mem_singleton_self k))
  have hslot : ∀ i, k + 1 ≤ i → (p.serve (env.pass k) k s).slot i = p.slot i :=
    fun i hi => Function.update_of_ne (by omega) ..
  unfold RightFrom
  rw [List.range'_succ, List.foldl_cons, hround, ← hmark]
  constructor
  · rintro ⟨hserves, hmarks⟩
    refine ⟨hmarks k hself (Nat.le_refl k), ?_, fun i hi hki => hmarks i hi (by omega)⟩
    intro i hki hin hne
    rw [hslot i hki] at hne
    exact hserves i (by omega) (by omega) hne
  · rintro ⟨hk, hserves, hmarks⟩
    constructor
    · intro i hki hin hne
      rcases Nat.eq_or_lt_of_le hki with rfl | hlt
      · exact hself
      · exact hserves i hlt (by omega) (by rwa [hslot i hlt])
    · intro i hi hki
      rcases Nat.eq_or_lt_of_le hki with rfl | hlt
      · exact hk
      · exact hmarks i hi hlt

/-- Behind a `break` the slots that follow have to be empty. -/
theorem rightFrom_of_left {p : ClientList} {k n : ℕ} (hleft : p.left = true)
    (hserved : ∀ i ∈ p.served, i < k) :
    RightFrom env p k n ↔ ∀ i, k ≤ i → i < k + n → p.slot i = none := by
  unfold RightFrom
  rw [(rounds_of_left env hleft).1]
  constructor
  · rintro ⟨hserves, -⟩ i hki hin
    by_contra hne
    exact Nat.not_lt.mpr hki (hserved i (hserves i hki hin hne))
  · intro hnone
    exact ⟨fun i hki hin hne => absurd (hnone i hki hin) hne,
      fun i hi hki => absurd (hserved i hi) (Nat.not_lt.mpr hki)⟩

/-- The slots from `k` on get what they need exactly if each of their turns is right. -/
theorem rightFrom_iff {p : ClientList} {k n : ℕ} (hmax : k + n = httpdMaxClients)
    (hopen : p.left = false) (hserved : ∀ i ∈ p.served, i < k) :
    RightFrom env p k n ↔ AllSteps (clientTurn env) (TurnRight env) p (List.range' k n) := by
  induction n generalizing k p with
  | zero =>
    refine iff_of_true ⟨fun i hki hin => absurd hin (by omega), ?_⟩ trivial
    exact fun i hi hki => absurd (hserved i hi) (Nat.not_lt.mpr hki)
  | succ n ih =>
    rw [List.range'_succ, AllSteps]
    cases hturn : p.turn env k with
    | none =>
      have hround : clientTurn env p k = p := by
        unfold clientTurn
        rw [hturn, ite_self]
      have hright : TurnRight env p k := by
        intro _ s hs
        rw [hturn] at hs
        cases hs
      rw [rightFrom_succ_of_none env hserved ((ClientList.turn_eq_none env).mp hturn), hround,
        and_iff_right hright]
      exact ih (by omega) hopen fun i hi => Nat.lt_succ_of_lt (hserved i hi)
    | some s =>
      have hround : clientTurn env p k = p.serve (env.pass k) k s := by
        unfold clientTurn
        rw [if_neg (by rw [hopen]; decide), hturn]
      have hright : TurnRight env p k ↔
          (slotExit (env.pass k) s = .next ∨
            ∀ j, k < j → j < httpdMaxClients → p.slot j = none) ∧
          (p.serve (env.pass k) k s).Marks k := by
        rw [marks_serve_iff (p.turn_live env hturn)]
        unfold TurnRight
        rw [hturn]
        constructor
        · exact fun h => h hopen s rfl
        · intro h _ s' hs'
          cases hs'
          exact h
      have hserved' : ∀ i ∈ (p.serve (env.pass k) k s).served, i < k + 1 := by
        intro i hi
        rcases List.mem_append.mp hi with hi | hi
        · exact Nat.lt_succ_of_lt (hserved i hi)
        · rw [List.mem_singleton.mp hi]
          exact Nat.lt_succ_self k
      rw [rightFrom_succ_of_some env hopen hturn, hright, hround]
      by_cases hexit : slotExit (env.pass k) s = .next
      · have hopen' : (p.serve (env.pass k) k s).left = false := by
          simp [ClientList.serve, hexit]
        rw [ih (by omega) hopen' hserved', or_iff_left_of_imp fun _ => hexit,
          and_iff_right hexit]
      · have hleft : (p.serve (env.pass k) k s).left = true := by
          simp [ClientList.serve, hexit]
        have hslot : ∀ i, k + 1 ≤ i → (p.serve (env.pass k) k s).slot i = p.slot i :=
          fun i hi => Function.update_of_ne (by omega) ..
        have hempty : (∀ i, k + 1 ≤ i → i < k + 1 + n →
            (p.serve (env.pass k) k s).slot i = none) ↔
            ∀ j, k < j → j < httpdMaxClients → p.slot j = none := by
          constructor
          · intro h j hkj hj
            rw [← hslot j hkj]
            exact h j hkj (by omega)
          · intro h i hki hi
            rw [hslot i hki]
            exact h i hki (by omega)
        rw [rightFrom_of_left env hleft hserved', or_iff_right hexit, hempty,
          and_iff_left (rounds_of_left env hleft).2, and_comm]

end Rounds

/-- Every client is served in a pass, and marked if its socket fails, exactly if every turn is
right: the loop goes on behind it as long as there are clients, and no WebSocket fails unmarked. -/
theorem passRight_iff (env : PoolEnv) (img : List UInt8) (initDone : Bool)
    (slot : ℕ → Option TaskState) :
    PassRight env (.start img initDone slot) ↔
      AllSteps (clientTurn env) (TurnRight env) (.start img initDone slot)
        (List.range httpdMaxClients) := by
  have hiff := rightFrom_iff env (p := .start img initDone slot)
    (Nat.zero_add httpdMaxClients) rfl (fun i hi => absurd hi List.not_mem_nil)
  rw [List.range_eq_range', ← hiff]
  unfold RightFrom
  rw [← List.range_eq_range', Nat.zero_add]
  constructor
  · rintro ⟨hserves, hmarks⟩
    exact ⟨fun i _ hi hne => hserves i hi hne, fun i hi _ => hmarks i hi⟩
  · rintro ⟨hserves, hmarks⟩
    exact ⟨fun i hi hne => hserves i (Nat.zero_le i) hi hne, fun i hi => hmarks i hi (Nat.zero_le i)⟩

/-- A WebSocket with a frame of one byte under way, and no surroundings of its own. -/
def TaskState.frameArriving : TaskState where
  conn := { Conn.fresh with websocketClient := true, websocketAuth := true }
  stream := [0x81, 0x01]
  taken := 0
  img := []
  initDone := false
  http := []
  ws := []
  parses := []
  waits := []
  live := true

/-- The header of the frame is received, and the socket is reset before the payload. -/
def PassEnv.resetBeforePayload : PassEnv :=
  { PassEnv.arriving 0 none with
    ws :=
      { frame := ⟨0, 0, 0, 0, []⟩
        headerBuf := [0, 0]
        lenDataBuf := []
        maskingKeyBuf := []
        header := .got 2
        lenData := .wouldBlock
        maskingKey := .wouldBlock
        block := some [0, 0]
        payload := .failed (some 104) false } }

/-- Two WebSockets, the first of which is reset: the second is not served. -/
theorem not_passRight_resetBeforePayload :
    ¬ PassRight ⟨fun _ => .resetBeforePayload, fun _ => false⟩
      (.start [] false fun i => if i < 2 then some .frameArriving else none) := by
  intro h
  have hserved := h.serves 1 (by decide) (by simp [ClientList.start])
  exact absurd hserved (by decide +kernel)

end WLink.Httpd
