import WLink.Lib.Run
import WLink.Httpd.TaskMemory
import WLink.Httpd.TaskRuns

/-!
# No block of the server task is lost

* `task_servicePass` -- the passes with the heap are those of `Httpd.Task`
* `Owns.pass` -- one pass: the blocks that are not freed are those that the record and the local
  pointers refer to
* `Owns.pass_blocksSettled` -- a block that a pass allocates is freed once or still referred to
* `Accounted.step` -- the same of the task over all connections
-/

namespace WLink.Httpd

open WLink.Lib Exec

/-! ## The passes are those of the task -/

@[simp] theorem ServiceState.task_onTask (s : ServiceState) (f : TaskState → TaskState) :
    (s.onTask f).task = f s.task := rfl

@[simp] theorem ServiceState.task_onMem (s : ServiceState) (f : TaskMemory → TaskMemory) :
    (s.onMem f).task = s.task := rfl

theorem exec_dispatch (io : Io) (urls : UrlTables) (handlers : Handlers) (s : HttpState) :
    exec (dispatch io urls handlers) s =
      exec (dispatchRequest io urls handlers >>= endRequest) s := by
  unfold dispatch dispatchRequest
  simp only [bind_assoc, pure_bind]

theorem ServiceState.task_freeDataBuff (s : ServiceState) :
    s.freeDataBuff.task =
      s.task.setConn (if s.task.conn.dataBuff.isSome then
        { s.task.conn with isLargeData := false, dataBuff := none } else s.task.conn) := by
  unfold freeDataBuff
  split <;> rfl

theorem task_serviceAnswer (env : PassEnv) (mem : List UInt8) (s : ServiceState) :
    (serviceAnswer env mem s).task = answerRequest env mem s.task := by
  unfold serviceAnswer answerRequest
  dsimp only
  rw [exec_dispatch, exec_bind]
  rcases exec (dispatchRequest env.io env.urls env.handlers)
    ⟨s.task.img, s.task.initDone, s.task.conn, mem, s.task.http⟩ with ⟨e | r, t⟩
  · rfl
  · unfold endRequest setHttpConn
    dsimp only
    rw [exec_bind, exec_update]
    split
    · simp only [ServiceState.task_onMem, ServiceState.task_onTask,
        ServiceState.task_freeDataBuff]
      rfl
    · simp only [ServiceState.task_onMem, ServiceState.task_onTask,
        ServiceState.task_freeDataBuff]
      rfl

theorem task_serviceBody (env : PassEnv) (mem : List UInt8) (s : ServiceState) :
    (serviceBody env mem s).task = receiveRequest env mem s.task := by
  unfold serviceBody receiveRequest
  dsimp only
  -- a body that fits, none at all, or one that is too long to be received
  by_cases hbody : HasBody s.task.conn
  · have h₀ : s.task.conn.dataLen ≠ 0 := Nat.ne_of_gt hbody.1
    have hsmall : ¬ 4096 < s.task.conn.dataLen := Nat.not_lt_of_le hbody.2
    rw [if_neg h₀, if_neg hsmall]
    cases hblock : env.body with
    | none =>
      rw [if_neg (by simp)]
      simp only [receiveBody, if_neg h₀, if_neg hsmall]
      simp [TaskState.setConn, TaskState.takeTo]
    | some old =>
      rw [if_pos ⟨hbody, rfl⟩]
      have hreceive : receiveBody (some old) env.bodyRecvs s.task.wait.conn s.task.wait.stream =
          leaveBodyLoop s.task.conn
            (bodyLoop s.task.conn.dataLen env.bodyRecvs ⟨old, 0, s.task.stream⟩) := by
        show receiveBody (some old) env.bodyRecvs s.task.conn s.task.stream = _
        unfold receiveBody
        rw [if_neg h₀, if_neg hsmall]
      rw [hreceive]
      show (leaveBody env mem ((s.onTask .wait).mallocDataBuff old) _).task = _
      obtain ⟨e | x, b⟩ := bodyLoop s.task.conn.dataLen env.bodyRecvs ⟨old, 0, s.task.stream⟩
      · rfl
      · cases x with
        | received => exact task_serviceAnswer env mem _
        | noMemory => rfl
        | clientClose => rfl
        | waiting => rfl
  · have ht : ¬ (HasBody s.task.conn ∧ env.body.isSome = true) := fun h => hbody h.1
    rw [if_neg ht]
    by_cases h₀ : s.task.conn.dataLen = 0
    · simp only [receiveBody, if_pos h₀, task_serviceAnswer]
      simp [TaskState.setConn, TaskState.takeTo]
    · have hbig : 4096 < s.task.conn.dataLen := by
        unfold HasBody at hbody
        omega
      simp only [receiveBody, if_neg h₀, if_pos hbig, task_serviceAnswer]
      simp [TaskState.setConn, TaskState.takeTo]

theorem task_serviceRequest (env : PassEnv) (start : ℕ) (cmdBuf : List UInt8) (s : ServiceState) :
    (serviceRequest env start cmdBuf s).task = parseRequest env start cmdBuf s.task := by
  unfold serviceRequest parseRequest
  dsimp only [ServiceState.onTask, TaskState.setConn]
  rcases exec parseInMsgHeaders (.start s.task.conn.timerStop cmdBuf) with ⟨e | ret, t⟩
  · rfl
  · exact task_serviceBody env _ _

theorem task_serviceHttp (env : PassEnv) (s : ServiceState) :
    (serviceHttp env s).task = serveHttp env s.task := by
  unfold serviceHttp serveHttp
  split
  · dsimp only
    rcases headLoop env.head (.start s.task.stream) with ⟨e | x, t⟩
    · rfl
    · cases x with
      | complete dataPtr => exact task_serviceRequest env _ _ _
      | bufferFull => rfl
      | clientClose => rfl
      | waiting => rfl
  · rfl

theorem fst_serviceWsFrame (s : WsState) (m : TaskMemory) (frame : WsFrame) (n : ℕ)
    (buf : List UInt8) : (serviceWsFrame s m frame n buf).1 = handleWsFrame s frame n buf := by
  unfold serviceWsFrame handleWsFrame
  split
  · rfl
  dsimp only
  split
  · rfl
  split <;> rfl

theorem fst_serviceWsPayload (s : WsState) (m : TaskMemory) (frame : WsFrame) (r : RecvResult)
    (buf : List UInt8) : (serviceWsPayload s m frame r buf).1 = receiveWsPayload s frame r buf := by
  unfold serviceWsPayload receiveWsPayload
  rcases r with n | _ | ⟨_ | e, destructFlag⟩
  · dsimp only
    split
    · rfl
    · exact fst_serviceWsFrame _ m frame _ _
  · rfl
  · rfl
  · rfl

theorem fst_serviceWs (s : WsState) (m : TaskMemory) (env : WsEnv) :
    (serviceWs s m env).1 = wsPass s env := by
  unfold serviceWs wsPass
  split
  · rfl
  dsimp only
  split
  · rfl
  split
  · rfl
  cases env.block with
  | none => rfl
  | some buf => exact fst_serviceWsPayload _ _ _ _ _

theorem task_servicePass (env : PassEnv) (s : ServiceState)
    (h : s.task.conn.connectionDestructFlag = true → s.task.conn.dataBuff = none) :
    (servicePass env s).task = servePass env s.task := by
  unfold servicePass servePass
  split
  · rfl
  split
  · next hflag =>
    unfold ServiceState.freeDataBuff
    rw [h hflag]
    rfl
  split
  · unfold serviceWebsocket serveWebsocket
    dsimp only
    rw [fst_serviceWs]
  · exact task_serviceHttp env s
/-! ## Balance -/

namespace TaskMemory

variable {m : TaskMemory} {held others : List ℕ}

@[simp] theorem locals_leave (m : TaskMemory) : m.leave.locals = [] := rfl

theorem balanced_memFree {p : Option ℕ} (h : Balanced m.ledger (p.toList ++ held)) :
    Balanced (m.memFree p).ledger held := by
  cases p with
  | none => exact h
  | some b => exact h.free

end TaskMemory

/-- The blocks that the record and the local pointers refer to are what is left of the heap, apart
from the blocks of others. -/
def Owns (s : ServiceState) (others : List ℕ) : Prop := Balanced s.mem.ledger (s.held ++ others)

/-- A pass that has come to its end has no local pointers any more. -/
structure PassEnded (s : ServiceState) (others : List ℕ) : Prop where
  owns : Owns s others
  locals : s.task.live = true → s.mem.locals = []

/-- In the HTTP branch of a pass. -/
structure Holding (s : ServiceState) (others : List ℕ) : Prop where
  owns : Owns s others
  noFrame : s.mem.webSocketServerDataBuf = none

section

variable {s s' : ServiceState} {others : List ℕ}

theorem Owns.onTask (h : Owns s others) {f : TaskState → TaskState}
    (hf : (f s.task).conn.dataBuff.isSome = s.task.conn.dataBuff.isSome) :
    Owns (s.onTask f) others := by
  unfold Owns ServiceState.held dataHeld
  rw [show (s.onTask f).task.conn.dataBuff.isSome = s.task.conn.dataBuff.isSome from hf]
  exact h

theorem Holding.onTask (h : Holding s others) {f : TaskState → TaskState}
    (hf : (f s.task).conn.dataBuff.isSome = s.task.conn.dataBuff.isSome) :
    Holding (s.onTask f) others :=
  ⟨h.owns.onTask hf, h.noFrame⟩

/-- The task stays in a loop, or it leaves the defined behaviour. -/
theorem Holding.stop (h : Holding s others) : PassEnded (s.onTask .stop) others :=
  ⟨h.owns.onTask rfl, fun hlive => nomatch hlive⟩

/-- The exits of the HTTP branch. -/
theorem Holding.leave (h : Holding s others) :
    PassEnded ((s.onMem .freeCmdBuf).onMem .leave) others := by
  refine ⟨?_, fun _ => rfl⟩
  have howns : Balanced s.mem.ledger (_ ++ (s.mem.httpCmdBuf.toList ++ _) ++ others) := h.owns
  rw [h.noFrame] at howns
  apply TaskMemory.balanced_memFree
  refine howns.perm ?_
  show (dataHeld s.task.conn s.dataBlock ++ (s.mem.httpCmdBuf.toList ++ []) ++ others).Perm
    (s.mem.httpCmdBuf.toList ++ (dataHeld s.task.conn s.dataBlock ++ [] ++ others))
  rw [List.append_nil, List.append_nil, List.append_assoc]
  exact List.perm_append_comm_assoc _ _ _

theorem Owns.freeDataBuff (h : Owns s others) : Owns s.freeDataBuff others := by
  unfold ServiceState.freeDataBuff
  split
  · next hdata =>
    unfold Owns ServiceState.held dataHeld at h
    rw [if_pos hdata] at h
    exact h.free
  · exact h

theorem Holding.freeDataBuff (h : Holding s others) : Holding s.freeDataBuff others := by
  refine ⟨h.owns.freeDataBuff, ?_⟩
  unfold ServiceState.freeDataBuff
  split <;> exact h.noFrame

/-- A block that the record does not refer to any more is nobody's. -/
theorem Owns.dropData (h : Owns s others) {c : Conn} (hc : c.dataBuff = none) :
    Owns (s.onTask (·.setConn c)) (dataHeld s.task.conn s.dataBlock ++ others) := by
  have hheld : (s.onTask (·.setConn c)).held = s.mem.locals := by
    show dataHeld c s.dataBlock ++ s.mem.locals = _
    unfold dataHeld
    rw [hc]
    rfl
  unfold Owns
  rw [hheld]
  refine Balanced.perm h ?_
  unfold ServiceState.held
  rw [List.append_assoc]
  exact List.perm_append_comm_assoc _ _ _

end


/-! ## The parser -/

/-- `data_buff` is `NULL` or still what it was. -/
def DataKept (d : Option (List UInt8)) (s : ParseState) : Prop :=
  s.conn.dataBuff = none ∨ s.conn.dataBuff = d

section

variable (d : Option (List UInt8))

theorem dataKept_poke (p : ℕ) (b : UInt8) : Preserves (DataKept d) (poke p b) := by
  intro s h
  rw [exec_poke]
  split <;> exact h

theorem dataKept_setConn {f : Conn → Conn} (hf : ∀ c, (f c).dataBuff = c.dataBuff) :
    Preserves (DataKept d) (setConn f) := by
  refine Preserves.update fun s h => ?_
  unfold DataKept
  rw [hf]
  exact h

theorem dataKept_copyValue (size v e : ℕ) : Preserves (DataKept d) (copyValue size v e) :=
  Preserves.bind (Preserves.update fun _ h => h) fun _ => Preserves.viewE _

theorem dataKept_parseRequestLine : Preserves (DataKept d) parseRequestLine := by
  unfold parseRequestLine
  refine Preserves.bind (dataKept_setConn d fun _ => rfl) fun _ => ?_
  refine Preserves.bind (Preserves.viewE _) fun lineEnd => ?_
  split
  · exact Preserves.pure _
  refine Preserves.bind (Preserves.viewE _) fun method => ?_
  refine Preserves.bind (dataKept_setConn d fun _ => rfl) fun _ => ?_
  refine Preserves.ite (Preserves.pure _) ?_
  refine Preserves.bind (Preserves.viewE _) fun path => ?_
  refine Preserves.bind (dataKept_setConn d fun _ => rfl) fun _ => ?_
  split
  · exact Preserves.pure _
  refine Preserves.bind (Preserves.viewE _) fun blank => ?_
  split
  · exact Preserves.pure _
  refine Preserves.bind (dataKept_poke d _ _) fun _ => ?_
  refine Preserves.bind (Preserves.viewE _) fun args => ?_
  split
  · refine Preserves.bind (dataKept_poke d _ _) fun _ => ?_
    exact Preserves.bind (dataKept_setConn d fun _ => rfl) fun _ => Preserves.pure _
  · exact Preserves.bind (dataKept_setConn d fun _ => rfl) fun _ => Preserves.pure _

theorem dataKept_parseUpgrade (secondLine : ℕ) :
    Preserves (DataKept d) (parseUpgrade secondLine) := by
  unfold parseUpgrade
  refine Preserves.bind (Preserves.viewE _) fun upgradeWs => ?_
  split
  · exact Preserves.pure _
  refine Preserves.bind (Preserves.viewE _) fun websocket => ?_
  refine Preserves.ite ?_ (Preserves.pure _)
  refine Preserves.bind (Preserves.viewE _) fun key => ?_
  split
  · exact Preserves.pure _
  refine Preserves.bind (Preserves.viewE _) fun e => ?_
  refine Preserves.bind (dataKept_poke d _ _) fun _ => ?_
  refine Preserves.bind (dataKept_setConn d fun _ => rfl) fun _ => ?_
  exact Preserves.bind (Preserves.update fun _ h => h) fun _ => Preserves.pure _

theorem dataKept_parseKeepAlive (secondLine connStr : ℕ) :
    Preserves (DataKept d) (parseKeepAlive secondLine connStr) := by
  unfold parseKeepAlive
  refine Preserves.bind (dataKept_setConn d fun _ => rfl) fun _ => ?_
  refine Preserves.bind (Preserves.viewE _) fun keepAlive => ?_
  refine Preserves.ite ?_ (Preserves.pure _)
  refine Preserves.bind (dataKept_setConn d fun _ => rfl) fun _ => ?_
  refine Preserves.bind (Preserves.viewE _) fun line => ?_
  split
  · refine Preserves.bind (dataKept_copyValue d _ _ _) fun buf => ?_
    refine Preserves.bind (Preserves.lift _) fun time => ?_
    refine Preserves.bind (dataKept_setConn d fun _ => rfl) fun _ => ?_
    exact Preserves.update fun _ h => h
  · refine Preserves.bind (dataKept_setConn d fun _ => rfl) fun _ => ?_
    exact Preserves.update fun _ h => h

/-- The one place where the parser writes `data_buff`. -/
theorem dataKept_parseContentLength (secondLine : ℕ) :
    Preserves (DataKept d) (parseContentLength secondLine) := by
  unfold parseContentLength
  refine Preserves.bind (Preserves.viewE _) fun line => ?_
  split
  · refine Preserves.bind (dataKept_copyValue d _ _ _) fun buf => ?_
    refine Preserves.bind (Preserves.lift _) fun len => ?_
    exact Preserves.update fun _ _ => Or.inl rfl
  · exact Preserves.pure _

theorem dataKept_parsePlain (secondLine connStr : ℕ) :
    Preserves (DataKept d) (parsePlain secondLine connStr) := by
  unfold parsePlain parseAcceptEncoding
  refine Preserves.bind (dataKept_parseKeepAlive d _ _) fun _ => ?_
  refine Preserves.bind (dataKept_parseContentLength d _) fun _ => ?_
  refine Preserves.bind ?_ fun _ => Preserves.bind (Preserves.viewE _) fun _ => Preserves.pure _
  refine Preserves.bind (Preserves.viewE _) fun line => ?_
  split
  · refine Preserves.bind (dataKept_copyValue d _ _ _) fun buf => ?_
    exact dataKept_setConn d fun _ => rfl
  · exact Preserves.pure _

theorem dataKept_parseInMsgHeaders : Preserves (DataKept d) parseInMsgHeaders := by
  unfold parseInMsgHeaders parseHeaderLines
  refine Preserves.bind (dataKept_parseRequestLine d) fun secondLine => ?_
  split
  · exact Preserves.pure _
  refine Preserves.bind (Preserves.viewE _) fun host => ?_
  refine Preserves.bind (dataKept_setConn d fun _ => rfl) fun _ => ?_
  refine Preserves.bind (Preserves.viewE _) fun connStr => ?_
  split
  · exact Preserves.pure _
  refine Preserves.bind (Preserves.viewE _) fun upgrade => ?_
  exact Preserves.ite (dataKept_parseUpgrade d _) (dataKept_parsePlain d _ _)

end

theorem dataBuff_changePeriod (periods : List ℕ) (c : Conn) :
    (periods.foldl Conn.changePeriod c).dataBuff = c.dataBuff := by
  induction periods generalizing c with
  | nil => rfl
  | cons p periods ih => exact ih (c.changePeriod p)

/-! ## Requests -/

theorem keeps_dispatchRequest (io : Io) (urls : UrlTables) {handlers : Handlers}
    (hkeeps : ∀ cgi, Keeps HttpState.conn (handlers cgi)) :
    Keeps (fun s => s.conn.dataBuff) (dispatchRequest io urls handlers) := by
  unfold dispatchRequest
  refine Keeps.bind ((keeps_processRequest hkeeps).comp fun c => c.dataBuff) fun r => ?_
  exact Keeps.bind ((keeps_conn_runLeftCgi hkeeps).comp fun c => c.dataBuff) fun _ => Keeps.pure _

section

variable {env : PassEnv} {mem : List UInt8} {s : ServiceState} {others : List ℕ}

theorem Holding.answer (h : Holding s others) : PassEnded (serviceAnswer env mem s) others := by
  have hkeeps : Keeps (fun s => s.conn.dataBuff)
      (dispatchRequest env.io env.urls env.handlers) :=
    keeps_dispatchRequest env.io env.urls fun cgi => (env.callbacks cgi).keeps_conn
  have hkeep := hkeeps ⟨s.task.img, s.task.initDone, s.task.conn, mem, s.task.http⟩
  unfold serviceAnswer
  dsimp only at hkeep ⊢
  generalize exec (dispatchRequest env.io env.urls env.handlers)
    ⟨s.task.img, s.task.initDone, s.task.conn, mem, s.task.http⟩ = out at hkeep ⊢
  have hanswered := h.onTask (f := fun t =>
    { t with img := out.2.img, initDone := out.2.initDone, conn := out.2.conn,
             http := out.2.events }) (congrArg Option.isSome hkeep)
  split
  · exact hanswered.stop
  · have hfreed := hanswered.freeDataBuff
    split
    · exact (hfreed.onTask (f := fun t => (t.setConn t.conn.timerStop).destruct) rfl).leave
    · exact hfreed.leave

theorem Holding.leaveBody (h : Holding s others) (hdata : s.task.conn.dataBuff.isSome)
    {out : Except Fault BodyExit × BodyState} (hout : out.1 ≠ .ok .noMemory) :
    PassEnded (leaveBody env mem s out) others := by
  have hreceived := h.onTask (f := fun t =>
    (t.setConn { t.conn with dataBuff := some out.2.dataBuff }).takeTo out.2.stream) hdata.symm
  unfold Httpd.leaveBody
  dsimp only
  split
  · exact (hreceived.freeDataBuff.onTask (f := .destruct) rfl).leave
  · exact hreceived.answer
  · next hmemory => exact absurd hmemory hout
  · exact hreceived.stop
  · exact hreceived.stop

/-- The memory at the end of a pass. A block that the record referred to before may be lost. -/
def Settles (s s' : ServiceState) (others : List ℕ) : Prop :=
  PassEnded s' others ∨ PassEnded s' (dataHeld s.task.conn s.dataBlock ++ others)

theorem Holding.mallocDataBuff (h : Holding s others) (old : List UInt8) :
    Holding (s.mallocDataBuff old) (dataHeld s.task.conn s.dataBlock ++ others) := by
  refine ⟨Balanced.perm (Balanced.malloc h.owns) ?_, h.noFrame⟩
  show List.Perm _ (s.mem.ledger.next :: s.mem.locals ++ _)
  refine List.Perm.cons _ ?_
  unfold ServiceState.held
  rw [List.append_assoc]
  exact List.perm_append_comm_assoc _ _ _

theorem Holding.body (h : Holding s others) : Settles s (serviceBody env mem s) others := by
  unfold serviceBody
  dsimp only
  split
  · exact Or.inl h.answer
  split
  · left
    apply Holding.answer
    exact h.onTask rfl
  split
  · right
    exact Holding.leave ⟨h.owns.dropData rfl, h.noFrame⟩
  · right
    exact ((h.onTask (f := .wait) rfl).mallocDataBuff _).leaveBody rfl (bodyLoop_ne_noMemory _ _ _)

theorem Settles.of_dropped {s₁ s₂ : ServiceState}
    (h : Settles s₁ s₂ (dataHeld s.task.conn s.dataBlock ++ others))
    (hnone : s₁.task.conn.dataBuff = none) : Settles s s₂ others := by
  right
  unfold Settles dataHeld at h
  rw [hnone] at h
  exact h.elim id id

theorem Settles.of_kept {s₁ s₂ : ServiceState} (h : Settles s₁ s₂ others)
    (hdata : s₁.task.conn.dataBuff.isSome = s.task.conn.dataBuff.isSome)
    (hblock : s₁.dataBlock = s.dataBlock) : Settles s s₂ others := by
  unfold Settles dataHeld at h ⊢
  rw [hdata, hblock] at h
  exact h

theorem Holding.request (h : Holding s others) (start : ℕ) (cmdBuf : List UInt8) :
    Settles s (serviceRequest env start cmdBuf s) others := by
  have hkept := dataKept_parseInMsgHeaders s.task.conn.dataBuff
    (.start s.task.conn.timerStop cmdBuf) (Or.inr rfl)
  have hstopped := h.onTask (f := fun t =>
    { t.setConn t.conn.timerStop with parses := t.parses ++ [start] }) rfl
  unfold serviceRequest
  dsimp only
  split
  · exact Or.inl hstopped.stop
  · obtain hnone | hsame := hkept
    · refine Settles.of_dropped (Holding.body ⟨hstopped.owns.dropData ?_, h.noFrame⟩) ?_
      · exact (dataBuff_changePeriod _ _).trans hnone
      · exact (dataBuff_changePeriod _ _).trans hnone
    · refine Settles.of_kept (Holding.body (hstopped.onTask ?_)) ?_ rfl
      · exact congrArg Option.isSome ((dataBuff_changePeriod _ _).trans hsame)
      · exact congrArg Option.isSome ((dataBuff_changePeriod _ _).trans hsame)

/-! ## Passes -/

theorem Owns.mallocCmdBuf (h : Owns s others) (hidle : s.mem.locals = []) :
    Holding (s.onMem .mallocCmdBuf) others := by
  obtain ⟨-, hframe⟩ := List.append_eq_nil_iff.mp hidle
  have hframe' : s.mem.webSocketServerDataBuf = none := Option.toList_eq_nil_iff.mp hframe
  refine ⟨Balanced.perm (Balanced.malloc h) ?_, hframe'⟩
  unfold ServiceState.held
  rw [hidle, List.append_nil]
  show List.Perm _ (dataHeld s.task.conn s.dataBlock ++
    (s.mem.ledger.next :: s.mem.webSocketServerDataBuf.toList) ++ others)
  rw [hframe, List.append_assoc]
  exact List.perm_middle.symm

theorem conn_expireIf (t : TaskState) (expires : Bool) :
    (t.expireIf expires).conn.dataBuff = t.conn.dataBuff := by
  unfold TaskState.expireIf Conn.expire
  split
  · show (if t.conn.armed then _ else t.conn).dataBuff = _
    split <;> rfl
  · rfl

theorem Owns.http (h : Owns s others) (hidle : s.mem.locals = []) :
    Settles s (serviceHttp env s) others := by
  unfold serviceHttp
  split
  · have hholding := (h.mallocCmdBuf hidle).onTask (f := fun t =>
      t.wait.takeTo (headLoop env.head (.start s.task.stream)).2.stream) rfl
    have hexpired := hholding.onTask (f := (·.expireIf env.expires))
      (congrArg Option.isSome (conn_expireIf _ _))
    dsimp only
    split
    · exact Or.inl hholding.stop
    · exact Or.inl hholding.stop
    · exact Or.inl (hholding.onTask (f := .destruct) rfl).leave
    · exact Or.inl hexpired.leave
    · refine Settles.of_kept (hexpired.request _ _) ?_ rfl
      exact congrArg Option.isSome (conn_expireIf _ _)
  · exact Or.inl ⟨h, fun _ => hidle⟩

theorem snd_serviceWsFrame (s : WsState) (m : TaskMemory) (frame : WsFrame) (n : ℕ)
    (buf : List UInt8) :
    (serviceWsFrame s m frame n buf).2 = m.freeWebSocketServerDataBuf.leave := by
  unfold serviceWsFrame
  split
  · rfl
  dsimp only
  split
  · rfl
  split <;> rfl

theorem snd_serviceWsPayload (s : WsState) (m : TaskMemory) (frame : WsFrame) (r : RecvResult)
    (buf : List UInt8) :
    (serviceWsPayload s m frame r buf).2 = m.freeWebSocketServerDataBuf.leave := by
  unfold serviceWsPayload
  split
  · rfl
  · rfl
  · dsimp only
    split
    · rfl
    · exact snd_serviceWsFrame _ m frame _ _

/-- The buffer for a frame is given back at once, or there was none. -/
theorem snd_serviceWs (s : WsState) (m : TaskMemory) (env : WsEnv) :
    (serviceWs s m env).2 = m ∨
      (serviceWs s m env).2 = m.mallocWebSocketServerDataBuf.freeWebSocketServerDataBuf.leave := by
  unfold serviceWs
  split
  · exact Or.inl rfl
  dsimp only
  split
  · exact Or.inl rfl
  split
  · exact Or.inl rfl
  split
  · exact Or.inl rfl
  · exact Or.inr (snd_serviceWsPayload _ _ _ _ _)

theorem balanced_serviceWs {m : TaskMemory} (ws : WsState) (wsEnv : WsEnv) {held : List ℕ}
    (h : Balanced m.ledger held) (hidle : m.locals = []) :
    Balanced (serviceWs ws m wsEnv).2.ledger held ∧ (serviceWs ws m wsEnv).2.locals = [] := by
  obtain hmem | hmem := snd_serviceWs ws m wsEnv
  · rw [hmem]
    exact ⟨h, hidle⟩
  · rw [hmem]
    refine ⟨?_, rfl⟩
    exact TaskMemory.balanced_memFree (p := some m.ledger.next) h.malloc

theorem dataBuff_wsPass (ws : WsState) (wsEnv : WsEnv) :
    (wsPass ws wsEnv).conn.dataBuff = ws.conn.dataBuff :=
  congrArg (·.dataBuff) (wsPass_stays ws wsEnv).1

theorem Owns.websocket (h : Owns s others) (hidle : s.mem.locals = []) :
    Settles s (serviceWebsocket env s) others := by
  left
  have hkept : (serviceWebsocket env s).task.conn.dataBuff = s.task.conn.dataBuff := by
    show (serviceWs _ s.mem env.ws).1.conn.dataBuff = _
    rw [fst_serviceWs]
    exact dataBuff_wsPass _ _
  obtain ⟨hbalanced, hidle'⟩ := balanced_serviceWs ⟨s.task.conn, s.task.stream, s.task.ws⟩ env.ws h hidle
  refine ⟨?_, fun _ => hidle'⟩
  unfold Owns ServiceState.held dataHeld at h ⊢
  rw [hkept, show (serviceWebsocket env s).mem.locals = [] from hidle']
  unfold ServiceState.held dataHeld at hbalanced
  rw [hidle] at hbalanced
  exact hbalanced

theorem Owns.pass (env : PassEnv) (h : Owns s others) (hidle : s.mem.locals = []) :
    Settles s (servicePass env s) others := by
  unfold servicePass
  split
  · exact Or.inl ⟨h, fun _ => hidle⟩
  split
  · exact Or.inl ⟨h.freeDataBuff.onTask rfl, fun hlive => nomatch hlive⟩
  split
  · exact h.websocket hidle
  · exact h.http hidle

end

/-! ## What a pass allocates -/

/-- Every block that the step has allocated has been freed once and is referred to by nobody, or
is not freed and still referred to. -/
def BlocksSettled (s s' : ServiceState) : Prop :=
  ∀ b, s.mem.ledger.next ≤ b → b < s'.mem.ledger.next →
    s'.mem.ledger.freed b = 1 ∧ b ∉ s'.held ∨ s'.mem.ledger.freed b = 0 ∧ b ∈ s'.held

theorem Owns.blocksSettled {s s' : ServiceState} {others : List ℕ} (h : Owns s' others)
    (hothers : ∀ b ∈ others, b < s.mem.ledger.next) : BlocksSettled s s' := by
  intro b hb hlt
  have hnot : b ∉ others := fun hmem => Nat.not_lt_of_le hb (hothers b hmem)
  by_cases hheld : b ∈ s'.held
  · exact Or.inr ⟨h.freed_eq_zero (List.mem_append_left _ hheld), hheld⟩
  · refine Or.inl ⟨h.freed_eq_one hlt fun hmem => ?_, hheld⟩
    exact (List.mem_append.mp hmem).elim hheld hnot

theorem Owns.pass_blocksSettled {env : PassEnv} {s : ServiceState} {others : List ℕ}
    (h : Owns s others) (hidle : s.mem.locals = []) : BlocksSettled s (servicePass env s) := by
  have hlt : ∀ b ∈ dataHeld s.task.conn s.dataBlock ++ others, b < s.mem.ledger.next := by
    intro b hb
    refine h.lt_next ?_
    unfold ServiceState.held
    rw [hidle, List.append_nil]
    exact hb
  obtain hended | hended := h.pass env hidle
  · exact hended.owns.blocksSettled fun b hb => hlt b (List.mem_append_right _ hb)
  · exact hended.owns.blocksSettled hlt

/-- A pass that has come to its end holds nothing by its local pointers. -/
theorem Owns.pass_locals {env : PassEnv} {s : ServiceState} {others : List ℕ}
    (h : Owns s others) (hidle : s.mem.locals = [])
    (hend : (servicePass env s).task.live = true ∨ s.task.conn.connectionDestructFlag = true) :
    (servicePass env s).mem.locals = [] := by
  obtain hlive | hflag := hend
  · exact (h.pass env hidle).elim (·.locals hlive) (·.locals hlive)
  · unfold servicePass
    split
    · exact hidle
    · unfold ServiceState.freeDataBuff
      split <;> exact hidle

/-! ## Runs -/

/-- A request that has been dispatched has no body any more. -/
theorem dispatch_cleared (io : Io) (urls : UrlTables) (handlers : Handlers) :
    Triple (fun _ => True) (dispatch io urls handlers) fun _ s => s.conn.dataBuff = none := by
  unfold dispatch
  refine Triple.seq fun r => Triple.seq fun _ => ?_
  unfold endRequest setHttpConn
  refine Triple.bind (Q := fun _ s => s.conn.dataBuff = none) (Triple.update fun s _ => ?_)
    fun _ => ?_
  · show (if s.conn.dataBuff.isSome then _ else s.conn).dataBuff = none
    split
    · rfl
    · next hdata => exact Option.not_isSome_iff_eq_none.mp hdata
  · exact Triple.ite (fun _ => Triple.update fun _ h => h) fun _ => Triple.pure fun _ h => h

theorem answerRequest_cleared {env : PassEnv} {mem : List UInt8} {s : TaskState}
    (hlive : (answerRequest env mem s).live = true) :
    (answerRequest env mem s).conn.dataBuff = none := by
  unfold answerRequest at hlive ⊢
  dsimp only at hlive ⊢
  generalize hout : exec (dispatch env.io env.urls env.handlers)
    ⟨s.img, s.initDone, s.conn, mem, s.http⟩ = out at hlive ⊢
  obtain ⟨e | r, t⟩ := out
  · cases hlive
  · exact dispatch_cleared _ _ _ _ r t trivial hout

theorem receiveBody_cleared {block : Option (List UInt8)} {rs : List RecvResult} {conn : Conn}
    {stream : List UInt8} (h : (receiveBody block rs conn stream).1 = .ok .noMemory ∨
      (receiveBody block rs conn stream).1 = .ok .clientClose) :
    (receiveBody block rs conn stream).2.1.dataBuff = none := by
  unfold receiveBody at h ⊢
  split
  · next h₀ =>
    rw [if_pos h₀] at h
    obtain h | h := h <;> cases h
  · next h₀ =>
    rw [if_neg h₀] at h
    split
    · next hbig =>
      rw [if_pos hbig] at h
      obtain h | h := h <;> cases h
    · next hsmall =>
      rw [if_neg hsmall] at h
      cases block with
      | none => rfl
      | some old =>
        dsimp only at h ⊢
        rw [leaveBodyLoop_fst] at h
        obtain h | h := h
        · exact absurd h (bodyLoop_ne_noMemory _ _ _)
        · generalize bodyLoop conn.dataLen rs ⟨old, 0, stream⟩ = out at h ⊢
          obtain ⟨r, b⟩ := out
          cases h
          rfl

theorem receiveRequest_cleared {env : PassEnv} {mem : List UInt8} {s : TaskState}
    (hlive : (receiveRequest env mem s).live = true) :
    (receiveRequest env mem s).conn.dataBuff = none := by
  unfold receiveRequest at hlive ⊢
  dsimp only at hlive ⊢
  split at hlive
  · cases hlive
  · cases hlive
  · next h => exact receiveBody_cleared (Or.inl h)
  · next h => exact receiveBody_cleared (Or.inr h)
  · exact answerRequest_cleared hlive

theorem parseRequest_cleared {env : PassEnv} {start : ℕ} {cmdBuf : List UInt8} {s : TaskState}
    (hlive : (parseRequest env start cmdBuf s).live = true) :
    (parseRequest env start cmdBuf s).conn.dataBuff = none := by
  unfold parseRequest at hlive ⊢
  dsimp only at hlive ⊢
  generalize exec parseInMsgHeaders _ = out at hlive ⊢
  obtain ⟨e | ret, t⟩ := out
  · cases hlive
  · exact receiveRequest_cleared hlive

theorem serveHttp_cleared {env : PassEnv} {s : TaskState} (h : s.conn.dataBuff = none)
    (hlive : (serveHttp env s).live = true) : (serveHttp env s).conn.dataBuff = none := by
  unfold serveHttp at hlive ⊢
  by_cases hbuf : env.cmdBuf = true
  · rw [if_pos hbuf] at hlive ⊢
    dsimp only at hlive ⊢
    generalize headLoop env.head (.start s.stream) = out at hlive ⊢
    obtain ⟨e | x, t⟩ := out
    · cases hlive
    · cases x with
      | complete dataPtr => exact parseRequest_cleared hlive
      | bufferFull => exact (conn_expireIf _ _).trans h
      | clientClose => exact h
      | waiting => cases hlive
  · rw [if_neg hbuf]
    exact h

theorem servePass_marked {env : PassEnv} {s : TaskState}
    (hflag : s.conn.connectionDestructFlag = true) :
    servePass env s = if s.live = false then s else s.stop := by
  unfold servePass
  rw [if_pos hflag]

theorem servePass_cleared {env : PassEnv} {s : TaskState} (h : s.conn.dataBuff = none)
    (hlive : (servePass env s).live = true) : (servePass env s).conn.dataBuff = none := by
  unfold servePass at hlive ⊢
  by_cases hstopped : s.live = false
  · rw [if_pos hstopped]
    exact h
  rw [if_neg hstopped] at hlive ⊢
  split at hlive
  · cases hlive
  · next hflag =>
    rw [if_neg hflag]
    split
    · exact (dataBuff_wsPass _ _).trans h
    · next hclient =>
      rw [if_neg hclient] at hlive
      exact serveHttp_cleared h hlive

theorem dataHeld_eq_nil_iff {c : Conn} {dataBlock : ℕ} :
    dataHeld c dataBlock = [] ↔ c.dataBuff = none := by
  unfold dataHeld
  cases c.dataBuff <;> simp

/-- Every block that was allocated has been freed exactly once, or exactly one pointer refers to
it. Between two passes there are no local pointers, and the records refer to no block. -/
structure Accounted (s : Server) : Prop where
  balanced : Balanced s.mem.ledger s.held
  locals : s.stuck = false → s.mem.locals = []
  idle : s.stuck = false → ∀ slot ∈ s.clients, Server.slotHeld slot = []

/-- Replacing a slot by one that refers to the same block. -/
theorem flatMap_set {slots : List (Option ClientRecord)} {i : ℕ} {slot slot' : Option ClientRecord}
    (hi : slots[i]? = some slot) (hheld : Server.slotHeld slot' = Server.slotHeld slot) :
    (slots.set i slot').flatMap Server.slotHeld = slots.flatMap Server.slotHeld := by
  induction slots generalizing i with
  | nil => rfl
  | cons x slots ih =>
    cases i with
    | zero =>
      cases hi
      rw [List.set_cons_zero, List.flatMap_cons, List.flatMap_cons, hheld]
    | succ i =>
      rw [List.set_cons_succ, List.flatMap_cons, List.flatMap_cons, ih hi]

theorem flatMap_set_of_idle {slots : List (Option ClientRecord)} {i : ℕ}
    {slot' : Option ClientRecord} (hi : i < slots.length)
    (hidle : ∀ slot ∈ slots, Server.slotHeld slot = []) :
    (slots.set i slot').flatMap Server.slotHeld = Server.slotHeld slot' := by
  induction slots generalizing i with
  | nil => exact absurd hi (Nat.not_lt_zero i)
  | cons x slots ih =>
    have hrest : ∀ slot ∈ slots, Server.slotHeld slot = [] :=
      fun slot h => hidle slot (List.mem_cons_of_mem _ h)
    cases i with
    | zero =>
      rw [List.set_cons_zero, List.flatMap_cons, List.flatMap_eq_nil_iff.mpr hrest,
        List.append_nil]
    | succ i =>
      rw [List.set_cons_succ, List.flatMap_cons, hidle x List.mem_cons_self, List.nil_append]
      exact ih (Nat.lt_of_succ_lt_succ hi) hrest

/-- A pass over a connection whose record refers to no block. -/
theorem Owns.pass_ended {env : PassEnv} {s : ServiceState} {others : List ℕ} (h : Owns s others)
    (hidle : s.mem.locals = []) (hdata : s.task.conn.dataBuff = none) :
    PassEnded (servicePass env s) others := by
  have hsettles := h.pass env hidle
  unfold Settles at hsettles
  rw [dataHeld_eq_nil_iff.mpr hdata] at hsettles
  exact hsettles.elim id id

theorem Accounted.held_eq_nil {s : Server} (h : Accounted s) (hstuck : s.stuck = false) :
    s.held = [] := by
  unfold Server.held
  rw [h.locals hstuck, List.flatMap_eq_nil_iff.mpr (h.idle hstuck)]
  rfl

/-- A slot that refers to the same block as before. -/
theorem Accounted.replace {s : Server} (h : Accounted s) {i : ℕ} {slot slot' : Option ClientRecord}
    (hi : s.clients[i]? = some slot) (hheld : Server.slotHeld slot' = Server.slotHeld slot) :
    Accounted { s with clients := s.clients.set i slot' } := by
  refine ⟨?_, h.locals, fun hstuck x hx => ?_⟩
  · show Balanced s.mem.ledger ((s.clients.set i slot').flatMap Server.slotHeld ++ s.mem.locals)
    rw [flatMap_set hi hheld]
    exact h.balanced
  · obtain hx | rfl := List.mem_or_eq_of_mem_set hx
    · exact h.idle hstuck x hx
    · rw [hheld]
      exact h.idle hstuck slot (List.mem_of_getElem? hi)

/-- The slot behind a pass whose memory is settled. -/
theorem Accounted.after {s : Server} (h : Accounted s) (hstuck : s.stuck = false) {i : ℕ}
    (hi : i < s.clients.length) {c : ClientRecord} {t : ServiceState} (hended : PassEnded t [])
    (hmarked : c.task.conn.connectionDestructFlag = true →
      t.mem.locals = [] ∧ t.task.conn.dataBuff = none)
    (hcleared : t.task.live = true → t.task.conn.dataBuff = none) :
    Accounted
      { clients := s.clients.set i (Server.slotAfter c t)
        img := t.task.img
        initDone := t.task.initDone
        mem := t.mem
        stuck := !t.task.live && !c.task.conn.connectionDestructFlag } := by
  have hbalanced := hended.owns
  unfold Owns ServiceState.held at hbalanced
  rw [List.append_nil] at hbalanced
  have hslots : ∀ slot ∈ s.clients.set i (Server.slotAfter c t),
      Server.slotHeld (Server.slotAfter c t) = [] → Server.slotHeld slot = [] := by
    intro slot hslot hafter
    obtain hslot | rfl := List.mem_or_eq_of_mem_set hslot
    · exact h.idle hstuck slot hslot
    · exact hafter
  unfold Server.slotAfter at hslots ⊢
  cases hflag : c.task.conn.connectionDestructFlag with
  | true =>
    -- the record is given back, and it referred to nothing
    obtain ⟨hlocals, hnone⟩ := hmarked hflag
    rw [if_pos hflag] at hslots
    refine ⟨?_, fun _ => hlocals, fun _ slot hslot => hslots slot hslot rfl⟩
    unfold Server.held
    dsimp only
    rw [if_pos rfl, flatMap_set_of_idle hi (h.idle hstuck)]
    rw [dataHeld_eq_nil_iff.mpr hnone] at hbalanced
    exact hbalanced
  | false =>
    have hlive : (!t.task.live && !false) = false → t.task.live = true := by simp
    rw [if_neg (Bool.eq_false_iff.mp hflag)] at hslots
    refine ⟨?_, fun hnot => hended.locals (hlive hnot), fun hnot slot hslot => ?_⟩
    · unfold Server.held
      dsimp only
      rw [if_neg (by decide), flatMap_set_of_idle hi (h.idle hstuck)]
      exact hbalanced
    · exact hslots slot hslot (dataHeld_eq_nil_iff.mpr (hcleared (hlive hnot)))

theorem Accounted.pass {s : Server} (h : Accounted s) {i : ℕ} {c : ClientRecord}
    (hi : s.clients[i]? = some (some c)) (hstuck : s.stuck = false) (env : PassEnv) :
    Accounted (s.pass i c env) := by
  have hlocals : (s.service c).mem.locals = [] := h.locals hstuck
  have hdata : (s.service c).task.conn.dataBuff = none :=
    dataHeld_eq_nil_iff.mp (h.idle hstuck _ (List.mem_of_getElem? hi))
  have howns : Owns (s.service c) [] := by
    have hbalanced := h.balanced
    rw [h.held_eq_nil hstuck] at hbalanced
    unfold Owns ServiceState.held
    rw [dataHeld_eq_nil_iff.mpr hdata, hlocals]
    exact hbalanced
  have htask := task_servicePass env (s.service c) fun _ => hdata
  refine h.after hstuck (List.getElem?_eq_some_iff.mp hi).1 (howns.pass_ended hlocals hdata) ?_ ?_
  · intro hflag
    have hmarked : (s.service c).task.conn.connectionDestructFlag = true := hflag
    refine ⟨howns.pass_locals hlocals (Or.inr hmarked), ?_⟩
    rw [htask, servePass_marked hmarked]
    split <;> exact hdata
  · rw [htask]
    exact servePass_cleared hdata

theorem Accounted.step {s : Server} (h : Accounted s) (e : ServerEvent) :
    Accounted (serverStep s e) := by
  cases e with
  | admission i sock old optionsSet stream dataBlock =>
    unfold serverStep
    dsimp only
    split
    · next hi =>
      split
      · exact h
      · refine h.replace hi (dataHeld_eq_nil_iff.mpr ?_)
        unfold TaskState.start
        cases optionsSet <;> rfl
    · exact h
  | pass i env =>
    unfold serverStep
    dsimp only
    split
    · next c hi =>
      split
      · exact h
      · next hstuck => exact h.pass hi (Bool.eq_false_iff.mpr hstuck) env
    · exact h
  | timeout i =>
    unfold serverStep
    dsimp only
    split
    · next c hi =>
      refine h.replace hi ?_
      show dataHeld (c.task.expireIf true).conn c.dataBlock = dataHeld c.task.conn c.dataBlock
      unfold dataHeld
      rw [conn_expireIf]
    · exact h

theorem accounted_start (n : ℕ) (img : List UInt8) (initDone : Bool) :
    Accounted (Server.start n img initDone) := by
  have hidle : ∀ slot ∈ List.replicate n (none : Option ClientRecord),
      Server.slotHeld slot = [] := by
    intro slot hslot
    rw [List.eq_of_mem_replicate hslot]
    rfl
  refine ⟨?_, fun _ => rfl, fun _ => hidle⟩
  unfold Server.held
  show Balanced Ledger.empty ((List.replicate n none).flatMap Server.slotHeld ++ [])
  rw [List.flatMap_eq_nil_iff.mpr hidle]
  exact balanced_empty

/-- A pass frees each of the blocks that it allocates exactly once, or the record or a local
pointer of a pass that is not over refers to it; and in every run of the task every block is freed
exactly once or referred to exactly once. -/
theorem memory_balanced :
    (∀ (env : PassEnv) (s : ServiceState) (others : List ℕ), s.mem.locals = [] →
      Owns s others → BlocksSettled s (servicePass env s) ∧
        ((servicePass env s).task.live = true ∨ s.task.conn.connectionDestructFlag = true →
          (servicePass env s).mem.locals = [])) ∧
    ∀ (n : ℕ) (img : List UInt8) (initDone : Bool) (es : List ServerEvent),
      Lib.Always serverStep Accounted (Server.start n img initDone) es := by
  constructor
  · intro env s others hidle howns
    exact ⟨howns.pass_blocksSettled hidle, howns.pass_locals hidle⟩
  · intro n img initDone es
    exact always_of_step (J := Accounted) (fun _ e h => h.step e) (accounted_start n img initDone) es


/-- A peer that closes the connection at once costs the head buffer, which is freed. -/
theorem memory_balanced_remoteClose :
    (servicePass { PassEnv.arriving 0 none with head := [.closed] }
      ⟨.start 5 Conn.fresh true [] [] true, 0, ⟨none, none, Ledger.empty⟩⟩).mem.ledger.next = 1 ∧
    BlocksSettled ⟨.start 5 Conn.fresh true [] [] true, 0, ⟨none, none, Ledger.empty⟩⟩
      (servicePass { PassEnv.arriving 0 none with head := [.closed] }
        ⟨.start 5 Conn.fresh true [] [] true, 0, ⟨none, none, Ledger.empty⟩⟩) :=
  ⟨rfl, (memory_balanced.1 _ ⟨.start 5 Conn.fresh true [] [] true, 0, ⟨none, none, Ledger.empty⟩⟩ []
    rfl balanced_empty).1⟩

end WLink.Httpd
