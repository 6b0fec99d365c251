import WLink.Lib.Heap
import WLink.Httpd.Task

/-!
# The memory of the server task

The passes of `Httpd.Task` once more, now with the heap blocks: `HTTP_Server_Task` allocates the
buffer for a head, the buffer for a frame and the block for a body, and has to give each of them
back at every `continue` behind it. `mem_Malloc` and `mem_Free` are written to a `Ledger`;
`task_servicePass` says that the passes are otherwise those of `Httpd.Task`.

* `servicePass` -- one pass over one connection
* `serverStep` -- a step of the task over all its connections
-/

namespace WLink.Httpd

open WLink.Lib Exec

/-! ## State -/

/-- The pointers that are local to a pass, and the heap. -/
structure TaskMemory where
  httpCmdBuf : Option ℕ
  webSocketServerDataBuf : Option ℕ
  ledger : Ledger

namespace TaskMemory

/-- The blocks behind the local pointers. -/
def locals (m : TaskMemory) : List ℕ := m.httpCmdBuf.toList ++ m.webSocketServerDataBuf.toList

def mallocCmdBuf (m : TaskMemory) : TaskMemory :=
  { m with httpCmdBuf := some m.ledger.next, ledger := m.ledger.malloc }

def mallocWebSocketServerDataBuf (m : TaskMemory) : TaskMemory :=
  { m with webSocketServerDataBuf := some m.ledger.next, ledger := m.ledger.malloc }

/-- `mem_Free`, which does nothing for `NULL`. -/
def memFree (m : TaskMemory) (p : Option ℕ) : TaskMemory :=
  match p with
  | none => m
  | some b => { m with ledger := m.ledger.free b }

/-- `mem_Free(http_cmd_buf)`. The pointer keeps its value. -/
def freeCmdBuf (m : TaskMemory) : TaskMemory := m.memFree m.httpCmdBuf

/-- `mem_Free(WebSocketServerDataBuf)`. -/
def freeWebSocketServerDataBuf (m : TaskMemory) : TaskMemory :=
  m.memFree m.webSocketServerDataBuf

/-- The end of a pass, where the local pointers go out of scope. -/
def leave (m : TaskMemory) : TaskMemory :=
  { m with httpCmdBuf := none, webSocketServerDataBuf := none }

end TaskMemory

/-- A connection that the task works on. `dataBlock` is the block behind `data_buff`, if that is
not `NULL`. -/
structure ServiceState where
  task : TaskState
  dataBlock : ℕ
  mem : TaskMemory

/-- The block that the record of a connection refers to. -/
def dataHeld (c : Conn) (dataBlock : ℕ) : List ℕ := if c.dataBuff.isSome then [dataBlock] else []

namespace ServiceState

variable (s : ServiceState)

/-- All blocks that the record and the local pointers refer to. -/
def held : List ℕ := dataHeld s.task.conn s.dataBlock ++ s.mem.locals

def onTask (f : TaskState → TaskState) : ServiceState := { s with task := f s.task }

def onMem (f : TaskMemory → TaskMemory) : ServiceState := { s with mem := f s.mem }

/-- `mem_Malloc` for the body. -/
def mallocDataBuff (old : List UInt8) : ServiceState where
  task := s.task.setConn { s.task.conn with dataBuff := some old }
  dataBlock := s.mem.ledger.next
  mem := { s.mem with ledger := s.mem.ledger.malloc }

/-- `mem_Free(data_buff)`, if there is one. -/
def freeDataBuff : ServiceState :=
  if s.task.conn.dataBuff.isSome then
    { s with
      task := s.task.setConn { s.task.conn with isLargeData := false, dataBuff := none }
      mem := s.mem.memFree (some s.dataBlock) }
  else s

end ServiceState

/-! ## Requests -/

/-- The methods and the callback that is left behind them. -/
def dispatchRequest (io : Io) (urls : UrlTables) (handlers : Handlers) : Http ℤ := do
  let r ← processRequest io urls handlers
  runLeftCgi handlers
  pure r

/-- The dispatch of a request, and what is freed behind it. -/
def serviceAnswer (env : PassEnv) (mem : List UInt8) (s : ServiceState) : ServiceState :=
  let t := s.task
  let out := exec (dispatchRequest env.io env.urls env.handlers)
    ⟨t.img, t.initDone, t.conn, mem, t.http⟩
  let s := s.onTask fun t =>
    { t with img := out.2.img, initDone := out.2.initDone, conn := out.2.conn,
             http := out.2.events }
  match out.1 with
  | .error _ => s.onTask .stop
  | .ok r =>
    let s := s.freeDataBuff
    if r = httpdCgiDone then
      let s := s.onTask fun t => t.setConn t.conn.timerStop
      ((s.onMem .freeCmdBuf).onTask .destruct).onMem .leave
    else (s.onMem .freeCmdBuf).onMem .leave

/-- What follows the body loop. -/
def leaveBody (env : PassEnv) (mem : List UInt8) (s : ServiceState)
    (out : Except Fault BodyExit × BodyState) : ServiceState :=
  let s := s.onTask fun t =>
    (t.setConn { t.conn with dataBuff := some out.2.dataBuff }).takeTo out.2.stream
  match out.1 with
  | .ok .clientClose => ((s.freeDataBuff.onMem .freeCmdBuf).onTask .destruct).onMem .leave
  | .ok .received => serviceAnswer env mem s
  | .ok .noMemory => s
  | .ok .waiting => s.onTask .stop
  | .error _ => s.onTask .stop

/-- The body of a request. -/
def serviceBody (env : PassEnv) (mem : List UInt8) (s : ServiceState) : ServiceState :=
  let c := s.task.conn
  if c.dataLen = 0 then serviceAnswer env mem s
  else if 4096 < c.dataLen then
    serviceAnswer env mem (s.onTask (·.setConn { c with isLargeData := true }))
  else
    match env.body with
    | none =>
      let s := s.onTask (·.setConn { c with dataBuff := none })
      (s.onMem .freeCmdBuf).onMem .leave
    | some old =>
      leaveBody env mem ((s.onTask .wait).mallocDataBuff old)
        (bodyLoop c.dataLen env.bodyRecvs ⟨old, 0, s.task.stream⟩)

/-- A head that is complete. The parser may set `data_buff` to `NULL`. -/
def serviceRequest (env : PassEnv) (start : ℕ) (cmdBuf : List UInt8) (s : ServiceState) :
    ServiceState :=
  let s := s.onTask fun t => { t.setConn t.conn.timerStop with parses := t.parses ++ [start] }
  let out := exec parseInMsgHeaders (.start s.task.conn cmdBuf)
  match out.1 with
  | .error _ => s.onTask .stop
  | .ok _ =>
    serviceBody env out.2.mem
      (s.onTask (·.setConn (out.2.periods.foldl Conn.changePeriod out.2.conn)))

/-! ## Passes -/

/-- A pass over a connection that has not become a WebSocket. -/
def serviceHttp (env : PassEnv) (s : ServiceState) : ServiceState :=
  if env.cmdBuf then
    let out := headLoop env.head (.start s.task.stream)
    let start := s.task.taken
    let s := (s.onMem .mallocCmdBuf).onTask fun t => t.wait.takeTo out.2.stream
    match out.1 with
    | .error _ => s.onTask .stop
    | .ok .waiting => s.onTask .stop
    | .ok .clientClose => ((s.onMem .freeCmdBuf).onTask .destruct).onMem .leave
    | .ok .bufferFull =>
      ((s.onTask (·.expireIf env.expires)).onMem .freeCmdBuf).onMem .leave
    | .ok (.complete _) =>
      serviceRequest env start out.2.cmdBuf (s.onTask (·.expireIf env.expires))
  else s

/-- `handleWsFrame` with the buffer given back at each of its exits. -/
def serviceWsFrame (s : WsState) (m : TaskMemory) (frame : WsFrame) (n : ℕ) (buf : List UInt8) :
    WsState × TaskMemory :=
  if httpWsServerDatBufSize < n then (s.destruct, m.freeWebSocketServerDataBuf.leave)
  else
    let buf := buf.set n 0
    let s := { s with conn := s.conn.timerStop }
    let buf := if frame.isMasked ≠ 0 then unmaskWsPayload buf (recDatLen frame) frame.maskingKey
      else buf
    if frame.opcode = opcodePing then
      let s := s.sendPong (buf.take (recDatLen frame))
      ({ s with conn := s.conn.timerReStart }, m.freeWebSocketServerDataBuf.leave)
    else if frame.opcode = opcodeClose then (s.destruct, m.freeWebSocketServerDataBuf.leave)
    else
      let s := if 0 < recDatLen frame then { s with log := s.log ++ [.message frame buf] } else s
      ({ s with conn := s.conn.timerReStart }, m.freeWebSocketServerDataBuf.leave)

/-- `receiveWsPayload` with the buffer given back at each of its exits. -/
def serviceWsPayload (s : WsState) (m : TaskMemory) (frame : WsFrame) (r : RecvResult)
    (buf : List UInt8) : WsState × TaskMemory :=
  match r with
  | .failed none _ => (s.destruct, m.freeWebSocketServerDataBuf.leave)
  | .failed (some _) destructFlag =>
    -- both with `EAGAIN` and with other errors
    ({ s with conn :=
        { s.conn with connectionDestructFlag := s.conn.connectionDestructFlag || destructFlag } },
      m.freeWebSocketServerDataBuf.leave)
  | r =>
    let (ret, buf, stream) := recvInto r buf s.stream
    let s := { s with stream := stream }
    if ret = 0 then (s.destruct, m.freeWebSocketServerDataBuf.leave)
    else serviceWsFrame s m frame ret.toNat buf

/-- `wsPass` with the buffer for the payload. -/
def serviceWs (s : WsState) (m : TaskMemory) (env : WsEnv) : WsState × TaskMemory :=
  if s.conn.connectionDestructFlag then (s, m)
  else
    let (ret, frame, stream) := receiveWsFrame s.conn env s.stream
    let s := { s with stream := stream }
    if ret < 0 then (s, m)
    else if frame.payloadLength = 0 then (s, m)
    else
      match env.block with
      | none => (s, m)
      | some buf => serviceWsPayload s m.mallocWebSocketServerDataBuf frame env.payload buf

/-- A pass over a WebSocket. -/
def serviceWebsocket (env : PassEnv) (s : ServiceState) : ServiceState :=
  let out := serviceWs ⟨s.task.conn, s.task.stream, s.task.ws⟩ s.mem env.ws
  let task := (s.task.wait.setConn out.1.conn).takeTo out.1.stream
  { s with task := { task with ws := out.1.log }, mem := out.2 }

/-- One pass. The record of a connection that is marked is given back, the body before it. -/
def servicePass (env : PassEnv) (s : ServiceState) : ServiceState :=
  if s.task.live = false then s
  else if s.task.conn.connectionDestructFlag then s.freeDataBuff.onTask .stop
  else if s.task.conn.websocketClient then serviceWebsocket env s
  else serviceHttp env s

/-! ## The task over all connections -/

/-- A record in the list of the task's connections. -/
structure ClientRecord where
  task : TaskState
  dataBlock : ℕ

/-- The task between two passes: its connections, with `none` for a `NULL`, the file system, which
the connections share, and its memory. A task that is stuck is still in a loop of the last pass,
or that pass left the defined behaviour. -/
structure Server where
  clients : List (Option ClientRecord)
  img : List UInt8
  initDone : Bool
  mem : TaskMemory
  stuck : Bool

namespace Server

/-- The task before the first connection, with room for `n` of them. -/
def start (n : ℕ) (img : List UInt8) (initDone : Bool) : Server :=
  ⟨List.replicate n none, img, initDone, ⟨none, none, Ledger.empty⟩, false⟩

/-- The block that a slot refers to. -/
def slotHeld : Option ClientRecord → List ℕ
  | none => []
  | some c => dataHeld c.task.conn c.dataBlock

/-- All blocks that the records and the local pointers refer to. -/
def held (s : Server) : List ℕ := s.clients.flatMap slotHeld ++ s.mem.locals

/-- What a pass over `c` works on. -/
def service (s : Server) (c : ClientRecord) : ServiceState :=
  ⟨{ c.task with img := s.img, initDone := s.initDone }, c.dataBlock, s.mem⟩

/-- The slot behind a pass over `c`. -/
def slotAfter (c : ClientRecord) (t : ServiceState) : Option ClientRecord :=
  if c.task.conn.connectionDestructFlag then none else some ⟨t.task, t.dataBlock⟩

/-- A pass over the connection `c` in slot `i`. -/
def pass (s : Server) (i : ℕ) (c : ClientRecord) (env : PassEnv) : Server :=
  let t := servicePass env (s.service c)
  { clients := s.clients.set i (slotAfter c t)
    img := t.task.img
    initDone := t.task.initDone
    mem := t.mem
    stuck := !t.task.live && !c.task.conn.connectionDestructFlag }

end Server

/-- A connection is put into a free slot, in a record with old contents; a connection is served;
its timer expires. -/
inductive ServerEvent
  | admission (i : ℕ) (sock : ℤ) (old : Conn) (optionsSet : Bool) (stream : List UInt8)
      (dataBlock : ℕ)
  | pass (i : ℕ) (env : PassEnv)
  | timeout (i : ℕ)

def serverStep (s : Server) : ServerEvent → Server
  | .admission i sock old optionsSet stream dataBlock =>
    match s.clients[i]? with
    | some none =>
      if s.stuck then s
      else
        let task := TaskState.start sock old optionsSet stream s.img s.initDone
        { s with clients := s.clients.set i (some ⟨task, dataBlock⟩) }
    | _ => s
  | .pass i env =>
    match s.clients[i]? with
    | some (some c) => if s.stuck then s else s.pass i c env
    | _ => s
  | .timeout i =>
    match s.clients[i]? with
    | some (some c) =>
      { s with clients := s.clients.set i (some { c with task := c.task.expireIf true }) }
    | _ => s

end WLink.Httpd
