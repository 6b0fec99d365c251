import WLink.Httpd.Dispatch
import WLink.Httpd.HeadLoop
import WLink.Httpd.Websocket
import WLink.Httpd.Admission

/-!
# The server task

What `HTTP_Server_Task` does for one connection, from its admission until its record is given
back: pass after pass, with the timeout of its timer anywhere between two passes. What the
surroundings answer in a pass is a `PassEnv`; besides the connection the state has what the
client will still send, how much of it has been taken, and logs of what was done.

* `servePass` -- one pass over the connection
* `taskStep` -- a pass or the timeout
* `parseRequest`, `receiveRequest`, `answerRequest` -- what follows a complete head
-/

namespace WLink.Httpd

open WLink.Lib Exec

/-! ## Timer -/

/-- The timer of the connection is running. -/
def Conn.armed (c : Conn) : Bool := (c.connectionTimeoutTimer.map ConnTimer.armed).getD false

/-- `NeonRTOS_TimerChangePeriod`, which also starts the timer. With a period of 0 the assertion of
the timer daemon fails before the timer is put into its list. -/
def Conn.changePeriod (c : Conn) (periodMs : ℕ) : Conn :=
  { c with connectionTimeoutTimer :=
    c.connectionTimeoutTimer.map fun _ => ⟨periodMs ≠ 0, periodMs⟩ }

/-- `HTTPd_Connection_Timeout_CB` on the connection that the timer belongs to. -/
def Conn.expire (c : Conn) : Conn :=
  if c.armed then { c.timerStop with connectionDestructFlag := true } else c

/-! ## Surroundings -/

/-- A CGI callback. To callbacks the record is an incomplete type, which the functions of
`HTTPd.h` only read; what they do is send. -/
structure CgiCallback where
  run : Http ℤ
  keeps_conn : Keeps HttpState.conn run
  sends : ∀ s, s.events <+: (exec run s).2.events

/-- What the surroundings of one pass are: whether there is memory for `http_cmd_buf`, the
results of `recv` in the head loop, whether the timer expires in that loop, the block for the
body and the results of `recv` in the body loop, what answers a request, and the surroundings of
a WebSocket pass. -/
structure PassEnv where
  cmdBuf : Bool
  head : List RecvResult
  expires : Bool
  body : Option (List UInt8)
  bodyRecvs : List RecvResult
  io : Io
  urls : UrlTables
  callbacks : ℕ → CgiCallback
  ws : WsEnv

def PassEnv.handlers (env : PassEnv) : Handlers := fun cgi => (env.callbacks cgi).run

/-! ## State -/

/-- A connection and what has been done for it. -/
structure TaskState where
  conn : Conn
  /-- The bytes that the client sends and the socket has not given out yet. -/
  stream : List UInt8
  /-- How many bytes the socket has given out. -/
  taken : ℕ
  img : List UInt8
  initDone : Bool
  http : List HttpEvent
  ws : List WsEvent
  /-- Where the byte ranges start that `HTTPd_Parse_InMsg_Headers` got. -/
  parses : List ℕ
  /-- The connection as it was when a loop around `recv` was entered. -/
  waits : List Conn
  /-- There is a next pass: the record has not been given back, and the task has neither left
  the defined behaviour nor is it still in a loop for this connection. -/
  live : Bool

namespace TaskState

def stop (s : TaskState) : TaskState := { s with live := false }

def setConn (s : TaskState) (conn : Conn) : TaskState := { s with conn }

def destruct (s : TaskState) : TaskState :=
  s.setConn { s.conn with connectionDestructFlag := true }

/-- The timer may expire. -/
def expireIf (s : TaskState) (expires : Bool) : TaskState :=
  if expires then s.setConn s.conn.expire else s

/-- Enter a loop around `recv`. Nothing in the loops touches the timer. -/
def wait (s : TaskState) : TaskState := { s with waits := s.waits ++ [s.conn] }

/-- The socket has given out everything in front of `rest`. -/
def takeTo (s : TaskState) (rest : List UInt8) : TaskState :=
  { s with stream := rest, taken := s.taken + (s.stream.length - rest.length) }

end TaskState

/-! ## Requests -/

/-- The dispatch of a request. -/
def answerRequest (env : PassEnv) (mem : List UInt8) (s : TaskState) : TaskState :=
  let out := exec (dispatch env.io env.urls env.handlers) ⟨s.img, s.initDone, s.conn, mem, s.http⟩
  let s' : TaskState :=
    { s with
      img := out.2.img
      initDone := out.2.initDone
      conn := out.2.conn
      http := out.2.events }
  match out.1 with
  | .ok () => s'
  | .error _ => s'.stop

/-- A request whose body is received into memory of its own. -/
def HasBody (c : Conn) : Prop := 0 < c.dataLen ∧ c.dataLen ≤ 4096

instance (c : Conn) : Decidable (HasBody c) := inferInstanceAs (Decidable (_ ∧ _))

/-- The body, and the dispatch behind it. Without memory for the body the pass ends. -/
def receiveRequest (env : PassEnv) (mem : List UInt8) (s : TaskState) : TaskState :=
  let s := if HasBody s.conn ∧ env.body.isSome then s.wait else s
  let out := receiveBody env.body env.bodyRecvs s.conn s.stream
  let s := (s.setConn out.2.1).takeTo out.2.2
  match out.1 with
  | .error _ => s.stop
  | .ok .waiting => s.stop
  | .ok .noMemory => s
  | .ok .clientClose => s
  | .ok .received => answerRequest env mem s

/-- A head that is complete. What the parser returns is not looked at. -/
def parseRequest (env : PassEnv) (start : ℕ) (cmdBuf : List UInt8) (s : TaskState) : TaskState :=
  let s := { s.setConn s.conn.timerStop with parses := s.parses ++ [start] }
  let out := exec parseInMsgHeaders (.start s.conn cmdBuf)
  match out.1 with
  | .error _ => s.stop
  | .ok _ => receiveRequest env out.2.mem (s.setConn (out.2.periods.foldl Conn.changePeriod out.2.conn))

/-! ## Passes -/

/-- A pass over a connection that has not become a WebSocket. -/
def serveHttp (env : PassEnv) (s : TaskState) : TaskState :=
  if env.cmdBuf then
    let out := headLoop env.head (.start s.stream)
    let s' := s.wait.takeTo out.2.stream
    match out.1 with
    | .error _ => s'.stop
    | .ok .waiting => s'.stop
    | .ok .clientClose => s'.destruct
    | .ok .bufferFull => s'.expireIf env.expires
    | .ok (.complete _) => parseRequest env s.taken out.2.cmdBuf (s'.expireIf env.expires)
  else s

/-- A pass over a WebSocket. -/
def serveWebsocket (env : PassEnv) (s : TaskState) : TaskState :=
  let out := wsPass ⟨s.conn, s.stream, s.ws⟩ env.ws
  { (s.wait.setConn out.conn).takeTo out.stream with ws := out.log }

/-- One pass. The record of a connection that is marked is given back. -/
def servePass (env : PassEnv) (s : TaskState) : TaskState :=
  if s.live = false then s
  else if s.conn.connectionDestructFlag then s.stop
  else if s.conn.websocketClient then serveWebsocket env s
  else serveHttp env s

/-- What happens to a connection. -/
inductive TaskEvent
  | pass (env : PassEnv)
  | timeout

def taskStep (s : TaskState) : TaskEvent → TaskState
  | .pass env => servePass env s
  | .timeout => s.expireIf true

/-- A connection that has just been admitted, with a record in memory with old contents. If one of
the socket options cannot be set, the connection is marked and its timer not started. -/
def TaskState.start (sock : ℤ) (old : Conn) (optionsSet : Bool) (stream img : List UInt8)
    (initDone : Bool) : TaskState where
  conn :=
    if optionsSet then (admitted sock old).timerReStart
    else { admitted sock old with connectionDestructFlag := true }
  stream := stream
  taken := 0
  img := img
  initDone := initDone
  http := []
  ws := []
  parses := []
  waits := []
  live := true

end WLink.Httpd
