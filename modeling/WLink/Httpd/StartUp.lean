import WLink.Lib.Exec

/-!
# The start of the server

What `HTTP_Server_Task` does before its first `accept`. `HTTP_WebSocket_Server_Socket` is the
server's socket and at the same time the guard that keeps a second task from starting, so an exit
that leaves a descriptor in it keeps every later task from starting, too.

* `httpServerTask` -- the task up to its loop
* `httpdInit` -- `HTTPd_Init`, without the look at the web image, whose result it only prints
* `Retryable` -- what a start that fails has to leave behind
-/

namespace WLink.Httpd

open WLink.Lib Exec

/-! ## State -/

/-- A call of the start. -/
inductive StartCall
  | socket
  | setsockopt
  | bind
  | listen
  | fcntlGetFl
  | fcntlSetFl
deriving DecidableEq, Repr

/-- A handle of a task; `none` is the NULL that stands for the calling task. -/
abbrev TaskHandle := Option ℕ

structure ServerState where
  /-- `HTTP_WebSocket_Server_Socket` -/
  serverSocket : ℤ
  /-- The sockets that have been opened and not closed. -/
  openSockets : List ℤ
  /-- The calls on the socket so far. -/
  calls : List StartCall
  /-- The server tasks that have been created. -/
  tasks : ℕ
  /-- The handles that `vTaskDelete` has been called with. -/
  deleted : List TaskHandle
deriving DecidableEq, Repr

/-- The state after reset. -/
def ServerState.reset : ServerState := ⟨-1, [], [], 0, []⟩

/-- The results of the calls of one start. `socket` gives a descriptor or fails. -/
structure StartEnv where
  socket : Option ℕ
  bind : ℤ
  listen : ℤ
  fcntlGetFl : ℤ
  fcntlSetFl : ℤ
deriving DecidableEq, Repr

/-- The result of `socket`. -/
def StartEnv.descriptor (env : StartEnv) : ℤ :=
  match env.socket with
  | some fd => fd
  | none => -1

/-- One of the calls that are looked at fails. -/
def StartEnv.Fails (env : StartEnv) : Prop :=
  env.socket = none ∨ env.bind < 0 ∨ env.listen < 0 ∨ env.fcntlGetFl < 0 ∨ env.fcntlSetFl < 0

instance (env : StartEnv) : Decidable env.Fails := inferInstanceAs (Decidable (_ ∨ _))

/-! ## The task -/

/-- `NeonRTOS_TaskDelete`, which reads the handle that its argument points to. -/
def neonRtosTaskDelete (pTaskHandle : Option TaskHandle) : Exec ServerState Unit :=
  match pTaskHandle with
  | none => Exec.lift (.error .read)
  | some taskHandle => Exec.update fun s => { s with deleted := s.deleted ++ [taskHandle] }

/-- A call on the server's socket. -/
def startCall (call : StartCall) (ret : ℤ) : Exec ServerState ℤ := do
  Exec.update fun s => { s with calls := s.calls ++ [call] }
  pure ret

/-- `close(HTTP_WebSocket_Server_Socket)` -/
def closeServerSocket : Exec ServerState Unit :=
  Exec.update fun s => { s with openSockets := s.openSockets.erase s.serverSocket }

/-- `HTTP_Server_Task` up to its loop: whether the loop is reached. -/
def httpServerTask (env : StartEnv) : Exec ServerState Bool := do
  if (← Exec.view ServerState.serverSocket) ≥ 0 then
    neonRtosTaskDelete none
    return false
  let fd ← startCall .socket env.descriptor
  Exec.update fun s => { s with serverSocket := fd }
  if fd < 0 then
    neonRtosTaskDelete none
    return false
  Exec.update fun s => { s with openSockets := fd :: s.openSockets }
  let _ ← startCall .setsockopt 0
  let ret ← startCall .bind env.bind
  if ret < 0 then
    closeServerSocket
    neonRtosTaskDelete none
    return false
  let ret ← startCall .listen env.listen
  if ret < 0 then
    closeServerSocket
    neonRtosTaskDelete none
    return false
  let ret ← startCall .fcntlGetFl env.fcntlGetFl
  if ret < 0 then
    closeServerSocket
    neonRtosTaskDelete none
    return false
  let ret ← startCall .fcntlSetFl env.fcntlSetFl
  if ret < 0 then
    closeServerSocket
    neonRtosTaskDelete none
    return false
  return true

/-- `HTTPd_Init`, with whether `NeonRTOS_TaskCreate` succeeds. -/
def httpdInit (created : Bool) : Exec ServerState ℤ := do
  if created then
    Exec.update fun s => { s with tasks := s.tasks + 1 }
    pure 0
  else pure (-1)

/-! ## What a start is for -/

/-- A later `HTTPd_Init` starts a task that makes all the calls of a start, and reaches its loop if
they succeed. -/
def StartsAgain (s : ServerState) : Prop :=
  ∀ env : StartEnv, ¬ env.Fails →
    ∃ s', exec (httpdInit true >>= fun _ => httpServerTask env) s = (.ok true, s') ∧
      s'.tasks = s.tasks + 1 ∧
      s'.calls = s.calls ++ [.socket, .setsockopt, .bind, .listen, .fcntlGetFl, .fcntlSetFl]

/-- The start ends the task and nothing else, and is as if it had not been. -/
structure Retryable (env : StartEnv) (s : ServerState) : Prop where
  ends : (exec (httpServerTask env) s).1 = .ok false
  deletes : (exec (httpServerTask env) s).2.deleted = s.deleted ++ [none]
  closes : (exec (httpServerTask env) s).2.openSockets = s.openSockets
  resets : (exec (httpServerTask env) s).2.serverSocket = -1
  startsAgain : StartsAgain (exec (httpServerTask env) s).2

/-! ## The exits -/

/-- The calls that a start makes. -/
def StartEnv.made (env : StartEnv) : List StartCall :=
  if env.socket = none then [.socket]
  else if env.bind < 0 then [.socket, .setsockopt, .bind]
  else if env.listen < 0 then [.socket, .setsockopt, .bind, .listen]
  else if env.fcntlGetFl < 0 then [.socket, .setsockopt, .bind, .listen, .fcntlGetFl]
  else [.socket, .setsockopt, .bind, .listen, .fcntlGetFl, .fcntlSetFl]

/-- An exit does not get behind its `NeonRTOS_TaskDelete(NULL)`. -/
@[simp] theorem exec_taskDelete_null (s : ServerState) :
    exec ((fun _ => false) <$> neonRtosTaskDelete none) s = (.error .read, s) := rfl

/-- Behind the guard every start that fails reads through the NULL pointer. It has closed what it
has opened, and leaves the descriptor in the variable. -/
theorem exec_httpServerTask_of_fails {env : StartEnv} {s : ServerState} (hs : s.serverSocket < 0)
    (hfails : env.Fails) :
    exec (httpServerTask env) s =
      (.error .read, { s with serverSocket := env.descriptor, calls := s.calls ++ env.made }) := by
  have hguard : ¬ s.serverSocket ≥ 0 := by omega
  unfold httpServerTask
  rw [exec_bind_ok (exec_view _ s), exec_ite, if_neg hguard]
  cases hsocket : env.socket with
  | none => simp [exec_bind, startCall, StartEnv.descriptor, StartEnv.made,
      hsocket]
  | some fd =>
    have hfd : ¬ ((fd : ℤ) < 0) := by omega
    have hrest : env.bind < 0 ∨ env.listen < 0 ∨ env.fcntlGetFl < 0 ∨ env.fcntlSetFl < 0 := by
      simpa [StartEnv.Fails, hsocket] using hfails
    by_cases hbind : env.bind < 0
    · simp [exec_bind, startCall, closeServerSocket, StartEnv.descriptor,
        StartEnv.made, hsocket, hfd, hbind]
    by_cases hlisten : env.listen < 0
    · simp [exec_bind, startCall, closeServerSocket, StartEnv.descriptor,
        StartEnv.made, hsocket, hfd, hbind, hlisten]
    by_cases hget : env.fcntlGetFl < 0
    · simp [exec_bind, startCall, closeServerSocket, StartEnv.descriptor,
        StartEnv.made, hsocket, hfd, hbind, hlisten, hget]
    have hset : env.fcntlSetFl < 0 := by tauto
    simp [exec_bind, startCall, closeServerSocket, StartEnv.descriptor,
      StartEnv.made, hsocket, hfd, hbind, hlisten, hget, hset]

/-- A start that succeeds reaches the loop with the server's socket. -/
theorem exec_httpServerTask_of_not_fails {env : StartEnv} {s : ServerState}
    (hs : s.serverSocket < 0) (hfails : ¬ env.Fails) :
    exec (httpServerTask env) s =
      (.ok true, { s with
        serverSocket := env.descriptor
        openSockets := env.descriptor :: s.openSockets
        calls := s.calls ++ env.made }) := by
  have hguard : ¬ s.serverSocket ≥ 0 := by omega
  unfold StartEnv.Fails at hfails
  push Not at hfails
  obtain ⟨hsocket, hbind, hlisten, hget, hset⟩ := hfails
  obtain ⟨fd, hfd⟩ := Option.ne_none_iff_exists'.mp hsocket
  have hpos : ¬ ((fd : ℤ) < 0) := by omega
  have hreached : ∀ f (t : ServerState),
      exec ((fun _ => true) <$> (Exec.update f : Exec ServerState Unit)) t = (.ok true, f t) :=
    fun _ _ => rfl
  unfold httpServerTask
  rw [exec_bind_ok (exec_view _ s), exec_ite, if_neg hguard]
  simp [exec_bind, startCall, StartEnv.descriptor, StartEnv.made, hreached, hfd, hpos, Int.not_lt.mpr hbind,
    Int.not_lt.mpr hlisten, Int.not_lt.mpr hget, Int.not_lt.mpr hset]

/-- With a descriptor in the variable no call is made. -/
theorem exec_httpServerTask_of_guard {env : StartEnv} {s : ServerState}
    (hs : 0 ≤ s.serverSocket) : exec (httpServerTask env) s = (.error .read, s) := by
  unfold httpServerTask
  rw [exec_bind_ok (exec_view _ s), exec_ite, if_pos hs]
  rfl

/-- A server can be started exactly if no descriptor is in the variable. -/
theorem startsAgain_iff (s : ServerState) : StartsAgain s ↔ s.serverSocket < 0 := by
  have hinit : exec (httpdInit true) s = (.ok 0, { s with tasks := s.tasks + 1 }) := rfl
  constructor
  · intro h
    by_contra hguard
    obtain ⟨s', hexec, -⟩ := h ⟨some 0, 0, 0, 0, 0⟩ (by decide)
    rw [exec_bind_ok hinit, exec_httpServerTask_of_guard
      (s := { s with tasks := s.tasks + 1 }) (Int.not_lt.mp hguard)] at hexec
    cases hexec
  · intro hs env hfails
    rw [exec_bind_ok hinit]
    refine ⟨_, exec_httpServerTask_of_not_fails hs hfails, rfl, ?_⟩
    unfold StartEnv.Fails at hfails
    push Not at hfails
    obtain ⟨hsocket, hbind, hlisten, hget, -⟩ := hfails
    simp [StartEnv.made, hsocket, Int.not_lt.mpr hbind, Int.not_lt.mpr hlisten,
      Int.not_lt.mpr hget]

/-- Of the starts that fail, those leave a state from which a server can be started whose `socket`
has failed. -/
theorem startsAgain_of_fails_iff {env : StartEnv} {s : ServerState} (hs : s.serverSocket < 0)
    (hfails : env.Fails) :
    StartsAgain (exec (httpServerTask env) s).2 ↔ env.socket = none := by
  rw [startsAgain_iff, exec_httpServerTask_of_fails hs hfails]
  unfold StartEnv.descriptor
  cases env.socket with
  | none => simp
  | some fd => simp

/-- No start that fails is retryable: the task does not get as far as deleting itself. -/
theorem not_retryable_of_fails (env : StartEnv) (s : ServerState) (hs : s.serverSocket < 0)
    (hfails : env.Fails) : ¬ Retryable env s := by
  intro h
  have hends := h.ends
  rw [exec_httpServerTask_of_fails hs hfails] at hends
  cases hends

/-- `socket` fails. -/
theorem not_retryable_socket : ¬ Retryable ⟨none, 0, 0, 0, 0⟩ .reset :=
  not_retryable_of_fails _ _ (by decide) (by decide)

/-- `bind` fails: a descriptor is left in the variable, and no server can be started any more. -/
theorem not_retryable_bind : ¬ Retryable ⟨some 3, -1, 0, 0, 0⟩ .reset := by
  intro h
  exact absurd h.resets (by decide)

end WLink.Httpd
