import WLink.Httpd.Utils

/-!
# Parsing a request head

`HTTPd_Parse_InMsg_Headers`, which fills the connection record from a request head and cuts the
head into strings by NULs that it stores into it, and `WebSocketServer_CreateAcceptKey`, which
takes up the key that it found. Both copy parts of the head into buffers of a fixed size; the
state has a log of these copies.

* `parseRequestLine` -- method, URL and arguments
* `parseUpgrade` -- the headers of a WebSocket handshake
* `parseKeepAlive`, `parseContentLength`, `parseAcceptEncoding` -- the other headers
* `parseInMsgHeaders` -- all of it
* `createAcceptKey` -- the concatenation of key and UUID
-/

namespace WLink.Httpd

open WLink.Lib CString

/-! ## State -/

/-- A copy of a string into a buffer of `size` bytes, of which it takes up `used`, without
its NUL. -/
structure Copy where
  size : ℕ
  used : ℕ
deriving DecidableEq, Repr

/-- The copy stays inside its buffer and leaves room for the NUL. -/
def Copy.Fits (c : Copy) : Prop := c.used < c.size

/-- What the parser works on: the memory behind `header`, the connection, and the logs of the
copies and of the periods given to `NeonRTOS_TimerChangePeriod`. -/
structure ParseState where
  mem : List UInt8
  conn : Conn
  copies : List Copy
  periods : List ℕ

/-- The state before the parser runs on some head. -/
def ParseState.start (conn : Conn) (mem : List UInt8) : ParseState := ⟨mem, conn, [], []⟩

abbrev Parse := Exec ParseState

/-- Compute something from the memory. -/
def readMem {α : Type} (f : List UInt8 → Except Fault α) : Parse α := Exec.viewE fun s => f s.mem

/-- `*p = b`. -/
def poke (p : ℕ) (b : UInt8) : Parse Unit :=
  ExceptT.mk fun s =>
    if p < s.mem.length then (.ok (), { s with mem := s.mem.set p b }) else (.error .write, s)

def setConn (f : Conn → Conn) : Parse Unit := Exec.update fun s => { s with conn := f s.conn }

def changePeriod (periodMs : ℕ) : Parse Unit :=
  Exec.update fun s => { s with periods := s.periods ++ [periodMs % 2 ^ 32] }

def logCopy (size used : ℕ) : Parse Unit :=
  Exec.update fun s => { s with copies := s.copies ++ [⟨size, used⟩] }

section

variable (s : ParseState)

@[simp] theorem exec_readMem {α : Type} (f : List UInt8 → Except Fault α) :
    Exec.exec (readMem f) s = (f s.mem, s) := rfl

@[simp] theorem exec_setConn (f : Conn → Conn) :
    Exec.exec (setConn f) s = (.ok (), { s with conn := f s.conn }) := rfl

@[simp] theorem exec_changePeriod (periodMs : ℕ) :
    Exec.exec (changePeriod periodMs) s =
      (.ok (), { s with periods := s.periods ++ [periodMs % 2 ^ 32] }) := rfl

@[simp] theorem exec_logCopy (size used : ℕ) :
    Exec.exec (logCopy size used) s =
      (.ok (), { s with copies := s.copies ++ [⟨size, used⟩] }) := rfl

theorem exec_poke (p : ℕ) (b : UInt8) :
    Exec.exec (poke p b) s =
      if p < s.mem.length then (.ok (), { s with mem := s.mem.set p b })
      else (.error .write, s) := rfl

variable {s} {α β : Type} {b : β} {s' : ParseState}

theorem exec_setConn_bind (f : Conn → Conn) (g : Unit → Parse β) (s : ParseState) :
    Exec.exec (setConn f >>= g) s = Exec.exec (g ()) { s with conn := f s.conn } := rfl

theorem exec_readMem_bind_eq_ok {f : List UInt8 → Except Fault α} {g : α → Parse β} :
    Exec.exec (readMem f >>= g) s = (.ok b, s') ↔
      ∃ v, f s.mem = .ok v ∧ Exec.exec (g v) s = (.ok b, s') := by
  rw [Exec.exec_bind, exec_readMem]
  cases f s.mem with
  | error e => simp
  | ok v => simp

theorem exec_poke_bind_eq_ok {p : ℕ} {c : UInt8} {g : Unit → Parse β} :
    Exec.exec (poke p c >>= g) s = (.ok b, s') ↔
      p < s.mem.length ∧ Exec.exec (g ()) { s with mem := s.mem.set p c } = (.ok b, s') := by
  rw [Exec.exec_bind, exec_poke]
  by_cases hp : p < s.mem.length
  · rw [if_pos hp]
    exact (and_iff_right hp).symm
  · rw [if_neg hp]
    simp [hp]

end

/-- `memset(buf, 0, size); memcpy(buf, v, e - v)`. -/
def copyValue (size v e : ℕ) : Parse (List UInt8) := do
  logCopy size (e - v)
  readMem fun m => storeAt (List.replicate size 0) 0 ((m.drop v).take (e - v))

/-- The value of a C integer in a variable of type `uint32_t`. -/
def uint32 (z : ℤ) : ℕ := (z % 2 ^ 32).toNat

/-! ## The request line -/

/-- Method, URL and arguments, up to `connData->getArgs`. The result points to the second line;
`none` where the parser returns `-1`. -/
def parseRequestLine : Parse (Option ℕ) := do
  setConn fun c => { c with url := none }
  match ← readMem (strstr · 0 crlf) with
  | none => pure none
  | some lineEnd =>
    let method ← readMem (getHeaderMethod · 0)
    setConn fun c => { c with requestType := method }
    if method = .unknown then pure none
    else
      let path ← readMem (getHeaderPath · 0)
      setConn fun c => { c with url := path }
      match path with
      | none => pure none
      | some url =>
        match ← readMem (strchr · url 32) with
        | none => pure none
        | some e =>
          poke e 0
          match ← readMem (strstr · url (ascii "?")) with
          | some args =>
            poke args 0
            setConn fun c => { c with getArgs := some (args + 1) }
            pure (some (lineEnd + crlf.length))
          | none =>
            setConn fun c => { c with getArgs := none }
            pure (some (lineEnd + crlf.length))

/-! ## Headers -/

/-- The string at `p` starts with one of the texts. -/
def startsWithAny (m : List UInt8) (p : ℕ) : List (List UInt8) → Except Fault Bool
  | [] => .ok false
  | lit :: lits => do
    if ← startsWith m p lit then pure true else startsWithAny m p lits

/-- The value of a header and the end of its line. -/
def lookupLine (m : List UInt8) (p : ℕ) (name : List UInt8) :
    Except Fault (Option (ℕ × Option ℕ)) := do
  match ← getHeaderValue m p name with
  | none => pure none
  | some v =>
    let e ← strstr m v crlf
    pure (some (v, e))

/-- The end of the WebSocket key: the end of its line or else its NUL. -/
def keyEnd (m : List UInt8) (key : ℕ) : Except Fault ℕ := do
  match ← strstr m key crlf with
  | some e => pure e
  | none =>
    let n ← strlen m key
    pure (key + n)

/-- The branch for `Connection: Upgrade`. -/
def parseUpgrade (secondLine : ℕ) : Parse ℤ := do
  match ← readMem (getHeaderValue · secondLine httpUpgrade) with
  | none => pure (-1)
  | some upgradeWs =>
    if ← readMem (startsWithAny · upgradeWs [webSocketIdentifierUpper, webSocketIdentifierLower])
    then
      match ← readMem (getHeaderValue · secondLine webSocketKeyIdentifier) with
      | none => pure (-1)
      | some key =>
        let e ← readMem (keyEnd · key)
        poke e 0
        setConn fun c =>
          { c with clientKey := some key, websocketClient := true, connetionMode := .upgrade }
        changePeriod websocketTimeoutTimerMs
        pure 0
    else pure (-1)

/-- The connection mode, and for a connection that is kept alive its timeout. -/
def parseKeepAlive (secondLine connStr : ℕ) : Parse Unit := do
  setConn fun c => { c with connetionMode := .close }
  if ← readMem (startsWithAny · connStr [httpKeepAlive, httpKeepAliveLowerCase]) then
    setConn fun c => { c with connetionMode := .keepAlive }
    match ← readMem (lookupLine · secondLine httpKeepAlive) with
    | some (v, some e) =>
      let buf ← copyValue 20 v e
      let time ← Exec.lift (atoi buf)
      setConn fun c => { c with connectionKeepAliveTime := uint32 time }
      changePeriod (uint32 time * 1000)
    | _ =>
      setConn fun c => { c with connectionKeepAliveTime := httpTimeoutTimerMs / 1000 }
      changePeriod (httpTimeoutTimerMs / 1000 * 1000)
  else pure ()

def parseContentLength (secondLine : ℕ) : Parse Unit := do
  match ← readMem (lookupLine · secondLine httpContentLength) with
  | some (v, some e) =>
    let buf ← copyValue 20 v e
    let len ← Exec.lift (atoi buf)
    setConn fun c => { c with dataLen := uint32 len, isLargeData := false, dataBuff := none }
  | _ => pure ()

def parseAcceptEncoding (secondLine : ℕ) : Parse Unit := do
  match ← readMem (lookupLine · secondLine httpAcceptEncoding) with
  | some (v, some e) =>
    let buf ← copyValue 64 v e
    setConn fun c => { c with acceptEncoding := buf }
  | _ => pure ()

/-- The branch for every other `Connection` header. The content type is looked up and not
used. -/
def parsePlain (secondLine connStr : ℕ) : Parse ℤ := do
  parseKeepAlive secondLine connStr
  parseContentLength secondLine
  parseAcceptEncoding secondLine
  let _contType ← readMem (getHeaderValue · secondLine httpContentType)
  pure 0

/-- The headers, from the second line on. -/
def parseHeaderLines (secondLine : ℕ) : Parse ℤ := do
  let host ← readMem (getHost · secondLine)
  setConn fun c => { c with hostName := host }
  match ← readMem (getHeaderValue · secondLine httpConnection) with
  | none => pure 0
  | some connStr =>
    if ← readMem (startsWithAny · connStr [httpUpgrade, httpUpgradeLowerCase]) then
      parseUpgrade secondLine
    else parsePlain secondLine connStr

/-- `HTTPd_Parse_InMsg_Headers` on the head that the memory starts with. -/
def parseInMsgHeaders : Parse ℤ := do
  match ← parseRequestLine with
  | none => pure (-1)
  | some secondLine => parseHeaderLines secondLine

/-! ## The accept key -/

/-- `strcat` onto a string of `used` bytes in a buffer of `size` bytes. -/
def strcat (size used : ℕ) (s : List UInt8) : Parse Unit := do
  logCopy size (used + s.length)
  if size ≤ used + s.length then Exec.lift (.error .write) else pure ()

/-- `WebSocketServer_CreateAcceptKey`: what SHA-1 and Base64 make of key and UUID. -/
def createAcceptKey (encode : List UInt8 → List UInt8) (key : ℕ) : Parse (List UInt8) := do
  let k ← readMem (cstring · key)
  strcat 512 0 k
  strcat 512 k.length webSocketUuid
  pure (encode (k ++ webSocketUuid))

/-- What the server does with a head: parse it and, for a `GET` that asks for a WebSocket,
compute the answer to its key. -/
def parseThenAccept (encode : List UInt8 → List UInt8) : Parse Unit := do
  let _r ← parseInMsgHeaders
  let conn ← Exec.view (·.conn)
  if conn.requestType = .get ∧ conn.websocketClient = true then
    match conn.clientKey with
    | none => pure ()
    | some key =>
      let _accept ← createAcceptKey encode key
      pure ()
  else pure ()

end WLink.Httpd
