import WLink.Lib.CString
import Mathlib.Tactic.SplitIfs

/-!
# HTTP server: constants and the connection record

The texts and limits of `HTTPd_def.c`, `HTTPd_def.h` and `HTTPd.h`, the connection record
`HTTPd_WebSocked_Client_Connection`, and the answers that lwIP gives to one `recv` on a
connection.
-/

namespace WLink.Httpd

open WLink.Lib

/-! ## Texts -/

def crlf : List UInt8 := ascii "\r\n"

def httpMethodPost : List UInt8 := ascii "POST"
def httpMethodGet : List UInt8 := ascii "GET"
def httpMethodPut : List UInt8 := ascii "PUT"
def httpMethodDelete : List UInt8 := ascii "DELETE"
def httpVersion1P0 : List UInt8 := ascii "HTTP/1.0"
def httpVersion1P1 : List UInt8 := ascii "HTTP/1.1"

def httpContentType : List UInt8 := ascii "Content-Type"
def httpContentLength : List UInt8 := ascii "Content-Length"
def httpAcceptEncoding : List UInt8 := ascii "Accept-Encoding"
def httpConnection : List UInt8 := ascii "Connection"
def httpClose : List UInt8 := ascii "Close"
def httpKeepAlive : List UInt8 := ascii "Keep-Alive"
def httpKeepAliveLowerCase : List UInt8 := ascii "keep-alive"
def httpUpgrade : List UInt8 := ascii "Upgrade"
def httpUpgradeLowerCase : List UInt8 := ascii "upgrade"
def httpLocation : List UInt8 := ascii "Location"
def httpContentEncoding : List UInt8 := ascii "Content-Encoding"
def httpServer : List UInt8 := ascii "Server"
def httpHost : List UInt8 := ascii "Host"

def webSocketUuid : List UInt8 := ascii "258EAFA5-E914-47DA-95CA-C5AB0DC85B11"
def webSocketIdentifierUpper : List UInt8 := ascii "Websocket"
def webSocketIdentifierLower : List UInt8 := ascii "websocket"
def webSocketKeyIdentifier : List UInt8 := ascii "Sec-WebSocket-Key"
def webSocketAcceptIdentifier : List UInt8 := ascii "Sec-WebSocket-Accept"

/-! ## Limits -/

def httpdCmdBufSize : ℕ := 1024
def httpdDatBufSize : ℕ := 2 * 1024
def httpdMaxClients : ℕ := 20
def httpWsServerDatBufSize : ℕ := 1024
def httpTimeoutTimerMs : ℕ := 5000
def websocketTimeoutTimerMs : ℕ := 300000

/-- The results of a CGI callback and of the request processors. -/
def httpdCgiMore : ℤ := 0
def httpdCgiDone : ℤ := 1
def httpdCgiNotfound : ℤ := 2

/-! ## The connection record -/

inductive HttpdMethod
  | unknown
  | post
  | get
  | put
  | delete
deriving DecidableEq, Repr

/-- The text of a method in a request line. -/
def HttpdMethod.text : HttpdMethod → List UInt8
  | .unknown => []
  | .post => httpMethodPost
  | .get => httpMethodGet
  | .put => httpMethodPut
  | .delete => httpMethodDelete

inductive HttpdConnectionMode
  | close
  | keepAlive
  | upgrade
deriving DecidableEq, Repr

/-- A connection's timeout timer: created but stopped, or running. -/
structure ConnTimer where
  armed : Bool
  periodMs : ℕ
deriving DecidableEq, Repr

/-- `HTTPd_WebSocked_Client_Connection`. The pointers into the request head (`clientKey`,
`url`, `hostName`, `getArgs`) are offsets in `http_cmd_buf`, a callback is a number that names
it, and `dataBuff` is the block that holds the body. -/
structure Conn where
  socketId : ℤ
  connetionMode : HttpdConnectionMode
  connectionKeepAliveTime : ℕ
  connectionTimeoutTimer : Option ConnTimer
  connectionDestructFlag : Bool
  websocketClient : Bool
  websocketAuth : Bool
  clientKey : Option ℕ
  requestType : HttpdMethod
  url : Option ℕ
  hostName : Option ℕ
  isLargeData : Bool
  dataLen : ℕ
  dataBuff : Option (List UInt8)
  acceptEncoding : List UInt8
  getArgs : Option ℕ
  cgi : Option ℕ
deriving DecidableEq, Repr

/-- `NeonRTOS_TimerStop` on the timeout timer of a connection. -/
def Conn.timerStop (c : Conn) : Conn :=
  { c with connectionTimeoutTimer := c.connectionTimeoutTimer.map fun t => { t with armed := false } }

/-- `NeonRTOS_TimerReStart` on the timeout timer of a connection. -/
def Conn.timerReStart (c : Conn) : Conn :=
  { c with connectionTimeoutTimer := c.connectionTimeoutTimer.map fun t => { t with armed := true } }

/-- `HTTPd_Restore_Variables`, on a record that `mem_Malloc` returned with old contents. -/
def httpdRestoreVariables (c : Conn) : Conn :=
  { c with
    socketId := -1
    connetionMode := .close
    connectionKeepAliveTime := 0
    connectionDestructFlag := false
    websocketClient := false
    websocketAuth := false
    cgi := none }

/-- A record as it is after admission, before the first request. -/
def Conn.fresh : Conn where
  socketId := 0
  connetionMode := .close
  connectionKeepAliveTime := 0
  connectionTimeoutTimer := some ⟨false, httpTimeoutTimerMs⟩
  connectionDestructFlag := false
  websocketClient := false
  websocketAuth := false
  clientKey := none
  requestType := .unknown
  url := none
  hostName := none
  isLargeData := false
  dataLen := 0
  dataBuff := none
  acceptEncoding := List.replicate 64 0
  getArgs := none
  cgi := none

/-! ## Receiving -/

/-- The `errno` values of lwIP that the receive loops tell apart. -/
def eagain : ℤ := 11

/-- `EWOULDBLOCK` is `EAGAIN` in lwIP. -/
def ewouldblock : ℤ := eagain

/-- What one `recv` on a connection comes to. -/
inductive RecvResult
  /-- This many bytes, at least one, were stored. -/
  | got (n : ℕ)
  /-- The peer has closed the connection. -/
  | closed
  /-- A negative result. The `getsockopt` that the loops then call fails or gives the socket's
  `errno`, and `connection_destruct_flag` may have been set by the timer meanwhile. -/
  | failed (sockErrno : Option ℤ) (destructFlag : Bool)
deriving DecidableEq, Repr

/-- A `recv` that has nothing to return yet. -/
def RecvResult.wouldBlock : RecvResult := .failed (some eagain) false

/-- What the receive loops of `HTTP_Server_Task` make of a result. -/
inductive RecvVerdict
  /-- That many bytes were stored. -/
  | store (n : ℕ)
  /-- Sleep and go back to the loop's condition. -/
  | retry
  /-- Leave the loop and give the connection up. -/
  | close
deriving DecidableEq, Repr

/-- The error handling that the head loop and the body loop share. -/
def RecvResult.verdict : RecvResult → RecvVerdict
  | .got n => .store n
  | .closed => .close
  | .failed none _ => .close
  | .failed (some sockErrno) destructFlag =>
    if destructFlag then .close
    else if sockErrno = eagain ∨ sockErrno = ewouldblock then .retry
    else if sockErrno = 0 then .retry
    else .close

/-- Only a `recv` that stored bytes makes a loop count them. -/
theorem RecvResult.verdict_eq_store_iff {r : RecvResult} {n : ℕ} :
    r.verdict = .store n ↔ r = .got n := by
  cases r with
  | got k => simp [RecvResult.verdict]
  | closed => simp [RecvResult.verdict]
  | failed sockErrno destructFlag =>
    cases sockErrno with
    | none => simp [RecvResult.verdict]
    | some e =>
      simp only [RecvResult.verdict]
      split_ifs <;> simp

/-- The results fit the socket: a `recv` that stores bytes stores at least one, at most as many
as it is asked for, and only bytes that the peer has sent. -/
def RecvsFit (asked : ℕ) : List UInt8 → List RecvResult → Prop
  | _, [] => True
  | stream, .got n :: rs =>
    1 ≤ n ∧ n ≤ asked ∧ n ≤ stream.length ∧ RecvsFit asked (stream.drop n) rs
  | stream, .closed :: rs => RecvsFit asked stream rs
  | stream, .failed _ _ :: rs => RecvsFit asked stream rs

end WLink.Httpd
