import WLink.Httpd.Def
import WLink.Lib.Bytes

/-!
# Receiving WebSocket frames

One pass of `HTTP_Server_Task` over a connection that has become a WebSocket. Header, extended
length, masking key and payload are four calls of `recv`; what a call does not fill of a local
buffer, and the frame record when `recv` returns nothing, are what was there before.

* `receiveWsFrame` -- `WebSocketServer_ReceiveWsFrame`
* `unmaskWsPayload`
* `wsPass` -- the pass
-/

namespace WLink.Httpd

open WLink.Lib

/-! ## Constants -/

def opcodeContinue : UInt8 := 0x0
def opcodeText : UInt8 := 0x1
def opcodeBinary : UInt8 := 0x2
def opcodeClose : UInt8 := 0x8
def opcodePing : UInt8 := 0x9
def opcodePong : UInt8 := 0xA

def flagsMask : UInt8 := 0xF0
def opcodeMask : UInt8 := 0x0F
def isMaskedMask : UInt8 := 0x80
def payloadMask : UInt8 := 0x7F

/-! ## State -/

/-- `HTTPd_WSFrame`, with the bytes of the masking key in memory order. -/
structure WsFrame where
  flags : UInt8
  opcode : UInt8
  isMasked : UInt8
  payloadLength : ℕ
  maskingKey : List UInt8
deriving DecidableEq, Repr

/-- What is done for a frame. -/
inductive WsEvent
  /-- The registered callback is called with the frame and the payload buffer. -/
  | message (frame : WsFrame) (msg : List UInt8)
  /-- A pong with this payload is sent. -/
  | pong (payload : List UInt8)
deriving DecidableEq, Repr

/-- The connection, the bytes in its socket, and what has been done. -/
structure WsState where
  conn : Conn
  stream : List UInt8
  log : List WsEvent

/-- What the surroundings of one pass are: the old contents of the local variables, the results of
the `recv` calls, and what `mem_Malloc` returns. -/
structure WsEnv where
  frame : WsFrame
  headerBuf : List UInt8
  lenDataBuf : List UInt8
  maskingKeyBuf : List UInt8
  header : RecvResult
  lenData : RecvResult
  maskingKey : RecvResult
  block : Option (List UInt8)
  payload : RecvResult

/-- The result of one `recv`, the buffer after it, and the bytes left in the socket. -/
def recvInto (r : RecvResult) (buf stream : List UInt8) : ℤ × List UInt8 × List UInt8 :=
  match r with
  | .got n => (n, stream.take n ++ buf.drop n, stream.drop n)
  | .closed => (0, buf, stream)
  | .failed _ _ => (-1, buf, stream)

/-- What is received if it fills the buffer. -/
theorem recvInto_whole {n : ℕ} {a b buf : List UInt8} (ha : a.length = n) (hbuf : buf.length = n) :
    recvInto (.got n) buf (a ++ b) = ((n : ℤ), a, b) := by
  show ((n : ℤ), (a ++ b).take n ++ buf.drop n, (a ++ b).drop n) = _
  rw [List.take_left' ha, List.drop_left' ha, List.drop_of_length_le (by omega), List.append_nil]

/-! ## Frames -/

/-- The end of `WebSocketServer_ReceiveWsFrame`: the masking key. -/
def receiveMaskingKey (env : WsEnv) (frame : WsFrame) (stream : List UInt8) :
    ℤ × WsFrame × List UInt8 :=
  if frame.isMasked ≠ 0 then
    let (ret, key, stream) := recvInto env.maskingKey env.maskingKeyBuf stream
    if ret ≤ 0 then (ret, frame, stream) else (0, { frame with maskingKey := key }, stream)
  else (0, frame, stream)

/-- The middle of it: the extended length, in a big-endian number of `size` bytes. -/
def receiveLength (env : WsEnv) (size : ℕ) (frame : WsFrame) (stream : List UInt8) :
    ℤ × WsFrame × List UInt8 :=
  let (ret, buf, stream) := recvInto env.lenData (env.lenDataBuf.take size) stream
  if ret ≤ 0 then (ret, frame, stream)
  else receiveMaskingKey env { frame with payloadLength := ofBeBytes buf } stream

/-- `WebSocketServer_ReceiveWsFrame`: its result, the frame, and the bytes left in the socket. -/
def receiveWsFrame (conn : Conn) (env : WsEnv) (stream : List UInt8) :
    ℤ × WsFrame × List UInt8 :=
  if conn.connectionDestructFlag then (-1, env.frame, stream)
  else if conn.socketId < 0 then (-1, env.frame, stream)
  else
    let (ret, buf, stream) := recvInto env.header env.headerBuf stream
    if ret ≤ 0 then (ret, env.frame, stream)
    else
      let b₀ := buf.getD 0 0
      let b₁ := buf.getD 1 0
      let frame : WsFrame :=
        { env.frame with
          flags := b₀ &&& flagsMask
          opcode := b₀ &&& opcodeMask
          isMasked := b₁ &&& isMaskedMask
          payloadLength := (b₁ &&& payloadMask).toNat }
      if frame.payloadLength = 126 then receiveLength env 2 frame stream
      else if frame.payloadLength = 127 then receiveLength env 8 frame stream
      else receiveMaskingKey env frame stream

/-! ## Payload -/

/-- XOR with the bytes of a key, over and over. -/
def xorKey (key bs : List UInt8) : List UInt8 := bs.mapIdx fun i b => b ^^^ key.getD (i % 4) 0

/-- `unmaskWsPayload(buf, payloadLength, key)`. -/
def unmaskWsPayload (buf : List UInt8) (payloadLength : ℕ) (key : List UInt8) : List UInt8 :=
  let len := if httpWsServerDatBufSize < payloadLength then httpWsServerDatBufSize
    else payloadLength
  xorKey key (buf.take len) ++ buf.drop len

/-- `rec_dat_len`: the length in sixteen bits, and not more than the buffer has. -/
def recDatLen (frame : WsFrame) : ℕ :=
  let len := frame.payloadLength % 2 ^ 16
  if httpWsServerDatBufSize ≤ len then httpWsServerDatBufSize else len

/-! ## The pass -/

def WsState.destruct (s : WsState) : WsState :=
  { s with conn := { s.conn with connectionDestructFlag := true } }

/-- `HTTPd_WebsocketServer_Send_Message` for a pong. -/
def WsState.sendPong (s : WsState) (payload : List UInt8) : WsState :=
  if s.conn.socketId < 0 ∨ s.conn.websocketClient = false ∨ s.conn.websocketAuth = false then s
  else if payload = [] then s
  else { s with log := s.log ++ [.pong payload] }

/-- A frame whose payload has been received: `n` bytes of it stand in the buffer. -/
def handleWsFrame (s : WsState) (frame : WsFrame) (n : ℕ) (buf : List UInt8) : WsState :=
  if httpWsServerDatBufSize < n then s.destruct
  else
    let buf := buf.set n 0
    let s := { s with conn := s.conn.timerStop }
    let buf := if frame.isMasked ≠ 0 then unmaskWsPayload buf (recDatLen frame) frame.maskingKey
      else buf
    if frame.opcode = opcodePing then
      let s := s.sendPong (buf.take (recDatLen frame))
      { s with conn := s.conn.timerReStart }
    else if frame.opcode = opcodeClose then s.destruct
    else
      let s := if 0 < recDatLen frame then { s with log := s.log ++ [.message frame buf] } else s
      { s with conn := s.conn.timerReStart }

/-- The payload of a frame whose header has been received, in a buffer from `mem_Malloc`. -/
def receiveWsPayload (s : WsState) (frame : WsFrame) (r : RecvResult) (buf : List UInt8) :
    WsState :=
  match r with
  | .failed none _ => s.destruct
  | .failed (some _) destructFlag =>
    -- on `EAGAIN` the next client is served, on other errors the pass over the clients ends
    { s with conn :=
      { s.conn with connectionDestructFlag := s.conn.connectionDestructFlag || destructFlag } }
  | r =>
    let (ret, buf, stream) := recvInto r buf s.stream
    let s := { s with stream := stream }
    if ret = 0 then s.destruct else handleWsFrame s frame ret.toNat buf

/-- One pass. A connection that is marked for destruction is taken out of the pool instead. -/
def wsPass (s : WsState) (env : WsEnv) : WsState :=
  if s.conn.connectionDestructFlag then s
  else
    let (ret, frame, stream) := receiveWsFrame s.conn env s.stream
    let s := { s with stream := stream }
    if ret < 0 then s
    else if frame.payloadLength = 0 then s
    else
      match env.block with
      | none => s
      | some buf => receiveWsPayload s frame env.payload buf

end WLink.Httpd
