import WLink.Httpd.FrameHeader
import WLink.Httpd.WebsocketTheorems

/-!
# Sending WebSocket frames

`HTTPd_WebsocketServer_Send_Message` puts a frame header together, of which the receiver takes
up the length in full only if it has 32 bits, and the opcode of a pong only if the pong is
flagged as binary, too: `sendMessage_roundTrip_iff`.

* `sendOptions`, `sendHeader` -- the first byte, and the header
* `websocketServerSendMessage` -- the calls of `send`
-/

namespace WLink.Httpd

open WLink.Lib

/-! ## The sender -/

def flagFin : UInt8 := 0x80

/-- The data is not the last of the message. -/
def websockFlagCont : UInt8 := 0x1
def websockFlagBin : UInt8 := 0x2
def websockFlagPong : UInt8 := 0x4

/-- `options` -/
def sendOptions (flags : UInt8) : UInt8 :=
  let options := if flags &&& websockFlagBin ≠ 0 then opcodeBinary else opcodeText
  let options := if flags &&& websockFlagCont = 0 then options ||| flagFin else options
  if flags &&& websockFlagPong ≠ 0 then options ||| opcodePong else options

/-- The bytes behind the first one. Of a long length the high half is written as zero. -/
def sendLength (payloadLength : ℕ) : List UInt8 :=
  if 65535 < payloadLength then 127 :: 0 :: 0 :: 0 :: 0 :: beBytes 4 payloadLength
  else if 125 < payloadLength then 126 :: beBytes 2 payloadLength
  else [UInt8.ofNat payloadLength]

/-- The header in `buf`. -/
def sendHeader (payloadLength : ℕ) (flags : UInt8) : List UInt8 :=
  sendOptions flags :: sendLength payloadLength

/-- `HTTPd_WebsocketServer_Send_Message`: what is given to `send`, one call after the other. The
length is a `size_t` of 32 bits there. -/
def websocketServerSendMessage (wsClient : Conn) (payload : List UInt8) (payloadLength : ℕ)
    (flags : UInt8) : List (List UInt8) :=
  if wsClient.socketId < 0 ∨ wsClient.websocketClient = false ∨ wsClient.websocketAuth = false then
    []
  else if payloadLength = 0 then []
  else [sendHeader payloadLength flags, payload.take (payloadLength % 2 ^ 32)]

/-! ## The header on the wire -/

/-- The second byte of an unmasked header with a length of at most seven bits. -/
theorem length_byte : ∀ len < 126, (UInt8.ofNat len &&& payloadMask).toNat = len ∧
    UInt8.ofNat len &&& isMaskedMask = 0 := by
  decide

/-- What is sent is a whole unmasked header, with the low 32 bits of the length. -/
theorem sendHeader_wire (payloadLength : ℕ) (flags : UInt8) :
    ∃ h : WireHeader, h.bytes = sendHeader payloadLength flags ∧ h.b₀ = sendOptions flags ∧
      h.isMasked = 0 ∧ h.payloadLength = payloadLength % 2 ^ 32 := by
  unfold sendHeader sendLength
  by_cases hlong : 65535 < payloadLength
  · let h : WireHeader :=
      { b₀ := sendOptions flags
        b₁ := 127
        lenBytes := 0 :: 0 :: 0 :: 0 :: beBytes 4 payloadLength
        key := []
        lenBytes_length := by simp only [List.length_cons, length_beBytes]; decide
        key_length := by decide }
    refine ⟨h, ?_, rfl, (by decide : (127 : UInt8) &&& isMaskedMask = 0), ?_⟩
    · rw [if_pos hlong]
      show _ :: _ :: (_ ++ []) = _
      rw [List.append_nil]
    · show (if extLenSize 127 = 0 then _ else ofBeBytes (0 :: 0 :: 0 :: 0 :: beBytes 4 _)) = _
      rw [if_neg (by decide)]
      simp only [ofBeBytes_zero_cons, ofBeBytes_beBytes]
      norm_num
  · rw [if_neg hlong]
    have hmod : payloadLength % 2 ^ 32 = payloadLength := Nat.mod_eq_of_lt (by omega)
    by_cases hmiddle : 125 < payloadLength
    · let h : WireHeader :=
        { b₀ := sendOptions flags
          b₁ := 126
          lenBytes := beBytes 2 payloadLength
          key := []
          lenBytes_length := by rw [length_beBytes]; decide
          key_length := by decide }
      refine ⟨h, ?_, rfl, (by decide : (126 : UInt8) &&& isMaskedMask = 0), ?_⟩
      · rw [if_pos hmiddle]
        show _ :: _ :: (_ ++ []) = _
        rw [List.append_nil]
      · show (if extLenSize 126 = 0 then _ else ofBeBytes (beBytes 2 _)) = _
        rw [if_neg (by decide), ofBeBytes_beBytes, hmod]
        exact Nat.mod_eq_of_lt (by norm_num; omega)
    · obtain ⟨hlen, hmask⟩ := length_byte payloadLength (by omega)
      have hext : extLenSize (UInt8.ofNat payloadLength) = 0 := by
        unfold extLenSize
        rw [hlen, if_neg (by omega), if_neg (by omega)]
      have hkey : keySize (UInt8.ofNat payloadLength) = 0 := by
        unfold keySize
        rw [hmask, if_neg (by simp)]
      let h : WireHeader :=
        { b₀ := sendOptions flags
          b₁ := UInt8.ofNat payloadLength
          lenBytes := []
          key := []
          lenBytes_length := hext.symm
          key_length := hkey.symm }
      refine ⟨h, ?_, rfl, hmask, ?_⟩
      · rw [if_neg hmiddle]
        rfl
      · show (if extLenSize _ = 0 then _ else _) = _
        rw [if_pos hext, hlen, hmod]

/-! ## The round trip -/

/-- The opcode that the flags stand for. -/
def flagsOpcode (flags : UInt8) : UInt8 :=
  if flags &&& websockFlagPong ≠ 0 then opcodePong
  else if flags &&& websockFlagBin ≠ 0 then opcodeBinary
  else opcodeText

/-- What the receiver makes of a header is what the sender was asked for. -/
def ReadBack (payloadLength : ℕ) (flags : UInt8) (out : ℤ × WsFrame × List UInt8) : Prop :=
  out.1 = 0 ∧ out.2.1.payloadLength = payloadLength ∧ out.2.1.isMasked = 0 ∧
    (out.2.1.flags &&& flagFin ≠ 0 ↔ flags &&& websockFlagCont = 0) ∧
    out.2.1.opcode = flagsOpcode flags

/-- The final bit is the opposite of `WEBSOCK_FLAG_CONT`. -/
theorem sendOptions_fin (flags : UInt8) :
    sendOptions flags &&& flagsMask &&& flagFin ≠ 0 ↔ flags &&& websockFlagCont = 0 := by
  unfold sendOptions
  by_cases hbin : flags &&& websockFlagBin = 0 <;> by_cases hcont : flags &&& websockFlagCont = 0 <;>
    by_cases hpong : flags &&& websockFlagPong = 0 <;>
    simp only [hbin, hcont, hpong, ne_eq, not_true_eq_false, not_false_eq_true, if_true, if_false] <;>
    decide

/-- The opcode of a pong is put on top of that of a text, with which it does not go together. -/
theorem sendOptions_opcode_iff (flags : UInt8) :
    sendOptions flags &&& opcodeMask = flagsOpcode flags ↔
      (flags &&& websockFlagPong ≠ 0 → flags &&& websockFlagBin ≠ 0) := by
  unfold sendOptions flagsOpcode
  by_cases hbin : flags &&& websockFlagBin = 0 <;> by_cases hcont : flags &&& websockFlagCont = 0 <;>
    by_cases hpong : flags &&& websockFlagPong = 0 <;>
    simp only [hbin, hcont, hpong, ne_eq, not_true_eq_false, not_false_eq_true, if_true, if_false] <;>
    decide

/-- The receiver gets back what the sender was asked for if and only if the length has 32 bits
and a pong is flagged as binary, too. -/
theorem sendMessage_roundTrip_iff {wsClient : Conn} (hopen : IsOpen wsClient)
    (payload : List UInt8) {payloadLength : ℕ} (hpos : 1 ≤ payloadLength)
    (hlen : payloadLength < 2 ^ 64) (flags : UInt8) {conn : Conn} (hconn : CanReceive conn)
    {env : WsEnv} (hbuf : BuffersSized env)
    (harrive : ArrivesWhole env ((sendLength payloadLength).getD 0 0)) :
    (∃ header ∈ (websocketServerSendMessage wsClient payload payloadLength flags).head?,
        ReadBack payloadLength flags (receiveWsFrame conn env header)) ↔
      payloadLength < 2 ^ 32 ∧ (flags &&& websockFlagPong ≠ 0 → flags &&& websockFlagBin ≠ 0) := by
  obtain ⟨h, hbytes, hb₀, hmask, hdecoded⟩ := sendHeader_wire payloadLength flags
  have hsend : (websocketServerSendMessage wsClient payload payloadLength flags).head? =
      some (sendHeader payloadLength flags) := by
    obtain ⟨hsock, hclient, hauth⟩ := hopen
    unfold websocketServerSendMessage
    rw [if_neg (by simp [hclient, hauth]; omega), if_neg (by omega)]
    rfl
  have hb₁ : (sendLength payloadLength).getD 0 0 = h.b₁ := by
    have htail := (List.cons.inj hbytes).2
    rw [← htail]
    rfl
  rw [hb₁] at harrive
  have hrun : receiveWsFrame conn env (sendHeader payloadLength flags) =
      (0, h.frame env.frame.maskingKey, []) := by
    rw [← hbytes, ← List.append_nil h.bytes]
    exact receiveWsFrame_full h harrive hbuf hconn []
  have hiff : ReadBack payloadLength flags (0, h.frame env.frame.maskingKey, []) ↔
      payloadLength % 2 ^ 32 = payloadLength ∧
        sendOptions flags &&& opcodeMask = flagsOpcode flags := by
    show 0 = (0 : ℤ) ∧ h.payloadLength = payloadLength ∧ h.isMasked = 0 ∧
      (h.b₀ &&& flagsMask &&& flagFin ≠ 0 ↔ flags &&& websockFlagCont = 0) ∧
      h.b₀ &&& opcodeMask = flagsOpcode flags ↔ _
    rw [hb₀, hmask, hdecoded]
    have hfin := sendOptions_fin flags
    constructor
    · intro hread
      exact ⟨hread.2.1, hread.2.2.2.2⟩
    · intro hread
      exact ⟨rfl, hread.1, rfl, hfin, hread.2⟩
  have hsmall : payloadLength % 2 ^ 32 = payloadLength ↔ payloadLength < 2 ^ 32 := by
    constructor <;> intro h <;> omega
  rw [← sendOptions_opcode_iff, ← hsmall, ← hiff, hsend]
  simp [hrun]

/-- The surroundings in which the header of a frame with a 64-bit length arrives whole. -/
def tenByteHeader : WsEnv := { sixByteHeader with lenData := .got 8 }

/-- A binary frame of 65536 bytes. -/
theorem sendMessage_roundTrip_64k :
    ∃ header ∈ (websocketServerSendMessage wsConn [] 65536 websockFlagBin).head?,
      ReadBack 65536 websockFlagBin (receiveWsFrame Conn.fresh tenByteHeader header) :=
  (sendMessage_roundTrip_iff ⟨by decide, rfl, rfl⟩ [] (by decide) (by decide)
    websockFlagBin ⟨rfl, by decide⟩ ⟨rfl, rfl, rfl⟩
    ⟨rfl, fun _ => by decide, fun h => absurd rfl h⟩).mpr ⟨by decide, by decide⟩

/-- A pong goes out with the opcode 0xB. -/
theorem not_roundTrip_pong :
    ¬ ∃ header ∈ (websocketServerSendMessage wsConn [1] 1 websockFlagPong).head?,
      ReadBack 1 websockFlagPong (receiveWsFrame Conn.fresh sixByteHeader header) := by
  rintro ⟨header, hheader, -, -, -, -, hopcode⟩
  obtain rfl : [0x8b, 0x01] = header := by
    have : (websocketServerSendMessage wsConn [1] 1 websockFlagPong).head? = some [0x8b, 0x01] := by
      decide
    rw [this] at hheader
    exact Option.mem_some.mp hheader
  exact absurd hopcode (by decide)

end WLink.Httpd
