import WLink.Httpd.SendMessage

/-!
# Control frames

What a pass makes of a close, a ping and a pong that have been received completely.
`wsPass_complete` is the result of such a pass for any frame of at most 125 bytes, masked or not;
`controlHonoured_iff` says for which of them the rules for control frames are kept.
-/

namespace WLink.Httpd

open WLink.Lib

/-! ## Frames -/

/-- A frame on the wire: a header, and as many bytes behind it as the header says. -/
structure WireFrame where
  header : WireHeader
  wire : List UInt8
  wire_length : wire.length = header.payloadLength

namespace WireFrame

variable (f : WireFrame)

def bytes : List UInt8 := f.header.bytes ++ f.wire

def opcode : UInt8 := f.header.opcode

/-- The payload, unmasked. -/
def payload : List UInt8 :=
  if f.header.isMasked ≠ 0 then xorKey f.header.key f.wire else f.wire

def IsControl : Prop := f.opcode = opcodeClose ∨ f.opcode = opcodePing ∨ f.opcode = opcodePong

/-- The parts of the frame arrive whole, and there is memory for its payload. -/
structure ArrivesIn (env : WsEnv) : Prop where
  header : ArrivesWhole env f.header.b₁
  buffers : BuffersSized env
  payload : f.wire ≠ [] → ∃ buf, env.block = some buf ∧ buf.length = f.wire.length + 1 ∧
    env.payload = .got f.wire.length

end WireFrame

/-- The frames that the server sends on its own account, each as the bytes given to `send`. -/
def sentFrames (conn : Conn) (evs : List WsEvent) : List (List UInt8) :=
  evs.filterMap fun ev =>
    match ev with
    | .pong payload =>
      some (websocketServerSendMessage conn payload payload.length websockFlagPong).flatten
    | .message _ _ => none

/-- A close marks the connection, a ping is answered by one pong with its payload, and the
callback sees none of the control frames. -/
def ControlHonoured (f : WireFrame) (s s' : WsState) : Prop :=
  ∃ evs, s'.log = s.log ++ evs ∧
    (f.opcode = opcodeClose → s'.conn.connectionDestructFlag = true) ∧
    (f.opcode = opcodePing → ∃ g : WireFrame, sentFrames s.conn evs = [g.bytes] ∧
      g.opcode = opcodePong ∧ g.payload = f.payload) ∧
    (f.IsControl → ∀ frame msg, .message frame msg ∉ evs)

/-! ## The pass -/

/-- What a complete frame leads to: its events, and whether the connection is marked. -/
def WireFrame.outcome (f : WireFrame) (old : List UInt8) : List WsEvent × Bool :=
  if f.wire = [] then ([], false)
  else if f.opcode = opcodePing then ([.pong f.payload], false)
  else if f.opcode = opcodeClose then ([], true)
  else ([.message (f.header.frame old) (f.payload ++ [0])], false)

section

variable {f : WireFrame} {env : WsEnv} {s : WsState} {rest : List UInt8}

theorem recDatLen_frame (hlen : f.wire.length ≤ 125) (old : List UInt8) :
    recDatLen (f.header.frame old) = f.wire.length := by
  show (if httpWsServerDatBufSize ≤ f.header.payloadLength % 2 ^ 16 then _
    else f.header.payloadLength % 2 ^ 16) = _
  rw [← f.wire_length, Nat.mod_eq_of_lt (by omega), if_neg (by unfold httpWsServerDatBufSize; omega)]

/-- The buffer behind the payload and its NUL, unmasked if the frame is masked. -/
theorem unmasked_buffer (hlen : f.wire.length ≤ 125) (old : List UInt8) :
    (if (f.header.frame old).isMasked ≠ 0 then
      unmaskWsPayload (f.wire ++ [0]) f.wire.length (f.header.frame old).maskingKey
    else f.wire ++ [0]) = f.payload ++ [0] := by
  show (if f.header.isMasked ≠ 0 then unmaskWsPayload _ _ (if f.header.isMasked ≠ 0 then _ else _)
    else _) = _
  unfold WireFrame.payload
  by_cases hmask : f.header.isMasked = 0
  · rw [if_neg (not_not.mpr hmask), if_neg (not_not.mpr hmask)]
  · rw [if_pos hmask, if_pos hmask, if_pos hmask]
    unfold unmaskWsPayload
    simp only [if_neg (show ¬ httpWsServerDatBufSize < f.wire.length by
      unfold httpWsServerDatBufSize; omega)]
    rw [List.take_left, List.drop_left]

theorem length_payload : f.payload.length = f.wire.length := by
  unfold WireFrame.payload
  split
  · exact length_xorKey _ _
  · rfl

/-- A frame whose payload stands in the buffer. -/
theorem handleWsFrame_complete (hopen : IsOpen s.conn) (hne : f.wire ≠ [])
    (hlen : f.wire.length ≤ 125) (old : List UInt8) (b : UInt8) :
    (handleWsFrame s (f.header.frame old) f.wire.length (f.wire ++ [b])).log =
        s.log ++ (f.outcome old).1 ∧
      (handleWsFrame s (f.header.frame old) f.wire.length (f.wire ++ [b])).conn.connectionDestructFlag
        = (s.conn.connectionDestructFlag || (f.outcome old).2) := by
  have hpos := List.length_pos_of_ne_nil hne
  have hset : (f.wire ++ [b]).set f.wire.length 0 = f.wire ++ [0] := by
    rw [List.set_append_right _ _ (Nat.le_refl _), Nat.sub_self]
    rfl
  have hpayload : f.payload ≠ [] := by
    intro h
    rw [← length_payload, h] at hpos
    exact Nat.lt_irrefl 0 hpos
  unfold handleWsFrame WireFrame.outcome
  rw [if_neg (by unfold httpWsServerDatBufSize; omega), if_neg hne]
  simp only [hset, recDatLen_frame hlen, unmasked_buffer hlen]
  rw [show (f.header.frame old).opcode = f.opcode from rfl]
  by_cases hping : f.opcode = opcodePing
  · rw [if_pos hping, if_pos hping, List.take_left' length_payload]
    obtain ⟨hsock, hclient, hauth⟩ := hopen
    unfold WsState.sendPong
    simp only
    rw [if_neg (by simp [Conn.timerStop, hclient, hauth]; omega), if_neg hpayload]
    exact ⟨rfl, (Bool.or_false _).symm⟩
  rw [if_neg hping, if_neg hping]
  by_cases hclose : f.opcode = opcodeClose
  · rw [if_pos hclose, if_pos hclose]
    exact ⟨(List.append_nil _).symm, (Bool.or_true _).symm⟩
  · rw [if_neg hclose, if_neg hclose, if_pos hpos]
    exact ⟨rfl, (Bool.or_false _).symm⟩

/-- A pass over a frame that arrives completely. -/
theorem wsPass_complete (hopen : IsOpen s.conn) (hflag : s.conn.connectionDestructFlag = false)
    (hstream : s.stream = f.bytes ++ rest) (harrive : f.ArrivesIn env)
    (hlen : f.wire.length ≤ 125) :
    (wsPass s env).log = s.log ++ (f.outcome env.frame.maskingKey).1 ∧
      (wsPass s env).conn.connectionDestructFlag = (f.outcome env.frame.maskingKey).2 := by
  have hheader : receiveWsFrame s.conn env s.stream =
      (0, f.header.frame env.frame.maskingKey, f.wire ++ rest) := by
    rw [hstream, WireFrame.bytes, List.append_assoc]
    exact receiveWsFrame_full f.header harrive.header harrive.buffers ⟨hflag, hopen.1⟩ _
  unfold wsPass
  rw [hflag, if_neg (by simp), hheader]
  dsimp only
  rw [if_neg (by decide), show (f.header.frame env.frame.maskingKey).payloadLength = f.wire.length
    from f.wire_length.symm]
  by_cases hne : f.wire = []
  · rw [if_pos (List.length_eq_zero_iff.mpr hne)]
    unfold WireFrame.outcome
    rw [if_pos hne]
    exact ⟨(List.append_nil _).symm, hflag⟩
  rw [if_neg (mt List.length_eq_zero_iff.mp hne)]
  obtain ⟨buf, hblock, hbuf, hgot⟩ := harrive.payload hne
  obtain ⟨b, hb⟩ : ∃ b, buf.drop f.wire.length = [b] := by
    apply List.length_eq_one_iff.mp
    rw [List.length_drop]
    omega
  have hpos := List.length_pos_of_ne_nil hne
  have hrecv : recvInto (.got f.wire.length) buf (f.wire ++ rest) =
      ((f.wire.length : ℤ), f.wire ++ [b], rest) := by
    show (_, (f.wire ++ rest).take _ ++ buf.drop _, (f.wire ++ rest).drop _) = _
    rw [List.take_left, List.drop_left, hb]
  rw [hblock, hgot]
  simp only [receiveWsPayload, hrecv]
  rw [if_neg (by omega), Int.toNat_natCast]
  obtain ⟨hlog, hmark⟩ := handleWsFrame_complete (s := { s with stream := rest }) hopen hne hlen
    env.frame.maskingKey b
  refine ⟨hlog, hmark.trans ?_⟩
  show (s.conn.connectionDestructFlag || _) = _
  rw [hflag, Bool.false_or]

/-! ## The rules -/

/-- No pong is sent with the opcode of one. -/
theorem sentFrames_ne_pong {conn : Conn} (hopen : IsOpen conn) {payload : List UInt8}
    (hne : payload ≠ []) {g : WireFrame} (h : sentFrames conn [.pong payload] = [g.bytes]) :
    g.opcode ≠ opcodePong := by
  obtain ⟨hsock, hclient, hauth⟩ := hopen
  have hsend : sentFrames conn [.pong payload] =
      [(sendHeader payload.length websockFlagPong ++
        (payload.take (payload.length % 2 ^ 32) ++ []))] := by
    show [(websocketServerSendMessage _ _ _ _).flatten] = _
    unfold websocketServerSendMessage
    rw [if_neg (by simp [hclient, hauth]; omega), if_neg (mt List.length_eq_zero_iff.mp hne)]
    rfl
  have hb₀ : sendOptions websockFlagPong = g.header.b₀ := by
    rw [hsend] at h
    exact (List.cons.inj (List.cons.inj h).1).1
  show g.header.b₀ &&& opcodeMask ≠ opcodePong
  rw [← hb₀]
  decide

/-- A control frame is treated by the rules if and only if it is a close with a payload or a pong
without one. -/
theorem controlHonoured_iff (hopen : IsOpen s.conn) (hflag : s.conn.connectionDestructFlag = false)
    (hstream : s.stream = f.bytes ++ rest) (harrive : f.ArrivesIn env)
    (hlen : f.wire.length ≤ 125) :
    ControlHonoured f s (wsPass s env) ↔
      ¬ f.IsControl ∨ (f.opcode = opcodeClose ∧ f.wire ≠ []) ∨
        (f.opcode = opcodePong ∧ f.wire = []) := by
  obtain ⟨hlog, hmark⟩ := wsPass_complete hopen hflag hstream harrive hlen
  have hpc : opcodePing ≠ opcodeClose := by decide
  have hpp : opcodePing ≠ opcodePong := by decide
  have hcp : opcodeClose ≠ opcodePong := by decide
  constructor
  · intro ⟨evs, hevs, hclose, hping, hquiet⟩
    obtain rfl : (f.outcome env.frame.maskingKey).1 = evs :=
      List.append_cancel_left (hlog.symm.trans hevs)
    rw [hmark] at hclose
    by_cases hcontrol : f.IsControl
    · right
      unfold WireFrame.outcome at hclose hping hquiet
      by_cases hne : f.wire = []
      · simp only [if_pos hne] at hclose hping
        rcases hcontrol with h | h | h
        · exact absurd (hclose h) (by simp)
        · obtain ⟨g, hsent, -⟩ := hping h
          cases hsent
        · exact Or.inr ⟨h, hne⟩
      · simp only [if_neg hne] at hping hquiet
        rcases hcontrol with h | h | h
        · exact Or.inl ⟨h, hne⟩
        · obtain ⟨g, hsent, hopcode, -⟩ := hping h
          rw [if_pos h] at hsent
          have hpayload : f.payload ≠ [] := by
            intro hnil
            have := length_payload (f := f)
            rw [hnil] at this
            exact hne (List.length_eq_zero_iff.mp this.symm)
          exact absurd hopcode (sentFrames_ne_pong hopen hpayload hsent)
        · have hnot := hquiet (Or.inr (Or.inr h)) (f.header.frame env.frame.maskingKey)
            (f.payload ++ [0])
          rw [if_neg (by rw [h]; exact hpp.symm), if_neg (by rw [h]; exact hcp.symm)] at hnot
          exact absurd (List.mem_singleton.mpr rfl) hnot
    · exact Or.inl hcontrol
  · intro h
    refine ⟨_, hlog, ?_, ?_, ?_⟩
    · intro hclose
      rcases h with h | ⟨-, hne⟩ | ⟨h, -⟩
      · exact absurd (Or.inl hclose) h
      · rw [hmark]
        unfold WireFrame.outcome
        rw [if_neg hne, if_neg (by rw [hclose]; exact hpc.symm), if_pos hclose]
      · exact absurd (hclose.symm.trans h) hcp
    · intro hping
      rcases h with h | ⟨h, -⟩ | ⟨h, -⟩
      · exact absurd (Or.inr (Or.inl hping)) h
      · exact absurd (hping.symm.trans h) hpc
      · exact absurd (hping.symm.trans h) hpp
    · intro hcontrol frame msg
      rcases h with h | ⟨h, hne⟩ | ⟨-, hnil⟩
      · exact absurd hcontrol h
      · unfold WireFrame.outcome
        rw [if_neg hne, if_neg (by rw [h]; exact hpc.symm), if_pos h]
        exact List.not_mem_nil
      · unfold WireFrame.outcome
        rw [if_pos hnil]
        exact List.not_mem_nil

end

/-- A masked frame with one byte of payload. -/
def oneByteFrame (opcode : UInt8) : WireFrame where
  header :=
    { b₀ := flagFin ||| opcode
      b₁ := 0x81
      lenBytes := []
      key := [1, 2, 3, 4]
      lenBytes_length := by decide
      key_length := by decide }
  wire := [7]
  wire_length :=
    (by decide : 1 = if extLenSize 0x81 = 0 then ((0x81 : UInt8) &&& payloadMask).toNat
      else ofBeBytes [])

/-- A pass in which header, key and a payload of one byte arrive whole. -/
def oneBytePass : WsEnv := { sixByteHeader with block := some [0, 0], payload := .got 1 }

theorem controlHonoured_close :
    ControlHonoured (oneByteFrame opcodeClose)
      ⟨wsConn, (oneByteFrame opcodeClose).bytes ++ [], []⟩
      (wsPass ⟨wsConn, (oneByteFrame opcodeClose).bytes ++ [], []⟩ oneBytePass) :=
  (controlHonoured_iff ⟨by decide, rfl, rfl⟩ rfl rfl
    ⟨⟨rfl, fun h => absurd rfl h, fun _ => rfl⟩, ⟨rfl, rfl, rfl⟩, fun _ => ⟨[0, 0], rfl, rfl, rfl⟩⟩
    (by decide)).mpr (Or.inr (Or.inl ⟨by decide, by decide⟩))

/-- A ping of one byte is answered with the opcode 0xB. -/
theorem not_controlHonoured_ping :
    ¬ ControlHonoured (oneByteFrame opcodePing)
      ⟨wsConn, (oneByteFrame opcodePing).bytes ++ [], []⟩
      (wsPass ⟨wsConn, (oneByteFrame opcodePing).bytes ++ [], []⟩ oneBytePass) := by
  rintro ⟨evs, hevs, -, hping, -⟩
  obtain ⟨g, hsent, hopcode, -⟩ := hping (by decide)
  have hlog : (wsPass ⟨wsConn, (oneByteFrame opcodePing).bytes ++ [], []⟩ oneBytePass).log =
      [.pong [6]] := by
    decide
  rw [hlog] at hevs
  obtain rfl : [.pong [6]] = evs := hevs
  exact sentFrames_ne_pong ⟨by decide, rfl, rfl⟩ (by simp) hsent hopcode

end WLink.Httpd
