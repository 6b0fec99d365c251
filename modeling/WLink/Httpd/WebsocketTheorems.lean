import WLink.Httpd.Websocket
import WLink.Lib.Run
import Mathlib.Data.List.GetD

/-!
# WebSocket frames and the stream

`ClientFrame.encode` is a masked frame on the wire, `InSync` says that the frames handled so far
are the first ones of those that were sent and that the next one, if any, is still in the
socket from its first byte on. `wsPass_inSync` is the step lemma: a pass keeps this if it
either finds no header or gets each of the parts of the next frame in one piece. For runs
this is `inSync_of_passesOk`.
-/

namespace WLink.Httpd

open WLink.Lib

/-! ## Frames on the wire -/

/-- How the length of a frame is encoded. -/
inductive LengthForm
  | short
  | sixteen
  | sixtyFour
deriving DecidableEq, Repr

/-- The lengths that a form can hold. -/
def LengthForm.Holds : LengthForm → ℕ → Prop
  | .short, len => len ≤ 125
  | .sixteen, len => len < 2 ^ 16
  | .sixtyFour, len => len < 2 ^ 64

/-- A masked frame that a client sends; `first` is its first byte, with flags and opcode. -/
structure ClientFrame where
  first : UInt8
  key : List UInt8
  payload : List UInt8
  form : LengthForm
  key_length : key.length = 4
  holds : form.Holds payload.length

namespace ClientFrame

variable (f : ClientFrame)

def opcode : UInt8 := f.first &&& opcodeMask

/-- The length field of the second byte. -/
def length7 : ℕ :=
  match f.form with
  | .short => f.payload.length
  | .sixteen => 126
  | .sixtyFour => 127

/-- The extended length. -/
def lengthBytes : List UInt8 :=
  match f.form with
  | .short => []
  | .sixteen => beBytes 2 f.payload.length
  | .sixtyFour => beBytes 8 f.payload.length

def encode : List UInt8 :=
  [f.first, UInt8.ofNat (128 + f.length7)] ++ (f.lengthBytes ++ (f.key ++ xorKey f.key f.payload))

/-- The frame record that stands for the frame. -/
def frame : WsFrame where
  flags := f.first &&& flagsMask
  opcode := f.opcode
  isMasked := isMaskedMask
  payloadLength := f.payload.length
  maskingKey := f.key

/-- What a frame that is handled leads to: a message for the callback, with its payload and a
NUL, or a pong. -/
def handled : List WsEvent :=
  if f.payload = [] then []
  else if f.opcode = opcodePing then [.pong f.payload]
  else if f.opcode = opcodeClose then []
  else [.message f.frame (f.payload ++ [0])]

/-- A frame that ends the connection: a close, or one that does not fit the buffer. -/
def Ends : Prop :=
  (f.payload ≠ [] ∧ f.opcode = opcodeClose) ∨ httpWsServerDatBufSize < f.payload.length

end ClientFrame

/-! ## Synchrony -/

/-- The frames handled are the first of those sent, and the socket has the others; or the
connection is marked for destruction because of the next one. -/
def InSync (frames : List ClientFrame) (s : WsState) : Prop :=
  ∃ k ≤ frames.length, s.log = (frames.take k).flatMap ClientFrame.handled ∧
    if s.conn.connectionDestructFlag then ∃ f, frames[k]? = some f ∧ f.Ends
    else s.stream = (frames.drop k).flatMap ClientFrame.encode

/-- The connection can send and receive. -/
def IsOpen (conn : Conn) : Prop :=
  0 ≤ conn.socketId ∧ conn.websocketClient = true ∧ conn.websocketAuth = true

/-- The header of the frame, its extended length and its key arrive in one piece each. -/
def HeaderWhole (f : ClientFrame) (env : WsEnv) : Prop :=
  env.header = .got 2 ∧ env.maskingKey = .got 4 ∧ env.headerBuf.length = 2 ∧
    env.lenDataBuf.length = 8 ∧ env.maskingKeyBuf.length = 4 ∧
    match f.form with
    | .short => True
    | .sixteen => env.lenData = .got 2
    | .sixtyFour => env.lenData = .got 8

/-- The payload arrives in one piece and fits the buffer, or the frame is a close of which some
bytes arrive, or its length is a multiple of 65536, for which nothing is asked for. -/
def PayloadWhole (f : ClientFrame) (env : WsEnv) : Prop :=
  f.payload = [] ∨ ∃ buf, env.block = some buf ∧ buf.length = recDatLen f.frame + 1 ∧
    ((f.payload.length ≤ httpWsServerDatBufSize ∧ env.payload = .got f.payload.length) ∨
      (f.opcode = opcodeClose ∧ ∃ n, 1 ≤ n ∧ env.payload = .got n) ∨
      (recDatLen f.frame = 0 ∧ env.payload = .closed))

/-- What a pass needs to stay in sync: `recv` gives no header, or the parts of the frame that
the socket starts with arrive whole. -/
def PassOk (s : WsState) (env : WsEnv) : Prop :=
  s.conn.connectionDestructFlag = true ∨ (∃ e d, env.header = .failed e d) ∨
    ∃ f rest, s.stream = ClientFrame.encode f ++ rest ∧ HeaderWhole f env ∧ PayloadWhole f env

/-! ## Masking -/

@[simp] theorem length_xorKey (key bs : List UInt8) : (xorKey key bs).length = bs.length := by
  simp [xorKey]

/-- Masking twice is not masking. -/
theorem xorKey_xorKey (key bs : List UInt8) : xorKey key (xorKey key bs) = bs := by
  apply List.ext_getElem
  · simp
  · intro i h₁ h₂
    simp [xorKey, UInt8.xor_assoc]

/-- Unmasking a whole payload in a buffer that is one byte longer. -/
theorem unmaskWsPayload_xorKey (key payload : List UInt8)
    (hlen : payload.length ≤ httpWsServerDatBufSize) (b : UInt8) :
    unmaskWsPayload (xorKey key payload ++ [b]) payload.length key = payload ++ [b] := by
  unfold unmaskWsPayload
  simp only [if_neg (show ¬ httpWsServerDatBufSize < payload.length by omega)]
  rw [List.take_left' (length_xorKey key payload), List.drop_left' (length_xorKey key payload),
    xorKey_xorKey]

/-! ## Receiving the parts -/

/-- The second byte of a masked frame. -/
theorem second_byte : ∀ len < 128, (UInt8.ofNat (128 + len) &&& payloadMask).toNat = len ∧
    UInt8.ofNat (128 + len) &&& isMaskedMask = isMaskedMask := by
  decide

namespace ClientFrame

variable (f : ClientFrame)

theorem length7_lt : f.length7 < 128 := by
  have h := f.holds
  unfold length7
  cases hf : f.form with
  | short =>
    rw [hf] at h
    have : f.payload.length ≤ 125 := h
    show f.payload.length < 128
    omega
  | sixteen => exact (by decide : 126 < 128)
  | sixtyFour => exact (by decide : 127 < 128)

/-- The masking key is read and the masked payload left. -/
theorem receiveMaskingKey_whole {env : WsEnv} (hkey : env.maskingKey = .got 4)
    (hbuf : env.maskingKeyBuf.length = 4) (frame : WsFrame) (hmask : frame.isMasked ≠ 0)
    (rest : List UInt8) :
    receiveMaskingKey env frame (f.key ++ rest) = (0, { frame with maskingKey := f.key }, rest) := by
  unfold receiveMaskingKey
  rw [if_pos hmask, hkey, recvInto_whole f.key_length hbuf]
  rfl

theorem receiveLength_whole {env : WsEnv} {size : ℕ} (hlen : env.lenData = .got size)
    (hpos : 0 < size) (hlenBuf : size ≤ env.lenDataBuf.length) (hkey : env.maskingKey = .got 4)
    (hbuf : env.maskingKeyBuf.length = 4) (hsize : f.payload.length < 256 ^ size)
    (frame : WsFrame) (hmask : frame.isMasked ≠ 0) (rest : List UInt8) :
    receiveLength env size frame (beBytes size f.payload.length ++ (f.key ++ rest)) =
      (0, { frame with payloadLength := f.payload.length, maskingKey := f.key }, rest) := by
  unfold receiveLength
  rw [hlen, recvInto_whole (length_beBytes _ _) (List.length_take_of_le hlenBuf)]
  show (if (size : ℤ) ≤ 0 then _ else _) = _
  rw [if_neg (by omega), ofBeBytes_beBytes, Nat.mod_eq_of_lt hsize]
  exact f.receiveMaskingKey_whole hkey hbuf { frame with payloadLength := f.payload.length } hmask _

/-- A header that arrives whole is read as what was sent. -/
theorem receiveWsFrame_whole {env : WsEnv} (h : HeaderWhole f env) {conn : Conn}
    (hopen : IsOpen conn) (hflag : conn.connectionDestructFlag = false) (rest : List UInt8) :
    receiveWsFrame conn env (f.encode ++ rest) = (0, f.frame, xorKey f.key f.payload ++ rest) := by
  obtain ⟨hheader, hkey, hbuf₁, hbuf₂, hbuf₃, hlen⟩ := h
  obtain ⟨hl, hm⟩ := second_byte f.length7 f.length7_lt
  have hne : isMaskedMask ≠ 0 := by decide
  have hsock := hopen.1
  unfold receiveWsFrame encode
  rw [hflag, if_neg (by simp), if_neg (by omega), hheader, List.append_assoc,
    recvInto_whole (n := 2) (a := [f.first, UInt8.ofNat (128 + f.length7)]) rfl hbuf₁]
  show (if (2 : ℤ) ≤ 0 then _ else _) = _
  rw [if_neg (by norm_num)]
  simp only [List.getD_cons_zero, List.getD_cons_succ, hl, hm]
  have hholds := f.holds
  unfold length7 lengthBytes frame opcode
  cases hf : f.form with
  | short =>
    rw [hf] at hholds
    have hle : f.payload.length ≤ 125 := hholds
    simp only [List.nil_append, List.append_assoc]
    rw [if_neg (by omega), if_neg (by omega)]
    exact f.receiveMaskingKey_whole hkey hbuf₃ _ hne _
  | sixteen =>
    rw [hf] at hholds hlen
    have hlt : f.payload.length < 2 ^ 16 := hholds
    simp only [List.append_assoc, if_true]
    exact f.receiveLength_whole hlen (by decide) (by omega) hkey hbuf₃ (by omega) _ hne _
  | sixtyFour =>
    rw [hf] at hholds hlen
    have hlt : f.payload.length < 2 ^ 64 := hholds
    simp only [List.append_assoc]
    rw [if_neg (by norm_num), if_pos trivial]
    exact f.receiveLength_whole hlen (by decide) (by omega) hkey hbuf₃ (by omega) _ hne _

/-- The second byte tells the form of the length. -/
theorem form_eq : f.form =
    if f.length7 = 126 then .sixteen else if f.length7 = 127 then .sixtyFour else .short := by
  have h := f.holds
  unfold length7
  cases hf : f.form with
  | short =>
    rw [hf] at h
    have hle : f.payload.length ≤ 125 := h
    show _ = if f.payload.length = 126 then _ else if f.payload.length = 127 then _ else _
    rw [if_neg (by omega), if_neg (by omega)]
  | sixteen => rfl
  | sixtyFour => rfl

/-- Frames are told apart by their bytes, whatever follows them: the receiver that gets its
parts whole tells them apart. -/
theorem encode_append_inj {f g : ClientFrame} {a b : List UInt8}
    (h : f.encode ++ a = g.encode ++ b) : f = g ∧ a = b := by
  obtain ⟨hfirst, hsecond, -⟩ : f.first = g.first ∧
      UInt8.ofNat (128 + f.length7) = UInt8.ofNat (128 + g.length7) ∧ _ := by
    simpa only [encode, List.cons_append, List.nil_append, List.cons.injEq] using h
  have hlen7 : f.length7 = g.length7 := by
    rw [← (second_byte _ f.length7_lt).1, hsecond, (second_byte _ g.length7_lt).1]
  have hform : f.form = g.form := by rw [f.form_eq, g.form_eq, hlen7]
  let env : WsEnv :=
    { frame := ⟨0, 0, 0, 0, []⟩
      headerBuf := List.replicate 2 0
      lenDataBuf := List.replicate 8 0
      maskingKeyBuf := List.replicate 4 0
      header := .got 2
      lenData := .got (match f.form with | .short => 0 | .sixteen => 2 | .sixtyFour => 8)
      maskingKey := .got 4
      block := none
      payload := .closed }
  have hwf : HeaderWhole f env := by
    refine ⟨rfl, rfl, rfl, rfl, rfl, ?_⟩
    show match f.form with | .short => True | .sixteen => _ | .sixtyFour => _
    cases hff : f.form <;> simp [env, hff]
  have hwg : HeaderWhole g env := by
    refine ⟨rfl, rfl, rfl, rfl, rfl, ?_⟩
    show match g.form with | .short => True | .sixteen => _ | .sixtyFour => _
    rw [← hform]
    cases hff : f.form <;> simp [env, hff]
  have hopen : IsOpen { Conn.fresh with websocketClient := true, websocketAuth := true } :=
    ⟨Int.le_refl 0, rfl, rfl⟩
  have hrun := f.receiveWsFrame_whole hwf hopen rfl a
  rw [h, g.receiveWsFrame_whole hwg hopen rfl b] at hrun
  obtain ⟨-, hframe, hrest⟩ : _ ∧ g.frame = f.frame ∧
      xorKey g.key g.payload ++ b = xorKey f.key f.payload ++ a := by
    simpa only [Prod.mk.injEq] using hrun
  have hkey : g.key = f.key := congrArg WsFrame.maskingKey hframe
  have hlen : g.payload.length = f.payload.length := congrArg WsFrame.payloadLength hframe
  obtain ⟨hxor, hba⟩ := List.append_inj hrest (by simp [hlen])
  have hpayload : g.payload = f.payload := by
    rw [← xorKey_xorKey g.key g.payload, hxor, hkey, xorKey_xorKey]
  refine ⟨?_, hba.symm⟩
  obtain ⟨first, key, payload, form, _, _⟩ := f
  obtain ⟨first', key', payload', form', _, _⟩ := g
  simp only at hfirst hkey hpayload hform
  subst hfirst hkey hpayload hform
  rfl

theorem recDatLen_of_le (h : f.payload.length ≤ httpWsServerDatBufSize) :
    recDatLen f.frame = f.payload.length := by
  have hmod : f.payload.length % 2 ^ 16 = f.payload.length :=
    Nat.mod_eq_of_lt (Nat.lt_of_le_of_lt h (by decide))
  show (if httpWsServerDatBufSize ≤ f.payload.length % 2 ^ 16 then _
    else f.payload.length % 2 ^ 16) = _
  rw [hmod]
  split
  · omega
  · rfl

/-- A length that sixteen bits lose altogether is too much for the buffer. -/
theorem too_long_of_recDatLen (hne : f.payload ≠ []) (h : recDatLen f.frame = 0) :
    httpWsServerDatBufSize < f.payload.length := by
  by_contra hle
  have := f.recDatLen_of_le (Nat.le_of_not_lt hle)
  have := List.length_pos_of_ne_nil hne
  omega

end ClientFrame

/-! ## One pass -/

section

variable {f : ClientFrame} {env : WsEnv} {s : WsState} {rest : List UInt8}

/-- A payload that arrives whole and fits is handled: once, in full and unmasked. -/
theorem receiveWsPayload_whole (hopen : IsOpen s.conn)
    (hflag : s.conn.connectionDestructFlag = false) (hne : f.payload ≠ [])
    (hclose : f.opcode ≠ opcodeClose) (hlen : f.payload.length ≤ httpWsServerDatBufSize)
    {buf : List UInt8} (hbuf : buf.length = f.payload.length + 1)
    (hstream : s.stream = xorKey f.key f.payload ++ rest) :
    ∃ conn, receiveWsPayload s f.frame (.got f.payload.length) buf =
        ⟨conn, rest, s.log ++ f.handled⟩ ∧
      IsOpen conn ∧ conn.connectionDestructFlag = false := by
  have hxor : (xorKey f.key f.payload).length = f.payload.length := length_xorKey _ _
  have hpos := List.length_pos_of_ne_nil hne
  obtain ⟨b, hb⟩ : ∃ b, buf.drop f.payload.length = [b] := by
    apply List.length_eq_one_iff.mp
    rw [List.length_drop]
    omega
  have hrec := f.recDatLen_of_le hlen
  have hset : (xorKey f.key f.payload ++ [b]).set f.payload.length 0 =
      xorKey f.key f.payload ++ [0] := by
    rw [List.set_append_right _ _ (by omega), hxor, Nat.sub_self]
    rfl
  have hrecv : recvInto (.got f.payload.length) buf s.stream =
      ((f.payload.length : ℤ), xorKey f.key f.payload ++ [b], rest) := by
    show (_, s.stream.take f.payload.length ++ buf.drop f.payload.length,
      s.stream.drop f.payload.length) = _
    rw [hstream, List.take_left' hxor, List.drop_left' hxor, hb]
  have hmask : f.frame.isMasked ≠ 0 := by show isMaskedMask ≠ 0; decide
  have hunmask : unmaskWsPayload (xorKey f.key f.payload ++ [0]) f.payload.length f.key =
      f.payload ++ [0] := unmaskWsPayload_xorKey _ _ hlen _
  unfold receiveWsPayload
  simp only [hrecv]
  rw [if_neg (by omega), Int.toNat_natCast]
  unfold handleWsFrame ClientFrame.handled
  rw [if_neg (by omega), if_neg hne]
  simp only [hset, if_pos hmask, hrec]
  rw [show f.frame.maskingKey = f.key from rfl, hunmask, show f.frame.opcode = f.opcode from rfl]
  obtain ⟨hsock, hclient, hauth⟩ := hopen
  by_cases hping : f.opcode = opcodePing
  · rw [if_pos hping, if_pos hping, List.take_left]
    refine ⟨(s.conn.timerStop).timerReStart, ?_, ⟨hsock, hclient, hauth⟩, hflag⟩
    unfold WsState.sendPong
    simp only
    rw [if_neg (by simp [Conn.timerStop, hclient, hauth]; omega), if_neg hne]
  · rw [if_neg hping, if_neg hclose, if_neg hping, if_neg hclose, if_pos hpos]
    exact ⟨(s.conn.timerStop).timerReStart, rfl, ⟨hsock, hclient, hauth⟩, hflag⟩

/-- A close of which some bytes arrive ends the connection. -/
theorem receiveWsPayload_close (hclose : f.opcode = opcodeClose) {n : ℕ} (hn : 1 ≤ n)
    (buf : List UInt8) :
    (receiveWsPayload s f.frame (.got n) buf).conn.connectionDestructFlag = true ∧
      (receiveWsPayload s f.frame (.got n) buf).log = s.log := by
  unfold receiveWsPayload recvInto handleWsFrame
  have hping : f.frame.opcode ≠ opcodePing := by
    show f.opcode ≠ opcodePing
    rw [hclose]
    decide
  simp only [Int.toNat_natCast]
  rw [if_neg (by omega)]
  by_cases hlong : httpWsServerDatBufSize < n
  · rw [if_pos hlong]
    exact ⟨rfl, rfl⟩
  · rw [if_neg hlong, if_neg hping, if_pos (show f.frame.opcode = opcodeClose from hclose)]
    exact ⟨rfl, rfl⟩

/-- A pass whose first `recv` gives nothing changes nothing. -/
theorem wsPass_no_header {err : Option ℤ} {d : Bool} (h : env.header = .failed err d) :
    wsPass s env = s := by
  have hret : receiveWsFrame s.conn env s.stream = (-1, env.frame, s.stream) := by
    unfold receiveWsFrame
    rw [h]
    split
    · rfl
    · split <;> rfl
  unfold wsPass
  rw [hret]
  split <;> rfl

/-- A pass over a frame whose parts arrive whole either handles it or marks the connection for
destruction because the frame ends it. -/
theorem wsPass_whole (hopen : IsOpen s.conn) (hflag : s.conn.connectionDestructFlag = false)
    (hstream : s.stream = f.encode ++ rest) (hheader : HeaderWhole f env)
    (hpayload : PayloadWhole f env) :
    (∃ conn, wsPass s env = ⟨conn, rest, s.log ++ f.handled⟩ ∧ IsOpen conn ∧
        conn.connectionDestructFlag = false) ∨
      ((wsPass s env).conn.connectionDestructFlag = true ∧ (wsPass s env).log = s.log ∧
        f.Ends) := by
  have hframe := f.receiveWsFrame_whole hheader hopen hflag rest
  rw [← hstream] at hframe
  unfold wsPass
  rw [hflag, if_neg (by simp), hframe]
  dsimp only
  rw [if_neg (by decide), show f.frame.payloadLength = f.payload.length from rfl]
  by_cases hne : f.payload = []
  · refine Or.inl ⟨s.conn, ?_, hopen, hflag⟩
    unfold ClientFrame.handled
    rw [if_pos (List.length_eq_zero_iff.mpr hne), if_pos hne, hne, List.append_nil]
    rfl
  rw [if_neg (mt List.length_eq_zero_iff.mp hne)]
  obtain ⟨buf, hblock, hbuf, hcases⟩ := hpayload.resolve_left hne
  rw [hblock]
  rcases hcases with ⟨hlen, hwhole⟩ | ⟨hclose, n, hn, hsome⟩ | ⟨hzero, hclosed⟩
  · by_cases hclose : f.opcode = opcodeClose
    · have hpos := List.length_pos_of_ne_nil hne
      obtain ⟨hdestruct, hlog⟩ := receiveWsPayload_close
        (s := { s with stream := xorKey f.key f.payload ++ rest }) hclose hpos buf
      simp only [hwhole]
      exact Or.inr ⟨hdestruct, hlog, Or.inl ⟨hne, hclose⟩⟩
    · rw [f.recDatLen_of_le hlen] at hbuf
      simp only [hwhole]
      exact Or.inl (receiveWsPayload_whole
        (s := { s with stream := xorKey f.key f.payload ++ rest }) hopen hflag hne hclose hlen
        hbuf rfl)
  · obtain ⟨hdestruct, hlog⟩ := receiveWsPayload_close
      (s := { s with stream := xorKey f.key f.payload ++ rest }) hclose hn buf
    simp only [hsome]
    exact Or.inr ⟨hdestruct, hlog, Or.inl ⟨hne, hclose⟩⟩
  · simp only [hclosed]
    exact Or.inr ⟨rfl, rfl, Or.inr (f.too_long_of_recDatLen hne hzero)⟩

end

/-! ## Runs -/

/-- `InSync` for a connection that can go on. -/
def OpenInSync (frames : List ClientFrame) (s : WsState) : Prop :=
  InSync frames s ∧ (s.conn.connectionDestructFlag = false → IsOpen s.conn)

/-- The step lemma. -/
theorem wsPass_inSync (frames : List ClientFrame) (s : WsState) (env : WsEnv)
    (h : OpenInSync frames s) (hok : PassOk s env) : OpenInSync frames (wsPass s env) := by
  by_cases hflag : s.conn.connectionDestructFlag = true
  · have hstay : wsPass s env = s := by
      unfold wsPass
      rw [if_pos hflag]
    rwa [hstay]
  rw [Bool.not_eq_true] at hflag
  rcases hok with hdestruct | ⟨err, d, hheader⟩ | ⟨f, rest, hf, hheader, hpayload⟩
  · rw [hflag] at hdestruct
    cases hdestruct
  · rwa [wsPass_no_header hheader]
  obtain ⟨⟨k, hk, hlog, hstream⟩, hopen⟩ := h
  rw [if_neg (by rw [hflag]; simp)] at hstream
  -- the frame that the socket starts with is the next one that was sent
  have hlt : k < frames.length := by
    apply Nat.lt_of_le_of_ne hk
    rintro rfl
    rw [List.drop_length, hf] at hstream
    cases hstream
  have hnext : s.stream = frames[k].encode ++ (frames.drop (k + 1)).flatMap ClientFrame.encode := by
    rw [hstream, List.drop_eq_getElem_cons hlt, List.flatMap_cons]
  obtain ⟨rfl, -⟩ := ClientFrame.encode_append_inj (hf.symm.trans hnext)
  rcases wsPass_whole (hopen hflag) hflag hnext hheader hpayload with
    ⟨conn, hpass, hopen', hflag'⟩ | ⟨hdestruct, hlog', hends⟩
  · rw [hpass]
    refine ⟨⟨k + 1, hlt, ?_, ?_⟩, fun _ => hopen'⟩
    · show s.log ++ _ = _
      rw [hlog, List.take_succ_eq_append_getElem hlt, List.flatMap_append]
      simp
    · show if conn.connectionDestructFlag then _ else _
      rw [hflag', if_neg (by simp)]
  · refine ⟨⟨k, hk, hlog'.trans hlog, ?_⟩, fun hf => ?_⟩
    · rw [hdestruct, if_pos rfl]
      exact ⟨frames[k], List.getElem?_eq_getElem hlt, hends⟩
    · rw [hdestruct] at hf
      cases hf

/-- The state in which a client that has done the handshake starts to send frames. -/
def WsState.start (conn : Conn) (frames : List ClientFrame) : WsState :=
  ⟨conn, frames.flatMap ClientFrame.encode, []⟩

/-- If in every pass `recv` gives no header or the parts of the next frame arrive whole, then the
frames handled are those that were sent all along the run. -/
theorem inSync_of_passesOk (frames : List ClientFrame) (conn : Conn) (hopen : IsOpen conn)
    (hflag : conn.connectionDestructFlag = false) (envs : List WsEnv)
    (hok : AllSteps wsPass PassOk (.start conn frames) envs) :
    Always wsPass (InSync frames) (.start conn frames) envs := by
  have hstart : OpenInSync frames (.start conn frames) := by
    refine ⟨⟨0, Nat.zero_le _, rfl, ?_⟩, fun _ => hopen⟩
    show if conn.connectionDestructFlag then _ else _
    rw [hflag, if_neg (by simp)]
    rfl
  exact (always_of_allSteps (wsPass_inSync frames) hstart hok).imp fun _ h => h.1

/-- A text frame with the payload `hi`. -/
def hiFrame : ClientFrame where
  first := 0x81
  key := [1, 2, 3, 4]
  payload := ascii "hi"
  form := .short
  key_length := rfl
  holds := by show 2 ≤ 125; decide

/-- A connection after the handshake. -/
def wsConn : Conn := { Conn.fresh with websocketClient := true, websocketAuth := true }

/-- A pass in which header, key and a payload of two bytes arrive whole. -/
def wholePass : WsEnv where
  frame := ⟨0, 0, 0, 0, []⟩
  headerBuf := [0, 0]
  lenDataBuf := [0, 0, 0, 0, 0, 0, 0, 0]
  maskingKeyBuf := [0, 0, 0, 0]
  header := .got 2
  lenData := .wouldBlock
  maskingKey := .got 4
  block := some [0, 0, 0]
  payload := .got 2

/-- A pass in which nothing has arrived yet. -/
def splitHeader : WsEnv := { wholePass with header := .wouldBlock }

/-- A pass in which the key has not arrived yet. -/
def splitPass : WsEnv := { wholePass with maskingKey := .wouldBlock }

theorem inSync_wholePass :
    Always wsPass (InSync [hiFrame]) (.start wsConn [hiFrame]) [splitHeader, wholePass] := by
  apply inSync_of_passesOk [hiFrame] wsConn ⟨by decide, rfl, rfl⟩ rfl
  refine ⟨Or.inr (Or.inl ⟨some eagain, false, rfl⟩), Or.inr (Or.inr ⟨hiFrame, [], ?_, ?_, ?_⟩),
    trivial⟩
  · rfl
  · exact ⟨rfl, rfl, rfl, rfl, rfl, trivial⟩
  · exact Or.inr ⟨[0, 0, 0], rfl, rfl, Or.inl ⟨by decide, rfl⟩⟩

/-- When the key is late, the header is lost and the next pass takes the key for a header. -/
theorem not_inSync_splitPass :
    ¬ Always wsPass (InSync [hiFrame]) (.start wsConn [hiFrame]) [splitPass] := by
  intro h
  obtain ⟨k, hk, hlog, hstream⟩ := h.last
  have hstate : [splitPass].foldl wsPass (.start wsConn [hiFrame]) =
      ⟨wsConn, [1, 2, 3, 4, 105, 107], []⟩ := rfl
  rw [hstate] at hlog hstream
  have hk' : k = 0 ∨ k = 1 := by
    have : k ≤ 1 := hk
    omega
  rcases hk' with rfl | rfl
  · have hne : [1, 2, 3, 4, 105, 107] ≠ hiFrame.encode ++ [] := by decide
    exact hne hstream
  · exact absurd hlog (by decide)

end WLink.Httpd
