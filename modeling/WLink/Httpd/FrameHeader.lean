import WLink.Httpd.Websocket

/-!
# Frame headers on the wire

`WireHeader` is a whole frame header, with as many bytes as its second one demands, whether it
is masked or not. `receiveWsFrame_whole` says that a header whose parts arrive whole is read as
what it is. When they do not, a zero from `recv` is passed on as a success and a short count is
not noticed: `headerSound_iff` says when the result can be relied on.
-/

namespace WLink.Httpd

open WLink.Lib

/-! ## Headers -/

/-- The size of the extended length that the second byte demands. -/
def extLenSize (b₁ : UInt8) : ℕ :=
  if (b₁ &&& payloadMask).toNat = 126 then 2
  else if (b₁ &&& payloadMask).toNat = 127 then 8
  else 0

/-- The size of the masking key that the second byte demands. -/
def keySize (b₁ : UInt8) : ℕ := if b₁ &&& isMaskedMask ≠ 0 then 4 else 0

/-- A frame header with all the bytes that it demands. -/
structure WireHeader where
  b₀ : UInt8
  b₁ : UInt8
  lenBytes : List UInt8
  key : List UInt8
  lenBytes_length : lenBytes.length = extLenSize b₁
  key_length : key.length = keySize b₁

namespace WireHeader

variable (h : WireHeader)

def bytes : List UInt8 := h.b₀ :: h.b₁ :: (h.lenBytes ++ h.key)

def opcode : UInt8 := h.b₀ &&& opcodeMask

def isMasked : UInt8 := h.b₁ &&& isMaskedMask

/-- The length of the payload, from the second byte or from the extended length. -/
def payloadLength : ℕ :=
  if extLenSize h.b₁ = 0 then (h.b₁ &&& payloadMask).toNat else ofBeBytes h.lenBytes

/-- The frame record that stands for the header; without a masking key `old` is left. -/
def frame (old : List UInt8) : WsFrame where
  flags := h.b₀ &&& flagsMask
  opcode := h.opcode
  isMasked := h.isMasked
  payloadLength := h.payloadLength
  maskingKey := if h.isMasked ≠ 0 then h.key else old

theorem length_bytes : h.bytes.length = 2 + (extLenSize h.b₁ + keySize h.b₁) := by
  unfold bytes
  simp only [List.length_cons, List.length_append, h.lenBytes_length, h.key_length]
  omega

end WireHeader

/-! ## The calls of `recv` -/

/-- The local variables of a pass before it starts: no one has written to them. -/
structure WsLocals where
  frame : WsFrame
  headerBuf : List UInt8
  lenDataBuf : List UInt8
  maskingKeyBuf : List UInt8
  headerBuf_length : headerBuf.length = 2
  lenDataBuf_length : lenDataBuf.length = 8
  maskingKeyBuf_length : maskingKeyBuf.length = 4

/-- Local variables that happen to be zero. -/
def WsLocals.zero : WsLocals where
  frame := ⟨0, 0, 0, 0, [0, 0, 0, 0]⟩
  headerBuf := [0, 0]
  lenDataBuf := List.replicate 8 0
  maskingKeyBuf := List.replicate 4 0
  headerBuf_length := rfl
  lenDataBuf_length := rfl
  maskingKeyBuf_length := rfl

/-- The same results of the calls with other old contents of the local variables. -/
def WsEnv.withLocals (env : WsEnv) (l : WsLocals) : WsEnv :=
  { env with
    frame := l.frame
    headerBuf := l.headerBuf
    lenDataBuf := l.lenDataBuf
    maskingKeyBuf := l.maskingKeyBuf }

/-- The call for the extended length, if there is one, with the number of bytes it asks for. -/
def lenRecvs (env : WsEnv) (b₁ : UInt8) : List (ℕ × RecvResult) :=
  if extLenSize b₁ = 0 then [] else [(extLenSize b₁, env.lenData)]

/-- The call for the masking key, if there is one. -/
def keyRecvs (env : WsEnv) (b₁ : UInt8) : List (ℕ × RecvResult) :=
  if keySize b₁ = 0 then [] else [(keySize b₁, env.maskingKey)]

/-- The calls behind the one for the first two bytes. -/
def laterRecvs (env : WsEnv) (b₁ : UInt8) : List (ℕ × RecvResult) :=
  lenRecvs env b₁ ++ keyRecvs env b₁

/-- `RecvsFit` for calls that ask for different numbers of bytes. -/
def EachFits : List UInt8 → List (ℕ × RecvResult) → Prop
  | _, [] => True
  | stream, (asked, .got n) :: rs =>
    1 ≤ n ∧ n ≤ asked ∧ n ≤ stream.length ∧ EachFits (stream.drop n) rs
  | _, (_, .closed) :: _ => True
  | _, (_, .failed _ _) :: _ => True

/-- How many bytes the calls get up to the end of the stream, or `none` if one of them fails. -/
def received : List (ℕ × RecvResult) → Option ℕ
  | [] => some 0
  | (_, .got n) :: rs => (received rs).map (n + ·)
  | (_, .closed) :: _ => some 0
  | (_, .failed _ _) :: _ => none

/-- The results of the calls fit the socket. What follows a short first call is left open. -/
structure HeaderFits (env : WsEnv) (stream : List UInt8) : Prop where
  header : EachFits stream [(2, env.header)]
  later : env.header = .got 2 → EachFits (stream.drop 2) (laterRecvs env (stream.getD 1 0))

/-! ## Soundness -/

/-- A result that can be relied on: it is negative, or it is 0, the stream starts with a whole
header and the record has the values of that header. -/
def Reliable (stream : List UInt8) (out : ℤ × WsFrame × List UInt8) : Prop :=
  out.1 < 0 ∨ out.1 = 0 ∧
    ∃ (h : WireHeader) (old : List UInt8), stream = h.bytes ++ out.2.2 ∧ out.2.1 = h.frame old

/-- The result can be relied on whatever stood in the local variables. -/
def HeaderSound (conn : Conn) (env : WsEnv) (stream : List UInt8) : Prop :=
  ∀ l : WsLocals, Reliable stream (receiveWsFrame conn (env.withLocals l) stream)

/-- The first call fails; or it gets two bytes, and one of the others fails or together they get
all bytes that the header demands. -/
def HeaderArrives (env : WsEnv) (stream : List UInt8) : Prop :=
  (∃ e d, env.header = .failed e d) ∨
    env.header = .got 2 ∧
      (received (laterRecvs env (stream.getD 1 0)) = none ∨
        received (laterRecvs env (stream.getD 1 0)) =
          some (extLenSize (stream.getD 1 0) + keySize (stream.getD 1 0)))

/-! ## What the stages return -/

/-- What a stage makes of the calls it makes: a failed one gives -1, all others give 0 with as
many bytes taken from the stream as were received. -/
def StageOut (got : Option ℕ) (stream : List UInt8) (out : ℤ × WsFrame × List UInt8) : Prop :=
  match got with
  | none => out.1 = -1
  | some k => out.1 = 0 ∧ out.2.2 = stream.drop k

section

variable {env : WsEnv} {b₁ : UInt8} {frame : WsFrame} {stream : List UInt8}

theorem keySize_pos_iff : 0 < keySize b₁ ↔ b₁ &&& isMaskedMask ≠ 0 := by
  unfold keySize
  split <;> simp_all

theorem receiveMaskingKey_out (hmask : frame.isMasked = b₁ &&& isMaskedMask)
    (hfit : EachFits stream (keyRecvs env b₁)) :
    StageOut (received (keyRecvs env b₁)) stream (receiveMaskingKey env frame stream) := by
  unfold receiveMaskingKey keyRecvs at *
  rw [hmask]
  by_cases hkey : b₁ &&& isMaskedMask = 0
  · have hsize : keySize b₁ = 0 := if_neg (not_not.mpr hkey)
    rw [if_neg (not_not.mpr hkey), if_pos hsize]
    exact ⟨rfl, rfl⟩
  · -- a masked frame: the call for the key decides
    have hsize : keySize b₁ ≠ 0 := by
      have := keySize_pos_iff.mpr hkey
      omega
    rw [if_pos hkey, if_neg hsize]
    rw [if_neg hsize] at hfit
    cases hr : env.maskingKey with
    | failed e d => exact rfl
    | closed => exact ⟨rfl, rfl⟩
    | got n =>
      rw [hr] at hfit
      obtain ⟨hpos, -⟩ := hfit
      show StageOut _ _ (if (n : ℤ) ≤ 0 then _ else _)
      rw [if_neg (by omega)]
      exact ⟨rfl, rfl⟩

theorem StageOut.drop {got : Option ℕ} {n : ℕ} {out : ℤ × WsFrame × List UInt8}
    (h : StageOut got (stream.drop n) out) : StageOut (got.map (n + ·)) stream out := by
  cases got with
  | none => exact h
  | some k =>
    obtain ⟨hret, hrest⟩ := h
    refine ⟨hret, ?_⟩
    rw [hrest, List.drop_drop]

theorem receiveLength_out (hmask : frame.isMasked = b₁ &&& isMaskedMask)
    (hsize : extLenSize b₁ ≠ 0) (hfit : EachFits stream (laterRecvs env b₁)) :
    StageOut (received (laterRecvs env b₁)) stream
      (receiveLength env (extLenSize b₁) frame stream) := by
  unfold laterRecvs lenRecvs at *
  rw [if_neg hsize] at hfit ⊢
  unfold receiveLength
  cases hr : env.lenData with
  | failed e d => exact rfl
  | closed => exact ⟨rfl, rfl⟩
  | got n =>
    rw [hr] at hfit
    obtain ⟨hpos, -, -, hkey⟩ := hfit
    show StageOut _ _ (if (n : ℤ) ≤ 0 then _ else receiveMaskingKey _ _ (stream.drop n))
    rw [if_neg (by omega)]
    exact StageOut.drop (receiveMaskingKey_out (by exact hmask) hkey)

end

/-! ## The first two bytes -/

/-- The connection can be asked for a frame. -/
def CanReceive (conn : Conn) : Prop := conn.connectionDestructFlag = false ∧ 0 ≤ conn.socketId

/-- The record when the first two bytes have been taken apart. -/
def firstFrame (env : WsEnv) (b₀ b₁ : UInt8) : WsFrame :=
  { env.frame with
    flags := b₀ &&& flagsMask
    opcode := b₀ &&& opcodeMask
    isMasked := b₁ &&& isMaskedMask
    payloadLength := (b₁ &&& payloadMask).toNat }

section

variable {env : WsEnv} {conn : Conn} {b₁ : UInt8}

/-- Behind the first two bytes the extended length is received if there is one, and then the
masking key. -/
theorem receiveWsFrame_eq (hconn : CanReceive conn) (hbuf : env.headerBuf.length = 2)
    (hheader : env.header = .got 2) (b₀ b₁ : UInt8) (rest : List UInt8) :
    receiveWsFrame conn env (b₀ :: b₁ :: rest) =
      if extLenSize b₁ = 0 then receiveMaskingKey env (firstFrame env b₀ b₁) rest
      else receiveLength env (extLenSize b₁) (firstFrame env b₀ b₁) rest := by
  obtain ⟨hflag, hsock⟩ := hconn
  have hrecv : recvInto (.got 2) env.headerBuf (b₀ :: b₁ :: rest) = (2, [b₀, b₁], rest) := by
    show ((2 : ℤ), [b₀, b₁] ++ env.headerBuf.drop 2, rest) = _
    rw [List.drop_of_length_le (by omega), List.append_nil]
  unfold receiveWsFrame
  rw [hflag, if_neg (by simp), if_neg (by omega), hheader, hrecv]
  show (if (2 : ℤ) ≤ 0 then _ else _) = _
  rw [if_neg (by norm_num)]
  show (if (b₁ &&& payloadMask).toNat = 126 then receiveLength env 2 (firstFrame env b₀ b₁) rest
    else if (b₁ &&& payloadMask).toNat = 127 then receiveLength env 8 (firstFrame env b₀ b₁) rest
    else receiveMaskingKey env (firstFrame env b₀ b₁) rest) = _
  unfold extLenSize
  by_cases h126 : (b₁ &&& payloadMask).toNat = 126
  · simp only [if_pos h126]
    rfl
  · by_cases h127 : (b₁ &&& payloadMask).toNat = 127
    · simp only [if_neg h126, if_pos h127]
      rfl
    · simp only [if_neg h126, if_neg h127, if_true]

theorem receiveWsFrame_out (hconn : CanReceive conn) (hbuf : env.headerBuf.length = 2)
    (hheader : env.header = .got 2) (b₀ : UInt8) {rest : List UInt8}
    (hfit : EachFits rest (laterRecvs env b₁)) :
    StageOut (received (laterRecvs env b₁)) rest (receiveWsFrame conn env (b₀ :: b₁ :: rest)) := by
  rw [receiveWsFrame_eq hconn hbuf hheader]
  -- without an extended length there is the masking key only
  by_cases hsize : extLenSize b₁ = 0
  · have hlater : laterRecvs env b₁ = keyRecvs env b₁ := by
      unfold laterRecvs lenRecvs
      rw [if_pos hsize, List.nil_append]
    rw [if_pos hsize]
    rw [hlater] at hfit ⊢
    exact receiveMaskingKey_out rfl hfit
  · rw [if_neg hsize]
    exact receiveLength_out rfl hsize hfit

end

/-! ## Headers that arrive whole -/

/-- Every call gets all the bytes that it asks for. -/
structure ArrivesWhole (env : WsEnv) (b₁ : UInt8) : Prop where
  header : env.header = .got 2
  lenData : extLenSize b₁ ≠ 0 → env.lenData = .got (extLenSize b₁)
  maskingKey : keySize b₁ ≠ 0 → env.maskingKey = .got (keySize b₁)

/-- The buffers have the sizes that they are declared with. -/
structure BuffersSized (env : WsEnv) : Prop where
  header : env.headerBuf.length = 2
  lenData : env.lenDataBuf.length = 8
  maskingKey : env.maskingKeyBuf.length = 4

theorem buffersSized_withLocals (env : WsEnv) (l : WsLocals) : BuffersSized (env.withLocals l) :=
  ⟨l.headerBuf_length, l.lenDataBuf_length, l.maskingKeyBuf_length⟩

theorem extLenSize_cases (b₁ : UInt8) : extLenSize b₁ = 0 ∨ extLenSize b₁ = 2 ∨ extLenSize b₁ = 8 := by
  unfold extLenSize
  split
  · exact Or.inr (Or.inl rfl)
  · split
    · exact Or.inr (Or.inr rfl)
    · exact Or.inl rfl

section

variable {env : WsEnv} (h : WireHeader)

theorem receiveMaskingKey_full (harrive : ArrivesWhole env h.b₁) (hbuf : BuffersSized env)
    {frame : WsFrame} (hmask : frame.isMasked = h.isMasked) (rest : List UInt8) :
    receiveMaskingKey env frame (h.key ++ rest) =
      (0, { frame with
        maskingKey := if h.isMasked ≠ 0 then h.key else frame.maskingKey }, rest) := by
  unfold receiveMaskingKey
  by_cases hkey : h.isMasked = 0
  · have hnil : h.key = [] := by
      apply List.length_eq_zero_iff.mp
      rw [h.key_length]
      exact if_neg (not_not.mpr hkey)
    rw [if_neg (by rw [hmask]; exact not_not.mpr hkey), if_neg (not_not.mpr hkey), hnil,
      List.nil_append]
  · have hsize : keySize h.b₁ = 4 := if_pos hkey
    have hgot : env.maskingKey = .got 4 := by
      rw [harrive.maskingKey (by omega), hsize]
    rw [if_pos (by rw [hmask]; exact hkey), hgot,
      recvInto_whole (by rw [h.key_length, hsize]) hbuf.maskingKey]
    show (if (4 : ℤ) ≤ 0 then _ else _) = _
    rw [if_neg (by norm_num), if_pos hkey]

theorem receiveLength_full (harrive : ArrivesWhole env h.b₁) (hbuf : BuffersSized env)
    (hsize : extLenSize h.b₁ ≠ 0) {frame : WsFrame} (hmask : frame.isMasked = h.isMasked)
    (rest : List UInt8) :
    receiveLength env (extLenSize h.b₁) frame (h.lenBytes ++ (h.key ++ rest)) =
      (0, { frame with
        payloadLength := h.payloadLength
        maskingKey := if h.isMasked ≠ 0 then h.key else frame.maskingKey }, rest) := by
  have hle : extLenSize h.b₁ ≤ env.lenDataBuf.length := by
    have := extLenSize_cases h.b₁
    rw [hbuf.lenData]
    omega
  have hlen : ofBeBytes h.lenBytes = h.payloadLength := (if_neg hsize).symm
  unfold receiveLength
  rw [harrive.lenData hsize, recvInto_whole h.lenBytes_length (List.length_take_of_le hle)]
  show (if ((extLenSize h.b₁ : ℕ) : ℤ) ≤ 0 then _ else _) = _
  rw [if_neg (by omega), hlen]
  exact receiveMaskingKey_full h harrive hbuf (by exact hmask) rest

/-- A header that arrives whole is read as what it is. -/
theorem receiveWsFrame_full (harrive : ArrivesWhole env h.b₁) (hbuf : BuffersSized env)
    {conn : Conn} (hconn : CanReceive conn) (rest : List UInt8) :
    receiveWsFrame conn env (h.bytes ++ rest) = (0, h.frame env.frame.maskingKey, rest) := by
  have hbytes : h.bytes ++ rest = h.b₀ :: h.b₁ :: (h.lenBytes ++ (h.key ++ rest)) := by
    simp [WireHeader.bytes]
  -- the length is in the second byte, or in two or eight bytes behind it
  rw [hbytes, receiveWsFrame_eq hconn hbuf.header harrive.header]
  by_cases hsize : extLenSize h.b₁ = 0
  · have hnil : h.lenBytes = [] := by
      apply List.length_eq_zero_iff.mp
      rw [h.lenBytes_length, hsize]
    have hlen : h.payloadLength = (h.b₁ &&& payloadMask).toNat := if_pos hsize
    rw [if_pos hsize, hnil, List.nil_append, receiveMaskingKey_full h harrive hbuf rfl]
    unfold WireHeader.frame
    rw [hlen]
    rfl
  · rw [if_neg hsize, receiveLength_full h harrive hbuf hsize rfl]
    rfl

end

/-! ## When a result can be relied on -/

theorem received_le {rs : List (ℕ × RecvResult)} {stream : List UInt8} (hfit : EachFits stream rs)
    {k : ℕ} (hk : received rs = some k) : k ≤ stream.length := by
  induction rs generalizing stream k with
  | nil =>
    cases hk
    exact Nat.zero_le _
  | cons r rs ih =>
    obtain ⟨asked, r⟩ := r
    cases r with
    | failed e d => cases hk
    | closed =>
      cases hk
      exact Nat.zero_le _
    | got n =>
      obtain ⟨-, -, hn, hrs⟩ := hfit
      obtain ⟨k', hk', rfl⟩ := Option.map_eq_some_iff.mp hk
      have := ih hrs hk'
      rw [List.length_drop] at this
      omega

/-- A single call gets what it asks for if it gets as much. -/
theorem got_of_received {asked : ℕ} (hpos : asked ≠ 0) {r : RecvResult}
    (h : received [(asked, r)] = some asked) : r = .got asked := by
  cases r with
  | failed e d => cases h
  | closed =>
    have : 0 = asked := Option.some.inj h
    omega
  | got n =>
    have : n + 0 = asked := Option.some.inj h
    rw [← this, Nat.add_zero]

section

variable {env : WsEnv} {conn : Conn} {stream : List UInt8} {b₁ : UInt8}

theorem received_keyRecvs_le (hfit : EachFits stream (keyRecvs env b₁)) {k : ℕ}
    (hk : received (keyRecvs env b₁) = some k) : k ≤ keySize b₁ := by
  unfold keyRecvs at *
  by_cases hsize : keySize b₁ = 0
  · rw [if_pos hsize] at hk
    cases hk
    exact Nat.zero_le _
  · rw [if_neg hsize] at hfit hk
    cases hr : env.maskingKey with
    | failed e d =>
      rw [hr] at hk
      cases hk
    | closed =>
      rw [hr] at hk
      cases hk
      exact Nat.zero_le _
    | got n =>
      rw [hr] at hk hfit
      have : n + 0 = k := Option.some.inj hk
      have := hfit.2.1
      omega

/-- If the calls behind the first get all bytes together, then each of them does. -/
theorem arrivesWhole_of_received (hheader : env.header = .got 2)
    (hfit : EachFits stream (laterRecvs env b₁))
    (hall : received (laterRecvs env b₁) = some (extLenSize b₁ + keySize b₁)) :
    ArrivesWhole env b₁ := by
  have hkey : received (keyRecvs env b₁) = some (keySize b₁) → keySize b₁ ≠ 0 →
      env.maskingKey = .got (keySize b₁) := by
    intro h hsize
    unfold keyRecvs at h
    rw [if_neg hsize] at h
    exact got_of_received hsize h
  unfold laterRecvs lenRecvs at hall hfit
  by_cases hlen : extLenSize b₁ = 0
  · rw [if_pos hlen, hlen, Nat.zero_add] at hall
    exact ⟨hheader, fun h => absurd hlen h, hkey hall⟩
  rw [if_neg hlen] at hall hfit
  cases hr : env.lenData with
  | failed e d =>
    rw [hr] at hall
    cases hall
  | closed =>
    rw [hr] at hall
    have : 0 = extLenSize b₁ + keySize b₁ := Option.some.inj hall
    omega
  | got n =>
    rw [hr] at hall hfit
    obtain ⟨-, hn, -, hfit⟩ := hfit
    obtain ⟨k, hk, hadd⟩ := Option.map_eq_some_iff.mp hall
    rw [show [].append (keyRecvs env b₁) = keyRecvs env b₁ from rfl] at hk
    -- neither call gets more than it asks for, so each gets all of it
    have hle := received_keyRecvs_le hfit hk
    have hn' : n = extLenSize b₁ := by omega
    have hk' : k = keySize b₁ := by omega
    exact ⟨hheader, fun _ => hr.trans (by rw [hn']), hkey (by rw [hk, hk'])⟩

/-- A header all of whose bytes are received leaves a result that can be relied on. -/
theorem reliable_of_received (hconn : CanReceive conn) (hbuf : BuffersSized env)
    (hheader : env.header = .got 2) (b₀ : UInt8)
    (hfit : EachFits stream (laterRecvs env b₁))
    (hall : received (laterRecvs env b₁) = some (extLenSize b₁ + keySize b₁)) :
    Reliable (b₀ :: b₁ :: stream) (receiveWsFrame conn env (b₀ :: b₁ :: stream)) := by
  have hle := received_le hfit hall
  let h : WireHeader :=
    { b₀ := b₀
      b₁ := b₁
      lenBytes := stream.take (extLenSize b₁)
      key := (stream.drop (extLenSize b₁)).take (keySize b₁)
      lenBytes_length := List.length_take_of_le (by omega)
      key_length := List.length_take_of_le (by rw [List.length_drop]; omega) }
  have hstream : b₀ :: b₁ :: stream =
      h.bytes ++ stream.drop (extLenSize b₁ + keySize b₁) := by
    show _ = b₀ :: b₁ :: (stream.take _ ++ (stream.drop _).take _) ++ _
    rw [List.cons_append, List.cons_append, List.append_assoc, ← List.drop_drop,
      List.take_append_drop, List.take_append_drop]
  rw [hstream, receiveWsFrame_full h (arrivesWhole_of_received hheader hfit hall) hbuf hconn]
  exact Or.inr ⟨rfl, h, env.frame.maskingKey, rfl, rfl⟩

/-- A reliable 0 has taken as many bytes from the stream as the header demands. -/
theorem received_of_reliable {b₀ : UInt8} {rest : List UInt8} {out : ℤ × WsFrame × List UInt8}
    (h : Reliable (b₀ :: b₁ :: rest) out) {k : ℕ} (hk : k ≤ rest.length)
    (hout : StageOut (some k) rest out) : k = extLenSize b₁ + keySize b₁ := by
  obtain ⟨hret, hrest⟩ := hout
  rcases h with hneg | ⟨-, header, old, hstream, -⟩
  · omega
  · have hb₁ : b₁ = header.b₁ := by
      have := congrArg (·[1]?) hstream
      simpa [WireHeader.bytes] using this
    have hlen := congrArg List.length hstream
    rw [List.length_append, header.length_bytes, hrest, List.length_drop, ← hb₁] at hlen
    simp only [List.length_cons] at hlen
    omega

/-- With zeros in the local variables a first call that gets one byte is enough. -/
theorem receiveWsFrame_short (hconn : CanReceive conn) (hheader : env.header = .got 1) :
    (receiveWsFrame conn (env.withLocals .zero) stream).1 = 0 ∧
      (receiveWsFrame conn (env.withLocals .zero) stream).2.2 = stream.drop 1 := by
  obtain ⟨hflag, hsock⟩ := hconn
  -- the second byte is the zero that stood in the buffer: no length, no mask
  have hb₁ : (stream.take 1 ++ [0]).getD 1 0 = 0 := by
    cases stream <;> rfl
  have hrecv : recvInto (.got 1) (env.withLocals .zero).headerBuf stream =
      (1, stream.take 1 ++ [0], stream.drop 1) := rfl
  have hlen : ((0 : UInt8) &&& payloadMask).toNat = 0 := by decide
  have hmask : (0 : UInt8) &&& isMaskedMask = 0 := by decide
  unfold receiveWsFrame
  rw [hflag, if_neg (by simp), if_neg (by omega),
    show (env.withLocals .zero).header = .got 1 from hheader, hrecv]
  simp only [hb₁, hlen, hmask]
  exact ⟨rfl, rfl⟩

/-- A header of which the peer's close or a short first call leaves nothing to go by is
reported all the same, with what stood in the local variables. -/
theorem not_headerSound {n : ℕ} (hconn : CanReceive conn) (hn : n < 2)
    (hheader : env.header = .closed ∨ (env.header = .got n ∧ 1 ≤ n)) :
    ¬ HeaderSound conn env stream := by
  intro hsound
  have hout : (receiveWsFrame conn (env.withLocals .zero) stream).1 = 0 ∧
      stream.length < 2 + (receiveWsFrame conn (env.withLocals .zero) stream).2.2.length := by
    rcases hheader with hclosed | ⟨hgot, hpos⟩
    · obtain ⟨hflag, hsock⟩ := hconn
      unfold receiveWsFrame
      rw [hflag, if_neg (by simp), if_neg (by omega),
        show (env.withLocals .zero).header = .closed from hclosed]
      exact ⟨rfl, by show stream.length < 2 + stream.length; omega⟩
    · obtain rfl : n = 1 := by omega
      obtain ⟨hret, hrest⟩ := receiveWsFrame_short hconn hgot
      refine ⟨hret, ?_⟩
      rw [hrest, List.length_drop]
      omega
  rcases hsound .zero with hneg | ⟨-, h, old, hstream, -⟩
  · omega
  · have hlen := congrArg List.length hstream
    rw [List.length_append, h.length_bytes] at hlen
    omega

/-- The first call gets both bytes: what the calls behind it get decides. -/
theorem headerSound_iff_later {b₀ : UInt8} {rest : List UInt8} (hconn : CanReceive conn)
    (hfit : HeaderFits env (b₀ :: b₁ :: rest)) (hheader : env.header = .got 2) :
    HeaderSound conn env (b₀ :: b₁ :: rest) ↔ HeaderArrives env (b₀ :: b₁ :: rest) := by
  have hlater : EachFits rest (laterRecvs env b₁) := hfit.later hheader
  have hget : (b₀ :: b₁ :: rest).getD 1 0 = b₁ := rfl
  unfold HeaderArrives
  rw [hget]
  constructor
  · intro hsound
    refine Or.inr ⟨hheader, ?_⟩
    cases hk : received (laterRecvs env b₁) with
    | none => exact Or.inl rfl
    | some k =>
      have hbuf : (env.withLocals .zero).headerBuf.length = 2 := rfl
      have hout := receiveWsFrame_out hconn hbuf hheader b₀ hlater
      rw [show received (laterRecvs (env.withLocals .zero) b₁) = some k from hk] at hout
      have hall := received_of_reliable (hsound .zero) (received_le hlater hk) hout
      exact Or.inr (congrArg some hall)
  · intro harrive l
    rcases harrive with ⟨e, d, h⟩ | ⟨-, hnone | hall⟩
    · rw [hheader] at h
      cases h
    · have hbuf : (env.withLocals l).headerBuf.length = 2 := l.headerBuf_length
      have hout := receiveWsFrame_out hconn hbuf hheader b₀ hlater
      rw [show received (laterRecvs (env.withLocals l) b₁) = none from hnone] at hout
      refine Or.inl ?_
      have hret : (receiveWsFrame conn (env.withLocals l) (b₀ :: b₁ :: rest)).1 = -1 := hout
      omega
    · exact reliable_of_received hconn (buffersSized_withLocals env l) hheader b₀ hlater hall

/-- On a connection that can receive, the calls of `recv` decide. -/
theorem headerSound_iff_of_canReceive (hconn : CanReceive conn) (hfit : HeaderFits env stream) :
    HeaderSound conn env stream ↔ HeaderArrives env stream := by
  cases hheader : env.header with
  | failed e d =>
    obtain ⟨hflag, hsock⟩ := hconn
    refine ⟨fun _ => Or.inl ⟨e, d, hheader⟩, fun _ l => Or.inl ?_⟩
    unfold receiveWsFrame
    rw [hflag, if_neg (by simp), if_neg (by omega),
      show (env.withLocals l).header = .failed e d from hheader]
    exact (by decide : (-1 : ℤ) < 0)
  | closed =>
    have hnot : ¬ HeaderSound conn env stream :=
      not_headerSound (n := 0) hconn (by omega) (Or.inl hheader)
    refine ⟨fun h => absurd h hnot, fun h => ?_⟩
    rcases h with ⟨e, d, h⟩ | ⟨h, -⟩ <;> rw [hheader] at h <;> cases h
  | got n =>
    obtain ⟨hpos, hle, hlen, -⟩ : 1 ≤ n ∧ n ≤ 2 ∧ n ≤ stream.length ∧ True := by
      have := hfit.header
      rwa [hheader] at this
    by_cases hshort : n < 2
    · have hnot : ¬ HeaderSound conn env stream :=
        not_headerSound hconn hshort (Or.inr ⟨hheader, hpos⟩)
      refine ⟨fun h => absurd h hnot, fun h => ?_⟩
      rcases h with ⟨e, d, h⟩ | ⟨h, -⟩
      · rw [hheader] at h
        cases h
      · rw [hheader] at h
        cases h
        omega
    obtain rfl : n = 2 := by omega
    obtain ⟨b₀, b₁, rest, rfl⟩ : ∃ b₀ b₁ rest, stream = b₀ :: b₁ :: rest := by
      match stream, hlen with
      | b₀ :: b₁ :: rest, _ => exact ⟨b₀, b₁, rest, rfl⟩
    exact headerSound_iff_later hconn hfit hheader

/-- The result of `WebSocketServer_ReceiveWsFrame` can be relied on if and only if the connection
is given up, or one of the calls of `recv` fails, or each of them gets all the bytes that the
header demands. -/
theorem headerSound_iff (conn : Conn) (env : WsEnv) (stream : List UInt8)
    (hfit : HeaderFits env stream) :
    HeaderSound conn env stream ↔
      conn.connectionDestructFlag = true ∨ conn.socketId < 0 ∨ HeaderArrives env stream := by
  by_cases hflag : conn.connectionDestructFlag = true
  · refine ⟨fun _ => Or.inl hflag, fun _ l => Or.inl ?_⟩
    unfold receiveWsFrame
    rw [if_pos hflag]
    exact (by decide : (-1 : ℤ) < 0)
  rw [Bool.not_eq_true] at hflag
  by_cases hsock : conn.socketId < 0
  · refine ⟨fun _ => Or.inr (Or.inl hsock), fun _ l => Or.inl ?_⟩
    unfold receiveWsFrame
    rw [hflag, if_neg (by simp), if_pos hsock]
    exact (by decide : (-1 : ℤ) < 0)
  have hconn : CanReceive conn := ⟨hflag, by omega⟩
  rw [headerSound_iff_of_canReceive hconn hfit]
  constructor
  · exact fun h => Or.inr (Or.inr h)
  · intro h
    rcases h with h | h | h
    · rw [hflag] at h
      cases h
    · exact absurd h hsock
    · exact h

end

/-- The surroundings of a pass in which a masked header of six bytes arrives whole. -/
def sixByteHeader : WsEnv where
  frame := ⟨0, 0, 0, 0, []⟩
  headerBuf := [0, 0]
  lenDataBuf := List.replicate 8 0
  maskingKeyBuf := List.replicate 4 0
  header := .got 2
  lenData := .wouldBlock
  maskingKey := .got 4
  block := none
  payload := .closed

theorem headerSound_sixByteHeader :
    HeaderSound Conn.fresh sixByteHeader [0x81, 0x82, 1, 2, 3, 4, 105, 107] := by
  apply (headerSound_iff Conn.fresh sixByteHeader [0x81, 0x82, 1, 2, 3, 4, 105, 107] ?_).mpr
  · exact Or.inr (Or.inr (Or.inr ⟨rfl, Or.inr (by decide)⟩))
  · constructor
    · show 1 ≤ 2 ∧ 2 ≤ 2 ∧ 2 ≤ 8 ∧ True
      decide
    · intro _
      show 1 ≤ 4 ∧ 4 ≤ 4 ∧ 4 ≤ 6 ∧ True
      decide

/-- When the client has closed the connection, 0 from the first `recv` is passed on as success. -/
theorem not_headerSound_closed :
    ¬ HeaderSound Conn.fresh { sixByteHeader with header := .closed } [] :=
  not_headerSound (n := 0) ⟨rfl, by decide⟩ (by decide) (Or.inl rfl)

end WLink.Httpd
