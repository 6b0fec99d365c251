import WLink.Httpd.Dispatch
import WLink.Misc.Base64Theorems
import WLink.Misc.Sha1Theorems

/-!
# The accept key of a WebSocket

`WebSocketServer_CreateAcceptKey` with its buffers: the key and the UUID are put together in a
buffer of the stack, and the Base64 of their SHA-1 digest is written to the caller's buffer.
-/

namespace WLink.Httpd

open WLink.Lib CString

/-- The local variables of the function before they are written. -/
structure AcceptLocals where
  concatenatedBuffer : List UInt8
  block : Vector UInt32 16
  length_eq : concatenatedBuffer.length = 512

/-- `strcat(m, s)` -/
def strcatTo (m s : List UInt8) : Except Fault (List UInt8) := do
  let n ← strlen m 0
  storeAt m n (s ++ [0])

/-- `WebSocketServer_CreateAcceptKey`, for a key at a place of the memory: the result and what the
buffer holds, or `none` for the result `-1`. -/
def webSocketServerCreateAcceptKey (old : AcceptLocals) (mem : List UInt8) (key : ℕ)
    (buffer : List UInt8) (bufferSize : ℤ) : Except Fault (Option (ℕ × List UInt8)) := do
  let concatenatedBuffer ← storeAt old.concatenatedBuffer 0 [0]
  let concatenatedBuffer ← strcatTo concatenatedBuffer (← cstring mem key)
  let concatenatedBuffer ← strcatTo concatenatedBuffer webSocketUuid
  let len ← strlen concatenatedBuffer 0
  let pHash := Misc.sha1Result
    (Misc.sha1Write (Misc.sha1Init old.block) (concatenatedBuffer.take len))
  match Misc.base64Encode (bufferSize % 2 ^ 32).toNat pHash with
  | some out => do
    let buffer ← storeAt buffer 0 (out ++ [0])
    pure (some (out.length, buffer))
  | none => pure none

/-- `strcat` onto a string in a buffer that has room for both. -/
theorem strcatTo_eq {m a s : List UInt8} (ha : StrAt m 0 a) (hs : 0 ∉ s)
    (hroom : a.length + s.length < m.length) :
    ∃ m', strcatTo m s = .ok m' ∧ StrAt m' 0 (a ++ s) ∧ m'.length = m.length := by
  obtain ⟨t, ht⟩ := ha.drop_eq
  rw [List.drop_zero] at ht
  have htake : m.take a.length = a := by
    rw [ht, List.take_left']
    rfl
  have hstore : storeAt m a.length (s ++ [0]) =
      .ok (a ++ (s ++ [0]) ++ m.drop (a.length + (s ++ [0]).length)) := by
    rw [storeAt_ok (by simp; omega), htake]
  refine ⟨a ++ (s ++ [0]) ++ m.drop (a.length + (s ++ [0]).length), ?_,
    ⟨?_, m.drop (a.length + (s ++ [0]).length), ?_⟩, ?_⟩
  · unfold strcatTo
    rw [strlen_eq ha]
    exact hstore
  · simp [ha.nul_notMem, hs]
  · rw [List.drop_zero, List.append_assoc, List.append_assoc, List.append_assoc]
    rfl
  · simp
    omega

/-- What is written for a key is the Base64 of the digest of the key and the UUID, and its NUL. -/
theorem createAcceptKey_eq (old : AcceptLocals) {mem : List UInt8} {p : ℕ} {key : List UInt8}
    (hkey : StrAt mem p key) (hfit : key.length + webSocketUuid.length < 512)
    {buffer : List UInt8} {bufferSize : ℤ} (hsize : 28 < bufferSize) (hint : bufferSize < 2 ^ 31)
    (hbuffer : bufferSize ≤ buffer.length) :
    webSocketServerCreateAcceptKey old mem p buffer bufferSize =
      .ok (some (28, Base64.encode (Sha1.digest (key ++ webSocketUuid)) ++ 0 :: buffer.drop 29)) := by
  have huuid : 0 ∉ webSocketUuid := by decide +kernel
  obtain ⟨c, hc⟩ : ∃ c, c = old.concatenatedBuffer := ⟨_, rfl⟩
  have hclen : c.length = 512 := by rw [hc, old.length_eq]
  -- the buffer as it is put together
  have hempty : storeAt c 0 [0] = .ok (0 :: c.drop 1) := by
    rw [storeAt_ok (by simp; omega)]
    rfl
  have hzero : StrAt (0 :: c.drop 1) 0 [] := ⟨List.not_mem_nil, c.drop 1, rfl⟩
  have hzeroLen : (0 :: c.drop 1).length = 512 := by simp; omega
  obtain ⟨m₁, hm₁, hstr₁, hlen₁⟩ := strcatTo_eq hzero hkey.nul_notMem
    (by rw [hzeroLen, List.length_nil]; omega)
  rw [List.nil_append] at hstr₁
  obtain ⟨m₂, hm₂, hstr₂, hlen₂⟩ := strcatTo_eq hstr₁ huuid (by omega)
  obtain ⟨t, ht⟩ := hstr₂.drop_eq
  rw [List.drop_zero] at ht
  have htake : m₂.take (key ++ webSocketUuid).length = key ++ webSocketUuid := by
    rw [ht, List.take_left']
    rfl
  -- the digest and its encoding
  have hdigest : Misc.sha1Result (Misc.sha1Write (Misc.sha1Init old.block) (key ++ webSocketUuid)) =
      Sha1.digest (key ++ webSocketUuid) :=
    Misc.sha1Result_eq old.block (by rw [List.length_append]; omega)
  have hdigestLen : (Sha1.digest (key ++ webSocketUuid)).length = 20 := by
    rw [← hdigest]
    exact Misc.length_sha1Result _
  have houtLen : (bufferSize % 2 ^ 32).toNat = bufferSize.toNat := by
    rw [Int.emod_eq_of_lt (by omega) (by omega)]
  have hencode : Misc.base64Encode bufferSize.toNat (Sha1.digest (key ++ webSocketUuid)) =
      some (Base64.encode (Sha1.digest (key ++ webSocketUuid))) :=
    Misc.base64Encode_eq_encode (by rw [hdigestLen]; omega)
  have hlen : (Base64.encode (Sha1.digest (key ++ webSocketUuid))).length = 28 := by
    rw [Base64.length_encode, hdigestLen]
  have hstore : storeAt buffer 0 (Base64.encode (Sha1.digest (key ++ webSocketUuid)) ++ [0]) =
      .ok (Base64.encode (Sha1.digest (key ++ webSocketUuid)) ++ 0 :: buffer.drop 29) := by
    rw [storeAt_ok (by simp; omega)]
    simp [hlen]
  unfold webSocketServerCreateAcceptKey
  rw [← hc, hempty, cstring_eq hkey]
  show ((strcatTo (0 :: c.drop 1) key) >>= _) = _
  rw [hm₁]
  show ((strcatTo m₁ webSocketUuid) >>= _) = _
  rw [hm₂]
  show (strlen m₂ 0 >>= _) = _
  rw [strlen_eq hstr₂]
  dsimp only [bind, Except.bind]
  rw [htake, hdigest, houtLen, hencode]
  dsimp only
  rw [hstore, hlen]
  rfl

/-- The key of the example in the protocol's standard. -/
def sampleKey : List UInt8 := ascii "dGhlIHNhbXBsZSBub25jZQ=="

/-- The example, with the buffer of the handshake. -/
theorem createAcceptKey_sample :
    webSocketServerCreateAcceptKey
        ⟨List.replicate 512 0xa5, Vector.replicate 16 0xa5a5a5a5, List.length_replicate⟩
        (sampleKey ++ [0]) 0 (List.replicate 100 0) 100 =
      .ok (some (28, ascii "s3pPLMBiTxaQ9kYGzzhZRbK+xOo=" ++ 0 :: List.replicate 71 0)) := by
  have hkey : StrAt (sampleKey ++ [0]) 0 sampleKey := ⟨by decide +kernel, [], rfl⟩
  have hfit : sampleKey.length + webSocketUuid.length < 512 := by decide +kernel
  have hbuffer : (100 : ℤ) ≤ (List.replicate 100 (0 : UInt8)).length := by
    rw [List.length_replicate]
    decide
  have hvalue : Base64.encode (Sha1.digest (sampleKey ++ webSocketUuid)) =
      ascii "s3pPLMBiTxaQ9kYGzzhZRbK+xOo=" := by
    decide +kernel
  have hrest : (List.replicate 100 (0 : UInt8)).drop 29 = List.replicate 71 0 := rfl
  rw [← hvalue, ← hrest]
  exact createAcceptKey_eq _ hkey hfit (by decide) (by decide) hbuffer

/-- The handshake answers with the same key. -/
theorem acceptKeyOf_eq_digest {key : List UInt8} (hfit : key.length + webSocketUuid.length < 512) :
    acceptKeyOf key = .ok (Base64.encode (Sha1.digest (key ++ webSocketUuid))) := by
  have hdata : (key ++ webSocketUuid).length < 2 ^ 32 := by
    rw [List.length_append]
    omega
  have hdigest := Misc.sha1Result_eq (Vector.replicate 16 0) hdata
  have hlen := Misc.length_sha1Result
    (Misc.sha1Write (Misc.sha1Init (Vector.replicate 16 0)) (key ++ webSocketUuid))
  unfold acceptKeyOf
  rw [if_neg (by omega), Misc.base64Encode_eq_encode (by rw [hlen]; decide), hdigest]

end WLink.Httpd
