import WLink.Lib.Bytes

/-!
# SHA-1

`sha1_init`, `sha1_write` and `sha1_result` of `sha1.c`, for a processor with little-endian
words, on which the bytes of a block are stored at their offset with the two low bits flipped.
-/

namespace WLink.Misc

open WLink.Lib

def blockLength : ℕ := 64
def hashLength : ℕ := 20

/-- `sha1nfo` without the buffers for HMAC. -/
structure Sha1nfo where
  buffer : Vector UInt32 16
  state : Vector UInt32 5
  byteCount : UInt32
  bufferOffset : ℕ

/-- `sha1_init`, which leaves the buffer as it is. -/
def sha1Init (buffer : Vector UInt32 16) : Sha1nfo where
  buffer := buffer
  state := #v[0x67452301, 0xefcdab89, 0x98badcfe, 0x10325476, 0xc3d2e1f0]
  byteCount := 0
  bufferOffset := 0

def sha1Rol32 (number bits : UInt32) : UInt32 := number <<< bits ||| number >>> (32 - bits)

/-- The variables `a` to `e` of `sha1_hashBlock`, and the buffer. -/
structure Sha1Vars where
  a : UInt32
  b : UInt32
  c : UInt32
  d : UInt32
  e : UInt32
  buffer : Vector UInt32 16

/-- One round of the loop in `sha1_hashBlock`. -/
def sha1Round (s : Sha1Vars) (i : ℕ) : Sha1Vars :=
  let at_ (k : ℕ) : UInt32 := s.buffer.get ⟨k % 16, Nat.mod_lt _ (by decide)⟩
  let buffer :=
    if 16 ≤ i then
      s.buffer.set (i % 16)
        (sha1Rol32 (at_ (i + 13) ^^^ at_ (i + 8) ^^^ at_ (i + 2) ^^^ at_ i) 1)
        (Nat.mod_lt _ (by decide))
    else s.buffer
  let t :=
    if i < 20 then (s.d ^^^ (s.b &&& (s.c ^^^ s.d))) + 0x5a827999
    else if i < 40 then (s.b ^^^ s.c ^^^ s.d) + 0x6ed9eba1
    else if i < 60 then ((s.b &&& s.c) ||| (s.d &&& (s.b ||| s.c))) + 0x8f1bbcdc
    else (s.b ^^^ s.c ^^^ s.d) + 0xca62c1d6
  let t := t + (sha1Rol32 s.a 5 + s.e + buffer.get ⟨i % 16, Nat.mod_lt _ (by decide)⟩)
  { a := t, b := s.a, c := sha1Rol32 s.b 30, d := s.c, e := s.d, buffer := buffer }

/-- `sha1_hashBlock`. -/
def sha1HashBlock (s : Sha1nfo) : Sha1nfo :=
  let r := (List.range 80).foldl sha1Round
    ⟨s.state[0], s.state[1], s.state[2], s.state[3], s.state[4], s.buffer⟩
  { s with
    buffer := r.buffer
    state := #v[s.state[0] + r.a, s.state[1] + r.b, s.state[2] + r.c, s.state[3] + r.d,
      s.state[4] + r.e] }

/-- Put a byte into a word, `k` bytes above the lowest one. -/
def setByte (w : UInt32) (k : ℕ) (data : UInt8) : UInt32 :=
  (w &&& ~~~(0xff <<< UInt32.ofNat (8 * k))) ||| data.toUInt32 <<< UInt32.ofNat (8 * k)

/-- `sha1_addUncounted`. -/
def sha1AddUncounted (s : Sha1nfo) (data : UInt8) : Sha1nfo :=
  let i := s.bufferOffset ^^^ 3
  let w := s.buffer.get ⟨i / 4 % 16, Nat.mod_lt _ (by decide)⟩
  let s :=
    { s with
      buffer := s.buffer.set (i / 4 % 16) (setByte w (i % 4) data) (Nat.mod_lt _ (by decide))
      bufferOffset := s.bufferOffset + 1 }
  if s.bufferOffset = blockLength then { sha1HashBlock s with bufferOffset := 0 } else s

/-- `sha1_writebyte`. -/
def sha1Writebyte (s : Sha1nfo) (data : UInt8) : Sha1nfo :=
  sha1AddUncounted { s with byteCount := s.byteCount + 1 } data

/-- `sha1_write`. -/
def sha1Write (s : Sha1nfo) (data : List UInt8) : Sha1nfo := data.foldl sha1Writebyte s

/-- `while (s->bufferOffset != 56)`, with a bound on its rounds. -/
def sha1PadZeros : ℕ → Sha1nfo → Sha1nfo
  | 0, s => s
  | fuel + 1, s =>
    if s.bufferOffset ≠ 56 then sha1PadZeros fuel (sha1AddUncounted s 0) else s

/-- `sha1_pad`. -/
def sha1Pad (s : Sha1nfo) : Sha1nfo :=
  let s := sha1PadZeros blockLength (sha1AddUncounted s 0x80)
  let len : List UInt8 :=
    [0, 0, 0, (s.byteCount >>> 29).toUInt8, (s.byteCount >>> 21).toUInt8,
      (s.byteCount >>> 13).toUInt8, (s.byteCount >>> 5).toUInt8, (s.byteCount <<< 3).toUInt8]
  len.foldl sha1AddUncounted s

/-- `sha1_result`: the words of the state with their bytes swapped, as bytes. -/
def sha1Result (s : Sha1nfo) : List UInt8 :=
  (sha1Pad s).state.toList.flatMap fun w => beBytes 4 w.toNat

theorem length_sha1Result (s : Sha1nfo) : (sha1Result s).length = hashLength := by
  unfold sha1Result
  rw [List.length_flatMap]
  simp [hashLength]

end WLink.Misc
