import WLink.Lib.Bytes
import Mathlib.Data.List.GetD
import Mathlib.Data.UInt

/-!
# The secure hash algorithm SHA-1

SHA-1 as FIPS 180 defines it, for messages of whole bytes: padding, the parsing of the padded
message into blocks of sixteen big-endian words, the message schedule, the compression of a block,
and the digest.

`chain` is the hash value behind the whole blocks of a byte string, padded or not; an
implementation that takes in bytes is compared with it byte after byte (`chain_append_of_lt`,
`chain_append_of_whole`).
-/

namespace WLink.Lib.Sha1

/-! ## Functions and constants -/

/-- A circular left shift of a word. -/
def rotl (n x : UInt32) : UInt32 := x <<< n ||| x >>> (32 - n)

def ch (x y z : UInt32) : UInt32 := (x &&& y) ^^^ (~~~x &&& z)

def parity (x y z : UInt32) : UInt32 := x ^^^ y ^^^ z

def maj (x y z : UInt32) : UInt32 := (x &&& y) ^^^ (x &&& z) ^^^ (y &&& z)

/-- The function of round `t`. -/
def f (t : ℕ) : UInt32 → UInt32 → UInt32 → UInt32 :=
  if t < 20 then ch else if t < 40 then parity else if t < 60 then maj else parity

/-- The constant of round `t`. -/
def k (t : ℕ) : UInt32 :=
  if t < 20 then 0x5a827999 else if t < 40 then 0x6ed9eba1 else if t < 60 then 0x8f1bbcdc
  else 0xca62c1d6

/-- Five words: a hash value, or the working variables of a compression. -/
structure Words where
  a : UInt32
  b : UInt32
  c : UInt32
  d : UInt32
  e : UInt32
deriving DecidableEq, Repr

namespace Words

/-- The words are added one by one. -/
def add (x y : Words) : Words := ⟨x.a + y.a, x.b + y.b, x.c + y.c, x.d + y.d, x.e + y.e⟩

/-- The words as bytes. -/
def toBytes (x : Words) : List UInt8 := [x.a, x.b, x.c, x.d, x.e].flatMap fun w => beBytes 4 w.toNat

end Words

def initial : Words := ⟨0x67452301, 0xefcdab89, 0x98badcfe, 0x10325476, 0xc3d2e1f0⟩

/-! ## Padding -/

/-- How many zero bytes stand between the byte of the final `1` and the length. -/
def zeros (n : ℕ) : ℕ := (119 - n % 64) % 64

/-- The padded message: a `1`, zeros, and the length in bits as 64 bits. -/
def pad (message : List UInt8) : List UInt8 :=
  message ++ 0x80 :: List.replicate (zeros message.length) 0 ++ beBytes 8 (8 * message.length)

theorem zeros_lt (n : ℕ) : zeros n < 64 := Nat.mod_lt _ (by decide)

/-- Behind the zeros the length just fits its block. -/
theorem zeros_fill (n : ℕ) : (n + 1 + zeros n) % 64 = 56 := by
  unfold zeros
  omega

theorem length_pad (message : List UInt8) :
    (pad message).length = message.length + 1 + zeros message.length + 8 := by
  unfold pad
  simp [List.length_append]
  omega

/-- A padded message consists of whole blocks. -/
theorem length_pad_mod (message : List UInt8) : (pad message).length % 64 = 0 := by
  have hfill := zeros_fill message.length
  rw [length_pad]
  omega

/-! ## Compression -/

/-- The word at a place of a byte string. -/
def wordAt (bs : List UInt8) (p : ℕ) : UInt32 := UInt32.ofNat (ofBeBytes ((bs.drop p).take 4))

/-- Word `t` of block `i`. -/
def blockWord (bs : List UInt8) (i t : ℕ) : UInt32 := wordAt bs (64 * i + 4 * t)

/-- The message schedule of a block up to a word, the last word first. -/
def expand (m : ℕ → UInt32) : ℕ → List UInt32
  | 0 => []
  | t + 1 =>
    let w := expand m t
    (if t < 16 then m t
    else rotl 1 (w.getD 2 0 ^^^ w.getD 7 0 ^^^ w.getD 13 0 ^^^ w.getD 15 0)) :: w

/-- Word `t` of the message schedule of a block. -/
def schedule (m : ℕ → UInt32) (t : ℕ) : UInt32 := (expand m (t + 1)).headD 0

theorem getD_expand (m : ℕ → UInt32) {t j : ℕ} (hj : j < t) :
    (expand m t).getD j 0 = schedule m (t - 1 - j) := by
  induction t generalizing j with
  | zero => omega
  | succ t ih =>
    cases j with
    | zero => rfl
    | succ j =>
      have hshift : t + 1 - 1 - (j + 1) = t - 1 - j := by omega
      rw [hshift, ← ih (by omega)]
      rfl

/-- The first words are those of the block. -/
theorem schedule_of_lt (m : ℕ → UInt32) {t : ℕ} (ht : t < 16) : schedule m t = m t := by
  show (if t < 16 then m t else _) = m t
  rw [if_pos ht]

/-- The others come from the words before them. -/
theorem schedule_of_le (m : ℕ → UInt32) {t : ℕ} (ht : 16 ≤ t) :
    schedule m t = rotl 1 (schedule m (t - 3) ^^^ schedule m (t - 8) ^^^ schedule m (t - 14) ^^^
      schedule m (t - 16)) := by
  show (if t < 16 then m t else rotl 1 ((expand m t).getD 2 0 ^^^ (expand m t).getD 7 0 ^^^
    (expand m t).getD 13 0 ^^^ (expand m t).getD 15 0)) = _
  rw [if_neg (Nat.not_lt.mpr ht), getD_expand m (by omega), getD_expand m (by omega),
    getD_expand m (by omega), getD_expand m (by omega)]
  rfl

/-- Only the sixteen words of the block count. -/
theorem expand_congr {m m' : ℕ → UInt32} (h : ∀ t < 16, m t = m' t) (t : ℕ) :
    expand m t = expand m' t := by
  induction t with
  | zero => rfl
  | succ t ih =>
    unfold expand
    rw [ih]
    dsimp only
    by_cases ht : t < 16
    · rw [if_pos ht, if_pos ht, h t ht]
    · rw [if_neg ht, if_neg ht]

/-- Round `t` with its word of the schedule. -/
def round (w : UInt32) (t : ℕ) (v : Words) : Words where
  a := rotl 5 v.a + f t v.b v.c v.d + v.e + k t + w
  b := v.a
  c := rotl 30 v.b
  d := v.c
  e := v.d

/-- The hash value behind a block. -/
def compress (h : Words) (m : ℕ → UInt32) : Words :=
  ((List.range 80).foldl (fun v t => round (schedule m t) t v) h).add h

theorem compress_congr {m m' : ℕ → UInt32} (h : ∀ t < 16, m t = m' t) (x : Words) :
    compress x m = compress x m' := by
  have hschedule : schedule m = schedule m' := by
    funext t
    unfold schedule
    rw [expand_congr h]
  unfold compress
  rw [hschedule]

/-! ## Digest -/

/-- The hash value behind the whole blocks of a byte string. -/
def chain (bs : List UInt8) : Words :=
  (List.range (bs.length / 64)).foldl (fun h i => compress h (blockWord bs i)) initial

/-- The message digest. -/
def digest (message : List UInt8) : List UInt8 := (chain (pad message)).toBytes

/-- The first example of the standard. -/
example : digest [0x61, 0x62, 0x63] =
    [0xa9, 0x99, 0x3e, 0x36, 0x47, 0x06, 0x81, 0x6a, 0xba, 0x3e, 0x25, 0x71, 0x78, 0x50, 0xc2, 0x6c,
      0x9c, 0xd0, 0xd8, 0x9d] := by
  decide +kernel

/-! ## Byte after byte -/

theorem wordAt_append {bs : List UInt8} {p : ℕ} (hp : p + 4 ≤ bs.length) (rest : List UInt8) :
    wordAt (bs ++ rest) p = wordAt bs p := by
  unfold wordAt
  rw [List.drop_append_of_le_length (by omega),
    List.take_append_of_le_length (by rw [List.length_drop]; omega)]

/-- A word by its bytes. -/
theorem wordAt_eq {bs : List UInt8} {p : ℕ} (hp : p + 4 ≤ bs.length) :
    wordAt bs p = UInt32.ofNat (ofBeBytes
      [bs.getD p 0, bs.getD (p + 1) 0, bs.getD (p + 2) 0, bs.getD (p + 3) 0]) := by
  have hdrop : ∀ q < bs.length, bs.drop q = bs.getD q 0 :: bs.drop (q + 1) := by
    intro q hq
    rw [List.getD_eq_getElem _ _ hq]
    exact List.drop_eq_getElem_cons hq
  unfold wordAt
  rw [hdrop p (by omega), hdrop (p + 1) (by omega), hdrop (p + 2) (by omega),
    hdrop (p + 3) (by omega)]
  rfl

/-- The blocks before the last are those of the string without its last byte. -/
theorem chain_prefix (bs : List UInt8) (b : UInt8) :
    (List.range (bs.length / 64)).foldl (fun h i => compress h (blockWord (bs ++ [b]) i)) initial =
      chain bs := by
  refine List.foldl_ext _ _ _ ?_
  intro h i hi
  have hlt := List.mem_range.mp hi
  refine compress_congr ?_ h
  intro t ht
  exact wordAt_append (by omega) [b]

/-- A byte that does not complete a block. -/
theorem chain_append_of_lt {bs : List UInt8} (hlen : bs.length % 64 < 63) (b : UInt8) :
    chain (bs ++ [b]) = chain bs := by
  have hdiv : (bs ++ [b]).length / 64 = bs.length / 64 := by
    rw [List.length_append, List.length_singleton]
    omega
  rw [← chain_prefix bs b, chain, hdiv]

/-- A byte that completes a block. -/
theorem chain_append_of_whole {bs : List UInt8} (hlen : bs.length % 64 = 63) (b : UInt8) :
    chain (bs ++ [b]) = compress (chain bs) (blockWord (bs ++ [b]) (bs.length / 64)) := by
  have hdiv : (bs ++ [b]).length / 64 = bs.length / 64 + 1 := by
    rw [List.length_append, List.length_singleton]
    omega
  rw [← chain_prefix bs b, chain, hdiv, List.range_succ, List.foldl_append]
  rfl

end WLink.Lib.Sha1
