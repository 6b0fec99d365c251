import WLink.Lib.Sha1
import WLink.Misc.Sha1
import Mathlib.Tactic.IntervalCases

/-!
# The digest of `sha1.c`

`sha1Result_eq`: what `sha1_result` gives behind `sha1_write` is the SHA-1 digest, for every
message whose length the 32 bits of `byteCount` hold and every content of the buffer before
`sha1_init`.

* `Window` -- sixteen words of the message schedule, in the buffer that is overwritten in place
* `Absorbed` -- what the context holds of the bytes that have been taken in
-/

namespace WLink.Misc

open WLink.Lib

/-! ## Words and their bytes -/

theorem ch_eq (b c d : UInt32) : d ^^^ (b &&& (c ^^^ d)) = Sha1.ch b c d := by
  apply UInt32.eq_of_toBitVec_eq
  ext i hi
  simp [Sha1.ch]
  cases b.toBitVec[i] <;> cases c.toBitVec[i] <;> cases d.toBitVec[i] <;> rfl

theorem maj_eq (b c d : UInt32) : (b &&& c) ||| (d &&& (b ||| c)) = Sha1.maj b c d := by
  apply UInt32.eq_of_toBitVec_eq
  ext i hi
  simp [Sha1.maj]
  cases b.toBitVec[i] <;> cases c.toBitVec[i] <;> cases d.toBitVec[i] <;> rfl

/-- The byte of a word that is `k` bytes above the lowest one. -/
def byteOf (w : UInt32) (k : ℕ) : UInt8 := (w >>> UInt32.ofNat (8 * k)).toUInt8

theorem byteOf_setByte_self (w : UInt32) (data : UInt8) {k : ℕ} (hk : k < 4) :
    byteOf (setByte w k data) k = data := by
  apply UInt8.eq_of_toBitVec_eq
  ext i hi
  interval_cases k <;> interval_cases i <;> simp [byteOf, setByte]

theorem byteOf_setByte_of_ne (w : UInt32) (data : UInt8) {k l : ℕ} (hk : k < 4) (hl : l < 4)
    (hne : k ≠ l) : byteOf (setByte w k data) l = byteOf w l := by
  apply UInt8.eq_of_toBitVec_eq
  ext i hi
  interval_cases k <;> interval_cases l <;>
    first
    | exact absurd rfl hne
    | interval_cases i <;> simp [byteOf, setByte]

theorem word_of_bytes (w : UInt32) :
    UInt32.ofNat (ofBeBytes [byteOf w 3, byteOf w 2, byteOf w 1, byteOf w 0]) = w := by
  have hlt := w.toNat_lt
  apply UInt32.toNat_inj.mp
  simp [ofBeBytes, ofLeBytes, byteOf, Nat.shiftRight_eq_div_pow]
  omega

/-! ## A block -/

theorem mod_sixteen_lt (t : ℕ) : t % 16 < 16 := Nat.mod_lt _ (by decide)

/-- A word of the buffer. -/
def bufferWord (buffer : Vector UInt32 16) (t : ℕ) : UInt32 :=
  buffer.get ⟨t % 16, mod_sixteen_lt t⟩

/-- The buffer with another word. -/
def setWord (buffer : Vector UInt32 16) (t : ℕ) (w : UInt32) : Vector UInt32 16 :=
  buffer.set (t % 16) w (mod_sixteen_lt t)

theorem bufferWord_setWord (buffer : Vector UInt32 16) (t u : ℕ) (w : UInt32) :
    bufferWord (setWord buffer t w) u =
      if t % 16 = u % 16 then w else bufferWord buffer u := by
  exact Vector.getElem_set ..

/-- Words of the same residue are the same. -/
theorem bufferWord_congr (buffer : Vector UInt32 16) {t u : ℕ} (h : t % 16 = u % 16) :
    bufferWord buffer t = bufferWord buffer u := by
  unfold bufferWord
  simp only [h]

/-- The working variables. -/
def Sha1Vars.words (s : Sha1Vars) : Sha1.Words := ⟨s.a, s.b, s.c, s.d, s.e⟩

/-- Before round `i` the buffer holds the last sixteen words of the schedule, or those of the
block. -/
def Window (m : ℕ → UInt32) (buffer : Vector UInt32 16) (i : ℕ) : Prop :=
  ∀ t, t < max i 16 → max i 16 ≤ t + 16 → bufferWord buffer t = Sha1.schedule m t

/-- The buffer in a round, with the word of the round in it. -/
def roundBuffer (buffer : Vector UInt32 16) (i : ℕ) : Vector UInt32 16 :=
  if 16 ≤ i then
    setWord buffer i
      (sha1Rol32 (bufferWord buffer (i + 13) ^^^ bufferWord buffer (i + 8) ^^^
        bufferWord buffer (i + 2) ^^^ bufferWord buffer i) 1)
  else buffer

theorem sha1Round_buffer (s : Sha1Vars) (i : ℕ) :
    (sha1Round s i).buffer = roundBuffer s.buffer i := rfl

/-- The word of a round is the one of the schedule, and the window moves on. -/
theorem Window.round {m : ℕ → UInt32} {buffer : Vector UInt32 16} {i : ℕ}
    (h : Window m buffer i) :
    Window m (roundBuffer buffer i) (i + 1) ∧
      bufferWord (roundBuffer buffer i) i = Sha1.schedule m i := by
  unfold roundBuffer
  by_cases hi : 16 ≤ i
  · have hmax : max i 16 = i := by omega
    have hword : sha1Rol32 (bufferWord buffer (i + 13) ^^^ bufferWord buffer (i + 8) ^^^
        bufferWord buffer (i + 2) ^^^ bufferWord buffer i) 1 = Sha1.schedule m i := by
      rw [Sha1.schedule_of_le m hi,
        bufferWord_congr buffer (t := i + 13) (u := i - 3) (by omega),
        bufferWord_congr buffer (t := i + 8) (u := i - 8) (by omega),
        bufferWord_congr buffer (t := i + 2) (u := i - 14) (by omega),
        bufferWord_congr buffer (t := i) (u := i - 16) (by omega),
        h (i - 3) (by omega) (by omega), h (i - 8) (by omega) (by omega),
        h (i - 14) (by omega) (by omega), h (i - 16) (by omega) (by omega)]
      rfl
    rw [if_pos hi, hword]
    refine ⟨?_, by rw [bufferWord_setWord, if_pos rfl]⟩
    intro t hlt hle
    rw [bufferWord_setWord]
    by_cases ht : t = i
    · rw [if_pos (by rw [ht]), ht]
    · rw [if_neg (by omega)]
      exact h t (by omega) (by omega)
  · rw [if_neg hi]
    exact ⟨fun t hlt hle => h t (by omega) (by omega), h i (by omega) (by omega)⟩

/-- A round of the loop is a round of the standard. -/
theorem sha1Round_words (s : Sha1Vars) (i : ℕ) :
    (sha1Round s i).words =
      Sha1.round (bufferWord (roundBuffer s.buffer i) i) i s.words := by
  have ht : (if i < 20 then (s.d ^^^ (s.b &&& (s.c ^^^ s.d))) + 0x5a827999
      else if i < 40 then (s.b ^^^ s.c ^^^ s.d) + 0x6ed9eba1
      else if i < 60 then ((s.b &&& s.c) ||| (s.d &&& (s.b ||| s.c))) + 0x8f1bbcdc
      else (s.b ^^^ s.c ^^^ s.d) + 0xca62c1d6) = Sha1.f i s.b s.c s.d + Sha1.k i := by
    unfold Sha1.f Sha1.k
    rw [ch_eq, maj_eq]
    split
    · rfl
    split
    · rfl
    split
    · rfl
    · rfl
  have hsum : ∀ f k r e w : UInt32, f + k + (r + e + w) = r + f + e + k + w := by
    intro f k r e w
    ac_rfl
  show Sha1.Words.mk ((if i < 20 then _ else _) + (sha1Rol32 s.a 5 + s.e +
    bufferWord (roundBuffer s.buffer i) i)) _ _ _ _ = _
  rw [ht, hsum]
  rfl

/-- All rounds up to one. -/
theorem rounds_eq {m : ℕ → UInt32} {buffer : Vector UInt32 16}
    (hm : ∀ t < 16, bufferWord buffer t = m t) (x : Sha1.Words) (n : ℕ) :
    ((List.range n).foldl sha1Round ⟨x.a, x.b, x.c, x.d, x.e, buffer⟩).words =
        (List.range n).foldl (fun v t => Sha1.round (Sha1.schedule m t) t v) x ∧
      Window m ((List.range n).foldl sha1Round ⟨x.a, x.b, x.c, x.d, x.e, buffer⟩).buffer n := by
  induction n with
  | zero =>
    refine ⟨rfl, ?_⟩
    intro t hlt _
    rw [Sha1.schedule_of_lt m (by omega)]
    exact hm t (by omega)
  | succ n ih =>
    obtain ⟨hwords, hwindow⟩ := ih
    rw [List.range_succ, List.foldl_append, List.foldl_append]
    simp only [List.foldl_cons, List.foldl_nil]
    obtain ⟨hnext, hword⟩ := hwindow.round
    rw [sha1Round_words, sha1Round_buffer, hword, hwords]
    exact ⟨rfl, hnext⟩

/-- The hash value in a context. -/
def Sha1nfo.words (s : Sha1nfo) : Sha1.Words :=
  ⟨s.state.get 0, s.state.get 1, s.state.get 2, s.state.get 3, s.state.get 4⟩

/-- `sha1_hashBlock` compresses the block in the buffer. -/
theorem sha1HashBlock_words {s : Sha1nfo} {m : ℕ → UInt32}
    (hm : ∀ t < 16, bufferWord s.buffer t = m t) :
    (sha1HashBlock s).words = Sha1.compress s.words m := by
  have hrounds := (rounds_eq hm s.words 80).1
  unfold Sha1.compress
  rw [← hrounds]
  obtain ⟨r, hr⟩ : ∃ r, (List.range 80).foldl sha1Round
    ⟨s.words.a, s.words.b, s.words.c, s.words.d, s.words.e, s.buffer⟩ = r := ⟨_, rfl⟩
  have hblock : (sha1HashBlock s).words = ⟨s.words.a + r.a, s.words.b + r.b, s.words.c + r.c,
      s.words.d + r.d, s.words.e + r.e⟩ := by
    rw [← hr]
    rfl
  rw [hblock, hr]
  unfold Sha1Vars.words Sha1.Words.add
  simp only [UInt32.add_comm]

/-! ## Byte after byte -/

/-- A byte of the buffer, by its place in the block. -/
def bufferByte (buffer : Vector UInt32 16) (j : ℕ) : UInt8 :=
  byteOf (bufferWord buffer (j / 4)) (3 - j % 4)

/-- What a context holds of the bytes that have been taken in: the hash value behind their whole
blocks, and the rest of them. -/
structure Absorbed (bs : List UInt8) (s : Sha1nfo) : Prop where
  offset : s.bufferOffset = bs.length % 64
  words : s.words = Sha1.chain bs
  buffered : ∀ j < bs.length % 64,
    bufferByte s.buffer j = bs.getD (64 * (bs.length / 64) + j) 0

theorem absorbed_sha1Init (buffer : Vector UInt32 16) : Absorbed [] (sha1Init buffer) :=
  ⟨rfl, rfl, fun j hj => absurd hj (Nat.not_lt_zero j)⟩

/-- The place of a byte with its two low bits flipped. -/
theorem flipped_place {o : ℕ} (ho : o < 64) : (o ^^^ 3) / 4 = o / 4 ∧ (o ^^^ 3) % 4 = 3 - o % 4 := by
  interval_cases o <;> exact ⟨rfl, rfl⟩

/-- The buffer behind `sha1_addUncounted`, if the block is not complete. -/
def addBuffer (s : Sha1nfo) (data : UInt8) : Vector UInt32 16 :=
  setWord s.buffer ((s.bufferOffset ^^^ 3) / 4)
    (setByte (bufferWord s.buffer ((s.bufferOffset ^^^ 3) / 4)) ((s.bufferOffset ^^^ 3) % 4) data)

theorem sha1AddUncounted_eq (s : Sha1nfo) (data : UInt8) :
    sha1AddUncounted s data =
      if s.bufferOffset + 1 = blockLength then
        { sha1HashBlock ⟨addBuffer s data, s.state, s.byteCount, s.bufferOffset + 1⟩ with
          bufferOffset := 0 }
      else ⟨addBuffer s data, s.state, s.byteCount, s.bufferOffset + 1⟩ := by
  unfold sha1AddUncounted addBuffer bufferWord
  rfl

theorem byteCount_sha1AddUncounted (s : Sha1nfo) (data : UInt8) :
    (sha1AddUncounted s data).byteCount = s.byteCount := by
  rw [sha1AddUncounted_eq]
  by_cases hwhole : s.bufferOffset + 1 = blockLength
  · rw [if_pos hwhole]
    unfold sha1HashBlock
    dsimp only
  · rw [if_neg hwhole]

theorem bufferByte_addBuffer {s : Sha1nfo} (hoffset : s.bufferOffset < 64) (data : UInt8) {j : ℕ}
    (hj : j < 64) :
    bufferByte (addBuffer s data) j =
      if j = s.bufferOffset then data else bufferByte s.buffer j := by
  obtain ⟨hdiv, hmod⟩ := flipped_place hoffset
  unfold bufferByte addBuffer
  rw [bufferWord_setWord, hdiv, hmod]
  by_cases hword : s.bufferOffset / 4 % 16 = j / 4 % 16
  · rw [if_pos hword]
    by_cases hself : j = s.bufferOffset
    · rw [if_pos hself, hself, byteOf_setByte_self _ _ (by omega)]
    · rw [if_neg hself, byteOf_setByte_of_ne _ _ (by omega) (by omega) (by omega),
        bufferWord_congr _ hword]
  · rw [if_neg hword, if_neg (by rintro rfl; exact hword rfl)]

theorem Absorbed.offset_lt {bs : List UInt8} {s : Sha1nfo} (h : Absorbed bs s) :
    s.bufferOffset < 64 := by
  rw [h.offset]
  exact Nat.mod_lt _ (by decide)

/-- The bytes of the block so far, the new one with them. -/
theorem Absorbed.buffered_add {bs : List UInt8} {s : Sha1nfo} (h : Absorbed bs s) (b : UInt8)
    {j : ℕ} (hj : j ≤ s.bufferOffset) :
    bufferByte (addBuffer s b) j = (bs ++ [b]).getD (64 * (bs.length / 64) + j) 0 := by
  have hlt := h.offset_lt
  have hplace : 64 * (bs.length / 64) + s.bufferOffset = bs.length := by
    rw [h.offset]
    exact Nat.div_add_mod _ _
  rw [bufferByte_addBuffer hlt b (by omega)]
  by_cases hself : j = s.bufferOffset
  · rw [if_pos hself, hself, hplace, List.getD_append_right _ _ _ _ (Nat.le_refl _), Nat.sub_self]
    rfl
  · rw [if_neg hself, h.buffered j (by rw [← h.offset]; omega),
      List.getD_append _ _ _ _ (by omega)]

/-- The words of a block that the new byte completes. -/
theorem Absorbed.words_add {bs : List UInt8} {s : Sha1nfo} (h : Absorbed bs s) (b : UInt8)
    (hwhole : s.bufferOffset = 63) {t : ℕ} (ht : t < 16) :
    bufferWord (addBuffer s b) t = Sha1.blockWord (bs ++ [b]) (bs.length / 64) t := by
  have hlen : (bs ++ [b]).length = bs.length + 1 := by simp
  have hoffset := h.offset
  have hbyte : ∀ k < 4, byteOf (bufferWord (addBuffer s b) t) (3 - k) =
      (bs ++ [b]).getD (64 * (bs.length / 64) + 4 * t + k) 0 := by
    intro k hk
    have hj := h.buffered_add b (j := 4 * t + k) (by omega)
    unfold bufferByte at hj
    rw [show (4 * t + k) / 4 = t by omega, show (4 * t + k) % 4 = k by omega,
      ← Nat.add_assoc] at hj
    exact hj
  unfold Sha1.blockWord
  rw [Sha1.wordAt_eq (by omega), ← hbyte 1 (by omega), ← hbyte 2 (by omega),
    ← hbyte 3 (by omega), ← Nat.add_zero (64 * (bs.length / 64) + 4 * t), ← hbyte 0 (by omega)]
  exact (word_of_bytes _).symm

/-- A byte is taken in. -/
theorem Absorbed.add {bs : List UInt8} {s : Sha1nfo} (h : Absorbed bs s) (b : UInt8) :
    Absorbed (bs ++ [b]) (sha1AddUncounted s b) := by
  have hlt := h.offset_lt
  have hoffset := h.offset
  have hlen : (bs ++ [b]).length = bs.length + 1 := by simp
  rw [sha1AddUncounted_eq]
  by_cases hwhole : s.bufferOffset + 1 = blockLength
  · -- the byte completes the block
    have hlast : s.bufferOffset = 63 := by
      unfold blockLength at hwhole
      omega
    rw [if_pos hwhole]
    refine ⟨?_, ?_, ?_⟩
    · rw [hlen]
      show 0 = _
      omega
    · rw [Sha1.chain_append_of_whole (by omega), ← h.words]
      exact sha1HashBlock_words fun t ht => h.words_add b hlast ht
    · intro j hj
      rw [hlen] at hj
      omega
  · have hshort : s.bufferOffset < 63 := by
      unfold blockLength at hwhole
      omega
    rw [if_neg hwhole]
    refine ⟨?_, ?_, ?_⟩
    · rw [hlen]
      show s.bufferOffset + 1 = _
      omega
    · rw [Sha1.chain_append_of_lt (by omega), ← h.words]
      rfl
    · intro j hj
      have hdiv : (bs ++ [b]).length / 64 = bs.length / 64 := by
        rw [hlen]
        omega
      rw [hdiv]
      rw [hlen] at hj
      exact h.buffered_add b (by omega)

theorem Absorbed.addAll {bs : List UInt8} {s : Sha1nfo} (h : Absorbed bs s) (data : List UInt8) :
    Absorbed (bs ++ data) (data.foldl sha1AddUncounted s) := by
  induction data generalizing bs s with
  | nil =>
    rw [List.append_nil]
    exact h
  | cons b data ih =>
    rw [List.append_cons]
    exact ih (h.add b)

/-! ## The digest -/

/-- `sha1_write` takes in the bytes and counts them. -/
theorem Absorbed.write {bs : List UInt8} {s : Sha1nfo} (h : Absorbed bs s)
    (hcount : s.byteCount = UInt32.ofNat bs.length) (data : List UInt8) :
    Absorbed (bs ++ data) (sha1Write s data) ∧
      (sha1Write s data).byteCount = UInt32.ofNat (bs ++ data).length := by
  induction data generalizing bs s with
  | nil =>
    rw [List.append_nil]
    exact ⟨h, hcount⟩
  | cons b data ih =>
    have hcounted : Absorbed bs { s with byteCount := s.byteCount + 1 } :=
      ⟨h.offset, h.words, h.buffered⟩
    rw [List.append_cons]
    refine ih (hcounted.add b) ?_
    unfold sha1Writebyte
    rw [byteCount_sha1AddUncounted]
    dsimp only
    rw [hcount, List.length_append, UInt32.ofNat_add]
    rfl

/-- The zeros up to the place of the length. -/
theorem Absorbed.padZeros {bs : List UInt8} {s : Sha1nfo} {fuel z : ℕ} (h : Absorbed bs s)
    (hz : z < 64) (hfill : (bs.length + z) % 64 = 56) (hfuel : z ≤ fuel) :
    Absorbed (bs ++ List.replicate z 0) (sha1PadZeros fuel s) ∧
      (sha1PadZeros fuel s).byteCount = s.byteCount := by
  induction fuel generalizing bs s z with
  | zero =>
    obtain rfl : z = 0 := Nat.le_zero.mp hfuel
    rw [List.replicate_zero, List.append_nil]
    exact ⟨h, rfl⟩
  | succ fuel ih =>
    unfold sha1PadZeros
    rw [h.offset]
    by_cases hdone : bs.length % 64 = 56
    · obtain rfl : z = 0 := by omega
      rw [if_neg (not_not_intro hdone), List.replicate_zero, List.append_nil]
      exact ⟨h, rfl⟩
    · obtain ⟨y, rfl⟩ : ∃ y, z = y + 1 := ⟨z - 1, by omega⟩
      have hlen : (bs ++ [0]).length = bs.length + 1 := by simp
      obtain ⟨habsorbed, hcount⟩ :=
        ih (z := y) (h.add 0) (by omega) (by rw [hlen]; omega) (by omega)
      rw [if_pos hdone, List.replicate_succ, List.append_cons]
      exact ⟨habsorbed, hcount.trans (byteCount_sha1AddUncounted s 0)⟩

/-- The length that `sha1_pad` appends. -/
def lengthBytes (byteCount : UInt32) : List UInt8 :=
  [0, 0, 0, (byteCount >>> 29).toUInt8, (byteCount >>> 21).toUInt8, (byteCount >>> 13).toUInt8,
    (byteCount >>> 5).toUInt8, (byteCount <<< 3).toUInt8]

/-- It is the length in bits. -/
theorem lengthBytes_eq {n : ℕ} (hn : n < 2 ^ 32) :
    lengthBytes (UInt32.ofNat n) = beBytes 8 (8 * n) := by
  unfold lengthBytes
  simp only [beBytes, leBytes, List.reverse_cons, List.reverse_nil, List.nil_append,
    List.cons_append, List.cons.injEq, and_true, ← UInt8.toNat_inj]
  simp [Nat.shiftRight_eq_div_pow, Nat.shiftLeft_eq]
  omega

/-- `sha1_pad` takes in the rest of the padded message. -/
theorem Absorbed.pad {bs : List UInt8} {s : Sha1nfo} (h : Absorbed bs s)
    (hcount : s.byteCount = UInt32.ofNat bs.length) (hlen : bs.length < 2 ^ 32) :
    Absorbed (Sha1.pad bs) (sha1Pad s) := by
  have hone : (bs ++ [0x80]).length = bs.length + 1 := by simp
  have hfuel : Sha1.zeros bs.length ≤ blockLength := Nat.le_of_lt (Sha1.zeros_lt bs.length)
  obtain ⟨hzeros, hkept⟩ := (h.add 0x80).padZeros (Sha1.zeros_lt bs.length)
    (by rw [hone]; exact Sha1.zeros_fill bs.length) hfuel
  have hpad : Sha1.pad bs = bs ++ [0x80] ++ List.replicate (Sha1.zeros bs.length) 0 ++
      lengthBytes (UInt32.ofNat bs.length) := by
    rw [lengthBytes_eq hlen]
    unfold Sha1.pad
    simp
  have hlast := hzeros.addAll (lengthBytes (UInt32.ofNat bs.length))
  rw [hpad]
  unfold sha1Pad
  dsimp only
  rw [hkept, byteCount_sha1AddUncounted, hcount]
  exact hlast

/-- `sha1_init`, `sha1_write` and `sha1_result` compute the message digest. -/
theorem sha1Result_eq (buffer : Vector UInt32 16) {data : List UInt8} (hlen : data.length < 2 ^ 32) :
    sha1Result (sha1Write (sha1Init buffer) data) = Sha1.digest data := by
  obtain ⟨habsorbed, hcount⟩ := (absorbed_sha1Init buffer).write rfl data
  rw [List.nil_append] at habsorbed hcount
  have hwords := (habsorbed.pad hcount hlen).words
  unfold Sha1.digest
  rw [← hwords]
  obtain ⟨s, hs⟩ : ∃ s, sha1Pad (sha1Write (sha1Init buffer) data) = s := ⟨_, rfl⟩
  have hlist : s.state.toList = [s.state[0], s.state[1], s.state[2], s.state[3], s.state[4]] := by
    refine List.ext_getElem (by simp) ?_
    intro j hj hj'
    have hlt : j < 5 := hj'
    interval_cases j <;> simp
  unfold sha1Result
  rw [hs, hlist]
  rfl

end WLink.Misc
