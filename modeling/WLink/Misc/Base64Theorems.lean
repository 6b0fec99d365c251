import WLink.Lib.Base64
import WLink.Misc.Base64

/-!
# The encoding of `Base64.c`

`base64Encode_eq_encode`: where there is room for the result and its NUL, `base64_encode` writes
the Base64 encoding. The accumulator is never cleared; what is left in its upper bits of the bytes
before is shifted out or cut off.
-/

namespace WLink.Misc

open WLink.Lib

/-! ## The accumulator -/

theorem encChar_eq (x : UInt32) : encChar x = Base64.char (x.toNat % 64) := by
  have hand : (x &&& 63).toNat = x.toNat % 64 := by
    rw [UInt32.toNat_and]
    exact Nat.and_two_pow_sub_one_eq_mod x.toNat 6
  unfold encChar
  rw [hand]
  rfl

/-- The accumulator with a byte taken in. -/
def takeIn (v : UInt32) (ch : UInt8) : UInt32 := v <<< 8 ||| ch.toUInt32

theorem toNat_takeIn (v : UInt32) (ch : UInt8) :
    (takeIn v ch).toNat = v.toNat % 2 ^ 24 * 256 + ch.toNat := by
  have hch := ch.toNat_lt
  have hshift : (v <<< 8).toNat = (v.toNat % 2 ^ 24) <<< 8 := by
    rw [UInt32.toNat_shiftLeft, Nat.shiftLeft_eq, Nat.shiftLeft_eq]
    show v.toNat * 2 ^ 8 % 2 ^ 32 = _
    omega
  unfold takeIn
  rw [UInt32.toNat_or, UInt8.toNat_toUInt32, hshift,
    ← Nat.shiftLeft_add_eq_or_of_lt (show ch.toNat < 2 ^ 8 from hch), Nat.shiftLeft_eq]

theorem toNat_shiftRight_two (x : UInt32) : (x >>> 2).toNat = x.toNat / 4 := by
  simp [Nat.shiftRight_eq_div_pow]

theorem toNat_shiftRight_four (x : UInt32) : (x >>> 4).toNat = x.toNat / 16 := by
  simp [Nat.shiftRight_eq_div_pow]

theorem toNat_shiftRight_six (x : UInt32) : (x >>> 6).toNat = x.toNat / 64 := by
  simp [Nat.shiftRight_eq_div_pow]

/-! ## A byte by the number of bits before it -/

theorem takeByte_zero {outLen : ℕ} {out : List UInt8} (v : UInt32) (h : out.length < outLen)
    (a : UInt8) : takeByte outLen ⟨v, 0, out⟩ a =
      some ⟨takeIn v a, 2, out ++ [encChar (takeIn v a >>> 2)]⟩ := by
  simp [takeByte, takeIn, drain, putChar_eq h]

theorem takeByte_two {outLen : ℕ} {out : List UInt8} (v : UInt32) (h : out.length < outLen)
    (b : UInt8) : takeByte outLen ⟨v, 2, out⟩ b =
      some ⟨takeIn v b, 4, out ++ [encChar (takeIn v b >>> 4)]⟩ := by
  simp [takeByte, takeIn, drain, putChar_eq h]

theorem takeByte_four {outLen : ℕ} {out : List UInt8} (v : UInt32) (h : out.length + 1 < outLen)
    (c : UInt8) : takeByte outLen ⟨v, 4, out⟩ c =
      some ⟨takeIn v c, 0, out ++ [encChar (takeIn v c >>> 6), encChar (takeIn v c)]⟩ := by
  have hfirst : out.length < outLen := by omega
  have hsecond : (out ++ [encChar (takeIn v c >>> 6)]).length < outLen := by simpa using h
  unfold takeIn at *
  simp [takeByte, drain, putChar_eq hfirst, putChar_eq hsecond]

/-! ## Groups -/

theorem ofBeBytes_three (a b c : UInt8) :
    ofBeBytes [a, b, c] = a.toNat * 65536 + b.toNat * 256 + c.toNat := by
  simp [ofBeBytes, ofLeBytes]
  omega

/-- The characters that are given out for three bytes. -/
theorem group_eq (v : UInt32) (a b c : UInt8) :
    [encChar (takeIn v a >>> 2), encChar (takeIn (takeIn v a) b >>> 4),
      encChar (takeIn (takeIn (takeIn v a) b) c >>> 6),
      encChar (takeIn (takeIn (takeIn v a) b) c)] = Base64.group (ofBeBytes [a, b, c]) := by
  have ha := a.toNat_lt
  have hb := b.toNat_lt
  have hc := c.toNat_lt
  obtain ⟨n, hn⟩ : ∃ n, n = a.toNat * 65536 + b.toNat * 256 + c.toNat := ⟨_, rfl⟩
  have hfirst : (takeIn v a >>> 2).toNat % 64 = n / 262144 % 64 := by
    rw [toNat_shiftRight_two, toNat_takeIn]
    omega
  have hsecond : (takeIn (takeIn v a) b >>> 4).toNat % 64 = n / 4096 % 64 := by
    rw [toNat_shiftRight_four, toNat_takeIn, toNat_takeIn]
    omega
  have hthird : (takeIn (takeIn (takeIn v a) b) c >>> 6).toNat % 64 = n / 64 % 64 := by
    rw [toNat_shiftRight_six, toNat_takeIn, toNat_takeIn, toNat_takeIn]
    omega
  have hfourth : (takeIn (takeIn (takeIn v a) b) c).toNat % 64 = n % 64 := by
    rw [toNat_takeIn, toNat_takeIn, toNat_takeIn]
    omega
  rw [ofBeBytes_three, ← hn, encChar_eq, encChar_eq, encChar_eq, encChar_eq, hfirst, hsecond,
    hthird, hfourth]
  rfl

/-- A whole group leaves no bits behind. -/
theorem foldlM_group {outLen : ℕ} {out : List UInt8} (v : UInt32) (h : out.length + 4 ≤ outLen)
    (a b c : UInt8) (bs : List UInt8) :
    (a :: b :: c :: bs).foldlM (takeByte outLen) ⟨v, 0, out⟩ =
      bs.foldlM (takeByte outLen) ⟨takeIn (takeIn (takeIn v a) b) c, 0,
        out ++ Base64.group (ofBeBytes [a, b, c])⟩ := by
  rw [← group_eq v a b c]
  simp only [List.foldlM_cons, Option.bind_eq_bind]
  rw [takeByte_zero v (by omega), Option.bind_some,
    takeByte_two _ (by rw [List.length_append, List.length_singleton]; omega), Option.bind_some,
    takeByte_four _ (by simp only [List.length_append, List.length_singleton]; omega),
    Option.bind_some]
  simp only [List.append_assoc, List.cons_append, List.nil_append]

/-! ## The end -/

/-- What `base64_encode` does behind its loop. -/
def finish (outLen : ℕ) (s : Base64State) : Option (List UInt8) := do
  let out ← flush outLen s
  let out ← pad outLen 3 out
  if outLen ≤ out.length then none else some out

theorem base64Encode_eq_finish (outLen : ℕ) (bs : List UInt8) :
    base64Encode outLen bs = bs.foldlM (takeByte outLen) ⟨0, 0, []⟩ >>= finish outLen := rfl

theorem pad_zero {outLen fuel : ℕ} {out : List UInt8} (hmod : out.length % 4 = 0) :
    pad outLen fuel out = some out := by
  cases fuel with
  | zero => rfl
  | succ fuel =>
    unfold pad
    rw [if_neg (not_not_intro hmod)]

theorem pad_succ {outLen fuel : ℕ} {out : List UInt8} (hmod : out.length % 4 ≠ 0)
    (h : out.length < outLen) :
    pad outLen (fuel + 1) out = pad outLen fuel (out ++ [Base64.padding]) := by
  show (if out.length % 4 ≠ 0 then _ else _) = _
  rw [if_pos hmod, putChar_eq h]
  rfl

theorem finish_zero {outLen : ℕ} {out : List UInt8} (v : UInt32) (hmod : out.length % 4 = 0)
    (h : out.length < outLen) : finish outLen ⟨v, 0, out⟩ = some out := by
  unfold finish flush
  rw [if_neg (not_not_intro rfl), Option.bind_eq_bind, Option.bind_some, pad_zero hmod]
  exact if_neg (Nat.not_le.mpr h)

/-- Bits that are left are filled up to a character, and the characters to a group. -/
theorem finish_rest {outLen rem : ℕ} {out : List UInt8} (v : UInt32) (hrem : rem ≠ 0)
    (h : out.length < outLen) :
    finish outLen ⟨v, rem, out⟩ =
      (pad outLen 3 (out ++ [encChar (v <<< UInt32.ofNat (6 - rem))]) >>= fun out =>
        if outLen ≤ out.length then none else some out) := by
  unfold finish flush
  rw [if_pos hrem, putChar_eq h]
  rfl

/-- Two bits are left behind a last group of one byte. -/
theorem finish_one {outLen : ℕ} {out : List UInt8} (v : UInt32) (hmod : out.length % 4 = 0)
    (h : out.length + 4 < outLen) (a : UInt8) :
    [a].foldlM (takeByte outLen) ⟨v, 0, out⟩ >>= finish outLen =
      some (out ++ Base64.encode [a]) := by
  have ha := a.toNat_lt
  have hfirst : (takeIn v a >>> 2).toNat % 64 = a.toNat * 65536 / 262144 % 64 := by
    rw [toNat_shiftRight_two, toNat_takeIn]
    omega
  have hsecond : (takeIn v a <<< 4).toNat % 64 = a.toNat * 65536 / 4096 % 64 := by
    have hshift : (takeIn v a <<< 4).toNat = (takeIn v a).toNat * 16 % 4294967296 := by
      simp [Nat.shiftLeft_eq]
    rw [hshift, toNat_takeIn]
    omega
  have hencode : Base64.encode [a] =
      [encChar (takeIn v a >>> 2), encChar (takeIn v a <<< 4), Base64.padding, Base64.padding] := by
    rw [encChar_eq, encChar_eq, hfirst, hsecond]
    simp [Base64.encode, Base64.group, ofBeBytes_three]
  have hloop : [a].foldlM (takeByte outLen) ⟨v, 0, out⟩ =
      some ⟨takeIn v a, 2, out ++ [encChar (takeIn v a >>> 2)]⟩ := by
    rw [List.foldlM_cons, takeByte_zero v (by omega)]
    rfl
  rw [hencode, hloop, Option.bind_eq_bind, Option.bind_some,
    finish_rest _ (by decide) (by simp; omega), pad_succ (by simp; omega) (by simp; omega),
    pad_succ (by simp; omega) (by simp; omega), pad_zero (by simp; omega), Option.bind_eq_bind,
    Option.bind_some, if_neg (by simp; omega)]
  simp

/-- Four bits are left behind a last group of two bytes. -/
theorem finish_two {outLen : ℕ} {out : List UInt8} (v : UInt32) (hmod : out.length % 4 = 0)
    (h : out.length + 4 < outLen) (a b : UInt8) :
    [a, b].foldlM (takeByte outLen) ⟨v, 0, out⟩ >>= finish outLen =
      some (out ++ Base64.encode [a, b]) := by
  have ha := a.toNat_lt
  have hb := b.toNat_lt
  have hfirst : (takeIn v a >>> 2).toNat % 64 =
      (a.toNat * 65536 + b.toNat * 256) / 262144 % 64 := by
    rw [toNat_shiftRight_two, toNat_takeIn]
    omega
  have hsecond : (takeIn (takeIn v a) b >>> 4).toNat % 64 =
      (a.toNat * 65536 + b.toNat * 256) / 4096 % 64 := by
    rw [toNat_shiftRight_four, toNat_takeIn, toNat_takeIn]
    omega
  have hthird : (takeIn (takeIn v a) b <<< 2).toNat % 64 =
      (a.toNat * 65536 + b.toNat * 256) / 64 % 64 := by
    have hshift : (takeIn (takeIn v a) b <<< 2).toNat =
        (takeIn (takeIn v a) b).toNat * 4 % 4294967296 := by
      simp [Nat.shiftLeft_eq]
    rw [hshift, toNat_takeIn, toNat_takeIn]
    omega
  have hencode : Base64.encode [a, b] =
      [encChar (takeIn v a >>> 2), encChar (takeIn (takeIn v a) b >>> 4),
        encChar (takeIn (takeIn v a) b <<< 2), Base64.padding] := by
    rw [encChar_eq, encChar_eq, encChar_eq, hfirst, hsecond, hthird]
    simp [Base64.encode, Base64.group, ofBeBytes_three]
  have hloop : [a, b].foldlM (takeByte outLen) ⟨v, 0, out⟩ =
      some ⟨takeIn (takeIn v a) b, 4, out ++ [encChar (takeIn v a >>> 2)] ++
        [encChar (takeIn (takeIn v a) b >>> 4)]⟩ := by
    rw [List.foldlM_cons, takeByte_zero v (by omega), Option.bind_eq_bind, Option.bind_some,
      List.foldlM_cons, takeByte_two _ (by simp; omega)]
    rfl
  rw [hencode, hloop, Option.bind_eq_bind, Option.bind_some,
    finish_rest _ (by decide) (by simp; omega), pad_succ (by simp; omega) (by simp; omega),
    pad_zero (by simp; omega), Option.bind_eq_bind, Option.bind_some, if_neg (by simp; omega)]
  simp

theorem foldlM_finish_eq {outLen : ℕ} {out : List UInt8} (v : UInt32) (hmod : out.length % 4 = 0)
    (bs : List UInt8) (h : out.length + 4 * ((bs.length + 2) / 3) < outLen) :
    bs.foldlM (takeByte outLen) ⟨v, 0, out⟩ >>= finish outLen =
      some (out ++ Base64.encode bs) := by
  induction bs using Base64.encode.induct generalizing v out with
  | case1 =>
    rw [Base64.encode, List.append_nil]
    exact finish_zero v hmod (by omega)
  | case2 a => exact finish_one v hmod (by simpa using h) a
  | case3 a b => exact finish_two v hmod (by simpa using h) a b
  | case4 a b c bs ih =>
    have hlen : (a :: b :: c :: bs).length = bs.length + 3 := rfl
    have hgroup : (out ++ Base64.group (ofBeBytes [a, b, c])).length = out.length + 4 := by
      rw [List.length_append]
      rfl
    rw [hlen] at h
    rw [foldlM_group v (by omega), ih _ (by omega) (by omega), Base64.encode, List.append_assoc]

/-- Where there is room, the result is the Base64 encoding. -/
theorem base64Encode_eq_encode {outLen : ℕ} {bs : List UInt8}
    (h : 4 * ((bs.length + 2) / 3) < outLen) :
    base64Encode outLen bs = some (Base64.encode bs) := by
  rw [base64Encode_eq_finish, foldlM_finish_eq 0 rfl bs (by simpa using h), List.nil_append]

end WLink.Misc
