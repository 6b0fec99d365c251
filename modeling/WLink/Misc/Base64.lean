import WLink.Lib.CString

/-!
# Base64

`base64_encode` of `Base64.c`: an accumulator takes in eight bits for a byte and gives out six
for a character. `base64Encode_eq` says how long the result is, and that it is a string.
-/

namespace WLink.Misc

open WLink.Lib

def base64encTab : List UInt8 :=
  ascii "ABCDEFGHIJKLMNOPQRSTUVWXYZabcdefghijklmnopqrstuvwxyz0123456789+/"

/-- The variables `v`, `rem` and `out` of the loop; the index `io` is the length of `out`. -/
structure Base64State where
  v : UInt32
  rem : ℕ
  out : List UInt8

/-- `out[io++] = c`, or `-1` where there is no room for it. -/
def putChar (outLen : ℕ) (out : List UInt8) (c : UInt8) : Option (List UInt8) :=
  if outLen ≤ out.length then none else some (out ++ [c])

/-- The character for the low six bits. -/
def encChar (x : UInt32) : UInt8 := base64encTab.getD (x &&& 63).toNat 0

/-- `while (rem >= 6)`, with a bound on its rounds. -/
def drain (outLen : ℕ) : ℕ → Base64State → Option Base64State
  | 0, s => some s
  | fuel + 1, s =>
    if 6 ≤ s.rem then do
      let out ← putChar outLen s.out (encChar (s.v >>> UInt32.ofNat (s.rem - 6)))
      drain outLen fuel { s with rem := s.rem - 6, out := out }
    else some s

/-- One round of the `for` loop. -/
def takeByte (outLen : ℕ) (s : Base64State) (ch : UInt8) : Option Base64State :=
  let rem := s.rem + 8
  drain outLen rem { s with v := s.v <<< 8 ||| ch.toUInt32, rem := rem }

/-- The bits that are left behind the loop, filled up with zeros. -/
def flush (outLen : ℕ) (s : Base64State) : Option (List UInt8) :=
  if s.rem ≠ 0 then putChar outLen s.out (encChar (s.v <<< UInt32.ofNat (6 - s.rem)))
  else some s.out

/-- `while (io & 3)`, with a bound on its rounds. -/
def pad (outLen : ℕ) : ℕ → List UInt8 → Option (List UInt8)
  | 0, out => some out
  | fuel + 1, out =>
    if out.length % 4 ≠ 0 then do
      let out ← putChar outLen out 61
      pad outLen fuel out
    else some out

/-- `base64_encode`: the string in `out` without its NUL, or `none` for the result `-1`. -/
def base64Encode (outLen : ℕ) (bs : List UInt8) : Option (List UInt8) := do
  let s ← bs.foldlM (takeByte outLen) ⟨0, 0, []⟩
  let out ← flush outLen s
  let out ← pad outLen 3 out
  if outLen ≤ out.length then none else some out

/-! ## Length -/

theorem putChar_eq {outLen : ℕ} {out : List UInt8} (h : out.length < outLen) (c : UInt8) :
    putChar outLen out c = some (out ++ [c]) := if_neg (by omega)

theorem encChar_ne_zero (x : UInt32) : encChar x ≠ 0 := by
  have hlt : (x &&& 63).toNat < base64encTab.length := by
    have hle : (x &&& 63).toNat ≤ 63 := by
      rw [UInt32.toNat_and]
      exact Nat.and_le_right
    have hlen : base64encTab.length = 64 := by decide +kernel
    omega
  have hnz : ∀ c ∈ base64encTab, c ≠ 0 := by decide +kernel
  unfold encChar
  rw [List.getD_eq_getElem?_getD, List.getElem?_eq_getElem hlt]
  exact hnz _ (List.getElem_mem hlt)

/-- So far `n` bytes have been taken in and every full group of six bits was given out. -/
structure Taken (n : ℕ) (s : Base64State) : Prop where
  bits : 6 * s.out.length + s.rem = 8 * n
  rem_lt : s.rem < 6
  nul_notMem : 0 ∉ s.out

theorem drain_eq {outLen n fuel : ℕ} {s : Base64State} (hfuel : s.rem < 6 + fuel)
    (hbits : 6 * s.out.length + s.rem = 8 * n) (hnul : 0 ∉ s.out) (hlen : 8 * n < 6 * outLen) :
    ∃ s', drain outLen fuel s = some s' ∧ Taken n s' := by
  induction fuel generalizing s with
  | zero => exact ⟨s, rfl, hbits, by omega, hnul⟩
  | succ fuel ih =>
    unfold drain
    split
    · rename_i hrem
      rw [putChar_eq (by omega)]
      refine ih ?_ ?_ ?_
      · show s.rem - 6 < 6 + fuel
        omega
      · show 6 * (s.out ++ [_]).length + (s.rem - 6) = 8 * n
        rw [List.length_append, List.length_singleton]
        omega
      · show 0 ∉ s.out ++ [_]
        simpa [hnul] using (encChar_ne_zero _).symm
    · rename_i hrem
      exact ⟨s, rfl, hbits, by omega, hnul⟩

/-- What one round keeps. -/
theorem takeByte_eq {outLen n : ℕ} {s : Base64State} (h : Taken n s)
    (hlen : 8 * (n + 1) < 6 * outLen) (ch : UInt8) :
    ∃ s', takeByte outLen s ch = some s' ∧ Taken (n + 1) s' := by
  obtain ⟨hbits, hrem, hnul⟩ := h
  refine drain_eq ?_ ?_ hnul hlen
  · show s.rem + 8 < 6 + (s.rem + 8)
    omega
  · show 6 * s.out.length + (s.rem + 8) = 8 * (n + 1)
    omega

/-- What the whole `for` loop keeps. -/
theorem foldlM_takeByte_eq {outLen n : ℕ} {s : Base64State} (h : Taken n s) (bs : List UInt8)
    (hlen : 8 * (n + bs.length) < 6 * outLen) :
    ∃ s', bs.foldlM (takeByte outLen) s = some s' ∧ Taken (n + bs.length) s' := by
  induction bs generalizing n s with
  | nil => exact ⟨s, rfl, h⟩
  | cons b bs ih =>
    rw [List.length_cons] at hlen ⊢
    obtain ⟨s₁, hs₁, h₁⟩ :=
      takeByte_eq h (show 8 * (n + 1) < 6 * outLen by omega) b
    obtain ⟨s', hs', h'⟩ := ih h₁ (by omega)
    refine ⟨s', ?_, by rwa [show n + (bs.length + 1) = n + 1 + bs.length by omega]⟩
    rw [List.foldlM_cons, hs₁]
    exact hs'

theorem flush_eq {outLen n : ℕ} {s : Base64State} (h : Taken n s) (hlen : 8 * n < 6 * outLen) :
    ∃ out, flush outLen s = some out ∧ 0 ∉ out ∧ out.length = (8 * n + 5) / 6 := by
  obtain ⟨hbits, hrem, hnul⟩ := h
  unfold flush
  split
  · refine ⟨_, putChar_eq (by omega) _, ?_, ?_⟩
    · simpa [hnul] using (encChar_ne_zero _).symm
    · rw [List.length_append, List.length_singleton]
      omega
  · exact ⟨s.out, rfl, hnul, by omega⟩

theorem pad_eq {outLen fuel : ℕ} {out : List UInt8} (hnul : 0 ∉ out)
    (hfuel : (4 - out.length % 4) % 4 ≤ fuel) (hlen : 4 * ((out.length + 3) / 4) ≤ outLen) :
    ∃ out', pad outLen fuel out = some out' ∧ 0 ∉ out' ∧
      out'.length = 4 * ((out.length + 3) / 4) := by
  induction fuel generalizing out with
  | zero => exact ⟨out, rfl, hnul, by omega⟩
  | succ fuel ih =>
    unfold pad
    split
    · rename_i hmod
      rw [putChar_eq (by omega)]
      have hone : (out ++ [61]).length = out.length + 1 := by simp
      have hnul₁ : 0 ∉ out ++ [61] := by simpa using hnul
      obtain ⟨out', hout, hnul', hlen'⟩ := ih hnul₁ (by omega) (by omega)
      exact ⟨out', hout, hnul', by omega⟩
    · exact ⟨out, rfl, hnul, by omega⟩

/-- Three bytes become four characters, and the result is a string if there is room for it. -/
theorem base64Encode_eq {outLen : ℕ} {bs : List UInt8}
    (hlen : 4 * ((bs.length + 2) / 3) < outLen) :
    ∃ out, base64Encode outLen bs = some out ∧ 0 ∉ out ∧
      out.length = 4 * ((bs.length + 2) / 3) := by
  have hstart : Taken 0 ⟨0, 0, []⟩ := ⟨rfl, by decide, by simp⟩
  obtain ⟨s, hs, h⟩ :=
    foldlM_takeByte_eq hstart bs (show 8 * (0 + bs.length) < 6 * outLen by omega)
  rw [Nat.zero_add] at h
  obtain ⟨out₁, hout₁, hnul₁, hlen₁⟩ := flush_eq h (show 8 * bs.length < 6 * outLen by omega)
  obtain ⟨out, hout, hnul', hlen'⟩ := pad_eq hnul₁
    (show (4 - out₁.length % 4) % 4 ≤ 3 by omega)
    (show 4 * ((out₁.length + 3) / 4) ≤ outLen by omega)
  refine ⟨out, ?_, hnul', by omega⟩
  unfold base64Encode
  simp only [hs, Option.bind_eq_bind, Option.bind_some, hout₁, hout]
  exact if_neg (by omega)

end WLink.Misc
