import WLink.Lib.Bytes
import Mathlib.Data.Nat.Notation

/-!
# Memory as bytes

A memory is a function from addresses to bytes. `storeBytes` writes a list of bytes and `loadBytes`
reads one, `storeNat` and `loadNat` do so for a little-endian number, `copyBytes` is `memcpy`. Each
store has a frame lemma for the addresses outside it and a lemma for those inside.
-/

namespace WLink.Lib

/-- The `k` bytes from `a` on. -/
def loadBytes (mem : ℕ → UInt8) (a k : ℕ) : List UInt8 := (List.range k).map fun i => mem (a + i)

/-- Write bytes from `a` on. -/
def storeBytes (mem : ℕ → UInt8) (a : ℕ) (bs : List UInt8) : ℕ → UInt8 := fun x =>
  if a ≤ x then (bs[x - a]?).getD (mem x) else mem x

/-- The little-endian number of `k` bytes at `a`. -/
def loadNat (k : ℕ) (mem : ℕ → UInt8) (a : ℕ) : ℕ := ofLeBytes (loadBytes mem a k)

def storeNat (k : ℕ) (mem : ℕ → UInt8) (a n : ℕ) : ℕ → UInt8 := storeBytes mem a (leBytes k n)

/-- `memcpy` -/
def copyBytes (mem : ℕ → UInt8) (dst src n : ℕ) : ℕ → UInt8 :=
  storeBytes mem dst (loadBytes mem src n)

variable {mem mem' : ℕ → UInt8} {a b k x : ℕ}

@[simp] theorem length_loadBytes : (loadBytes mem a k).length = k := by
  rw [loadBytes, List.length_map, List.length_range]

theorem loadBytes_congr (h : ∀ i < k, mem' (a + i) = mem (a + i)) :
    loadBytes mem' a k = loadBytes mem a k :=
  List.map_congr_left fun i hi => h i (List.mem_range.mp hi)

theorem loadNat_congr (h : ∀ i < k, mem' (a + i) = mem (a + i)) :
    loadNat k mem' a = loadNat k mem a :=
  congrArg ofLeBytes (loadBytes_congr h)

/-- Outside what is written nothing changes. -/
theorem storeBytes_of_outside {bs : List UInt8} (h : x < a ∨ a + bs.length ≤ x) :
    storeBytes mem a bs x = mem x := by
  unfold storeBytes
  split_ifs with hle
  · have hout : bs.length ≤ x - a := by omega
    rw [List.getElem?_eq_none hout, Option.getD_none]
  · rfl

theorem storeBytes_inside {bs : List UInt8} {i : ℕ} (h : i < bs.length) :
    storeBytes mem a bs (a + i) = bs[i] := by
  unfold storeBytes
  rw [if_pos (Nat.le_add_right a i), Nat.add_sub_cancel_left, List.getElem?_eq_getElem h,
    Option.getD_some]

theorem storeNat_of_outside {n : ℕ} (h : x < a ∨ a + k ≤ x) : storeNat k mem a n x = mem x :=
  storeBytes_of_outside (by rw [length_leBytes]; exact h)

theorem loadBytes_storeBytes (bs : List UInt8) :
    loadBytes (storeBytes mem a bs) a bs.length = bs := by
  refine List.ext_getElem length_loadBytes fun i hi hi' => ?_
  simp only [loadBytes, List.getElem_map, List.getElem_range, storeBytes_inside hi']

theorem loadNat_storeNat (n : ℕ) : loadNat k (storeNat k mem a n) a = n % 256 ^ k := by
  have hbytes : loadBytes (storeBytes mem a (leBytes k n)) a (leBytes k n).length = leBytes k n :=
    loadBytes_storeBytes _
  rw [length_leBytes] at hbytes
  rw [loadNat, storeNat, hbytes, ofLeBytes_leBytes]

/-- A number is not changed by what is written beside it. -/
theorem loadNat_storeNat_of_apart {j n : ℕ} (h : b + j ≤ a ∨ a + k ≤ b) :
    loadNat j (storeNat k mem a n) b = loadNat j mem b :=
  loadNat_congr fun i hi => storeNat_of_outside (by omega)

end WLink.Lib
