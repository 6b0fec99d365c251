import WLink.Lib.Bytes
import WLink.Lib.CString

/-!
# The Base64 encoding

Base64 as RFC 4648 defines it: three bytes are a group of 24 bits, which is given out as four
characters of six bits each. A last group of one or two bytes is filled up with zero bits, and the
characters that hold nothing but filling are padding.
-/

namespace WLink.Lib.Base64

def alphabet : List UInt8 :=
  ascii "ABCDEFGHIJKLMNOPQRSTUVWXYZabcdefghijklmnopqrstuvwxyz0123456789+/"

/-- The character of a number of six bits. -/
def char (n : ℕ) : UInt8 := alphabet.getD n 0

/-- The character `=`. -/
def padding : UInt8 := 61

/-- The characters of a group of 24 bits. -/
def group (n : ℕ) : List UInt8 :=
  [char (n / 2 ^ 18 % 64), char (n / 2 ^ 12 % 64), char (n / 2 ^ 6 % 64), char (n % 64)]

def encode : List UInt8 → List UInt8
  | [] => []
  | [a] => (group (ofBeBytes [a, 0, 0])).take 2 ++ [padding, padding]
  | [a, b] => (group (ofBeBytes [a, b, 0])).take 3 ++ [padding]
  | a :: b :: c :: bs => group (ofBeBytes [a, b, c]) ++ encode bs

theorem length_encode (bs : List UInt8) : (encode bs).length = 4 * ((bs.length + 2) / 3) := by
  induction bs using encode.induct with
  | case1 => rfl
  | case2 a => simp [encode, group]
  | case3 a b => simp [encode, group]
  | case4 a b c bs ih =>
    rw [encode, List.length_append, ih]
    show 4 + _ = 4 * ((bs.length + 3 + 2) / 3)
    omega

/-- The examples of the standard. -/
example : encode (ascii "f") = ascii "Zg==" ∧ encode (ascii "fo") = ascii "Zm8=" ∧
    encode (ascii "foob") = ascii "Zm9vYg==" := by
  decide +kernel

end WLink.Lib.Base64
