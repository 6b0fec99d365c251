import WLink.Lib.Bytes
import WLink.Net.Dhcp
import WLink.Httpd.Head
import Mathlib.Tactic.IntervalCases

/-!
# IPv4 addresses as text

`ip4addr_aton` and `ip4addr_ntoa` of lwIP, and what `NeonTCPIP.c` makes of them. The machine
stores numbers with the low byte first. `ip4addrAton_dottedForm` is the round trip.

* `ip4addrAton`, `ipStringToU32` -- from text
* `ip4addrNtoaR`, `ipU32ToString` -- to text
* `dottedForm` -- the text one writes for an address
-/

namespace WLink.Net

open WLink.Lib CString WLink.Httpd

/-! ## From text -/

/-- `lwip_isxdigit` -/
def isXDigit (c : UInt8) : Bool := isDigit c || (97 ≤ c && c ≤ 102) || (65 ≤ c && c ≤ 70)

/-- `lwip_islower` -/
def isLower (c : UInt8) : Bool := 97 ≤ c && c ≤ 122

/-- The loop over the digits of a number; what overflows is lost. -/
def scanDigits (base val : UInt32) : List UInt8 → UInt32 × List UInt8
  | [] => (val, [])
  | c :: s =>
    if isDigit c then
      if base = 8 && 56 ≤ c then (val, c :: s)
      else scanDigits base (val * base + (c.toUInt32 - 48)) s
    else if base = 16 && isXDigit c then
      scanDigits base ((val <<< 4) ||| (c.toUInt32 + 10 - if isLower c then 97 else 65)) s
    else (val, c :: s)

/-- The base that the start of a number asks for, and the text behind that start. -/
def splitBase : List UInt8 → UInt32 × List UInt8
  | 48 :: 120 :: s => (16, s)
  | 48 :: 88 :: s => (16, s)
  | 48 :: s => (8, s)
  | s => (10, s)

/-- One number, as in C: hexadecimal, octal or decimal. -/
def scanNumber (s : List UInt8) : UInt32 × List UInt8 := scanDigits (splitBase s).1 0 (splitBase s).2

/-- The loop over the numbers, with the dots it may still pass. -/
def scanParts : ℕ → List UInt32 → List UInt8 → Option (List UInt32 × List UInt8)
  | dots, parts, s =>
    if !s.head?.any isDigit then none
    else
      let (val, rest) := scanNumber s
      if rest.head? = some 46 then
        match dots with
        | 0 => none
        | dots + 1 => scanParts dots (parts ++ [val]) rest.tail
      else some (parts ++ [val], rest)

/-- The address in the order of the host, by the number of parts. -/
def concoct : List UInt32 → Option UInt32
  | [val] => some val
  | [p₀, val] =>
    if 0xffffff < val then none
    else if 0xff < p₀ then none
    else some (val ||| (p₀ <<< 24))
  | [p₀, p₁, val] =>
    if 0xffff < val then none
    else if 0xff < p₀ || 0xff < p₁ then none
    else some (val ||| ((p₀ <<< 24) ||| (p₁ <<< 16)))
  | [p₀, p₁, p₂, val] =>
    if 0xff < val then none
    else if 0xff < p₀ || 0xff < p₁ || 0xff < p₂ then none
    else some (val ||| ((p₀ <<< 24) ||| (p₁ <<< 16) ||| (p₂ <<< 8)))
  | _ => none

/-- `lwip_htonl` -/
def lwipHtonl (x : UInt32) : UInt32 :=
  ((x &&& 0x000000ff) <<< 24) ||| ((x &&& 0x0000ff00) <<< 8) ||| ((x &&& 0x00ff0000) >>> 8) |||
    ((x &&& 0xff000000) >>> 24)

/-- `ip4addr_aton`: `none` when it returns 0. Behind the address the text ends or has a blank. -/
def ip4addrAton (s : List UInt8) : Option Ip4Addr :=
  match scanParts 3 [] s with
  | none => none
  | some (parts, rest) =>
    if rest.head?.all fun c => c = 0 || isSpace c then (concoct parts).map lwipHtonl else none

/-- `ip_string_to_u32` -/
def ipStringToU32 (s : List UInt8) : Ip4Addr := (ip4addrAton s).getD 0

/-! ## To text -/

/-- The bytes of an address as they lie in memory. -/
def addrBytes (a : Ip4Addr) : List UInt8 :=
  [a.toUInt8, (a >>> 8).toUInt8, (a >>> 16).toUInt8, (a >>> 24).toUInt8]

/-- `inv`: the digits of a byte, the last one first; there are at most three. -/
def invDigits : ℕ → UInt8 → List UInt8
  | 0, _ => []
  | n + 1, b => (48 + b % 10) :: if b / 10 = 0 then [] else invDigits n (b / 10)

/-- `ip4addr_ntoa_r`: every byte is followed by a dot, and the last dot becomes the NUL. -/
def ip4addrNtoaR (a : Ip4Addr) (buflen : ℕ) : Option (List UInt8) :=
  let text := (addrBytes a).flatMap fun b => (invDigits 3 b).reverse ++ [46]
  if buflen < text.length then none else some text.dropLast

/-- `IP4ADDR_STRLEN_MAX` -/
def ip4addrStrlenMax : ℕ := 16

/-- `ip_u32_to_string`. `ip4addr_ntoa` has room for every address, see `ip4addrNtoaR_eq`. -/
def ipU32ToString (a : Ip4Addr) (buflen : ℕ) : List UInt8 :=
  ((ip4addrNtoaR a ip4addrStrlenMax).getD []).take (buflen - 1)

/-! ## Dotted form -/

/-- The dotted form of an address: its four bytes as decimal numbers. -/
def dottedForm (a : Ip4Addr) : List UInt8 :=
  [46].intercalate ((addrBytes a).map fun b => decimal b.toNat)

/-- What lwIP makes of a byte is its decimal form. -/
theorem invDigits_eq (b : UInt8) : (invDigits 3 b).reverse = decimal b.toNat :=
  forall_byte (P := fun b => (invDigits 3 b).reverse = decimal b.toNat) (by decide +kernel) b

theorem length_decimal_byte (b : UInt8) : (decimal b.toNat).length ≤ 3 := by
  have hall : ∀ n < 256, (decimal n).length ≤ 3 := by decide +kernel
  exact hall b.toNat b.toNat_lt

theorem flatMap_addrBytes (a : Ip4Addr) :
    ((addrBytes a).flatMap fun b => (invDigits 3 b).reverse ++ [46]) = dottedForm a ++ [46] := by
  simp only [invDigits_eq]
  simp [addrBytes, dottedForm, List.intercalate, List.intersperse]

theorem length_dottedForm (a : Ip4Addr) : (dottedForm a).length ≤ 15 := by
  have h₀ := length_decimal_byte a.toUInt8
  have h₁ := length_decimal_byte (a >>> 8).toUInt8
  have h₂ := length_decimal_byte (a >>> 16).toUInt8
  have h₃ := length_decimal_byte (a >>> 24).toUInt8
  simp only [dottedForm, addrBytes, List.intercalate, List.intersperse, List.map_cons,
    List.map_nil, List.flatten_cons, List.flatten_nil, List.length_append, List.length_cons,
    List.length_nil]
  omega

theorem ip4addrNtoaR_eq (a : Ip4Addr) :
    ip4addrNtoaR a ip4addrStrlenMax = some (dottedForm a) := by
  have hlen := length_dottedForm a
  unfold ip4addrNtoaR
  simp only
  rw [flatMap_addrBytes, if_neg, List.dropLast_concat]
  rw [List.length_append, List.length_singleton, ip4addrStrlenMax]
  omega

/-- A buffer of twenty bytes holds the dotted form of every address. -/
theorem ipU32ToString_eq (a : Ip4Addr) : ipU32ToString a 20 = dottedForm a := by
  have hlen := length_dottedForm a
  unfold ipU32ToString
  rw [ip4addrNtoaR_eq, Option.getD_some]
  exact List.take_of_length_le (by omega)

/-! ## The round trip -/

/-- The text ends here or goes on with a dot. -/
def EndsPart (rest : List UInt8) : Prop := rest = [] ∨ ∃ s, rest = 46 :: s

theorem scanDigits_endsPart {rest : List UInt8} (h : EndsPart rest) (base val : UInt32) :
    scanDigits base val rest = (val, rest) := by
  rcases h with rfl | ⟨s, rfl⟩
  · rfl
  · unfold scanDigits
    rw [if_neg (by decide), if_neg]
    rw [show isXDigit 46 = false from by decide, Bool.and_false]
    exact Bool.false_ne_true

theorem scanDigits_ten {ds : List UInt8} (hds : ∀ d ∈ ds, isDigit d = true) {rest : List UInt8}
    (h : EndsPart rest) (val : UInt32) :
    scanDigits 10 val (ds ++ rest) =
      (ds.foldl (fun v d => v * 10 + (d.toUInt32 - 48)) val, rest) := by
  induction ds generalizing val with
  | nil => exact scanDigits_endsPart h 10 val
  | cons d ds ih =>
    rw [List.cons_append, scanDigits, if_pos (hds d List.mem_cons_self)]
    exact ih (fun d' hd' => hds d' (List.mem_cons_of_mem _ hd')) _

/-- A number without a leading zero is decimal. -/
theorem splitBase_ten {s : List UInt8} (h : s.head? ≠ some 48) : splitBase s = (10, s) := by
  unfold splitBase
  split
  · exact absurd rfl h
  · exact absurd rfl h
  · exact absurd rfl h
  · rfl

theorem splitBase_zero {rest : List UInt8} (h : EndsPart rest) :
    splitBase (48 :: rest) = (8, rest) := by
  rcases h with rfl | ⟨s, rfl⟩
  · rfl
  · rfl

/-- The decimal form of a byte that is not zero: digits without a leading zero. -/
theorem decimal_byte {b : UInt8} (hb : b ≠ 0) :
    (decimal b.toNat).all isDigit = true ∧ decimal b.toNat ≠ [] ∧
      ((decimal b.toNat).head?.all fun d => d ≠ 48) = true ∧
      (decimal b.toNat).foldl (fun v d => v * 10 + (d.toUInt32 - 48)) 0 = b.toUInt32 := by
  have hall : ∀ n < 256, n ≠ 0 → (decimal n).all isDigit = true ∧ decimal n ≠ [] ∧
      ((decimal n).head?.all fun d => d ≠ 48) = true ∧
      (decimal n).foldl (fun v d => v * 10 + (d.toUInt32 - 48)) 0 = UInt32.ofNat n := by
    decide +kernel
  have hpos : b.toNat ≠ 0 := fun h0 => hb (UInt8.toNat_inj.mp h0)
  have hval : UInt32.ofNat b.toNat = b.toUInt32 := by simp
  rw [← hval]
  exact hall b.toNat b.toNat_lt hpos

/-- The decimal form of a byte is read as that byte. -/
theorem scanNumber_decimal (b : UInt8) {rest : List UInt8} (h : EndsPart rest) :
    scanNumber (decimal b.toNat ++ rest) = (b.toUInt32, rest) := by
  unfold scanNumber
  by_cases hzero : b = 0
  · subst hzero
    rw [show decimal (0 : UInt8).toNat ++ rest = 48 :: rest from rfl, splitBase_zero h]
    exact scanDigits_endsPart h 8 0
  · obtain ⟨hdigits, hne, hhead, hfold⟩ := decimal_byte hzero
    have hsplit : splitBase (decimal b.toNat ++ rest) = (10, decimal b.toNat ++ rest) := by
      obtain ⟨d, ds, hd⟩ := List.exists_cons_of_ne_nil hne
      apply splitBase_ten
      rw [hd] at hhead ⊢
      intro h48
      have hd48 : d = 48 := Option.some.inj h48
      subst hd48
      exact absurd hhead Bool.false_ne_true
    rw [hsplit]
    simp only
    rw [scanDigits_ten (List.all_eq_true.mp hdigits) h, hfold]

theorem isDigit_head_decimal (b : UInt8) (rest : List UInt8) :
    (decimal b.toNat ++ rest).head?.any isDigit = true := by
  have hall : ∀ n < 256, (decimal n).head?.any isDigit = true := by decide +kernel
  have hb := hall b.toNat b.toNat_lt
  cases hd : decimal b.toNat with
  | nil =>
    rw [hd] at hb
    exact absurd hb (by decide)
  | cons d ds =>
    rw [hd] at hb
    exact hb

/-- A part that a dot follows. -/
theorem scanParts_dot (dots : ℕ) (parts : List UInt32) (b : UInt8) (s : List UInt8) :
    scanParts (dots + 1) parts (decimal b.toNat ++ 46 :: s) =
      scanParts dots (parts ++ [b.toUInt32]) s := by
  rw [scanParts, isDigit_head_decimal, scanNumber_decimal b (Or.inr ⟨s, rfl⟩)]
  rfl

/-- The last part. -/
theorem scanParts_last (dots : ℕ) (parts : List UInt32) (b : UInt8) :
    scanParts dots parts (decimal b.toNat) = some (parts ++ [b.toUInt32], []) := by
  have hhead := isDigit_head_decimal b []
  have hends : EndsPart [] := Or.inl rfl
  have hscan := scanNumber_decimal b hends
  rw [List.append_nil] at hhead hscan
  cases dots with
  | zero =>
    rw [scanParts, hhead, hscan]
    rfl
  | succ dots =>
    rw [scanParts, hhead, hscan]
    rfl

theorem not_lt_toUInt32 (b : UInt8) : ¬ 0xff < b.toUInt32 := by
  have hb := b.toNat_lt
  rw [UInt32.lt_iff_toNat_lt, UInt8.toNat_toUInt32]
  show ¬ 255 < b.toNat
  omega

/-- The four bytes of an address make up the address. -/
theorem concoct_addrBytes (a : Ip4Addr) :
    (concoct ((addrBytes a).map UInt8.toUInt32)).map lwipHtonl = some a := by
  have hbits : lwipHtonl ((a >>> 24).toUInt8.toUInt32 ||| ((a.toUInt8.toUInt32 <<< 24) |||
      ((a >>> 8).toUInt8.toUInt32 <<< 16) ||| ((a >>> 16).toUInt8.toUInt32 <<< 8))) = a := by
    unfold lwipHtonl
    apply UInt32.toBitVec_inj.mp
    apply BitVec.eq_of_getLsbD_eq
    intro i hi
    simp only [UInt32.toBitVec_or, UInt32.toBitVec_shiftLeft, UInt32.toBitVec_and,
      UInt8.toBitVec_toUInt32, UInt32.toBitVec_toUInt8, UInt32.toBitVec_shiftRight,
      UInt32.toBitVec_ofNat, BitVec.ofNat_eq_ofNat, BitVec.reduceMod, BitVec.ushiftRight_eq',
      BitVec.toNat_ofNat, Nat.reducePow, Nat.reduceMod, BitVec.shiftLeft_eq', BitVec.getLsbD_or,
      BitVec.getLsbD_shiftLeft, BitVec.getLsbD_and, BitVec.getLsbD_setWidth,
      BitVec.getLsbD_ushiftRight]
    -- every bit of the address comes from one bit of one byte
    interval_cases i <;> simp
  simp only [addrBytes, List.map_cons, List.map_nil, concoct, not_lt_toUInt32, if_false,
    Bool.or_self, decide_false, Bool.false_eq_true, Option.map_some]
  rw [hbits]

/-- The dotted form of an address is read as that address. -/
theorem ip4addrAton_dottedForm (a : Ip4Addr) : ip4addrAton (dottedForm a) = some a := by
  have htext : dottedForm a =
      decimal a.toUInt8.toNat ++ (46 : UInt8) :: (decimal (a >>> 8).toUInt8.toNat ++
        (46 : UInt8) :: (decimal (a >>> 16).toUInt8.toNat ++
          (46 : UInt8) :: decimal (a >>> 24).toUInt8.toNat)) := by
    simp [dottedForm, addrBytes, List.intercalate, List.intersperse]
  unfold ip4addrAton
  rw [htext, scanParts_dot, scanParts_dot, scanParts_dot, scanParts_last]
  exact concoct_addrBytes a

end WLink.Net
