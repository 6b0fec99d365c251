import WLink.Lib.Bytes
import Mathlib.Tactic.Linarith

/-!
# Hexadecimal text

`htoa_str` writes a digit for each four bits of a number. `atoh_str` puts each digit that it reads
into eight bits of its own, so that it reads numbers of base 256, and shifts the first of five
digits out of an `int`. The two are inverse where only the last digit counts
(`hexRoundTrip_iff`).
-/

namespace WLink.Misc

open WLink.Lib

/-! ## The functions -/

/-- `atoh` -/
def atoh (c : UInt8) : UInt8 :=
  if 0x30 ≤ c ∧ c ≤ 0x39 then c - 0x30
  else if 0x41 ≤ c ∧ c ≤ 0x46 then c - 0x40 + 9
  else if 0x61 ≤ c ∧ c ≤ 0x66 then c - 0x60 + 9
  else 0

/-- `htoa` -/
def htoa (hex : UInt8) : UInt8 :=
  if 0xf < hex then 0x30
  else if hex < 10 then hex + 0x30
  else hex - 9 + 0x40

/-- The loop of `atoh_str`. A digit is an `int`, for which a shift by 32 bits or more has no
defined result. -/
def atohLoop : UInt32 → List UInt8 → Option UInt32
  | returnVal, [] => some returnVal
  | returnVal, c :: cs =>
    if cs.length * 8 < 32 then
      atohLoop (returnVal ||| (atoh c).toUInt32 <<< UInt32.ofNat (cs.length * 8)) cs
    else none

/-- `atoh_str` -/
def atohStr (s : List UInt8) : Option UInt32 := atohLoop 0 s

/-- The loop of `htoa_str`, with the number of digits that are still to be written. -/
def htoaLoop (hex : UInt32) : ℕ → Option (List UInt8)
  | 0 => some []
  | n + 1 =>
    if n * 4 < 32 then
      (htoaLoop hex n).map (htoa (hex >>> UInt32.ofNat (n * 4) &&& 0x0F).toUInt8 :: ·)
    else none

/-- `htoa_str` -/
def htoaStr (hex : UInt32) (len : ℕ) : Option (List UInt8) := htoaLoop hex len

/-- A digit of `htoa_str`. -/
def IsUpperHex (c : UInt8) : Prop := (0x30 ≤ c ∧ c ≤ 0x39) ∨ (0x41 ≤ c ∧ c ≤ 0x46)

instance (c : UInt8) : Decidable (IsUpperHex c) := inferInstanceAs (Decidable (_ ∨ _))

/-- What is written of a number is read as the number, as far as it has been written. -/
def HexReadBack (x : UInt32) (len : ℕ) : Prop :=
  ∃ s v, htoaStr x len = some s ∧ atohStr s = some v ∧ v.toNat = x.toNat % 16 ^ len

/-- What is read from a text is written as the text. -/
def HexWrittenBack (s : List UInt8) : Prop :=
  ∃ v, atohStr s = some v ∧ htoaStr v s.length = some s

/-! ## Digits in a base -/

/-- The number with these digits, the highest first. -/
def weigh (b : ℕ) : List ℕ → ℕ
  | [] => 0
  | d :: ds => d * b ^ ds.length + weigh b ds

section Weigh

variable {b c : ℕ} {ds : List ℕ}

theorem weigh_cons (b d : ℕ) (ds : List ℕ) :
    weigh b (d :: ds) = d * b ^ ds.length + weigh b ds := rfl

theorem weigh_lt (hds : ∀ d ∈ ds, d < b) : weigh b ds < b ^ ds.length := by
  induction ds with
  | nil => exact Nat.one_pos
  | cons d ds ih =>
    obtain ⟨hd, hds⟩ := List.forall_mem_cons.mp hds
    have hrest := ih hds
    have hle : (d + 1) * b ^ ds.length ≤ b * b ^ ds.length := Nat.mul_le_mul_right _ hd
    rw [List.length_cons, pow_succ', weigh_cons]
    linarith

/-- The digits of a number are unique. -/
theorem weigh_inj {es : List ℕ} (hds : ∀ d ∈ ds, d < b) (hes : ∀ e ∈ es, e < b)
    (hlen : ds.length = es.length) (h : weigh b ds = weigh b es) : ds = es := by
  induction ds generalizing es with
  | nil => exact (List.length_eq_zero_iff.mp hlen.symm).symm
  | cons d ds ih =>
    obtain ⟨e, es, rfl⟩ : ∃ e es', es = e :: es' :=
      List.exists_cons_of_length_eq_add_one hlen.symm
    obtain ⟨-, hds⟩ := List.forall_mem_cons.mp hds
    obtain ⟨-, hes⟩ := List.forall_mem_cons.mp hes
    have hlen' : ds.length = es.length := by simpa using hlen
    have hlt := weigh_lt hds
    have hlt' := weigh_lt hes
    rw [weigh_cons, weigh_cons, hlen'] at h
    rw [hlen'] at hlt
    -- the quotients by the weight of the first digit, and the rests
    have hdiv := congrArg (· / b ^ es.length) h
    have hmod := congrArg (· % b ^ es.length) h
    have hpos : 0 < b ^ es.length := Nat.zero_lt_of_lt hlt
    simp only [Nat.mul_comm _ (b ^ es.length), Nat.mul_add_div hpos, Nat.div_eq_of_lt hlt,
      Nat.div_eq_of_lt hlt', Nat.mul_add_mod, Nat.mod_eq_of_lt hlt, Nat.mod_eq_of_lt hlt',
      Nat.add_zero] at hdiv hmod
    rw [hdiv, ih hds hes hlen' hmod]

theorem weigh_mono (hbc : b ≤ c) (ds : List ℕ) : weigh b ds ≤ weigh c ds := by
  induction ds with
  | nil => exact le_rfl
  | cons d ds ih => exact Nat.add_le_add (Nat.mul_le_mul_left d (Nat.pow_le_pow_left hbc _)) ih

/-- A number is less than its base if only its last digit is not zero. -/
theorem weigh_lt_base_iff (hds : ∀ d ∈ ds, d < b) (hb : 0 < b) :
    weigh b ds < b ↔ ∀ d ∈ ds.dropLast, d = 0 := by
  induction ds with
  | nil => simpa [weigh] using hb
  | cons d ds ih =>
    obtain ⟨hd, hds⟩ := List.forall_mem_cons.mp hds
    rcases List.eq_nil_or_concat ds with rfl | ⟨ds', e, rfl⟩
    · simpa [weigh] using hd
    · rw [List.concat_eq_append] at *
      have hpow : b ≤ b ^ (ds' ++ [e]).length := Nat.le_self_pow (by simp) b
      rw [List.dropLast_cons_of_ne_nil (by simp), List.forall_mem_cons, ← ih hds,
        weigh_cons]
      constructor
      · intro h
        have hzero : d = 0 := by
          by_contra hne
          have hle : 1 * b ^ (ds' ++ [e]).length ≤ d * b ^ (ds' ++ [e]).length :=
            Nat.mul_le_mul_right _ (Nat.one_le_iff_ne_zero.mpr hne)
          omega
        rw [hzero, Nat.zero_mul, Nat.zero_add] at h
        exact ⟨hzero, h⟩
      · rintro ⟨rfl, h⟩
        rwa [Nat.zero_mul, Nat.zero_add]

/-- A number is the same in a smaller base if only its last digit is not zero. -/
theorem weigh_eq_iff (hbc : b < c) :
    weigh c ds = weigh b ds ↔ ∀ d ∈ ds.dropLast, d = 0 := by
  induction ds with
  | nil => simp [weigh]
  | cons d ds ih =>
    rcases List.eq_nil_or_concat ds with rfl | ⟨ds', e, rfl⟩
    · simp [weigh]
    · rw [List.concat_eq_append] at *
      have hpow : b ^ (ds' ++ [e]).length < c ^ (ds' ++ [e]).length :=
        Nat.pow_lt_pow_left hbc (by simp)
      have hmono := weigh_mono hbc.le (ds' ++ [e])
      rw [List.dropLast_cons_of_ne_nil (by simp), List.forall_mem_cons, ← ih,
        weigh_cons, weigh_cons]
      constructor
      · intro h
        have hle : d * b ^ (ds' ++ [e]).length ≤ d * c ^ (ds' ++ [e]).length :=
          Nat.mul_le_mul_left d hpow.le
        have hrest : weigh c (ds' ++ [e]) = weigh b (ds' ++ [e]) := by omega
        refine ⟨?_, hrest⟩
        by_contra hne
        have hlt := Nat.mul_lt_mul_of_pos_left hpow (Nat.pos_of_ne_zero hne)
        omega
      · rintro ⟨rfl, h⟩
        rw [Nat.zero_mul, Nat.zero_mul, h]

end Weigh

/-! ## The loops -/

/-- The digits of a text. -/
def digitsOf (s : List UInt8) : List ℕ := s.map fun c => (atoh c).toNat

/-- The low digits of a number, the highest first. -/
def hexDigits (x : ℕ) : ℕ → List ℕ
  | 0 => []
  | n + 1 => x / 16 ^ n % 16 :: hexDigits x n

section Loops

variable {s : List UInt8} {x : UInt32} {len n : ℕ}

theorem atoh_lt (c : UInt8) : (atoh c).toNat < 16 :=
  forall_byte (P := fun c => (atoh c).toNat < 16) (by decide +kernel) c

theorem htoa_atoh {c : UInt8} : IsUpperHex c → htoa (atoh c) = c :=
  forall_byte (P := fun c => IsUpperHex c → htoa (atoh c) = c) (by decide +kernel) c

/-- A digit is written as a letter or figure, which is read as the digit. -/
theorem htoa_spec {d : UInt8} : d.toNat < 16 → IsUpperHex (htoa d) ∧ atoh (htoa d) = d :=
  forall_byte (P := fun d => d.toNat < 16 → IsUpperHex (htoa d) ∧ atoh (htoa d) = d)
    (by decide +kernel) d

theorem length_digitsOf (s : List UInt8) : (digitsOf s).length = s.length := List.length_map _

theorem digitsOf_lt {b : ℕ} (hb : 16 ≤ b) : ∀ d ∈ digitsOf s, d < b := by
  intro d hd
  obtain ⟨c, -, rfl⟩ := List.mem_map.mp hd
  exact (atoh_lt c).trans_le hb

/-- Two texts of digits are the same if their digits are. -/
theorem eq_of_digitsOf_eq {t : List UInt8} (hs : ∀ c ∈ s, IsUpperHex c)
    (ht : ∀ c ∈ t, IsUpperHex c) (h : digitsOf s = digitsOf t) : s = t := by
  have hwritten : ∀ {u : List UInt8}, (∀ c ∈ u, IsUpperHex c) →
      (digitsOf u).map (fun d => htoa (UInt8.ofNat d)) = u := by
    intro u hu
    unfold digitsOf
    rw [List.map_map]
    conv_rhs => rw [← List.map_id u]
    refine List.map_congr_left fun c hc => ?_
    show htoa (UInt8.ofNat (atoh c).toNat) = c
    rw [UInt8.ofNat_toNat, htoa_atoh (hu c hc)]
  rw [← hwritten hs, ← hwritten ht, h]

/-- While a text is short enough, each digit that is read goes into bits that are still free. -/
theorem atohLoop_eq {acc : UInt32} (hlen : s.length ≤ 4) (hacc : 256 ^ s.length ∣ acc.toNat) :
    ∃ v, atohLoop acc s = some v ∧ v.toNat = acc.toNat + weigh 256 (digitsOf s) := by
  induction s generalizing acc with
  | nil => exact ⟨acc, rfl, rfl⟩
  | cons c cs ih =>
    rw [List.length_cons] at hlen hacc
    have hdigit : (atoh c).toNat * 256 ^ cs.length < 256 ^ (cs.length + 1) := by
      rw [pow_succ']
      exact Nat.mul_lt_mul_of_pos_right ((atoh_lt c).trans (by norm_num)) (by positivity)
    have hpow : ∀ n, 256 ^ n = 2 ^ (n * 8) := fun n => by
      rw [show (256 : ℕ) = 2 ^ 8 by norm_num, ← pow_mul, Nat.mul_comm]
    -- the shifted digit
    have hshift : ((atoh c).toUInt32 <<< UInt32.ofNat (cs.length * 8)).toNat =
        (atoh c).toNat * 256 ^ cs.length := by
      have hbits : (UInt32.ofNat (cs.length * 8)).toNat = cs.length * 8 :=
        UInt32.toNat_ofNat_of_lt' (show _ < 2 ^ 32 by omega)
      have hfits : 256 ^ (cs.length + 1) ≤ 256 ^ 4 := Nat.pow_le_pow_right (by norm_num) hlen
      rw [UInt32.toNat_shiftLeft, hbits, UInt8.toNat_toUInt32, Nat.shiftLeft_eq,
        Nat.mod_eq_of_lt (show cs.length * 8 < 32 by omega), ← hpow]
      exact Nat.mod_eq_of_lt (by omega)
    -- the bits of the digit are still zero in the accumulator
    have hor : (acc ||| (atoh c).toUInt32 <<< UInt32.ofNat (cs.length * 8)).toNat =
        acc.toNat + (atoh c).toNat * 256 ^ cs.length := by
      obtain ⟨q, hq⟩ := hacc
      rw [UInt32.toNat_or, hshift, hq, hpow, Nat.two_pow_add_eq_or_of_lt]
      rw [← hpow]
      exact hdigit
    have hdvd : 256 ^ cs.length ∣ acc.toNat + (atoh c).toNat * 256 ^ cs.length := by
      refine Nat.dvd_add (Nat.dvd_trans ?_ hacc) (Nat.dvd_mul_left _ _)
      exact Nat.pow_dvd_pow 256 (Nat.le_succ _)
    obtain ⟨v, hv, hvalue⟩ := ih (by omega) (by rw [hor]; exact hdvd)
    refine ⟨v, ?_, ?_⟩
    · unfold atohLoop
      rw [if_pos (by omega)]
      exact hv
    · rw [hvalue, hor, Nat.add_assoc]
      show _ = acc.toNat + weigh 256 ((atoh c).toNat :: digitsOf cs)
      rw [weigh_cons, length_digitsOf]

/-- The first of five digits is shifted too far. -/
theorem atohStr_eq_none (hlen : 4 < s.length) : atohStr s = none := by
  cases s with
  | nil => simp at hlen
  | cons c cs =>
    rw [List.length_cons] at hlen
    exact if_neg (by omega)

theorem atohStr_eq (hlen : s.length ≤ 4) :
    ∃ v, atohStr s = some v ∧ v.toNat = weigh 256 (digitsOf s) := by
  have hzero : 256 ^ s.length ∣ (0 : UInt32).toNat := Nat.dvd_zero _
  obtain ⟨v, hv, hvalue⟩ := atohLoop_eq hlen hzero
  refine ⟨v, hv, hvalue.trans ?_⟩
  rw [show (0 : UInt32).toNat = 0 from rfl, Nat.zero_add]

theorem length_hexDigits (x n : ℕ) : (hexDigits x n).length = n := by
  induction n with
  | zero => rfl
  | succ n ih =>
    unfold hexDigits
    rw [List.length_cons, ih]

theorem hexDigits_lt (x n : ℕ) : ∀ d ∈ hexDigits x n, d < 16 := by
  induction n with
  | zero => exact nofun
  | succ n ih =>
    unfold hexDigits
    rw [List.forall_mem_cons]
    exact ⟨Nat.mod_lt _ (by norm_num), ih⟩

theorem weigh_hexDigits (x n : ℕ) : weigh 16 (hexDigits x n) = x % 16 ^ n := by
  induction n with
  | zero => rw [pow_zero, Nat.mod_one]; rfl
  | succ n ih =>
    show weigh 16 (x / 16 ^ n % 16 :: hexDigits x n) = _
    rw [weigh_cons, ih, length_hexDigits, pow_succ, Nat.mod_mul]
    ring

/-- The loop of `htoa_str` writes the low digits. -/
theorem htoaStr_eq (x : UInt32) (hlen : len ≤ 8) :
    ∃ s, htoaStr x len = some s ∧ digitsOf s = hexDigits x.toNat len ∧ ∀ c ∈ s, IsUpperHex c := by
  induction len with
  | zero => exact ⟨[], rfl, rfl, nofun⟩
  | succ n ih =>
    obtain ⟨s, hs, hdigits, hupper⟩ := ih (by omega)
    obtain ⟨d, hd⟩ : ∃ d, d = (x >>> UInt32.ofNat (n * 4) &&& 0x0F).toUInt8 := ⟨_, rfl⟩
    have hdigit : d.toNat = x.toNat / 16 ^ n % 16 := by
      have hbits : (UInt32.ofNat (n * 4)).toNat = n * 4 :=
        UInt32.toNat_ofNat_of_lt' (show _ < 2 ^ 32 by omega)
      rw [hd, UInt32.toNat_toUInt8, UInt32.toNat_and, UInt32.toNat_shiftRight, hbits,
        Nat.mod_eq_of_lt (show n * 4 < 32 by omega), Nat.shiftRight_eq_div_pow,
        show (0x0F : UInt32).toNat = 2 ^ 4 - 1 from rfl, Nat.and_two_pow_sub_one_eq_mod,
        Nat.mul_comm, pow_mul]
      norm_num
      omega
    have hlt : d.toNat < 16 := by
      rw [hdigit]
      exact Nat.mod_lt _ (by norm_num)
    refine ⟨htoa d :: s, ?_, ?_, ?_⟩
    · have hs' : htoaLoop x n = some s := hs
      show (if n * 4 < 32 then _ else none) = _
      rw [if_pos (by omega), hs', ← hd]
      rfl
    · show (atoh (htoa d)).toNat :: digitsOf s = x.toNat / 16 ^ n % 16 :: hexDigits x.toNat n
      rw [(htoa_spec hlt).2, hdigit, hdigits]
    · rw [List.forall_mem_cons]
      exact ⟨(htoa_spec hlt).1, hupper⟩

theorem htoaStr_eq_none (x : UInt32) (hlen : 8 < len) : htoaStr x len = none := by
  cases len with
  | zero => omega
  | succ n => exact if_neg (by omega)

/-- The low digits of a number are the only ones with the right value. -/
theorem hexDigits_eq_iff {x : ℕ} {ds : List ℕ} (hds : ∀ d ∈ ds, d < 16) :
    hexDigits x ds.length = ds ↔ x % 16 ^ ds.length = weigh 16 ds := by
  rw [← weigh_hexDigits]
  refine ⟨fun h => congrArg (weigh 16) h, fun h => ?_⟩
  exact weigh_inj (hexDigits_lt _ _) hds (length_hexDigits _ _) h

/-- Up to four digits have their number in base 16 at the end of that in base 256 only if the two
are the same: the digit in front of the last comes two places to the left. -/
theorem weigh_mod_eq_iff {ds : List ℕ} (hds : ∀ d ∈ ds, d < 16) (hlen : ds.length ≤ 4) :
    weigh 256 ds % 16 ^ ds.length = weigh 16 ds ↔ weigh 256 ds = weigh 16 ds := by
  constructor
  · intro h
    rcases ds with _ | ⟨a, _ | ⟨b, _ | ⟨c, _ | ⟨d, _ | ⟨e, ds⟩⟩⟩⟩⟩
    · rfl
    · rfl
    all_goals
      simp only [List.forall_mem_cons] at hds
      norm_num [weigh] at h hlen ⊢
    · omega
    · omega
    · -- of four digits only two are left
      have hsplit : a * 16777216 + (b * 65536 + (c * 256 + d)) =
          c * 256 + d + 65536 * (a * 256 + b) := by ring
      have hlow : c * 256 + d < 65536 := by linarith only [hds.2.2.1, hds.2.2.2.1]
      rw [hsplit, Nat.add_mul_mod_self_left, Nat.mod_eq_of_lt hlow] at h
      have hc : c = 0 := by omega
      have hb : a * 16 + b = 0 := by omega
      obtain rfl : a = 0 := by omega
      obtain rfl : b = 0 := by omega
      rw [hc]
    · omega
  · intro h
    rw [h]
    exact Nat.mod_eq_of_lt (weigh_lt hds)

end Loops

/-! ## Round trips -/

/-- What `htoa_str` writes is read back where at most four digits are written and all but the last
are zero. -/
theorem hexReadBack_iff (x : UInt32) (len : ℕ) :
    HexReadBack x len ↔ len ≤ 4 ∧ x.toNat % 16 ^ len < 16 := by
  unfold HexReadBack
  by_cases hlong : 8 < len
  · rw [htoaStr_eq_none x hlong]
    exact iff_of_false (fun ⟨s, v, hs, _⟩ => nomatch hs) fun h => by omega
  obtain ⟨s, hs, hdigits, -⟩ := htoaStr_eq x (not_lt.mp hlong)
  have hlength : s.length = len := by
    rw [← length_digitsOf, hdigits, length_hexDigits]
  rw [hs]
  by_cases hfive : 4 < len
  · have hnone : atohStr s = none := atohStr_eq_none (by omega)
    refine iff_of_false ?_ fun h => by omega
    rintro ⟨s', v, hs', hv, -⟩
    cases hs'
    exact absurd (hnone.symm.trans hv) nofun
  · obtain ⟨v, hv, hvalue⟩ := atohStr_eq (s := s) (by omega)
    have hiff : v.toNat = x.toNat % 16 ^ len ↔ x.toNat % 16 ^ len < 16 := by
      rw [hvalue, hdigits, ← weigh_hexDigits, weigh_eq_iff (by norm_num),
        weigh_lt_base_iff (hexDigits_lt _ _) (by norm_num)]
    rw [← hiff]
    constructor
    · rintro ⟨s', v', hs', hv', heq⟩
      cases hs'
      cases hv.symm.trans hv'
      exact ⟨not_lt.mp hfive, heq⟩
    · exact fun h => ⟨s, v, rfl, hv, h.2⟩

/-- What `atoh_str` reads is written back in the same cases. -/
theorem hexWrittenBack_iff {s : List UInt8} (hupper : ∀ c ∈ s, IsUpperHex c) :
    HexWrittenBack s ↔ s.length ≤ 4 ∧ ∀ c ∈ s.dropLast, c = 0x30 := by
  unfold HexWrittenBack
  by_cases hfive : 4 < s.length
  · rw [atohStr_eq_none hfive]
    exact iff_of_false (fun ⟨v, hv, _⟩ => nomatch hv) fun h => by omega
  obtain ⟨v, hv, hvalue⟩ := atohStr_eq (not_lt.mp hfive)
  have height : s.length ≤ 8 := by omega
  obtain ⟨t, ht, hdigits, htupper⟩ := htoaStr_eq v height
  have hsame : t = s ↔ ∀ d ∈ (digitsOf s).dropLast, d = 0 := by
    have hdigit : ∀ d ∈ digitsOf s, d < 16 := digitsOf_lt le_rfl
    have hlen : (digitsOf s).length = s.length := length_digitsOf s
    rw [← weigh_eq_iff (show 16 < 256 by norm_num), ← weigh_mod_eq_iff hdigit (by omega),
      ← hexDigits_eq_iff hdigit, ← hvalue, hlen, ← hdigits]
    exact ⟨fun h => congrArg digitsOf h, eq_of_digitsOf_eq htupper hupper⟩
  have hzero : (∀ d ∈ (digitsOf s).dropLast, d = 0) ↔ ∀ c ∈ s.dropLast, c = 0x30 := by
    unfold digitsOf
    rw [← List.map_dropLast, List.forall_mem_map]
    refine forall₂_congr fun c hc => ?_
    have hc' := hupper c (List.dropLast_subset s hc)
    constructor
    · intro h
      rw [← htoa_atoh hc', UInt8.toNat_inj.mp (h.trans rfl : _ = (0 : UInt8).toNat)]
      rfl
    · rintro rfl
      rfl
  rw [← hzero, ← hsame, hv]
  constructor
  · rintro ⟨v', hv', hwritten⟩
    cases hv'
    exact ⟨not_lt.mp hfive, Option.some.inj (ht.symm.trans hwritten)⟩
  · rintro ⟨-, rfl⟩
    exact ⟨v, rfl, ht⟩

/-- Both round trips. -/
theorem hexRoundTrip_iff (x : UInt32) (len : ℕ) (s : List UInt8)
    (hupper : ∀ c ∈ s, IsUpperHex c) :
    (HexReadBack x len ↔ len ≤ 4 ∧ x.toNat % 16 ^ len < 16) ∧
      (HexWrittenBack s ↔ s.length ≤ 4 ∧ ∀ c ∈ s.dropLast, c = 0x30) :=
  ⟨hexReadBack_iff x len, hexWrittenBack_iff hupper⟩

/-- The number 7 and the text `07`. -/
theorem hexRoundTrip_seven : HexReadBack 7 2 ∧ HexWrittenBack [0x30, 0x37] := by
  obtain ⟨hread, hwritten⟩ := hexRoundTrip_iff 7 2 [0x30, 0x37] (by decide +kernel)
  exact ⟨hread.mpr (by decide), hwritten.mpr (by decide +kernel)⟩

/-- The number 18 is written as `12`, which is read as 258. -/
theorem not_hexReadBack_eighteen : ¬ HexReadBack 18 2 ∧ ¬ HexWrittenBack [0x31, 0x32] := by
  rw [hexReadBack_iff, hexWrittenBack_iff (by decide +kernel)]
  exact ⟨by decide, by decide +kernel⟩

end WLink.Misc
