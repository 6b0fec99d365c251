import WLink.Lib.Spaced
import WLink.Misc.CJsonRead

/-!
# Texts of JSON values

The texts that JSON has for a value, token by token: blanks between the tokens, all escapes of a
string with the characters of Unicode in UTF-8, numbers with a fraction and an exponent. What a
number comes to is left to `parse_number`.

* `StringText`, `NumberText` -- the tokens that are not single characters
* `ValueTokens` -- the tokens of a value
* `returns_parseString_of`, `skipNumber_of` -- the parser reads these tokens
-/

namespace WLink.Misc

open WLink.Lib Httpd CString Exec

/-! ## Tokens -/

/-- Four hexadecimal digits and their value. -/
def HexText (ds : List UInt8) (n : ℕ) : Prop :=
  ∃ a b c d, ds.map hexDigit = [some a, some b, some c, some d] ∧
    n = ((a * 16 + b) * 16 + c) * 16 + d

/-- The letters behind a backslash, with the bytes they stand for. -/
def shortEscapes : List (UInt8 × UInt8) :=
  [(34, 34), (92, 92), (47, 47), (98, 8), (102, 12), (110, 10), (114, 13), (116, 9)]

/-- A string, without the quotes, that stands for the bytes. -/
inductive StringText : List UInt8 → List UInt8 → Prop
  | nil : StringText [] []
  | byte {b : UInt8} {bs t : List UInt8} (hnul : b ≠ 0) (hquote : b ≠ 34) (hslash : b ≠ 92)
      (h : StringText bs t) : StringText (b :: bs) (b :: t)
  | short {c b : UInt8} {bs t : List UInt8} (hshort : (c, b) ∈ shortEscapes)
      (h : StringText bs t) : StringText (b :: bs) (92 :: c :: t)
  | unicode {ds bs t : List UInt8} {c : Char} (hds : HexText ds c.toNat) (hnul : c.toNat ≠ 0)
      (h : StringText bs t) : StringText (String.utf8EncodeChar c ++ bs) (92 :: 117 :: (ds ++ t))
  | pair {ds ds' bs t : List UInt8} {c : Char} {high low : ℕ} (hds : HexText ds (0xD800 + high))
      (hds' : HexText ds' (0xDC00 + low)) (hhigh : high < 0x400) (hlow : low < 0x400)
      (hc : c.toNat = 0x10000 + high * 0x400 + low) (h : StringText bs t) :
      StringText (String.utf8EncodeChar c ++ bs) (92 :: 117 :: (ds ++ 92 :: 117 :: (ds' ++ t)))

/-- The text of a number is in four parts, of which the first and the last two may be empty. -/
structure NumberParts (t sign integer fraction exponent : List UInt8) : Prop where
  text : t = sign ++ (integer ++ (fraction ++ exponent))
  sign : sign = [] ∨ sign = [45]
  integer : integer = [48] ∨ ∃ d ds, integer = d :: ds ∧ 49 ≤ d ∧ d ≤ 57 ∧ ∀ b ∈ ds, isDigit b = true
  fraction : fraction = [] ∨ ∃ d ds, fraction = 46 :: d :: ds ∧ ∀ b ∈ d :: ds, isDigit b = true
  exponent : exponent = [] ∨ ∃ e s d ds, exponent = e :: (s ++ d :: ds) ∧ (e = 101 ∨ e = 69) ∧
    (s = [] ∨ s = [43] ∨ s = [45]) ∧ ∀ b ∈ d :: ds, isDigit b = true

def NumberText (t : List UInt8) : Prop :=
  ∃ sign integer fraction exponent, NumberParts t sign integer fraction exponent

/-- A string in quotes. -/
def quoted (t : List UInt8) : List UInt8 := 34 :: (t ++ [34])

/-! ## Values -/

/-- The tokens in front of the value of a child: nothing in an array, a name in an object. -/
def NameTokens (named : Bool) (string : Option (List UInt8)) (toks : List (List UInt8)) : Prop :=
  match named, string with
  | true, some name => ∃ t, StringText name t ∧ toks = [quoted t, [58]]
  | false, none => toks = []
  | _, _ => False

mutual

/-- The tokens of a value, where `numberInt` says what a number comes to. -/
def ValueTokens (numberInt : List UInt8 → ℤ) : CJson → List (List UInt8) → Prop
  | .item _ type valueint valuestring child, toks =>
    match type with
    | .null => toks = [ascii "null"]
    | .cFalse => toks = [ascii "false"]
    | .cTrue => toks = [ascii "true"]
    | .number => ∃ t, NumberText t ∧ numberInt t = valueint ∧ toks = [t]
    | .string => ∃ t, StringText valuestring t ∧ toks = [quoted t]
    | .array => ∃ items, ItemsTokens numberInt false child items ∧ toks = [91] :: (items ++ [[93]])
    | .object => ∃ items, ItemsTokens numberInt true child items ∧
        toks = [123] :: (items ++ [[125]])

/-- The tokens of a list of values, with commas between them and names in front of them. -/
def ItemsTokens (numberInt : List UInt8 → ℤ) (named : Bool) :
    List CJson → List (List UInt8) → Prop
  | [], toks => toks = []
  | c :: cs, toks => ∃ name value more, NameTokens named c.string name ∧
      ValueTokens numberInt c value ∧
      (if cs.isEmpty then more = []
        else ∃ items, ItemsTokens numberInt named cs items ∧ more = [44] :: items) ∧
      toks = name ++ (value ++ more)

end

/-! ## Blanks -/

/-- What the parser skips. -/
def Blank (gap : List UInt8) : Prop := ∀ b ∈ gap, b ≠ 0 ∧ b ≤ 32

instance (gap : List UInt8) : Decidable (Blank gap) := inferInstanceAs (Decidable (∀ b ∈ gap, _))

theorem blank_nil : Blank [] := nofun

theorem skip_of_blank {gap : List UInt8} (h : Blank gap) (rest : List UInt8) :
    skip (gap ++ rest) = skip rest := by
  induction gap with
  | nil => rfl
  | cons b bs ih =>
    obtain ⟨hb, hbs⟩ := List.forall_mem_cons.mp h
    rw [List.cons_append, skip_blank hb.1 hb.2, ih hbs]

/-- The blanks in front of a token are skipped. -/
theorem skip_spaced {b : UInt8} {bs rest text : List UInt8} {toks : List (List UInt8)}
    (h : Spaced Blank ((b :: bs) :: toks) rest text) (hb : 32 < b) :
    ∃ text', skip text = .ok (b :: (bs ++ text')) ∧ Spaced Blank toks rest text' ∧
      (b :: (bs ++ text')).length ≤ text.length := by
  obtain ⟨gap, text', hgap, rfl, htoks⟩ := spaced_cons.mp h
  refine ⟨text', ?_, htoks, ?_⟩
  · rw [skip_of_blank hgap, List.cons_append, skip_stays (.inr hb)]
  · rw [List.length_append, List.cons_append]
    exact Nat.le_add_left _ _

/-! ## Numbers -/

/-- The text does not go on with a number. -/
def EndsNumber (rest : List UInt8) : Prop :=
  ∃ c cs, rest = c :: cs ∧ isDigit c = false ∧ c ≠ 46 ∧ c ≠ 101 ∧ c ≠ 69

section

variable {rest : List UInt8}

theorem skipWhile_of {ds rest : List UInt8} (hds : ∀ b ∈ ds, isDigit b = true)
    (hrest : ∃ c cs, rest = c :: cs ∧ isDigit c = false) :
    skipWhile isDigit (ds ++ rest) = .ok rest := by
  induction ds with
  | nil =>
    obtain ⟨c, cs, rfl, hc⟩ := hrest
    exact if_neg (Bool.eq_false_iff.mp hc)
  | cons d ds ih =>
    obtain ⟨hd, hds⟩ := List.forall_mem_cons.mp hds
    rw [List.cons_append]
    unfold skipWhile
    rw [if_pos hd]
    exact ih hds

theorem EndsNumber.noDigit (h : EndsNumber rest) : ∃ c cs, rest = c :: cs ∧ isDigit c = false := by
  obtain ⟨c, cs, hrest, hc, -⟩ := h
  exact ⟨c, cs, hrest, hc⟩

theorem skipExponent_of {exponent : List UInt8} (hrest : EndsNumber rest)
    (h : exponent = [] ∨ ∃ e s d ds, exponent = e :: (s ++ d :: ds) ∧ (e = 101 ∨ e = 69) ∧
      (s = [] ∨ s = [43] ∨ s = [45]) ∧ ∀ b ∈ d :: ds, isDigit b = true) :
    skipExponent (exponent ++ rest) = .ok rest := by
  rcases h with rfl | ⟨e, s, d, ds, rfl, he, hs, hds⟩
  · obtain ⟨c, cs, rfl, -, -, hlow, hup⟩ := hrest
    exact if_neg (not_or.mpr ⟨hlow, hup⟩)
  · have hdigits := skipWhile_of hds hrest.noDigit
    have hexp : skipExponent (e :: (s ++ d :: ds) ++ rest) =
        (skipIf (fun b => b = 43 || b = 45) (s ++ (d :: ds ++ rest))).bind (skipWhile isDigit) := by
      rw [List.cons_append, List.append_assoc]
      exact if_pos he
    have hdigit := hds d List.mem_cons_self
    have hsign : skipIf (fun b => b = 43 || b = 45) (s ++ (d :: ds ++ rest)) =
        .ok (d :: ds ++ rest) := by
      rcases hs with rfl | rfl | rfl
      · refine if_neg fun hd => ?_
        have hall : ∀ d, isDigit d = true → ¬ (decide (d = 43) || decide (d = 45)) = true :=
          forall_byte (by decide +kernel)
        exact hall d hdigit hd
      · rfl
      · rfl
    rw [hexp, hsign]
    exact hdigits

theorem skipFraction_of {fraction rest : List UInt8}
    (hrest : ∃ c cs, rest = c :: cs ∧ isDigit c = false ∧ c ≠ 46)
    (h : fraction = [] ∨ ∃ d ds, fraction = 46 :: d :: ds ∧ ∀ b ∈ d :: ds, isDigit b = true) :
    skipFraction (fraction ++ rest) = .ok rest := by
  obtain ⟨c, cs, hcs, hc, hpoint⟩ := hrest
  rcases h with rfl | ⟨d, ds, rfl, hds⟩
  · rw [hcs]
    exact if_neg hpoint
  · obtain ⟨hd, hds⟩ := List.forall_mem_cons.mp hds
    show (if isDigit d then skipWhile isDigit (ds ++ rest) else _) = _
    rw [if_pos hd, skipWhile_of hds ⟨c, cs, hcs, hc⟩]

/-- A digit that is not 0, and those behind it, or 0. -/
theorem skipInteger_of {integer rest : List UInt8}
    (hrest : ∃ c cs, rest = c :: cs ∧ isDigit c = false)
    (h : integer = [48] ∨ ∃ d ds, integer = d :: ds ∧ 49 ≤ d ∧ d ≤ 57 ∧
      ∀ b ∈ ds, isDigit b = true) :
    (skipIf (· = 48) (integer ++ rest) >>= skipInteger) = .ok rest := by
  rcases h with rfl | ⟨d, ds, rfl, hlow, hhigh, hds⟩
  · obtain ⟨c, cs, rfl, hc⟩ := hrest
    show skipInteger (c :: cs) = _
    refine if_neg fun h => ?_
    have hall : ∀ c, 49 ≤ c ∧ c ≤ 57 → isDigit c = true := forall_byte (by decide +kernel)
    exact Bool.noConfusion (hc.symm.trans (hall c h))
  · have hzero : skipIf (· = 48) (d :: ds ++ rest) = .ok (d :: ds ++ rest) := by
      refine if_neg ?_
      rw [decide_eq_true_iff]
      rintro rfl
      exact absurd hlow (by decide)
    rw [hzero]
    show (if 49 ≤ d ∧ d ≤ 57 then skipWhile isDigit (ds ++ rest) else _) = _
    rw [if_pos ⟨hlow, hhigh⟩, skipWhile_of hds hrest]

/-- The parser passes over a number as a whole. -/
theorem skipNumber_of {t : List UInt8} (h : NumberText t) (hrest : EndsNumber rest) :
    skipNumber (t ++ rest) = .ok rest := by
  obtain ⟨sign, integer, fraction, exponent, rfl, hsign, hinteger, hfraction, hexponent⟩ := h
  -- what comes behind the fraction
  have hexp : ∃ c cs, exponent ++ rest = c :: cs ∧ isDigit c = false ∧ c ≠ 46 := by
    rcases hexponent with rfl | ⟨e, s, d, ds, rfl, he, -, -⟩
    · obtain ⟨c, cs, rfl, hc, hpoint, -, -⟩ := hrest
      exact ⟨c, cs, rfl, hc, hpoint⟩
    · refine ⟨e, _, rfl, ?_⟩
      rcases he with rfl | rfl <;> decide
  have hfrac : ∃ c cs, fraction ++ (exponent ++ rest) = c :: cs ∧ isDigit c = false := by
    rcases hfraction with rfl | ⟨d, ds, rfl, -⟩
    · obtain ⟨c, cs, hcs, hc, -⟩ := hexp
      exact ⟨c, cs, hcs, hc⟩
    · exact ⟨46, _, rfl, by decide⟩
  have hminus : skipIf (· = 45) (sign ++ (integer ++ (fraction ++ (exponent ++ rest)))) =
      .ok (integer ++ (fraction ++ (exponent ++ rest))) := by
    rcases hsign with rfl | rfl
    · have hhead : ∃ d ds, integer = d :: ds ∧ d ≠ 45 := by
        rcases hinteger with rfl | ⟨d, ds, rfl, hlow, -, -⟩
        · exact ⟨48, [], rfl, by decide⟩
        · refine ⟨d, ds, rfl, ?_⟩
          rintro rfl
          exact absurd hlow (by decide)
      obtain ⟨d, ds, rfl, hd⟩ := hhead
      exact if_neg (by rwa [decide_eq_true_iff])
    · rfl
  unfold skipNumber
  rw [List.append_assoc, List.append_assoc, List.append_assoc, hminus]
  show (skipIf (· = 48) _ >>= fun num => skipInteger num >>= fun num =>
    skipFraction num >>= skipExponent) = _
  have hint := skipInteger_of hfrac hinteger
  rw [← bind_assoc, hint]
  show (skipFraction (fraction ++ (exponent ++ rest)) >>= skipExponent) = _
  rw [skipFraction_of hexp hfraction]
  exact skipExponent_of hrest hexponent

/-- A number begins with its sign or with a digit. -/
theorem NumberText.cons {t : List UInt8} (h : NumberText t) :
    ∃ b bs, t = b :: bs ∧ (b = 45 ∨ isDigit b = true) := by
  obtain ⟨sign, integer, fraction, exponent, rfl, hsign, hinteger, -, -⟩ := h
  rcases hsign with rfl | rfl
  · rcases hinteger with rfl | ⟨d, ds, rfl, hlow, hhigh, -⟩
    · exact ⟨48, _, rfl, .inr rfl⟩
    · refine ⟨d, _, rfl, .inr ?_⟩
      unfold isDigit
      rw [decide_eq_true (UInt8.le_trans (by decide) hlow), decide_eq_true hhigh]
      rfl
  · exact ⟨45, _, rfl, .inl rfl⟩

end

/-! ## Strings -/

theorem utf8Tail_eq (n : ℕ) : utf8Tail n = UInt8.ofNat (n % 64 + 128) := by
  have hall : ∀ r < 256, (r ||| 0x80) &&& 0xBF = r % 64 + 128 := by decide +kernel
  have hlow : ((n ||| 0x80) &&& 0xBF) % 2 ^ 8 = n % 64 + 128 := by
    rw [Nat.and_mod_two_pow, Nat.or_mod_two_pow]
    show (n % 256 ||| 0x80) &&& 0xBF = _
    rw [hall _ (Nat.mod_lt n (by decide)), Nat.mod_mod_of_dvd n (by decide)]
  refine UInt8.toNat_inj.mp ?_
  unfold utf8Tail
  rw [UInt8.toNat_ofNat', UInt8.toNat_ofNat', hlow]
  exact (Nat.mod_eq_of_lt (by omega)).symm

/-- The marks of the first byte are above the bits of the character. -/
theorem or_mark {n b i a : ℕ} (hb : b = 2 ^ i * a) (hn : n < 2 ^ i) : n ||| b = n + b := by
  rw [hb, Nat.add_comm, Nat.two_pow_add_eq_or_of_lt hn, Nat.or_comm]

/-- The bytes that are stored for a character are those of UTF-8. -/
theorem utf8_eq (c : Char) : utf8 c.toNat = String.utf8EncodeChar c := by
  have hmax : c.toNat < 0x110000 := by
    rcases c.valid with h | h
    · exact Nat.lt_trans h (by decide)
    · exact h.2
  have hval : c.val.toNat = c.toNat := rfl
  unfold utf8 String.utf8EncodeChar
  rw [hval]
  generalize c.toNat = n at *
  simp only [Nat.shiftRight_eq_div_pow, utf8Tail_eq]
  rcases Nat.lt_or_ge n 0x80 with h | h
  · rw [if_pos h, if_pos (Nat.le_of_lt_succ h)]
  rw [if_neg (Nat.not_lt.mpr h), if_neg (Nat.not_le.mpr h)]
  rcases Nat.lt_or_ge n 0x800 with h | h
  · rw [if_pos h, if_pos (Nat.le_of_lt_succ h),
      or_mark (b := 0xC0) (i := 5) (a := 6) rfl (by omega),
      Nat.mod_eq_of_lt (by omega : n / 64 < 0x20)]
  rw [if_neg (Nat.not_lt.mpr h), if_neg (Nat.not_le.mpr h)]
  rcases Nat.lt_or_ge n 0x10000 with h | h
  · rw [if_pos h, if_pos (Nat.le_of_lt_succ h),
      or_mark (b := 0xE0) (i := 4) (a := 14) rfl (by omega),
      Nat.mod_eq_of_lt (by omega : n / 4096 < 0x10)]
  · rw [if_neg (Nat.not_lt.mpr h), if_neg (Nat.not_le.mpr h),
      or_mark (b := 0xF0) (i := 3) (a := 30) rfl (by omega),
      Nat.mod_eq_of_lt (by omega : n / 262144 < 0x08)]

section

variable {bs t rest ds : List UInt8} {n : ℕ}

theorem hexDigit_ne {b : UInt8} {d : ℕ} (h : hexDigit b = some d) : b ≠ 34 ∧ b ≠ 92 ∧ b ≠ 0 := by
  refine ⟨?_, ?_, ?_⟩
  · rintro rfl
    exact absurd h (Option.some_ne_none d).symm
  · rintro rfl
    exact absurd h (Option.some_ne_none d).symm
  · rintro rfl
    exact absurd h (Option.some_ne_none d).symm

/-- The four digits, one by one. -/
theorem HexText.digits (h : HexText ds n) : ∃ p q r s a b c d, ds = [p, q, r, s] ∧
    hexDigit p = some a ∧ hexDigit q = some b ∧ hexDigit r = some c ∧ hexDigit s = some d ∧
    n = ((a * 16 + b) * 16 + c) * 16 + d := by
  obtain ⟨a, b, c, d, hmap, hn⟩ := h
  obtain ⟨p, ds, rfl, hp, hmap⟩ := List.map_eq_cons_iff.mp hmap
  obtain ⟨q, ds, rfl, hq, hmap⟩ := List.map_eq_cons_iff.mp hmap
  obtain ⟨r, ds, rfl, hr, hmap⟩ := List.map_eq_cons_iff.mp hmap
  obtain ⟨s, ds, rfl, hs, hmap⟩ := List.map_eq_cons_iff.mp hmap
  rw [List.map_eq_nil_iff.mp hmap]
  exact ⟨p, q, r, s, a, b, c, d, rfl, hp, hq, hr, hs, hn⟩

theorem parseHex4_of (h : HexText ds n) (rest : List UInt8) : parseHex4 (ds ++ rest) = .ok n := by
  obtain ⟨p, q, r, s, a, b, c, d, rfl, hp, hq, hr, hs, rfl⟩ := h.digits
  unfold parseHex4
  simp only [List.cons_append, List.nil_append, parseHex, hp, hq, hr, hs, Nat.zero_mul,
    Nat.zero_add]

/-- Four digits are passed over. -/
theorem storeString_hex (h : HexText ds n) (k : ℕ) (rest : List UInt8) :
    storeString (4 + k) (ds ++ rest) = storeString k rest := by
  obtain ⟨p, q, r, s, a, b, c, d, rfl, -⟩ := h.digits
  rw [Nat.add_comm]
  rfl

theorem stringLen_plain {b : UInt8} (hnul : b ≠ 0) (hquote : b ≠ 34) (hslash : b ≠ 92)
    (rest : List UInt8) : stringLen (b :: rest) = (stringLen rest).map (· + 1) := by
  conv_lhs => unfold stringLen
  rw [if_neg (not_or.mpr ⟨hquote, hnul⟩), if_neg hslash]

theorem stringLen_slash (c : UInt8) (rest : List UInt8) :
    stringLen (92 :: c :: rest) = (stringLen rest).map (· + 1) := by
  conv_lhs => unfold stringLen
  rfl

theorem stringLen_hex (h : HexText ds n) {len : ℕ} (hrest : stringLen rest = .ok len) :
    stringLen (ds ++ rest) = .ok (len + 4) := by
  obtain ⟨p, q, r, s, a, b, c, d, rfl, hp, hq, hr, hs, -⟩ := h.digits
  obtain ⟨hp1, hp2, hp3⟩ := hexDigit_ne hp
  obtain ⟨hq1, hq2, hq3⟩ := hexDigit_ne hq
  obtain ⟨hr1, hr2, hr3⟩ := hexDigit_ne hr
  obtain ⟨hs1, hs2, hs3⟩ := hexDigit_ne hs
  simp only [List.cons_append, List.nil_append]
  rw [stringLen_plain hp3 hp1 hp2, stringLen_plain hq3 hq1 hq2, stringLen_plain hr3 hr1 hr2,
    stringLen_plain hs3 hs1 hs2, hrest]
  rfl

theorem length_utf8_le (c : Char) : (String.utf8EncodeChar c).length ≤ 4 := by
  rw [String.length_utf8EncodeChar]
  exact Char.utf8Size_le_four c

/-- The bytes that are counted are at least those of the string. -/
theorem stringLen_of (h : StringText bs t) (rest : List UInt8) :
    ∃ len, stringLen (t ++ 34 :: rest) = .ok len ∧ bs.length ≤ len := by
  induction h with
  | nil => exact ⟨0, by unfold stringLen; exact if_pos (.inl rfl), Nat.le_refl _⟩
  | byte hnul hquote hslash _ ih =>
    obtain ⟨len, hlen, hle⟩ := ih
    refine ⟨len + 1, ?_, Nat.succ_le_succ hle⟩
    rw [List.cons_append, stringLen_plain hnul hquote hslash, hlen]
    rfl
  | short _ _ ih =>
    obtain ⟨len, hlen, hle⟩ := ih
    refine ⟨len + 1, ?_, Nat.succ_le_succ hle⟩
    rw [List.cons_append, List.cons_append, stringLen_slash, hlen]
    rfl
  | @unicode _ _ _ c hds _ _ ih =>
    obtain ⟨len, hlen, hle⟩ := ih
    have hc := length_utf8_le c
    refine ⟨len + 4 + 1, ?_, ?_⟩
    · rw [List.cons_append, List.cons_append, List.append_assoc, stringLen_slash,
        stringLen_hex hds hlen]
      rfl
    · rw [List.length_append]
      omega
  | @pair _ ds' _ t c _ _ hds hds' _ _ _ _ ih =>
    obtain ⟨len, hlen, hle⟩ := ih
    have hc := length_utf8_le c
    have hlow : stringLen (92 :: 117 :: (ds' ++ (t ++ 34 :: rest))) = .ok (len + 4 + 1) := by
      rw [stringLen_slash, stringLen_hex hds' hlen]
      rfl
    refine ⟨len + 4 + 1 + 4 + 1, ?_, ?_⟩
    · simp only [List.cons_append, List.append_assoc]
      rw [stringLen_slash, stringLen_hex hds hlow]
      rfl
    · rw [List.length_append]
      omega

/-- A character that is no half of a pair. -/
theorem unescapeUnicode_of {c : Char} (hds : HexText ds c.toNat) (hnul : c.toNat ≠ 0)
    (rest : List UInt8) :
    unescapeUnicode (ds ++ rest) = .ok (String.utf8EncodeChar c, 4) := by
  have hinvalid : ¬ ((0xDC00 ≤ c.toNat ∧ c.toNat ≤ 0xDFFF) ∨ c.toNat = 0) := by
    rcases c.valid with h | h
    · have hlt : c.toNat < 0xD800 := h
      omega
    · have hlt : 0xDFFF < c.toNat := h.1
      omega
  have hhigh : ¬ (0xD800 ≤ c.toNat ∧ c.toNat ≤ 0xDBFF) := by
    rcases c.valid with h | h
    · have hlt : c.toNat < 0xD800 := h
      omega
    · have hlt : 0xDFFF < c.toNat := h.1
      omega
  unfold unescapeUnicode
  rw [parseHex4_of hds]
  show (if _ then _ else if _ then _ else _ : Except Fault (List UInt8 × ℕ)) = _
  rw [if_neg hinvalid, if_neg hhigh, utf8_eq]
  rfl

/-- The ten bits of each half. -/
theorem pair_bits {high low : ℕ} (hhigh : high < 0x400) (hlow : low < 0x400) :
    ((0xD800 + high) &&& 0x3FF) <<< 10 ||| (0xDC00 + low) &&& 0x3FF = high * 0x400 + low := by
  have hbits : ∀ n : ℕ, n &&& 0x3FF = n % 2 ^ 10 := fun n => Nat.and_two_pow_sub_one_eq_mod n 10
  have hmod : (0xD800 + high) % 2 ^ 10 = high := by omega
  have hmod' : (0xDC00 + low) % 2 ^ 10 = low := by omega
  rw [hbits, hbits, hmod, hmod', Nat.shiftLeft_eq, Nat.mul_comm high,
    ← Nat.two_pow_add_eq_or_of_lt hlow, Nat.mul_comm]

/-- A pair is one character. -/
theorem unescapeUnicode_pair {ds' : List UInt8} {c : Char} {high low : ℕ}
    (hds : HexText ds (0xD800 + high)) (hds' : HexText ds' (0xDC00 + low)) (hhigh : high < 0x400)
    (hlow : low < 0x400) (hc : c.toNat = 0x10000 + high * 0x400 + low) (rest : List UInt8) :
    unescapeUnicode (ds ++ 92 :: 117 :: (ds' ++ rest)) = .ok (String.utf8EncodeChar c, 10) := by
  have hinvalid : ¬ ((0xDC00 ≤ 0xD800 + high ∧ 0xD800 + high ≤ 0xDFFF) ∨ 0xD800 + high = 0) := by
    omega
  have hfirst : 0xD800 ≤ 0xD800 + high ∧ 0xD800 + high ≤ 0xDBFF := by omega
  have hsecond : ¬ (0xDC00 + low < 0xDC00 ∨ 0xDFFF < 0xDC00 + low) := by omega
  have hdrop : (ds ++ 92 :: 117 :: (ds' ++ rest)).drop 4 = 92 :: 117 :: (ds' ++ rest) := by
    obtain ⟨p, q, r, s, a, b, c, d, rfl, -⟩ := hds.digits
    rfl
  have hsurrogate : unescapeSurrogate (0xD800 + high) (92 :: 117 :: (ds' ++ rest)) =
      .ok (String.utf8EncodeChar c, 10) := by
    show (parseHex4 (ds' ++ rest)).map _ = _
    rw [parseHex4_of hds']
    show Except.ok (if 0xDC00 + low < 0xDC00 ∨ 0xDFFF < 0xDC00 + low then _ else _) = _
    rw [if_neg hsecond, pair_bits hhigh hlow, ← Nat.add_assoc, ← hc, utf8_eq]
  unfold unescapeUnicode
  rw [parseHex4_of hds]
  show (if _ then _ else if _ then _ else _ : Except Fault (List UInt8 × ℕ)) = _
  rw [if_neg hinvalid, if_pos hfirst, hdrop, hsurrogate]

theorem unescapeByte_short {c b : UInt8} (h : (c, b) ∈ shortEscapes) (rest : List UInt8) :
    unescapeByte c rest = .ok ([b], 0) := by
  unfold shortEscapes at h
  simp only [List.mem_cons, Prod.mk.injEq, List.not_mem_nil, or_false] at h
  rcases h with ⟨rfl, rfl⟩ | ⟨rfl, rfl⟩ | ⟨rfl, rfl⟩ | ⟨rfl, rfl⟩ | ⟨rfl, rfl⟩ | ⟨rfl, rfl⟩ |
    ⟨rfl, rfl⟩ | ⟨rfl, rfl⟩ <;> rfl

theorem storeString_slash (c : UInt8) (rest : List UInt8) {stored : List UInt8} {k : ℕ}
    (h : unescapeByte c rest = .ok (stored, k)) :
    storeString 0 (92 :: c :: rest) = (storeString k rest).map fun r => (stored ++ r.1, r.2) := by
  conv_lhs => unfold storeString
  show (unescapeByte c rest >>= _ : Except Fault _) = _
  rw [h]
  cases hrest : storeString k rest with
  | error e =>
    show (storeString k rest >>= _ : Except Fault _) = _
    rw [hrest]
    rfl
  | ok r =>
    show (storeString k rest >>= _ : Except Fault _) = _
    rw [hrest]
    rfl

/-- What is stored for a string is what it stands for. -/
theorem storeString_of (h : StringText bs t) (rest : List UInt8) :
    storeString 0 (t ++ 34 :: rest) = .ok (bs, 34 :: rest) := by
  induction h with
  | nil =>
    rw [List.nil_append]
    unfold storeString
    exact if_pos (.inl rfl)
  | byte hnul hquote hslash _ ih =>
    rw [List.cons_append]
    unfold storeString
    rw [if_neg (not_or.mpr ⟨hquote, hnul⟩), if_neg hslash, ih]
    rfl
  | short hshort _ ih =>
    rw [List.cons_append, List.cons_append, storeString_slash _ _ (unescapeByte_short hshort _), ih]
    rfl
  | unicode hds hnul _ ih =>
    simp only [List.cons_append, List.append_assoc]
    rw [storeString_slash 117 _ (unescapeUnicode_of hds hnul _), storeString_hex hds 0, ih]
    rfl
  | pair hds hds' hhigh hlow hc _ ih =>
    have hskip : ∀ rest, storeString 6 (92 :: 117 :: rest) = storeString 4 rest := fun _ => rfl
    simp only [List.cons_append, List.append_assoc]
    rw [storeString_slash 117 _ (unescapeUnicode_pair hds hds' hhigh hlow hc _),
      storeString_hex hds 6, hskip, storeString_hex hds' 0, ih]
    rfl

/-- No byte of the UTF-8 of a character is a NUL but that of the NUL. -/
theorem zero_not_mem_utf8 {c : Char} (hc : c.toNat ≠ 0) : 0 ∉ String.utf8EncodeChar c := by
  have hmark : ∀ {m a : ℕ}, 0 < a → m + a < 256 → UInt8.ofNat (m + a) ≠ 0 := by
    intro m a ha hlt heq
    have hval : (m + a) % 2 ^ 8 = 0 := congrArg UInt8.toNat heq
    omega
  have hval : c.val.toNat = c.toNat := rfl
  unfold String.utf8EncodeChar
  rw [hval]
  generalize c.toNat = n at *
  dsimp only
  have hsmall : n ≤ 127 → UInt8.ofNat n ≠ 0 := by
    intro hle heq
    have hmod : n % 2 ^ 8 = 0 := congrArg UInt8.toNat heq
    omega
  split_ifs with h1 h2 h3
  · simpa using (hsmall h1).symm
  · simp only [List.mem_cons, List.not_mem_nil, or_false, not_or]
    exact ⟨(hmark (by decide) (by omega)).symm, (hmark (by decide) (by omega)).symm⟩
  · simp only [List.mem_cons, List.not_mem_nil, or_false, not_or]
    exact ⟨(hmark (by decide) (by omega)).symm, (hmark (by decide) (by omega)).symm,
      (hmark (by decide) (by omega)).symm⟩
  · simp only [List.mem_cons, List.not_mem_nil, or_false, not_or]
    exact ⟨(hmark (by decide) (by omega)).symm, (hmark (by decide) (by omega)).symm,
      (hmark (by decide) (by omega)).symm, (hmark (by decide) (by omega)).symm⟩

theorem StringText.noNul (h : StringText bs t) : 0 ∉ bs := by
  induction h with
  | nil => exact List.not_mem_nil
  | byte hnul _ _ _ ih => exact List.not_mem_cons_of_ne_of_not_mem hnul.symm ih
  | short hshort _ ih =>
    have hall : (shortEscapes.all fun p => p.2 ≠ 0) = true := by decide
    have hb := of_decide_eq_true (List.all_eq_true.mp hall _ hshort)
    exact List.not_mem_cons_of_ne_of_not_mem (Ne.symm hb) ih
  | unicode _ hnul _ ih =>
    rw [List.mem_append, not_or]
    exact ⟨zero_not_mem_utf8 hnul, ih⟩
  | pair _ _ _ _ hc _ ih =>
    rw [List.mem_append, not_or]
    exact ⟨zero_not_mem_utf8 (by omega), ih⟩

/-- The block that has been counted is large enough, and the string is in it. -/
theorem stringContent_of (h : StringText bs t) {len : ℕ} (hlen : bs.length ≤ len)
    (rest : List UInt8) : stringContent len (t ++ 34 :: rest) = .ok (bs, rest) := by
  have hall : bs.takeWhile (· ≠ 0) = bs := by
    rw [List.takeWhile_eq_self_iff]
    intro b hb
    rw [decide_eq_true_iff]
    rintro rfl
    exact h.noNul hb
  unfold stringContent
  rw [storeString_of h]
  show (if len < bs.length then _ else _) = _
  rw [if_neg (Nat.not_lt_of_le hlen), hall]
  rfl

end

/-- A string is read as what it stands for. -/
theorem returns_parseString_of {σ : Type} {env : CJsonEnv} (hmalloc : ∀ n, env.mallocOk n = true)
    {bs t : List UInt8} (h : StringText bs t) (item : CJsonItem) (rest : List UInt8) :
    Returns (parseString env item (quoted t ++ rest) : HeapM σ _) fun r =>
      ∃ b, r = ({ item with valuestring := some ⟨b, bs⟩, type := .string }, some rest) := by
  obtain ⟨len, hlen, hle⟩ := stringLen_of h rest
  have htext : quoted t ++ rest = 34 :: (t ++ 34 :: rest) := by
    unfold quoted
    simp only [List.cons_append, List.append_assoc, List.nil_append]
  rw [htext]
  refine Returns.bind_lift hlen ?_
  refine (returns_cJsonMalloc hmalloc).bind fun r hr => ?_
  obtain ⟨b, rfl⟩ := hr
  exact Returns.bind_lift (stringContent_of h hle rest) (Returns.pure ⟨b, rfl⟩)

end WLink.Misc
