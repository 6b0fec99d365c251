import WLink.Misc.CJsonRead

/-!
# The value of a number

`parse_number` computes in `double`. Integers up to `2 ^ 53` are exact there (`Doubles.Exact`), and
so an integer of 32 bits comes out of the text that it is printed as (`numberInt_sprintfD`).
-/

namespace WLink.Misc

open WLink.Lib Httpd CString

/-- The arithmetic of `double`. -/
structure Doubles where
  Double : Type
  ofInt : ℤ → Double
  add : Double → Double → Double
  mul : Double → Double → Double
  pow : Double → Double → Double
  /-- The cast to `int`. -/
  toInt : Double → ℤ

namespace Doubles

/-- Integers up to `2 ^ 53` are represented, and so are their sums and products; but a product with
a negative factor may be the other zero. -/
structure Exact (F : Doubles) : Prop where
  add : ∀ a b : ℤ, a.natAbs ≤ 2 ^ 53 → b.natAbs ≤ 2 ^ 53 → (a + b).natAbs ≤ 2 ^ 53 →
    F.add (F.ofInt a) (F.ofInt b) = F.ofInt (a + b)
  mul : ∀ a b : ℤ, a.natAbs ≤ 2 ^ 53 → b.natAbs ≤ 2 ^ 53 → (a * b).natAbs ≤ 2 ^ 53 →
    0 ≤ a ∧ 0 ≤ b ∨ a * b ≠ 0 → F.mul (F.ofInt a) (F.ofInt b) = F.ofInt (a * b)
  pow_zero : ∀ a : ℤ, a.natAbs ≤ 2 ^ 53 → F.pow (F.ofInt a) (F.ofInt 0) = F.ofInt 1
  toInt : ∀ z : ℤ, -2 ^ 31 ≤ z → z < 2 ^ 31 → F.toInt (F.ofInt z) = z

/-- The integers themselves. -/
def ints : Doubles where
  Double := ℤ
  ofInt := id
  add a b := a + b
  mul a b := a * b
  pow a b := a ^ b.toNat
  toInt := id

theorem exact_ints : ints.Exact where
  add _ _ _ _ _ := rfl
  mul _ _ _ _ _ _ := rfl
  pow_zero a _ := pow_zero a
  toInt _ _ _ := rfl

section

variable (F : Doubles)

/-- `n=(n*10.0)+(*num++ -'0')` -/
def addDigit (n : F.Double) (b : UInt8) : F.Double :=
  F.add (F.mul n (F.ofInt 10)) (F.ofInt (b.toNat - 48))

/-- `subscale*signsubscale` -/
def subscale (num : List UInt8) : ℤ :=
  match num with
  | [] => 0
  | c :: cs =>
    if c = 101 ∨ c = 69 then
      let sign := if cs.head? = some 45 then -1 else 1
      let num := if cs.head? = some 43 ∨ cs.head? = some 45 then cs.tail else cs
      sign * (num.takeWhile isDigit).foldl (fun (n : ℤ) b => n * 10 + (b.toNat - 48)) 0
    else 0

/-- The digits of a number without its sign, and the exponent of 10. -/
def unsigned (num : List UInt8) : F.Double × F.Double :=
  let num := if num.head? = some 48 then num.tail else num
  let integer := if num.head?.any fun c => 49 ≤ c ∧ c ≤ 57 then num.takeWhile isDigit else []
  let n := integer.foldl F.addDigit (F.ofInt 0)
  let num := num.drop integer.length
  let fraction := if num.head? = some 46 then num.tail.takeWhile isDigit else []
  let n := fraction.foldl F.addDigit n
  let scale := fraction.foldl (fun scale _ => F.add scale (F.ofInt (-1))) (F.ofInt 0)
  -- without digits behind it the point is not passed over
  let num := if fraction.isEmpty then num else num.drop (fraction.length + 1)
  (n, F.add scale (F.ofInt (subscale num)))

/-- The `valueint` that `parse_number` computes. -/
def numberInt (num : List UInt8) : ℤ :=
  let sign := if num.head? = some 45 then -1 else 1
  let (n, scale) := F.unsigned (if num.head? = some 45 then num.tail else num)
  F.toInt (F.mul (F.mul (F.ofInt sign) n) (F.pow (F.ofInt 10) scale))

end

variable {F : Doubles} (hF : F.Exact)
include hF

theorem addDigit_ofInt {n k : ℕ} {b : UInt8} (hb : b.toNat = k + 48) (hk : k < 10)
    (hn : n * 10 + k ≤ 2 ^ 53) : F.addDigit (F.ofInt n) b = F.ofInt (n * 10 + k : ℕ) := by
  have hmul : F.mul (F.ofInt n) (F.ofInt 10) = F.ofInt (n * 10) :=
    hF.mul n 10 (by omega) (by decide) (by omega) (Or.inl ⟨by omega, by decide⟩)
  have hdigit : ((b.toNat : ℤ) - 48) = k := by omega
  unfold addDigit
  rw [hmul, hdigit, hF.add _ _ (by omega) (by omega) (by omega)]
  rfl

omit hF in
theorem decimal_digit {k : ℕ} (h : k < 10) : ∃ b, decimal k = [b] ∧ b.toNat = k + 48 := by
  have hall : ∀ k < 10, ∃ b ∈ decimal k, decimal k = [b] ∧ b.toNat = k + 48 := by decide +kernel
  obtain ⟨b, -, hb⟩ := hall k h
  exact ⟨b, hb⟩

/-- The digits of a number, one after the other. -/
theorem foldl_addDigit {n : ℕ} (h : n ≤ 2 ^ 53) :
    (decimal n).foldl F.addDigit (F.ofInt 0) = F.ofInt n := by
  induction n using Nat.strong_induction_on with
  | _ n ih =>
    rcases Nat.lt_or_ge n 10 with hlt | hge
    · obtain ⟨b, hdecimal, hb⟩ := decimal_digit hlt
      have hdigit := addDigit_ofInt hF (n := 0) hb hlt (by omega)
      rw [Nat.zero_mul, Nat.zero_add] at hdigit
      rw [hdecimal]
      exact hdigit
    · have hlast : n % 10 < 10 := Nat.mod_lt n (by decide)
      obtain ⟨b, hdecimal, hb⟩ := decimal_digit hlast
      have hdigit := addDigit_ofInt hF (n := n / 10) hb hlast (by omega)
      rw [Nat.div_add_mod'] at hdigit
      rw [decimal_of_ge hge, List.foldl_append, ih (n / 10) (by omega) (by omega), hdecimal]
      exact hdigit

theorem unsigned_decimal {n : ℕ} (h : n ≤ 2 ^ 53) :
    F.unsigned (decimal n) = (F.ofInt n, F.ofInt 0) := by
  have hzero : F.add (F.ofInt 0) (F.ofInt 0) = F.ofInt 0 :=
    hF.add 0 0 (by decide) (by decide) (by decide)
  have hfold := foldl_addDigit hF h
  rcases Nat.eq_zero_or_pos n with rfl | hpos
  · show (F.ofInt 0, F.add (F.ofInt 0) (F.ofInt 0)) = _
    rw [hzero]
    rfl
  · obtain ⟨d, ds, heq, hlow, hhigh, hds⟩ := decimal_cons hpos
    have hhead : ¬ some d = some 48 := by
      rintro ⟨rfl⟩
      exact absurd hlow (by decide)
    have hwhile : (d :: ds).takeWhile isDigit = d :: ds := by
      rw [List.takeWhile_eq_self_iff, List.forall_mem_cons]
      refine ⟨?_, hds⟩
      unfold isDigit
      rw [decide_eq_true (UInt8.le_trans (by decide) hlow), decide_eq_true hhigh]
      rfl
    rw [heq] at hfold ⊢
    unfold unsigned
    simp [hhead, hlow, hhigh, hwhile, hfold, subscale, hzero]

/-- An integer of 32 bits comes out of its text. -/
theorem numberInt_sprintfD {z : ℤ} (hlow : -2 ^ 31 ≤ z) (hhigh : z < 2 ^ 31) :
    F.numberInt (sprintfD z) = z := by
  have hpow : F.pow (F.ofInt 10) (F.ofInt 0) = F.ofInt 1 := hF.pow_zero 10 (by decide)
  have hunsigned := unsigned_decimal hF (n := z.natAbs) (by omega)
  unfold sprintfD
  split_ifs with hneg
  · show F.toInt (F.mul (F.mul (F.ofInt (-1)) (F.unsigned (decimal z.natAbs)).1)
      (F.pow (F.ofInt 10) (F.unsigned (decimal z.natAbs)).2)) = z
    rw [hunsigned, hpow, hF.mul _ _ (by decide) (by omega) (by omega) (Or.inr (by omega)),
      hF.mul _ _ (by omega) (by decide) (by omega) (Or.inr (by omega)),
      hF.toInt _ (by omega) (by omega)]
    omega
  · have hhead : ¬ (decimal z.natAbs).head? = some 45 := by
      intro h
      have hdigit := decimal_digits z.natAbs 45 (List.mem_of_head? h)
      exact absurd hdigit.1 (by decide)
    unfold numberInt
    dsimp only
    rw [if_neg hhead, if_neg hhead, hunsigned]
    dsimp only
    rw [hpow, hF.mul _ _ (by decide) (by omega) (by omega) (Or.inl ⟨by decide, by omega⟩),
      hF.mul _ _ (by omega) (by decide) (by omega) (Or.inl ⟨by omega, by decide⟩),
      hF.toInt _ (by omega) (by omega)]
    omega

end Doubles

end WLink.Misc
