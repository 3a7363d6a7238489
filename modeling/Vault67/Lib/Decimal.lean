/-
Decimal floating point as Python's `decimal` has it: a number keeps the digits it was written with, and the operations of
a context keep at most `prec` of them.

- `Numeral.parse`: `Decimal(text)`, none when it raises;
- `Decimal.value`, `sub_value`: the number that is meant; exact subtraction;
- `Context.round`: half-even rounding to the context's precision. `round_value_iff`: it is exact when the digits it drops
  are zeros;
- `Context.round_value_eq_iff`: that is, when the number has at most `prec` significant digits;
- `Decimal.fixed`: `f"{x:,.2f}"`.
-/
import Mathlib.Tactic
import Vault67.Lib.Rounding
import Vault67.Lib.Text

namespace Vault67

open Rounding Text

/-- a finite number as it is written: sign, digits, and the place of the last digit -/
structure Decimal where
  negative : Bool
  coefficient : ℕ
  exponent : ℤ
deriving DecidableEq, Repr

namespace Decimal

/-- the number that is meant -/
def value (x : Decimal) : ℚ := (if x.negative then -1 else 1) * x.coefficient * 10 ^ x.exponent

/-- `abs(x)`, exactly -/
def abs (x : Decimal) : Decimal := { x with negative := false }

/-- the place of the first digit -/
def adjusted (x : Decimal) : ℤ := x.exponent + Nat.log 10 x.coefficient

/-- the signed number of units of the given place, which is not above the place of the last digit -/
def units (x : Decimal) (place : ℤ) : ℤ :=
  (if x.negative then -1 else 1) * (x.coefficient * 10 ^ (x.exponent - place).toNat : ℕ)

/-- `x - y`, exactly; a difference of zeros is negative for a negative zero less a positive one -/
def sub (x y : Decimal) : Decimal :=
  let place := min x.exponent y.exponent
  let n := x.units place - y.units place
  ⟨if n = 0 then x.negative && !y.negative else n < 0, n.natAbs, place⟩

/-! ## Values -/

theorem ten_zpow_pos (e : ℤ) : (0 : ℚ) < 10 ^ e := by positivity

theorem ten_zpow_ne_zero (e : ℤ) : (10 : ℚ) ^ e ≠ 0 := (ten_zpow_pos e).ne'

theorem abs_value_eq (x : Decimal) : |x.value| = x.coefficient * 10 ^ x.exponent := by
  unfold value
  rw [abs_mul, abs_mul, Nat.abs_cast, abs_of_pos (ten_zpow_pos _)]
  cases x.negative <;> simp

@[simp] theorem abs_value (x : Decimal) : x.abs.value = |x.value| := by
  rw [abs_value_eq]
  simp [value, abs]

/-- the first digit is at the place `adjusted` -/
theorem pow_adjusted_le {x : Decimal} (h : x.coefficient ≠ 0) : 10 ^ x.adjusted ≤ |x.value| := by
  have hlog : ((10 ^ Nat.log 10 x.coefficient : ℕ) : ℚ) ≤ x.coefficient := Nat.cast_le.2 (Nat.pow_log_le_self 10 h)
  rw [abs_value_eq, adjusted, zpow_add₀ (by norm_num), mul_comm, zpow_natCast]
  push_cast at hlog
  exact mul_le_mul_of_nonneg_right hlog (ten_zpow_pos _).le

theorem lt_pow_adjusted (x : Decimal) : |x.value| < 10 ^ (x.adjusted + 1) := by
  have hlog : (x.coefficient : ℚ) < ((10 ^ (Nat.log 10 x.coefficient + 1) : ℕ) : ℚ) :=
    Nat.cast_lt.2 (Nat.lt_pow_succ_log_self (by norm_num) _)
  rw [abs_value_eq, adjusted, add_assoc, zpow_add₀ (by norm_num), mul_comm, ← Nat.cast_add_one, zpow_natCast]
  push_cast at hlog
  exact mul_lt_mul_of_pos_left hlog (ten_zpow_pos _)

@[simp] theorem value_eq_zero {x : Decimal} : x.value = 0 ↔ x.coefficient = 0 := by
  unfold value
  rw [mul_eq_zero, mul_eq_zero, Nat.cast_eq_zero]
  cases x.negative <;> simp [ten_zpow_ne_zero]

theorem units_value {x : Decimal} {place : ℤ} (h : place ≤ x.exponent) : (x.units place : ℚ) * 10 ^ place = x.value := by
  have hplace : (10 : ℚ) ^ (x.exponent - place).toNat * 10 ^ place = 10 ^ x.exponent := by
    rw [← zpow_natCast, ← zpow_add₀ (by norm_num : (10 : ℚ) ≠ 0)]
    congr 1
    omega
  unfold units value
  push_cast
  rw [mul_assoc, mul_assoc, mul_assoc, hplace]

theorem signed_natAbs {n : ℤ} {s : Bool} (h : n ≠ 0 → s = decide (n < 0)) :
    ((if s then -1 else 1) * (n.natAbs : ℚ)) = n := by
  rcases lt_trichotomy n 0 with hn | rfl | hn
  · rw [h hn.ne, if_pos (decide_eq_true hn), Nat.cast_natAbs, abs_of_neg hn]
    push_cast
    ring
  · simp
  · rw [h hn.ne', if_neg (by simpa using hn.le), Nat.cast_natAbs, abs_of_pos hn, one_mul]

theorem sub_value (x y : Decimal) : (x.sub y).value = x.value - y.value := by
  rw [← units_value (min_le_left x.exponent y.exponent), ← units_value (min_le_right x.exponent y.exponent), ← sub_mul,
    ← Int.cast_sub]
  exact congrArg (· * _) (signed_natAbs fun hn => if_neg hn)

/-- a number with at most k decimals is a multiple of the k-th one -/
theorem value_mul_pow {x : Decimal} {k : ℕ} (h : -(k : ℤ) ≤ x.exponent) : ∃ n : ℤ, x.value * 10 ^ k = n := by
  refine ⟨x.units (-k), ?_⟩
  rw [← units_value h, mul_assoc, zpow_neg, zpow_natCast, inv_mul_cancel₀ (by positivity), mul_one]

end Decimal

/-! ## Contexts -/

/-- the digits a context keeps and the largest place e it allows a first digit at; the smallest is -e -/
structure Context where
  prec : ℕ
  emax : ℕ
  prec_pos : 0 < prec

namespace Context

variable (c : Context)

/-- the last place a number can have digits at -/
def etiny : ℤ := 1 - c.emax - c.prec

/-- how many digits of a number go -/
def dropped (x : Decimal) : ℕ := (max (x.adjusted - (c.prec - 1)) c.etiny - x.exponent).toNat

/-- half-even, to the digits the context keeps -/
def round (x : Decimal) : Decimal :=
  let k := c.dropped x
  { x with coefficient := (halfEven ((x.coefficient : ℚ) / 10 ^ k)).toNat, exponent := x.exponent + k }

/-- rounded, the number is too large for the context -/
def Overflows (x : Decimal) : Prop := (c.round x).coefficient ≠ 0 ∧ c.emax < (c.round x).adjusted

instance (x : Decimal) : Decidable (c.Overflows x) := inferInstanceAs (Decidable (_ ∧ _))

/-- the result of an operation that is exactly x; none when it raises Overflow -/
def result (x : Decimal) : Option Decimal := if c.Overflows x then none else some (c.round x)

/-- the digits dropped are zeros -/
def Exact (x : Decimal) : Prop := 10 ^ c.dropped x ∣ x.coefficient

instance (x : Decimal) : Decidable (c.Exact x) := inferInstanceAs (Decidable (_ ∣ _))

variable {c}

theorem result_eq_some {x y : Decimal} : c.result x = some y ↔ ¬c.Overflows x ∧ c.round x = y := by
  unfold result
  split_ifs with h <;> simp [h]

theorem result_eq_none {x : Decimal} : c.result x = none ↔ c.Overflows x := by
  unfold result
  split_ifs with h <;> simp [h]

/-- the rounded number has its first digit above the largest place -/
theorem overflows_iff {x : Decimal} : c.Overflows x ↔ 10 ^ ((c.emax : ℤ) + 1) ≤ |(c.round x).value| := by
  refine ⟨?_, ?_⟩
  · intro h
    exact (zpow_le_zpow_right₀ (by norm_num) (by have := h.2; omega)).trans (Decimal.pow_adjusted_le h.1)
  · intro h
    have hne : (c.round x).coefficient ≠ 0 := by
      intro hzero
      rw [Decimal.value_eq_zero.2 hzero, abs_zero] at h
      exact (Decimal.ten_zpow_pos _).not_ge h
    refine ⟨hne, ?_⟩
    have := (zpow_lt_zpow_iff_right₀ (by norm_num)).1 (h.trans_lt (Decimal.lt_pow_adjusted (c.round x)))
    omega

theorem round_value (x : Decimal) : (c.round x).value =
    (if x.negative then -1 else 1) * (halfEven ((x.coefficient : ℚ) / 10 ^ c.dropped x) : ℚ) * 10 ^ c.dropped x *
      10 ^ x.exponent := by
  have hnonneg : 0 ≤ halfEven ((x.coefficient : ℚ) / 10 ^ c.dropped x) := halfEven_nonneg (by positivity)
  have hcast : (((halfEven ((x.coefficient : ℚ) / 10 ^ c.dropped x)).toNat : ℕ) : ℚ) =
      halfEven ((x.coefficient : ℚ) / 10 ^ c.dropped x) := by
    exact_mod_cast congrArg (Int.cast (R := ℚ)) (Int.toNat_of_nonneg hnonneg)
  unfold round Decimal.value
  dsimp only
  rw [hcast, zpow_add₀ (by norm_num), zpow_natCast]
  ring

theorem abs_round_value (x : Decimal) : |(c.round x).value| =
    (halfEven ((x.coefficient : ℚ) / 10 ^ c.dropped x) : ℚ) * 10 ^ c.dropped x * 10 ^ x.exponent := by
  have hsign : |(if x.negative then (-1 : ℚ) else 1)| = 1 := by split_ifs <;> norm_num
  have hnonneg : (0 : ℚ) ≤ halfEven ((x.coefficient : ℚ) / 10 ^ c.dropped x) :=
    Int.cast_nonneg (halfEven_nonneg (by positivity))
  rw [round_value, mul_assoc, mul_assoc, abs_mul, hsign, one_mul, abs_of_nonneg (by positivity), mul_assoc]

theorem round_abs_nonneg (x : Decimal) : 0 ≤ (c.round x.abs).value := by
  unfold Decimal.value round Decimal.abs
  simp only [Bool.false_eq_true, if_false, one_mul]
  positivity

/-- rounding is exact when the digits it drops are zeros -/
theorem round_value_iff {x : Decimal} : (c.round x).value = x.value ↔ c.Exact x := by
  have hk : (10 : ℚ) ^ c.dropped x ≠ 0 := by positivity
  have hs : (if x.negative then (-1 : ℚ) else 1) ≠ 0 := by split_ifs <;> norm_num
  rw [round_value, Decimal.value, mul_assoc (ite _ _ _) (halfEven _ : ℚ), mul_left_inj' (Decimal.ten_zpow_ne_zero _),
    mul_right_inj' hs]
  refine ⟨?_, ?_⟩
  · intro h
    have hint : halfEven ((x.coefficient : ℚ) / 10 ^ c.dropped x) * 10 ^ c.dropped x = (x.coefficient : ℤ) := by
      exact_mod_cast h
    exact Int.natCast_dvd_natCast.1 ⟨halfEven ((x.coefficient : ℚ) / 10 ^ c.dropped x), by
      push_cast
      rw [← hint, mul_comm]⟩
  · intro h
    obtain ⟨m, hm⟩ := h
    have hq : (x.coefficient : ℚ) / 10 ^ c.dropped x = ((m : ℤ) : ℚ) := by
      rw [hm]
      push_cast
      field_simp
    rw [hq, halfEven_intCast, hm]
    push_cast
    ring

/-! ## What fits a context -/

/-- at most `prec` significant digits, and none past the last place -/
def Fits (c : Context) (q : ℚ) : Prop := ∃ m e : ℤ, |m| < 10 ^ c.prec ∧ c.etiny ≤ e ∧ q = m * 10 ^ e

theorem log_pow_mul {m : ℕ} (h : 0 < m) (k : ℕ) : Nat.log 10 (10 ^ k * m) = Nat.log 10 m + k := by
  induction k with
  | zero => simp
  | succ k ih =>
    rw [pow_succ, mul_assoc, mul_comm 10 m, ← mul_assoc, Nat.log_mul_base (by norm_num) (by positivity), ih, add_assoc]

theorem fits_of_exact {x : Decimal} (h : c.Exact x) : c.Fits x.value := by
  obtain ⟨m, hm⟩ := h
  have hprec := c.prec_pos
  have hlog : m < 10 ^ c.prec := by
    rcases Nat.eq_zero_or_pos m with rfl | hpos
    · positivity
    have hcoefficient : Nat.log 10 x.coefficient = Nat.log 10 m + c.dropped x := by
      rw [hm]
      exact log_pow_mul hpos _
    refine Nat.lt_pow_of_log_lt (by norm_num) ?_
    have hk : x.adjusted - (c.prec - 1) - x.exponent ≤ c.dropped x := by
      unfold dropped
      omega
    unfold Decimal.adjusted at hk
    omega
  refine ⟨(if x.negative then -1 else 1) * m, x.exponent + c.dropped x, ?_, ?_, ?_⟩
  · rw [abs_mul, Nat.abs_cast]
    have hs : |(if x.negative then (-1 : ℤ) else 1)| = 1 := by split_ifs <;> norm_num
    rw [hs, one_mul]
    exact_mod_cast hlog
  · unfold dropped
    omega
  · rw [Decimal.value, hm, zpow_add₀ (by norm_num), zpow_natCast]
    push_cast
    ring

theorem exact_of_fits {x : Decimal} (h : c.Fits x.value) : c.Exact x := by
  obtain ⟨m, e, hm, he, hv⟩ := h
  rcases Nat.eq_zero_or_pos x.coefficient with h0 | hpos
  · rw [Exact, h0]
    exact dvd_zero _
  -- the first digit of x is at most `prec - 1` places above e
  have habs : (x.coefficient : ℚ) * 10 ^ x.exponent = |(m : ℚ)| * 10 ^ e := by
    rw [← Decimal.abs_value_eq, hv, abs_mul, abs_of_pos (Decimal.ten_zpow_pos e)]
  have hfirst : x.adjusted < c.prec + e := by
    have hlow := Decimal.pow_adjusted_le hpos.ne'
    have hhigh : |(m : ℚ)| * 10 ^ e < 10 ^ ((c.prec : ℤ) + e) := by
      rw [zpow_add₀ (by norm_num), zpow_natCast]
      exact mul_lt_mul_of_pos_right (by exact_mod_cast hm) (Decimal.ten_zpow_pos _)
    rw [Decimal.abs_value_eq, habs] at hlow
    exact (zpow_lt_zpow_iff_right₀ (by norm_num)).1 (hlow.trans_lt hhigh)
  rcases Nat.eq_zero_or_pos (c.dropped x) with hk | hk
  · rw [Exact, hk, pow_zero]
    exact one_dvd _
  -- so the digits dropped are below e
  have hle : x.exponent + c.dropped x ≤ e := by
    unfold dropped at hk ⊢
    omega
  have hcoefficient : x.coefficient = m.natAbs * 10 ^ (e - x.exponent).toNat := by
    have hplace : (10 : ℚ) ^ e = 10 ^ (e - x.exponent).toNat * 10 ^ x.exponent := by
      rw [← zpow_natCast, ← zpow_add₀ (by norm_num : (10 : ℚ) ≠ 0)]
      congr 1
      omega
    rw [hplace, ← mul_assoc] at habs
    have hq := mul_right_cancel₀ (Decimal.ten_zpow_ne_zero _) habs
    rw [← Int.cast_abs, ← Nat.cast_natAbs] at hq
    exact_mod_cast hq
  rw [Exact, hcoefficient]
  exact (pow_dvd_pow 10 (by omega)).mul_left _

/-- what is left of the coefficient has at most `prec` digits before rounding -/
theorem coefficient_lt (x : Decimal) : x.coefficient < 10 ^ c.prec * 10 ^ c.dropped x := by
  have hprec := c.prec_pos
  have hlog := Nat.lt_pow_succ_log_self (by norm_num : 1 < 10) x.coefficient
  have hle : Nat.log 10 x.coefficient + 1 ≤ c.prec + c.dropped x := by
    unfold dropped Decimal.adjusted
    omega
  rw [← pow_add]
  exact hlog.trans_le (Nat.pow_le_pow_right (by norm_num) hle)

/-- a rounded number fits -/
theorem fits_round (x : Decimal) : c.Fits (c.round x).value := by
  have hprec := c.prec_pos
  have hq : (0 : ℚ) ≤ (x.coefficient : ℚ) / 10 ^ c.dropped x := by positivity
  have hle : halfEven ((x.coefficient : ℚ) / 10 ^ c.dropped x) ≤ 10 ^ c.prec := by
    refine halfEven_le ?_
    rw [div_le_iff₀ (by positivity)]
    exact_mod_cast (coefficient_lt x).le
  have hplace : c.etiny ≤ x.exponent + c.dropped x := by
    unfold dropped
    omega
  have hsign : |(if x.negative then (-1 : ℤ) else 1)| = 1 := by split_ifs <;> norm_num
  rcases hle.lt_or_eq with hlt | heq
  · refine ⟨(if x.negative then -1 else 1) * halfEven ((x.coefficient : ℚ) / 10 ^ c.dropped x),
      x.exponent + c.dropped x, ?_, hplace, ?_⟩
    · rw [abs_mul, hsign, one_mul, abs_of_nonneg (halfEven_nonneg hq)]
      exact hlt
    · rw [round_value, zpow_add₀ (by norm_num), zpow_natCast]
      push_cast
      ring
  · -- rounding up to 10^prec leaves one digit
    refine ⟨if x.negative then -1 else 1, x.exponent + c.dropped x + c.prec, ?_, by omega, ?_⟩
    · rw [hsign]
      exact one_lt_pow₀ (by norm_num) hprec.ne'
    · rw [round_value, heq, zpow_add₀ (by norm_num), zpow_add₀ (by norm_num), zpow_natCast, zpow_natCast]
      push_cast
      ring

/-- a number that is small when it is rounded had no digit to drop -/
theorem exact_of_round_lt {x : Decimal} (he : c.etiny ≤ x.exponent)
    (h : |(c.round x).value| < 10 ^ ((c.prec : ℤ) + x.exponent)) : c.Exact x := by
  have hprec := c.prec_pos
  rcases Nat.eq_zero_or_pos (c.dropped x) with hk | hk
  · rw [Exact, hk, pow_zero]
    exact one_dvd _
  · exfalso
    have hplace : x.adjusted = x.exponent + c.dropped x + (c.prec - 1 : ℕ) := by
      unfold dropped at hk ⊢
      omega
    have hlog : Nat.log 10 x.coefficient = c.dropped x + (c.prec - 1) := by
      unfold Decimal.adjusted at hplace
      omega
    have hcoefficient : 10 ^ (c.prec - 1) * 10 ^ c.dropped x ≤ x.coefficient := by
      rw [← pow_add, add_comm, ← hlog]
      apply Nat.pow_log_le_self 10
      intro hzero
      rw [hzero] at hlog
      simp at hlog
      omega
    have hle : (10 : ℤ) ^ (c.prec - 1) ≤ halfEven ((x.coefficient : ℚ) / 10 ^ c.dropped x) := by
      refine le_halfEven ?_
      rw [le_div_iff₀ (by positivity)]
      exact_mod_cast hcoefficient
    have hten : (10 : ℚ) ^ c.prec ≤ halfEven ((x.coefficient : ℚ) / 10 ^ c.dropped x) * 10 ^ c.dropped x :=
      calc (10 : ℚ) ^ c.prec = 10 ^ (c.prec - 1) * 10 ^ 1 := by rw [← pow_add, Nat.sub_add_cancel hprec]
        _ ≤ halfEven ((x.coefficient : ℚ) / 10 ^ c.dropped x) * 10 ^ c.dropped x :=
          mul_le_mul (by exact_mod_cast hle) (pow_le_pow_right₀ (by norm_num) hk) (by positivity)
            (by exact_mod_cast (show (0 : ℤ) ≤ 10 ^ (c.prec - 1) by positivity).trans hle)
    refine h.not_ge ?_
    rw [abs_round_value, zpow_add₀ (by norm_num), zpow_natCast]
    exact mul_le_mul_of_nonneg_right hten (Decimal.ten_zpow_pos _).le

theorem Fits.abs {q : ℚ} (h : c.Fits q) : c.Fits |q| := by
  obtain ⟨m, e, hm, he, rfl⟩ := h
  refine ⟨|m|, e, by rwa [abs_abs], he, ?_⟩
  rw [abs_mul, abs_of_pos (Decimal.ten_zpow_pos e), Int.cast_abs]

/-- a number is kept as it is exactly when its digits fit the context -/
theorem round_value_eq_iff {x : Decimal} : (c.round x).value = x.value ↔ c.Fits x.value :=
  round_value_iff.trans ⟨fits_of_exact, exact_of_fits⟩

end Context

/-! ## Reading and writing -/

/-- what `Decimal(text)` makes of a text -/
inductive Numeral where
  | finite (x : Decimal)
  | infinity (negative : Bool)
  | nan (negative signaling : Bool) (payload : List Char)
deriving DecidableEq, Repr

namespace Numeral

def isAsciiDigit (c : Char) : Bool := '0' ≤ c ∧ c ≤ '9'

/-- underscores go, digits of any script become ASCII; none for a character that is no part of a number -/
def ascii (cs : List Char) : Option (List Char) :=
  (cs.filter (· ≠ '_')).mapM fun c =>
    if 0 < c.toNat ∧ c.toNat < 128 then some c
    else if isSpace c then some ' '
    else (digitValue c).map fun d => Char.ofNat (0x30 + d)

/-- digits with an optional sign -/
def integer (cs : List Char) : Option ℤ :=
  let (negative, digits) := sign cs
  if digits ≠ [] ∧ digits.all isAsciiDigit then some ((if negative then -1 else 1) * number digits) else none

/-- the exponent part, if there is one -/
def exponentPart : List Char → Option ℤ
  | [] => some 0
  | c :: cs => if c = 'e' ∨ c = 'E' then integer cs else none

/-- digits, a point, digits, an exponent -/
def unsigned (negative : Bool) (cs : List Char) : Option Decimal :=
  let (whole, rest) := cs.span isAsciiDigit
  let (fraction, rest) := match rest with
    | '.' :: rest => rest.span isAsciiDigit
    | rest => ([], rest)
  if whole ++ fraction = [] then none
  else (exponentPart rest).map fun e => ⟨negative, number (whole ++ fraction), e - fraction.length⟩

/-- the exponents a Decimal can have -/
def InRange (x : Decimal) : Prop := x.adjusted ≤ 999999999999999999 ∧ -1999999999999999997 ≤ x.exponent

instance (x : Decimal) : Decidable (InRange x) := inferInstanceAs (Decidable (_ ∧ _))

/-- a word for a value that is not finite, or a number -/
def unsignedNumeral (negative : Bool) (cs : List Char) : Option Numeral :=
  let word := cs.map Char.toLower
  if word = "inf".toList ∨ word = "infinity".toList then some (.infinity negative)
  else if word.take 3 = "nan".toList then
    if (word.drop 3).all isAsciiDigit then some (.nan negative false (word.drop 3)) else none
  else if word.take 4 = "snan".toList then
    if (word.drop 4).all isAsciiDigit then some (.nan negative true (word.drop 4)) else none
  else (unsigned negative cs).bind fun x => if InRange x then some (.finite x) else none

/-- `Decimal(text)`; none when it raises InvalidOperation -/
def parse (cs : List Char) : Option Numeral :=
  (ascii (strip cs)).bind fun cs => let (negative, cs) := sign cs; unsignedNumeral negative cs

end Numeral

/-- digits in groups of three -/
def groups (digits : List Char) : List Char :=
  (List.intercalate [','] (digits.reverse.toChunks 3)).reverse

/-- `f"{x:,.2f}"` -/
def Decimal.fixed (x : Decimal) : List Char :=
  let cents := (halfEven (|x.value| * 100)).toNat
  (if x.negative then ['-'] else []) ++ groups (Nat.toDigits 10 (cents / 100)) ++
    '.' :: (Nat.toDigits 10 (100 + cents % 100)).drop 1

end Vault67
