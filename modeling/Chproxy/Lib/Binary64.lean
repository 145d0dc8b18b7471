/-
The arithmetic of IEEE 754 binary64 over the rational numbers: a result is the exact one, rounded to nearest
with ties to even, or an infinity. The sign of a zero is not kept.
-/
import Mathlib.Algebra.Order.Field.Power
import Mathlib.Data.Int.Log
import Mathlib.Data.Rat.Floor
import Mathlib.Tactic.FieldSimp
import Mathlib.Tactic.Linarith
import Mathlib.Tactic.NormNum
import Mathlib.Tactic.Positivity
import Mathlib.Tactic.Ring

namespace Binary64

/-! ## Rounding -/

/-- The nearest integer, and of two that are equally near the even one. -/
def nearestEven (x : ℚ) : ℤ :=
  if x - ⌊x⌋ < 1 / 2 then ⌊x⌋
  else if 1 / 2 < x - ⌊x⌋ then ⌊x⌋ + 1
  else if ⌊x⌋ % 2 = 0 then ⌊x⌋ else ⌊x⌋ + 1

/-- The exponent of the unit in the last place: 53 digits from the leading one on, or those that a
subnormal number has. -/
def ulp (q : ℚ) : ℤ := max (Int.log 2 |q| - 52) (-1074)

/-- The nearest number with that unit, whether or not it is in range. -/
def nearest (q : ℚ) : ℚ := nearestEven (q / 2 ^ ulp q) * 2 ^ ulp q

theorem abs_nearestEven_sub_le (x : ℚ) : |(nearestEven x : ℚ) - x| ≤ 1 / 2 := by
  have hle := Int.floor_le x
  have hlt := Int.lt_floor_add_one x
  rw [abs_le]
  unfold nearestEven
  split
  · constructor <;> linarith
  split
  · push_cast
    constructor <;> linarith
  · split <;> push_cast <;> constructor <;> linarith

theorem nearestEven_intCast (n : ℤ) : nearestEven (n : ℚ) = n := by
  unfold nearestEven
  rw [Int.floor_intCast, sub_self, if_pos (by norm_num)]

theorem abs_nearest_sub_le (q : ℚ) : |nearest q - q| ≤ 2 ^ ulp q / 2 := by
  have hpos : (0 : ℚ) < 2 ^ ulp q := by positivity
  have hscale : nearest q - q = (nearestEven (q / 2 ^ ulp q) - q / 2 ^ ulp q) * 2 ^ ulp q := by
    unfold nearest
    field_simp
  rw [hscale, abs_mul, abs_of_pos hpos]
  have hnear := mul_le_mul_of_nonneg_right (abs_nearestEven_sub_le (q / 2 ^ ulp q)) hpos.le
  linarith

/-! ## Numbers that need no rounding -/

/-- Less than 54 digits, from the unit `2 ^ e` on. -/
def Representable (q : ℚ) : Prop := ∃ m e : ℤ, |m| < 2 ^ 53 ∧ -1074 ≤ e ∧ q = m * 2 ^ e

theorem Representable.neg {q : ℚ} (h : Representable q) : Representable (-q) := by
  obtain ⟨m, e, hm, he, rfl⟩ := h
  exact ⟨-m, e, by rwa [abs_neg], he, by push_cast; ring⟩

theorem Representable.mul_pow {q : ℚ} (h : Representable q) (k : ℕ) : Representable (q * 2 ^ k) := by
  obtain ⟨m, e, hm, he, rfl⟩ := h
  refine ⟨m, e + k, hm, by omega, ?_⟩
  rw [zpow_add₀ (by norm_num), zpow_natCast, mul_assoc]

theorem representable_natCast {n : ℕ} (h : n < 2 ^ 53) : Representable n := by
  refine ⟨n, 0, ?_, by norm_num, by simp⟩
  rw [abs_of_nonneg (Int.natCast_nonneg n)]
  exact_mod_cast h

theorem nearest_of_eq_mul {q : ℚ} {n : ℤ} (h : q = n * 2 ^ ulp q) : nearest q = q := by
  have hne : (2 : ℚ) ^ ulp q ≠ 0 := by positivity
  have hdiv : q / 2 ^ ulp q = n := by rw [div_eq_iff hne]; exact h
  rw [nearest, hdiv, nearestEven_intCast, ← h]

theorem nearest_zero : nearest 0 = 0 := nearest_of_eq_mul (n := 0) (by simp)

theorem ulp_le {q : ℚ} {e : ℤ} (hzero : q ≠ 0) (he : -1074 ≤ e) (h : |q| < 2 ^ (e + 53)) : ulp q ≤ e := by
  have hlog := (Int.lt_zpow_iff_log_lt (R := ℚ) one_lt_two (abs_pos.2 hzero)).1 (by exact_mod_cast h)
  unfold ulp
  omega

theorem nearest_of_representable {q : ℚ} (h : Representable q) : nearest q = q := by
  obtain ⟨m, e, hm, he, hq⟩ := h
  by_cases hzero : q = 0
  · rw [hzero, nearest_zero]
  have hunit : (0 : ℚ) < 2 ^ e := by positivity
  have hfine : ulp q ≤ e := by
    refine ulp_le hzero he ?_
    rw [hq, abs_mul, abs_of_pos hunit, zpow_add₀ (by norm_num), mul_comm]
    exact mul_lt_mul_of_pos_left (by exact_mod_cast hm) hunit
  -- a multiple of the unit `2 ^ e` is one of the smaller unit
  obtain ⟨k, hk⟩ := Int.eq_ofNat_of_zero_le (Int.sub_nonneg.2 hfine)
  refine nearest_of_eq_mul (n := m * 2 ^ k) ?_
  have hpow : (2 : ℚ) ^ e = 2 ^ k * 2 ^ ulp q := by
    rw [← zpow_natCast, ← zpow_add₀ (by norm_num)]
    congr 1
    omega
  push_cast
  rw [mul_assoc, ← hpow]
  exact hq

/-- The digits that rounding leaves are at most one too many, and then a power of two. -/
theorem representable_nearest (q : ℚ) : Representable (nearest q) := by
  by_cases hzero : q = 0
  · rw [hzero, nearest_zero]
    exact ⟨0, 0, by norm_num, by norm_num, by simp⟩
  have hunit : (0 : ℚ) < 2 ^ ulp q := by positivity
  have hsmall : |q / 2 ^ ulp q| < 2 ^ 53 := by
    rw [abs_div, abs_of_pos hunit, div_lt_iff₀ hunit]
    have hlt := Int.lt_zpow_succ_log_self (R := ℚ) one_lt_two |q|
    refine hlt.trans_le ?_
    have hexp : Int.log 2 |q| + 1 ≤ 53 + ulp q := by
      unfold ulp
      omega
    calc ((2 : ℕ) : ℚ) ^ (Int.log 2 |q| + 1) ≤ 2 ^ (53 + ulp q) := by
          push_cast
          exact zpow_le_zpow_right₀ (by norm_num) hexp
      _ = 2 ^ 53 * 2 ^ ulp q := by
          rw [zpow_add₀ (by norm_num)]
          norm_cast
  have hnear := abs_le.1 (abs_nearestEven_sub_le (q / 2 ^ ulp q))
  have hbound : |nearestEven (q / 2 ^ ulp q)| ≤ 2 ^ 53 := by
    have hlt := abs_lt.1 hsmall
    have hupper : (nearestEven (q / 2 ^ ulp q) : ℚ) < ((2 ^ 53 + 1 : ℤ) : ℚ) := by
      push_cast
      linarith
    have hlower : ((-(2 ^ 53 + 1) : ℤ) : ℚ) < nearestEven (q / 2 ^ ulp q) := by
      push_cast
      linarith
    rw [abs_le]
    have h1 := Int.cast_lt.1 hupper
    have h2 := Int.cast_lt.1 hlower
    constructor <;> omega
  have hulp : -1074 ≤ ulp q := le_max_right _ _
  rcases hbound.lt_or_eq with hlt | heq
  · exact ⟨_, ulp q, hlt, hulp, rfl⟩
  · -- carried into the next binade
    rcases (abs_eq (by norm_num)).1 heq with hm | hm
    · refine ⟨2 ^ 52, ulp q + 1, by norm_num, by omega, ?_⟩
      rw [nearest, hm, zpow_add₀ (by norm_num)]
      push_cast
      ring
    · refine ⟨-2 ^ 52, ulp q + 1, by norm_num, by omega, ?_⟩
      rw [nearest, hm, zpow_add₀ (by norm_num)]
      push_cast
      ring

/-! ## How far rounding goes -/

/-- Half a unit in the last place, of a normal or a subnormal number. -/
theorem nearest_error (q : ℚ) : |nearest q - q| ≤ |q| * 2 ^ (-53 : ℤ) + 2 ^ (-1075 : ℤ) := by
  by_cases hzero : q = 0
  · rw [hzero, nearest_zero]
    simp
  have hpos : 0 < |q| := abs_pos.2 hzero
  refine (abs_nearest_sub_le q).trans ?_
  rcases max_choice (Int.log 2 |q| - 52) (-1074) with hnormal | hsub
  · have hle := Int.zpow_log_le_self (R := ℚ) one_lt_two hpos
    have hulp : (2 : ℚ) ^ ulp q / 2 = 2 ^ Int.log 2 |q| * 2 ^ (-53 : ℤ) := by
      rw [ulp, hnormal, ← zpow_add₀ (by norm_num), div_eq_mul_inv, ← zpow_neg_one, ← zpow_add₀ (by norm_num)]
      congr 1
      ring
    rw [hulp]
    have hscaled := mul_le_mul_of_nonneg_right hle (by positivity : (0 : ℚ) ≤ 2 ^ (-53 : ℤ))
    push_cast at hscaled
    have htiny : (0 : ℚ) ≤ 2 ^ (-1075 : ℤ) := by positivity
    linarith
  · have hulp : (2 : ℚ) ^ ulp q / 2 = 2 ^ (-1075 : ℤ) := by
      rw [ulp, hsub, div_eq_mul_inv, ← zpow_neg_one, ← zpow_add₀ (by norm_num)]
      norm_num
    rw [hulp]
    have hrel : (0 : ℚ) ≤ |q| * 2 ^ (-53 : ℤ) := by positivity
    linarith

/-- The same with decimal bounds, for numbers of ordinary size. -/
theorem nearest_close (q : ℚ) : |nearest q - q| ≤ |q| / 10 ^ 15 + 1 / 10 ^ 30 := by
  have hrel : |q| * 2 ^ (-53 : ℤ) ≤ |q| / 10 ^ 15 := by
    rw [div_eq_mul_inv]
    exact mul_le_mul_of_nonneg_left (by norm_num) (abs_nonneg q)
  have htiny : (2 : ℚ) ^ (-1075 : ℤ) ≤ 1 / 10 ^ 30 :=
    calc (2 : ℚ) ^ (-1075 : ℤ) ≤ 2 ^ (-100 : ℤ) := zpow_le_zpow_right₀ (by norm_num) (by norm_num)
      _ ≤ 1 / 10 ^ 30 := by norm_num
  exact (nearest_error q).trans (add_le_add hrel htiny)

/-- Rounding keeps most of the size. -/
theorem abs_le_nearest (q : ℚ) : |q| ≤ |nearest q| + |q| / 10 ^ 15 + 1 / 10 ^ 30 := by
  have htri := abs_sub_abs_le_abs_sub q (nearest q)
  rw [abs_sub_comm] at htri
  linarith [nearest_close q]

theorem abs_nearest_le (q : ℚ) : |nearest q| ≤ 2 * |q| + 1 := by
  have hclose := nearest_close q
  have htri := abs_add_le q (nearest q - q)
  rw [add_sub_cancel] at htri
  have hfrac : |q| / 10 ^ 15 ≤ |q| := div_le_self (abs_nonneg q) (by norm_num)
  have htiny : (1 : ℚ) / 10 ^ 30 ≤ 1 := by norm_num
  linarith

/-! ## Values and operations -/

inductive Value
  | finite (q : ℚ)
  | inf (negative : Bool)
  | nan
  deriving DecidableEq, Repr

/-- The value of an exact result. -/
def ofRat (q : ℚ) : Value := if |nearest q| < 2 ^ 1024 then .finite (nearest q) else .inf (q < 0)

namespace Value

def mul : Value → Value → Value
  | finite a, finite b => ofRat (a * b)
  | finite a, inf s => if a = 0 then nan else inf (s != decide (a < 0))
  | inf s, finite a => if a = 0 then nan else inf (s != decide (a < 0))
  | inf s, inf t => inf (s != t)
  | _, _ => nan

def sub : Value → Value → Value
  | finite a, finite b => ofRat (a - b)
  | finite _, inf t => inf (!t)
  | inf s, finite _ => inf s
  | inf s, inf t => if s = t then nan else inf s
  | _, _ => nan

def abs : Value → Value
  | finite a => finite |a|
  | inf _ => inf false
  | nan => nan

def div : Value → Value → Value
  | finite a, finite b => if b = 0 then (if a = 0 then nan else inf (a < 0)) else ofRat (a / b)
  | finite _, inf _ => finite 0
  | inf s, finite b => inf (s != decide (b < 0))
  | inf _, inf _ => nan
  | _, _ => nan

/-- No comparison with `nan` holds. -/
def gt : Value → Value → Bool
  | finite a, finite b => b < a
  | finite _, inf t => t
  | inf s, finite _ => !s
  | inf s, inf t => !s && t
  | _, _ => false

end Value

theorem ofRat_cases (q : ℚ) : ofRat q = .finite (nearest q) ∨ ofRat q = .inf (q < 0) := by
  unfold ofRat
  split
  · exact .inl rfl
  · exact .inr rfl

theorem ofRat_of_lt {q : ℚ} (h : |q| < 2 ^ 1022) : ofRat q = .finite (nearest q) := by
  have hle := abs_nearest_le q
  have hone : (1 : ℚ) ≤ 2 ^ 1022 := one_le_pow₀ (by norm_num)
  refine if_pos ?_
  rw [pow_succ, pow_succ]
  generalize (2 : ℚ) ^ 1022 = limit at h hone
  linarith

end Binary64
