import Mathlib.Algebra.Order.Field.Power
import Mathlib.Data.Rat.Cast.Order
import Mathlib.Tactic.FieldSimp
import Mathlib.Data.Nat.Factorization.Basic
import Mathlib.Tactic.NormNum
import Mathlib.Tactic.Ring
import UriExpansion.Decimal.Layout

/-!
# Values of decimals

The same value can be given by several decimals: trailing zeros of the coefficient can be moved to
the exponent. Without them the decimal of a value is unique. The place of the decimal point and
whether a fraction stands behind it depend on the value only.
-/

namespace UriExpansion

open NumberLayout (zeros)

theorem decimalDigits_zero : decimalDigits 0 = ['0'] := rfl

theorem decimalDigits_ne_nil (n : Nat) : decimalDigits n ≠ [] :=
  Nat.toDigits_ne_nil

theorem isDigit_of_mem_decimalDigits {n : Nat} {c : Char} (h : c ∈ decimalDigits n) : c.isDigit :=
  Nat.isDigit_of_mem_toDigits (by decide) (by decide) h

theorem ofDigitChars_decimalDigits (n : Nat) : Nat.ofDigitChars 10 (decimalDigits n) 0 = n :=
  Nat.ofDigitChars_ten_toDigits

theorem decimalDigits_mul_pow_ten {m : Nat} (hm : 0 < m) (k : Nat) :
    decimalDigits (m * 10 ^ k) = decimalDigits m ++ zeros k := by
  induction k with
  | zero => simp [zeros]
  | succ k ih =>
    have hpos : 0 < m * 10 ^ k := by positivity
    have hlast := Nat.toDigits_append_toDigits (b := 10) (d := 0) (by decide) hpos (by decide)
    rw [pow_succ, ← mul_assoc, mul_comm _ 10, decimalDigits, ← Nat.add_zero (10 * _), ← hlast]
    change decimalDigits (m * 10 ^ k) ++ decimalDigits 0 = _
    rw [ih, decimalDigits_zero, zeros, zeros, List.append_assoc, List.replicate_succ']

theorem length_decimalDigits_le_iff {n k : Nat} (hk : 0 < k) :
    (decimalDigits n).length ≤ k ↔ n < 10 ^ k :=
  Nat.length_toDigits_le_iff (by decide) hk

theorem lt_pow_length_decimalDigits (n : Nat) : n < 10 ^ (decimalDigits n).length :=
  (length_decimalDigits_le_iff (List.length_pos_of_ne_nil (decimalDigits_ne_nil n))).1 le_rfl

theorem pow_length_decimalDigits_le {n : Nat} (hn : n ≠ 0) :
    10 ^ ((decimalDigits n).length - 1) ≤ n := by
  by_contra h
  rcases Nat.eq_zero_or_pos ((decimalDigits n).length - 1) with hone | hpos
  · rw [hone, pow_zero] at h
    omega
  · have hshort := (length_decimalDigits_le_iff hpos).2 (Nat.lt_of_not_le h)
    omega

theorem getLast?_decimalDigits (n : Nat) :
    (decimalDigits n).getLast? = some (Nat.digitChar (n % 10)) := by
  rw [decimalDigits, Nat.toDigits_eq_if (by decide)]
  split
  case isTrue h => rw [Nat.mod_eq_of_lt h, List.getLast?_singleton]
  case isFalse => rw [List.getLast?_concat]

namespace Decimal

def value (d : Decimal) : ℚ :=
  d.coefficient * 10 ^ d.exponent

def position (d : Decimal) : Int :=
  (decimalDigits d.coefficient).length + d.exponent

def IsReduced (d : Decimal) : Prop :=
  ¬10 ∣ d.coefficient

variable {d d' : Decimal}

theorem IsReduced.coefficient_ne_zero (h : d.IsReduced) : d.coefficient ≠ 0 := fun hzero =>
  h (hzero ▸ dvd_zero 10)

theorem value_eq_zero_iff : d.value = 0 ↔ d.coefficient = 0 := by
  simp [value, zpow_ne_zero]

theorem value_shift (m k : Nat) (e : Int) :
    value ⟨m * 10 ^ k, e⟩ = value ⟨m, e + k⟩ := by
  simp only [value]
  push_cast
  rw [zpow_add₀ (by norm_num), zpow_natCast]
  ring

theorem value_mul_pow {k : Nat} (h : (k : Int) = -d.exponent) :
    d.value * 10 ^ k = d.coefficient := by
  rw [value, ← zpow_natCast, h, zpow_neg, mul_assoc,
    mul_inv_cancel₀ (zpow_ne_zero _ (by norm_num)), mul_one]

theorem exists_isReduced (h : d.coefficient ≠ 0) :
    ∃ r : Decimal, r.IsReduced ∧ r.value = d.value := by
  obtain ⟨k, m, hm, hc⟩ := Nat.exists_eq_pow_mul_and_not_dvd h 10 (by decide)
  refine ⟨⟨m, d.exponent + k⟩, hm, ?_⟩
  rw [← value_shift, mul_comm, ← hc]

theorem coefficient_eq_of_value_eq (h : d.value = d'.value) (hle : d.exponent ≤ d'.exponent) :
    d.coefficient = d'.coefficient * 10 ^ (d'.exponent - d.exponent).toNat := by
  obtain ⟨k, hk⟩ := Int.le.dest hle
  have hshift : value ⟨d'.coefficient * 10 ^ k, d.exponent⟩ = value d := by
    rw [value_shift, hk, h]
  have hten : (10 : ℚ) ^ d.exponent ≠ 0 := zpow_ne_zero _ (by norm_num)
  have hcast := mul_right_cancel₀ hten hshift
  have hsub : (d'.exponent - d.exponent).toNat = k := by omega
  rw [hsub]
  exact_mod_cast hcast.symm

theorem value_lt (d : Decimal) : d.value < 10 ^ d.position := by
  have hcoefficient : (d.coefficient : ℚ) < 10 ^ (decimalDigits d.coefficient).length := by
    exact_mod_cast lt_pow_length_decimalDigits d.coefficient
  rw [value, position, zpow_add₀ (by norm_num), zpow_natCast]
  gcongr

theorem le_value (h : d.coefficient ≠ 0) : 10 ^ (d.position - 1) ≤ d.value := by
  have hcoefficient : (10 : ℚ) ^ ((decimalDigits d.coefficient).length - 1) ≤ d.coefficient := by
    exact_mod_cast pow_length_decimalDigits_le h
  have hlength := List.length_pos_of_ne_nil (decimalDigits_ne_nil d.coefficient)
  have hposition : d.position - 1 =
      ((decimalDigits d.coefficient).length - 1 : Nat) + d.exponent := by
    rw [position]
    omega
  rw [value, hposition, zpow_add₀ (by norm_num), zpow_natCast]
  gcongr

theorem position_le_iff (h : d.coefficient ≠ 0) (k : Int) : d.position ≤ k ↔ d.value < 10 ^ k := by
  constructor
  · intro hle
    exact d.value_lt.trans_le (zpow_le_zpow_right₀ (by norm_num) hle)
  · intro hlt
    have hpow : (10 : ℚ) ^ (d.position - 1) < 10 ^ k := (le_value h).trans_lt hlt
    have := (zpow_lt_zpow_iff_right₀ (by norm_num)).1 hpow
    omega

theorem lt_position_iff (h : d.coefficient ≠ 0) (k : Int) : k < d.position ↔ 10 ^ k ≤ d.value := by
  rw [← not_le, position_le_iff h, not_lt]

theorem IsReduced.value_eq_natural_iff (h : d.IsReduced) :
    (∃ n : ℕ, d.value = n) ↔ 0 ≤ d.exponent := by
  constructor
  · rintro ⟨n, hn⟩
    by_contra hneg
    have hnatural : value ⟨n, 0⟩ = d.value := by rw [hn]; simp [value]
    have hcoefficient := coefficient_eq_of_value_eq hnatural.symm (by simp only; omega)
    refine h (hcoefficient ▸ Dvd.dvd.mul_left (dvd_pow_self 10 ?_) n)
    simp only
    omega
  · intro hpos
    obtain ⟨k, hk⟩ := Int.eq_ofNat_of_zero_le hpos
    exact ⟨d.coefficient * 10 ^ k, by rw [value, hk, zpow_natCast]; push_cast; rfl⟩

end Decimal

end UriExpansion
