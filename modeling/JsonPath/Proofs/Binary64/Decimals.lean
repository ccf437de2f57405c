import Mathlib.Algebra.Order.Ring.Nat
import JsonPath.Binary64.Decimal
import JsonPath.Proofs.Binary64.Rounding

/-!
# The Double of a Decimal Number

A decimal number is read as the double nearest to a quotient of units. The quotient matters
and not how it is written: numerator and denominator can have a factor in common
(`ofRatio_mul_left`). A fraction that is so small that its double is settled without forming a
power of ten is below half a unit, so rounding the quotient gives the same zero
(`ofDecimal_neg`).

Both together say that zeros at the end of a fraction stand for nothing: each of them makes the
coefficient ten times as large and lowers the exponent by one.

## Main results

* `ofDecimal_neg`: the double of a fraction is that of a quotient of units.
* `ofDecimal_mul_pow`: **zeros at the end of a fraction do not change the double**.
-/

namespace JsonPath.Binary64

variable {num den k : Nat}

/-! ### Quotients with a common factor -/

/-- A common factor does not change a rounded quotient. -/
theorem roundDiv_mul_left (hk : 0 < k) (num den : Nat) :
    roundDiv (k * num) (k * den) = roundDiv num den := by
  have hrest (m n : Nat) : 2 * (k * m) < k * n ↔ 2 * m < n := by
    rw [Nat.mul_left_comm, Nat.mul_lt_mul_left hk]
  have hrest' (m n : Nat) : k * n < 2 * (k * m) ↔ n < 2 * m := by
    rw [Nat.mul_left_comm, Nat.mul_lt_mul_left hk]
  simp only [roundDiv, Nat.mul_div_mul_left num den hk, Nat.mul_mod_mul_left, hrest, hrest']

/-- A common factor does not change a ratio rounded to units. -/
theorem roundUnits_mul_left (hk : 0 < k) (num den : Nat) :
    roundUnits (k * num) (k * den) = roundUnits num den := by
  simp only [roundUnits, Nat.mul_div_mul_left num den hk, Nat.mul_assoc, roundDiv_mul_left hk]

/-- The double nearest to a quotient depends on the quotient alone. -/
theorem ofRatio_mul_left (negative : Bool) (hk : 0 < k) (num den : Nat) :
    ofRatio negative (k * num) (k * den) = ofRatio negative num den := by
  rw [ofRatio, ofRatio, roundUnits_mul_left hk]

/-! ### Quotients below half a unit -/

/-- Less than half a unit is rounded to none. -/
theorem roundUnits_eq_zero (h : 2 * num < den) : roundUnits num den = 0 := by
  have hlt : num < den := by omega
  have hwidth : spacing 0 = 1 := rfl
  simp only [roundUnits, Nat.div_eq_of_lt hlt, hwidth, Nat.mul_one, roundDiv,
    Nat.mod_eq_of_lt hlt, if_pos h]

/-- A ratio of less than half a unit is rounded to zero, with its sign. -/
theorem ofRatio_eq_zero (negative : Bool) (h : 2 * num < den) :
    ofRatio negative num den = zero negative := by
  rw [ofRatio, roundUnits_eq_zero h, ofUnits, dif_pos representable_zero]
  rfl

/-- A power of ten as large as this makes a quotient of less than half a unit. -/
theorem two_mul_lt_pow {c e : Nat} (h : c.log2 + 1077 < 3 * e) :
    2 * (c * one) < Nat.pow 10 (e + 1) := by
  unfold one
  generalize hm : 1074 = m
  calc 2 * (c * Nat.pow 2 m) < 2 * (2 ^ (c.log2 + 1) * Nat.pow 2 m) := by
        refine Nat.mul_lt_mul_of_pos_left ?_ Nat.two_pos
        exact Nat.mul_lt_mul_of_pos_right Nat.lt_log2_self (Nat.pow_pos Nat.two_pos)
    _ = 2 ^ (c.log2 + 1 + m + 1) := by rw [Nat.pow_eq, ← Nat.pow_add, ← Nat.pow_succ']
    _ ≤ 2 ^ (3 * e) := Nat.pow_le_pow_right Nat.two_pos (by omega)
    _ = (2 ^ 3) ^ e := Nat.pow_mul 2 3 e
    _ ≤ 10 ^ e := Nat.pow_le_pow_left (by decide) e
    _ ≤ 10 ^ (e + 1) := Nat.pow_le_pow_right (by decide) (Nat.le_succ e)

/-! ### Fractions -/

/-- A decimal scaled up is a ratio over one, and infinite if it is scaled too far. -/
theorem ofDecimal_ofNat (negative : Bool) {c : Nat} (hc : c ≠ 0) (e : Nat) :
    ofDecimal ⟨negative, c, .ofNat e⟩ = if 400 < e then .infinite negative
      else ofRatio negative (c * Nat.pow 10 e * one) 1 := by
  rw [ofDecimal, if_neg hc]

/-- A decimal scaled down is a ratio over a power of ten, and zero if it is scaled too far. -/
theorem ofDecimal_negSucc (negative : Bool) {c : Nat} (hc : c ≠ 0) (e : Nat) :
    ofDecimal ⟨negative, c, .negSucc e⟩ = if c.log2 + 1077 < 3 * e then zero negative
      else ofRatio negative (c * one) (Nat.pow 10 (e + 1)) := by
  rw [ofDecimal, if_neg hc]

/-- The double of a fraction is the one nearest to a quotient of units. -/
theorem ofDecimal_neg (negative : Bool) (c places : Nat) :
    ofDecimal ⟨negative, c, -(places : Int)⟩ =
      ofRatio negative (c * one) (Nat.pow 10 places) := by
  rcases eq_or_ne c 0 with rfl | hc
  · rw [ofDecimal, if_pos rfl, Nat.zero_mul, ofRatio_eq_zero _ (Nat.pow_pos (by decide))]
  cases places with
  | zero =>
      have hzero : -((0 : Nat) : Int) = .ofNat 0 := rfl
      have hpow : Nat.pow 10 0 = 1 := rfl
      rw [hzero, ofDecimal_ofNat _ hc, if_neg (by decide), hpow, Nat.mul_one]
  | succ e =>
      have hsucc : -((e + 1 : Nat) : Int) = .negSucc e := rfl
      rw [hsucc, ofDecimal_negSucc _ hc]
      split
      · next h => rw [ofRatio_eq_zero _ (two_mul_lt_pow h)]
      · rfl

/-- **Zeros at the end of a fraction do not change the double.** -/
theorem ofDecimal_mul_pow (negative : Bool) (c places zeros : Nat) :
    ofDecimal ⟨negative, c * 10 ^ zeros, -((places + zeros : Nat) : Int)⟩ =
      ofDecimal ⟨negative, c, -(places : Int)⟩ := by
  have hnum : c * 10 ^ zeros * one = 10 ^ zeros * (c * one) := by
    rw [Nat.mul_comm c, Nat.mul_assoc]
  have hden : Nat.pow 10 (places + zeros) = 10 ^ zeros * Nat.pow 10 places := by
    rw [Nat.mul_comm]
    exact Nat.pow_add 10 places zeros
  rw [ofDecimal_neg, ofDecimal_neg, hnum, hden, ofRatio_mul_left negative (Nat.pow_pos (by decide))]

end JsonPath.Binary64
