import Mathlib.Algebra.Order.Field.Basic
import Mathlib.Algebra.Order.Field.Rat
import Mathlib.Tactic.Linarith
import JsonPath.Proofs.Binary64.Rounding

/-!
# Rounding to the Nearest

A quotient is rounded to the whole number nearest to it, and of two equally near ones to the even
one (`isNearestEven_roundDiv`). There is only one such number (`IsNearestEven.unique`), so the
relation says all about rounding; where a number is less than half away, it is the one that is
rounded to (`roundDiv_eq_of_near`).

## Millionths

A double that is rounded to millionths is in general no millionth, and a millionth that is rounded
to a double is in general no double. Both roundings in turn still come back to the same millionth
(`roundDiv_roundUnits_millionths`), for one of two reasons.

* Where doubles are less than a millionth apart, the double nearest to a millionth is less than half
  a millionth away from it.
* Where they are more than a millionth apart, a double is the one nearest to the millionth it was
  rounded to, since it is at most half a millionth away.

The spacing is a power of two, and a millionth lies strictly between two of these, so there is no
third case. The spacing is that of the quotient which is rounded, not that of the double. The two
differ only where a power of two lies between them, and from `2 ^ 33` on no double below a power of
two is so close to it (`add_spacing_le`).

## Main definitions

* `IsNearestEven`: a whole number is the nearest one, and of two the even one.

## Main results

* `isNearestEven_roundDiv`: **quotients are rounded to the nearest number**.
* `roundDiv_roundUnits_millionths`: **millionths are restored**.
-/

namespace JsonPath

/-- A whole number is nearest to a number, and if another one is as near, it is the even one. -/
structure IsNearestEven (q : ℚ) (k : ℤ) : Prop where
  /-- It is at most half away. -/
  near : |q - k| ≤ 1 / 2
  /-- If it is half away, it is even. -/
  even : |q - k| = 1 / 2 → Even k

/-- There is only one such number. Two of them would both be half away, neighbours, and both
even. -/
theorem IsNearestEven.unique {q : ℚ} {j k : ℤ} (hj : IsNearestEven q j) (hk : IsNearestEven q k) :
    j = k := by
  by_contra hne
  have hdistance : (1 : ℚ) ≤ |(j : ℚ) - k| := by
    exact_mod_cast Int.one_le_abs (sub_ne_zero.2 hne)
  have htriangle : |(j : ℚ) - k| ≤ |q - j| + |q - k| := by
    rw [abs_sub_comm q j]
    exact abs_sub_le (j : ℚ) q k
  have hjnear := hj.near
  have hknear := hk.near
  have hjeven : Even j := hj.even (by linarith)
  have hkeven : Even k := hk.even (by linarith)
  have heven : Even (j - k) := hjeven.sub hkeven
  have hneighbour : |j - k| ≤ 1 := by
    have hle : |(j : ℚ) - k| ≤ 1 := by linarith
    exact_mod_cast hle
  obtain ⟨i, hi⟩ := heven
  rw [abs_le] at hneighbour
  omega

/-- The nearest integer to the negative is the negative of the nearest. -/
theorem IsNearestEven.neg {q : ℚ} {k : ℤ} (h : IsNearestEven q k) : IsNearestEven (-q) (-k) := by
  have hdistance : |-q - ((-k : ℤ) : ℚ)| = |q - k| := by
    rw [Int.cast_neg, ← neg_sub', abs_neg]
  refine ⟨hdistance.trans_le h.near, fun htie => ?_⟩
  exact (h.even (hdistance.symm.trans htie)).neg

namespace Binary64

/-! ### Quotients -/

/-- What is rounded to is at most half a divisor away. -/
theorem roundDiv_near (num : Nat) {den : Nat} (hden : 0 < den) :
    2 * num ≤ 2 * (roundDiv num den * den) + den ∧
      2 * (roundDiv num den * den) ≤ 2 * num + den := by
  have hnum : num / den * den + num % den = num := Nat.div_add_mod' num den
  have hrest : num % den < den := Nat.mod_lt num hden
  have hup : (num / den + 1) * den = num / den * den + den := Nat.succ_mul _ _
  simp only [roundDiv]
  split
  · omega
  split
  · omega
  · rcases Nat.mod_two_eq_zero_or_one (num / den) with heven | hodd
    · rw [heven, Nat.add_zero]
      omega
    · rw [hodd]
      omega

/-- **What is less than half a divisor away** is what is rounded to. -/
theorem roundDiv_eq_of_near {num den k : Nat} (hbelow : 2 * (k * den) < 2 * num + den)
    (habove : 2 * num < 2 * (k * den) + den) : roundDiv num den = k := by
  have hden : 0 < den := by omega
  obtain ⟨hle, hge⟩ := roundDiv_near num hden
  rcases lt_trichotomy (roundDiv num den) k with hlt | heq | hgt
  · have hnext : (roundDiv num den + 1) * den ≤ k * den := Nat.mul_le_mul_right den hlt
    rw [Nat.succ_mul] at hnext
    omega
  · exact heq
  · have hnext : (k + 1) * den ≤ roundDiv num den * den := Nat.mul_le_mul_right den hgt
    rw [Nat.succ_mul] at hnext
    omega

/-- Where two numbers are equally near, the even one is taken. -/
theorem even_roundDiv_of_tie {num den : Nat} (hden : 0 < den)
    (htie : 2 * num = 2 * (roundDiv num den * den) + den ∨
      2 * (roundDiv num den * den) = 2 * num + den) : Even (roundDiv num den) := by
  have hnum : num / den * den + num % den = num := Nat.div_add_mod' num den
  have hrest : num % den < den := Nat.mod_lt num hden
  have hup : (num / den + 1) * den = num / den * den + den := Nat.succ_mul _ _
  rw [Nat.even_iff]
  simp only [roundDiv] at htie ⊢
  split_ifs at htie ⊢ <;> omega

/-- **Quotients are rounded to the nearest number**, and of two to the even one. -/
theorem isNearestEven_roundDiv (num : Nat) {den : Nat} (hden : 0 < den) :
    IsNearestEven ((num : ℚ) / den) (roundDiv num den) := by
  obtain ⟨hle, hge⟩ := roundDiv_near num hden
  have hpos : (0 : ℚ) < den := by exact_mod_cast hden
  have hle : 2 * (num : ℚ) ≤ 2 * (roundDiv num den * den) + den := by exact_mod_cast hle
  have hge : 2 * ((roundDiv num den : ℚ) * den) ≤ 2 * num + den := by exact_mod_cast hge
  have hdistance : |(num : ℚ) / den - ((roundDiv num den : ℤ) : ℚ)| =
      |(num : ℚ) - roundDiv num den * den| / den := by
    rw [Int.cast_natCast, div_sub' hpos.ne', abs_div, abs_of_pos hpos, mul_comm (den : ℚ)]
  constructor
  · rw [hdistance, div_le_iff₀ hpos, abs_le]
    constructor <;> linarith
  · intro htie
    rw [hdistance, div_eq_iff hpos.ne'] at htie
    rw [Int.even_coe_nat]
    refine even_roundDiv_of_tie hden ?_
    rcases abs_cases ((num : ℚ) - roundDiv num den * den) with ⟨habs, -⟩ | ⟨habs, -⟩
    · have hupper : 2 * (num : ℚ) = 2 * (roundDiv num den * den) + den := by linarith
      exact .inl (by exact_mod_cast hupper)
    · have hlower : 2 * ((roundDiv num den : ℚ) * den) = 2 * num + den := by linarith
      exact .inr (by exact_mod_cast hlower)

/-! ### Spacings -/

/-- Rounding goes up by one power of two at most. -/
theorem gap_roundUnits_le (num : Nat) {den : Nat} (hden : 0 < den) :
    gap (roundUnits num den) ≤ gap (num / den) + 1 := by
  refine gap_le_of_lt ?_
  calc roundUnits num den ≤ 2 ^ 53 * spacing (num / den) := roundUnits_le hden
    _ = 2 ^ (53 + gap (num / den)) := (Nat.pow_add 2 53 _).symm
    _ < 2 ^ (53 + (gap (num / den) + 1)) := Nat.pow_lt_pow_right Nat.one_lt_two (by omega)

/-- What is rounded is at most half a spacing away, in units. -/
theorem roundUnits_near (num : Nat) {den : Nat} (hden : 0 < den) :
    2 * num ≤ 2 * (roundUnits num den * den) + den * spacing (num / den) ∧
      2 * (roundUnits num den * den) ≤ 2 * num + den * spacing (num / den) := by
  have hnear := roundDiv_near num (Nat.mul_pos hden (spacing_pos (num / den)))
  have hunits : roundUnits num den * den =
      roundDiv num (den * spacing (num / den)) * (den * spacing (num / den)) := by
    rw [roundUnits]
    ring
  rwa [hunits]

/-- A multiple of the spacing that is less than half a spacing away is what is rounded to. -/
theorem roundUnits_eq_of_near {num den units : Nat} (hdvd : spacing (num / den) ∣ units)
    (hbelow : 2 * (units * den) < 2 * num + den * spacing (num / den))
    (habove : 2 * num < 2 * (units * den) + den * spacing (num / den)) :
    roundUnits num den = units := by
  obtain ⟨c, rfl⟩ := hdvd
  have hmul : spacing (num / den) * c * den = c * (den * spacing (num / den)) := by ring
  rw [hmul] at hbelow habove
  rw [roundUnits, roundDiv_eq_of_near hbelow habove, Nat.mul_comm]

/-- A multiple of its spacing that is below a power of two is at least a spacing below it. -/
theorem add_spacing_le {units g : Nat} (hdvd : spacing units ∣ units) (hgap : gap units ≤ g) :
    units + 2 ^ g ≤ 2 ^ 53 * 2 ^ g := by
  obtain ⟨c, hc⟩ := hdvd
  have hlt : spacing units * c < spacing units * 2 ^ 53 := by
    rw [← hc, Nat.mul_comm]
    exact lt_mul_spacing units
  have hdigits : c + 1 ≤ 2 ^ 53 := Nat.lt_of_mul_lt_mul_left hlt
  have hwidth : spacing units ≤ 2 ^ g := Nat.pow_le_pow_right Nat.two_pos hgap
  calc units + 2 ^ g = spacing units * c + 2 ^ g := by rw [← hc]
    _ ≤ 2 ^ g * c + 2 ^ g := Nat.add_le_add_right (Nat.mul_le_mul_right c hwidth) _
    _ = (c + 1) * 2 ^ g := by ring
    _ ≤ 2 ^ 53 * 2 ^ g := Nat.mul_le_mul_right _ hdigits

/-! ### Millionths -/

/-! The exponents are kept as variables: the powers of two are too large to be computed. -/

/-- One is a positive number of units. -/
theorem one_pos : 0 < one := by
  unfold one
  generalize 1074 = m
  exact Nat.pow_pos Nat.two_pos

/-- The widest spacing that is less than a millionth. -/
def narrow : Nat :=
  Nat.pow 2 1054

/-- The narrow spacing is above zero. -/
theorem narrow_pos : 0 < narrow := by
  unfold narrow
  generalize 1054 = m
  exact Nat.pow_pos Nat.two_pos

/-- One has a power of two narrow spacings, and more than a million. -/
theorem one_eq_mul : one = 2 ^ 20 * narrow := by
  unfold one narrow
  generalize hm : 1074 = m
  generalize hn : 1054 = n
  have hsum : m = 20 + n := by omega
  rw [hsum]
  exact Nat.pow_add 2 20 n

/-- Where the gap is small enough, the spacing is narrow. -/
theorem spacing_le_narrow {n : Nat} (h : gap n ≤ 1054) : spacing n ≤ narrow := by
  unfold narrow
  generalize 1054 = m at h ⊢
  exact Nat.pow_le_pow_right Nat.two_pos h

/-- A gap that is no smaller leaves steps of the narrow spacing at least. -/
theorem narrow_le_pow {g : Nat} (h : 1054 ≤ g) : narrow ≤ 2 ^ g := by
  unfold narrow
  generalize 1054 = m at h ⊢
  exact Nat.pow_le_pow_right Nat.two_pos h

variable {units k : Nat}

/-- Where doubles are less than a millionth apart, the one nearest to a millionth is rounded back
to it. -/
theorem roundDiv_roundUnits_of_narrow (hgap : gap (k * one / 10 ^ 6) ≤ 1054) :
    roundDiv (roundUnits (k * one) (10 ^ 6) * 10 ^ 6) one = k := by
  have hden : 0 < 10 ^ 6 := by decide
  obtain ⟨hle, hge⟩ := roundUnits_near (k * one) hden
  have hwidth := spacing_le_narrow hgap
  have hpos := narrow_pos
  have hone := one_eq_mul
  refine roundDiv_eq_of_near ?_ ?_ <;> omega

/-- Where doubles are more than a millionth apart, a double is the one nearest to the millionth it
is rounded to. -/
theorem roundUnits_roundDiv_of_wide (hdvd : spacing units ∣ units)
    (hk : roundDiv (units * 10 ^ 6) one = k) (hgap : 1055 ≤ gap (k * one / 10 ^ 6)) :
    roundUnits (k * one) (10 ^ 6) = units := by
  have hden : 0 < 10 ^ 6 := by decide
  obtain ⟨hle, hge⟩ := roundDiv_near (units * 10 ^ 6) one_pos
  rw [hk] at hle hge
  have hone := one_eq_mul
  have hpos := narrow_pos
  obtain ⟨g, hg⟩ : ∃ g, gap (k * one / 10 ^ 6) = g + 1 := Nat.exists_eq_add_one.2 (by omega)
  have hwide : spacing (k * one / 10 ^ 6) = 2 * 2 ^ g := by
    rw [spacing, hg]
    exact Nat.pow_succ'
  have hunit : narrow ≤ 2 ^ g := narrow_le_pow (by omega)
  have hnarrower : gap (k * one / 10 ^ 6) ≤ gap units := by
    by_contra hlt
    have hbelow : units + 2 ^ g ≤ 2 ^ 53 * 2 ^ g := add_spacing_le hdvd (by omega)
    have hpower : 2 ^ 53 * 2 ^ g = 2 ^ 52 * spacing (k * one / 10 ^ 6) := by
      rw [hwide]
      ring
    have habove : 2 ^ 53 * 2 ^ g ≤ k * one / 10 ^ 6 := by
      rw [hpower]
      exact mul_spacing_le (by omega)
    have hfloor : k * one / 10 ^ 6 * 10 ^ 6 ≤ k * one := Nat.div_mul_le_self _ _
    omega
  have hspacing : spacing (k * one / 10 ^ 6) ∣ units := (spacing_dvd hnarrower).trans hdvd
  refine roundUnits_eq_of_near hspacing ?_ ?_ <;> omega

/-- **Millionths are restored.** The millionth that a double is rounded to has a nearest double, and
that double is rounded to the same millionth. -/
theorem roundDiv_roundUnits_millionths (h : Representable units)
    (hk : roundDiv (units * 10 ^ 6) one = k) :
    Representable (roundUnits (k * one) (10 ^ 6)) ∧
      roundDiv (roundUnits (k * one) (10 ^ 6) * 10 ^ 6) one = k := by
  have hden : 0 < 10 ^ 6 := by decide
  rcases Nat.lt_or_ge (gap (k * one / 10 ^ 6)) 1055 with hnarrow | hwide
  · refine ⟨⟨Nat.mod_eq_zero_of_dvd (spacing_dvd_roundUnits hden), ?_⟩,
      roundDiv_roundUnits_of_narrow (by omega)⟩
    have hgap := gap_roundUnits_le (k * one) hden
    rw [maxGap]
    omega
  · rw [roundUnits_roundDiv_of_wide (Nat.dvd_of_mod_eq_zero h.1) hk hwide]
    exact ⟨h, hk⟩

end Binary64

end JsonPath
