import Mathlib.Data.Prod.Lex
import Mathlib.Order.Compare
import Mathlib.Tactic.Ring
import JsonPath.Binary64.Arithmetic

/-!
# Rounding Keeps the Order

A quotient of units is rounded to a multiple of the spacing around it, and the spacing grows
with the quotient. Where it changes, a power of two lies between the two quotients, and that
power is a multiple of both spacings: the smaller quotient is rounded to no more than it, the
larger one to no less (`roundUnits_mono`). A number that is rounded up to the next power of two
comes to lie where the spacing is wider, and is a multiple of that spacing as well
(`spacing_dvd_roundUnits`), so the outcome is always a double or beyond them all.

The doubles are compared by their `rank`: a number of units between the two infinities, and
above these what is not a number. The order of the ranks is linear, so a comparison of doubles
is a comparison in a linear order (`compare?_eq_some`).

## Main definitions

* `Binary64.rank`: where a double stands among all doubles.

## Main results

* `roundUnits_mono`: **rounding keeps the order**.
* `rank_ofRatio_mono`: the doubles nearest to numbers stand in the order of the numbers.
* `compare?_eq_some`: comparing doubles is comparing their ranks.
-/

namespace JsonPath.Binary64

/-! ### Quotients -/

/-- A greater number has no smaller rounded quotient. -/
theorem roundDiv_mono {m n : Nat} (den : Nat) (h : m ≤ n) :
    roundDiv m den ≤ roundDiv n den := by
  have hle : m / den ≤ n / den := Nat.div_le_div_right h
  have hm := Nat.div_add_mod m den
  have hn := Nat.div_add_mod n den
  have hparity := Nat.mod_lt (m / den) Nat.two_pos
  rcases hle.lt_or_eq with hlt | heq
  · have hup : roundDiv m den ≤ m / den + 1 := by
      simp only [roundDiv]
      split_ifs <;> omega
    have hdown : n / den ≤ roundDiv n den := by
      simp only [roundDiv]
      split_ifs <;> omega
    omega
  · rw [heq] at hm
    simp only [roundDiv, heq]
    split_ifs <;> omega

/-- A quotient without remainder is not rounded. -/
theorem roundDiv_mul (n : Nat) {den : Nat} (hden : 0 < den) : roundDiv (n * den) den = n := by
  simp [roundDiv, hden, Nat.mul_div_cancel n hden]

/-- A rounded quotient stays at or below a whole number that the quotient does not pass. -/
theorem roundDiv_le {m n den : Nat} (hden : 0 < den) (h : m ≤ n * den) : roundDiv m den ≤ n :=
  (roundDiv_mono den h).trans_eq (roundDiv_mul n hden)

/-- A rounded quotient stays at or above a whole number that the quotient reaches. -/
theorem le_roundDiv {m n den : Nat} (hden : 0 < den) (h : n * den ≤ m) : n ≤ roundDiv m den :=
  (roundDiv_mul n hden).symm.trans_le (roundDiv_mono den h)

/-! ### Spacings -/

/-- Neighbouring doubles are apart. -/
theorem spacing_pos (n : Nat) : 0 < spacing n :=
  Nat.pow_pos Nat.two_pos

/-- Greater numbers have no smaller gaps. -/
theorem gap_mono {m n : Nat} (h : m ≤ n) : gap m ≤ gap n := by
  rcases Nat.eq_zero_or_pos m with rfl | hm
  · simp [gap]
  · have hlog : m.log2 ≤ n.log2 :=
      (Nat.le_log2 (by omega)).2 ((Nat.log2_self_le (by omega)).trans h)
    rw [gap, gap]
    omega

/-- A smaller gap's spacing divides that of a greater one. -/
theorem spacing_dvd {m n : Nat} (h : gap m ≤ gap n) : spacing m ∣ spacing n :=
  Nat.pow_dvd_pow 2 h

/-- A number has at most 53 binary digits before its spacing. -/
theorem lt_mul_spacing (n : Nat) : n < 2 ^ 53 * spacing n := by
  have hlt : n < 2 ^ (n.log2 + 1) := Nat.lt_log2_self
  have hle : n.log2 + 1 ≤ 53 + gap n := by
    rw [gap]
    omega
  calc n < 2 ^ (n.log2 + 1) := hlt
    _ ≤ 2 ^ (53 + gap n) := Nat.pow_le_pow_right Nat.two_pos hle
    _ = 2 ^ 53 * spacing n := Nat.pow_add 2 53 (gap n)

/-- A number with a wide spacing has 53 binary digits before it. -/
theorem mul_spacing_le {n : Nat} (h : 0 < gap n) : 2 ^ 52 * spacing n ≤ n := by
  have hlog : 52 + gap n = n.log2 := by
    rw [gap] at h ⊢
    omega
  have hne : n ≠ 0 := by
    rintro rfl
    exact absurd h (by decide)
  calc 2 ^ 52 * spacing n = 2 ^ (52 + gap n) := (Nat.pow_add 2 52 (gap n)).symm
    _ = 2 ^ n.log2 := by rw [hlog]
    _ ≤ n := Nat.log2_self_le hne

/-- What is below a power of two has a spacing that is narrow enough. -/
theorem gap_le_of_lt {n g : Nat} (h : n < 2 ^ (53 + g)) : gap n ≤ g := by
  rcases Nat.eq_zero_or_pos n with rfl | hn
  · simp [gap]
  · have hlog := (Nat.log2_lt (by omega)).2 h
    rw [gap]
    omega

/-! ### Rounding to a spacing -/

/-- **Rounding keeps the order.** Where the digits of the larger quotient begin further up, the
power of two at which they begin separates the two. -/
theorem roundUnits_mono {m n den : Nat} (hden : 0 < den) (h : m ≤ n) :
    roundUnits m den ≤ roundUnits n den := by
  have hle : m / den ≤ n / den := Nat.div_le_div_right h
  simp only [roundUnits]
  rcases (gap_mono hle).lt_or_eq with hlt | heq
  · have hsmall := lt_mul_spacing (m / den)
    have hlarge := mul_spacing_le (Nat.zero_lt_of_lt hlt)
    obtain ⟨c, hc⟩ : spacing (m / den) * 2 ∣ spacing (n / den) :=
      Nat.pow_dvd_pow 2 (Nat.succ_le_of_lt hlt)
    have hmpos : 0 < den * spacing (m / den) := Nat.mul_pos hden (spacing_pos _)
    have hnpos : 0 < den * spacing (n / den) := Nat.mul_pos hden (spacing_pos _)
    have hcpos : 0 < c := by
      refine Nat.pos_of_ne_zero ?_
      rintro rfl
      exact absurd hc (spacing_pos (n / den)).ne'
    have hm : m ≤ 2 ^ 53 * c * (den * spacing (m / den)) := by
      have hm' : m < 2 ^ 53 * spacing (m / den) * den := (Nat.div_lt_iff_lt_mul hden).1 hsmall
      calc m ≤ 2 ^ 53 * spacing (m / den) * den := hm'.le
        _ = 2 ^ 53 * 1 * (den * spacing (m / den)) := by ring
        _ ≤ 2 ^ 53 * c * (den * spacing (m / den)) :=
          Nat.mul_le_mul_right _ (Nat.mul_le_mul_left _ hcpos)
    have hn : 2 ^ 52 * (den * spacing (n / den)) ≤ n := by
      have hn' : 2 ^ 52 * spacing (n / den) * den ≤ n := (Nat.le_div_iff_mul_le hden).1 hlarge
      calc 2 ^ 52 * (den * spacing (n / den)) = 2 ^ 52 * spacing (n / den) * den := by ring
        _ ≤ n := hn'
    calc roundDiv m (den * spacing (m / den)) * spacing (m / den)
        ≤ 2 ^ 53 * c * spacing (m / den) := Nat.mul_le_mul_right _ (roundDiv_le hmpos hm)
      _ = 2 ^ 52 * spacing (n / den) := by rw [hc]; ring
      _ ≤ roundDiv n (den * spacing (n / den)) * spacing (n / den) :=
        Nat.mul_le_mul_right _ (le_roundDiv hnpos hn)
  · have hspacing : spacing (m / den) = spacing (n / den) := congrArg (Nat.pow 2) heq
    rw [hspacing]
    exact Nat.mul_le_mul_right _ (roundDiv_mono _ h)

/-- What is rounded to a spacing has at most 53 binary digits before it, or is the next power of
two. -/
theorem roundUnits_le {num den : Nat} (hden : 0 < den) :
    roundUnits num den ≤ 2 ^ 53 * spacing (num / den) := by
  have hlt : num < 2 ^ 53 * spacing (num / den) * den :=
    (Nat.div_lt_iff_lt_mul hden).1 (lt_mul_spacing (num / den))
  refine Nat.mul_le_mul_right _ (roundDiv_le (Nat.mul_pos hden (spacing_pos _)) ?_)
  calc num ≤ 2 ^ 53 * spacing (num / den) * den := hlt.le
    _ = 2 ^ 53 * (den * spacing (num / den)) := by ring

/-- What is rounded is a multiple of the spacing where it comes to lie. -/
theorem spacing_dvd_roundUnits {num den : Nat} (hden : 0 < den) :
    spacing (roundUnits num den) ∣ roundUnits num den := by
  have hle : roundUnits num den ≤ 2 ^ 53 * spacing (num / den) := roundUnits_le hden
  have hpow : 2 ^ 53 * spacing (num / den) = 2 ^ (53 + gap (num / den)) :=
    (Nat.pow_add 2 53 (gap (num / den))).symm
  rw [hpow] at hle
  rcases hle.lt_or_eq with hlt | heq
  · exact (spacing_dvd (gap_le_of_lt hlt)).trans (Nat.dvd_mul_left _ _)
  · rw [heq, spacing]
    refine Nat.pow_dvd_pow 2 ?_
    rw [gap, Nat.log2_two_pow]
    exact Nat.sub_le _ _

/-! ### The ranks of doubles -/

/-- Where a double stands: between the infinities by its number of units, and above both of them
if it is not a number. -/
def rank : Binary64 → Int ×ₗ Int
  | .nan => toLex (2, 0)
  | .infinite negative => toLex (cond negative (-1) 1, 0)
  | .finite negative units _ => toLex (0, signed negative units)

/-- Of pairs that agree in front, what stands behind decides. -/
theorem compare_toLex (k a b : Int) : compare (toLex (k, a)) (toLex (k, b)) = compare a b := by
  rcases lt_trichotomy a b with h | rfl | h
  · rw [compare_lt_iff_lt.2 h, compare_lt_iff_lt]
    exact Prod.Lex.toLex_lt_toLex.2 (.inr ⟨rfl, h⟩)
  · rw [compare_eq_iff_eq.2 (rfl : toLex (k, a) = toLex (k, a)), compare_eq_iff_eq.2 rfl]
  · rw [compare_gt_iff_gt.2 h, compare_gt_iff_gt]
    exact Prod.Lex.toLex_lt_toLex.2 (.inr ⟨rfl, h⟩)

/-- Comparing doubles is comparing their ranks. -/
theorem compare?_eq_some {x y : Binary64} (hx : x ≠ .nan) (hy : y ≠ .nan) :
    compare? x y = some (compare x.rank y.rank) := by
  cases x with
  | nan => exact absurd rfl hx
  | infinite a =>
      cases y with
      | nan => exact absurd rfl hy
      | infinite b => cases a <;> cases b <;> rfl
      | finite b n hn => cases a <;> rfl
  | finite a m hm =>
      cases y with
      | nan => exact absurd rfl hy
      | infinite b => cases b <;> rfl
      | finite b n hn => rw [compare?, rank, rank, compare_toLex]

/-- There is no comparing with what is not a number. -/
theorem compare?_eq_none_iff {x y : Binary64} : compare? x y = none ↔ x = .nan ∨ y = .nan := by
  constructor
  · intro h
    by_contra hne
    obtain ⟨hx, hy⟩ := not_or.1 hne
    rw [compare?_eq_some hx hy] at h
    cases h
  · rintro (rfl | rfl)
    · rfl
    · cases x <;> rfl

/-- Numbers are ordered as their ranks are. -/
theorem le_iff_rank_le {x y : Binary64} (hx : x ≠ .nan) (hy : y ≠ .nan) :
    x.le y = true ↔ x.rank ≤ y.rank := by
  rw [le, compare?_eq_some hx hy, ← compare_le_iff_le]
  cases compare x.rank y.rank <;> decide

/-- Of two multiples of their spacings the larger one stands no lower. -/
theorem rank_ofUnits_mono {m n : Nat} (hm : spacing m ∣ m) (h : m ≤ n) :
    (ofUnits false m).rank ≤ (ofUnits false n).rank := by
  by_cases hn : Representable n
  · have hrepresentable : Representable m :=
      ⟨Nat.mod_eq_zero_of_dvd hm, (gap_mono h).trans hn.2⟩
    rw [ofUnits, ofUnits, dif_pos hrepresentable, dif_pos hn]
    exact Prod.Lex.toLex_le_toLex.2 (.inr ⟨rfl, Int.ofNat_le.2 h⟩)
  · rw [ofUnits, ofUnits, dif_neg hn]
    split
    · exact Prod.Lex.toLex_le_toLex.2 (.inl Int.zero_lt_one)
    · exact le_refl _

/-- **The doubles nearest to numbers stand in the order of the numbers.** -/
theorem rank_ofRatio_mono {m n den : Nat} (hden : 0 < den) (h : m ≤ n) :
    (ofRatio false m den).rank ≤ (ofRatio false n den).rank :=
  rank_ofUnits_mono (spacing_dvd_roundUnits hden) (roundUnits_mono hden h)

end JsonPath.Binary64
