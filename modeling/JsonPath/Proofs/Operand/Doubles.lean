import JsonPath.Operand.Order
import JsonPath.Proofs.Binary64.Rounding

/-!
# Comparing Doubles within a Tolerance

Doubles compare by their ranks, except that two of them count as equal if their difference,
which is rounded, is not above the tolerance (`compareDoubles_eq`). The difference does not
depend on the order of the two but for its sign, so the comparison can be read backwards. Being
nearly equal is not transitive. What rests of it is that a double between two others which are
nearly equal is nearly equal to both (`nearlyEqual_of_between`), because rounding keeps the order
of the differences. Hence to be below is transitive, although to be below or nearly equal is not.

## Main results

* `compareDoubles_eq`: the order of doubles, by ranks and nearness.
* `compareDoubles_swap`, `compareDoubles_self`: it can be read backwards, and a double is equal
  to itself.
* `compareDoubles_trans`: **to be below is transitive** for doubles.
-/

namespace JsonPath

open Binary64 hiding abs

namespace Binary64

/-- Rounding a ratio gives a number. -/
theorem ofRatio_ne_nan (negative : Bool) (num den : Nat) : ofRatio negative num den ≠ .nan := by
  rw [ofRatio, ofUnits]
  split <;> exact fun h => by cases h

/-- The size of a whole number of units. -/
theorem abs_ofInt (zeroNegative : Bool) (k : Int) :
    (ofInt zeroNegative k).abs = ofRatio false k.natAbs 1 := by
  rw [ofInt]
  split
  · next hk =>
      subst hk
      rfl
  · rw [ofRatio, ofRatio, ofUnits, ofUnits]
    split <;> rfl

/-- The other sign makes the number its negative. -/
theorem signed_not (negative : Bool) (units : Nat) :
    signed (!negative) units = -signed negative units := by
  cases negative
  · rfl
  · exact (Int.neg_neg _).symm

/-- The size of the difference of two finite doubles. -/
theorem abs_sub_finite {a b : Bool} {m n : Nat} (hm : Representable m) (hn : Representable n) :
    ((finite a m hm).sub (finite b n hn)).abs =
      ofRatio false (signed a m - signed b n).natAbs 1 := by
  rw [sub, neg, add, abs_ofInt, signed_not, Int.sub_eq_add_neg]

end Binary64

/-! ### Doubles that count as equal -/

/-- The tolerance is a number. -/
theorem tolerance_ne_nan : tolerance ≠ .nan := by
  decide +kernel

/-- An infinite distance is above the tolerance. -/
theorem infinite_le_tolerance : (infinite false).le tolerance = false := by
  decide +kernel

/-- What is not a number is not within the tolerance. -/
theorem nan_le_tolerance : nan.le tolerance = false :=
  rfl

/-- Only finite doubles are nearly equal. -/
theorem isFinite_of_nearlyEqual {x y : Binary64} (h : nearlyEqual x y = true) :
    x.isFinite = true ∧ y.isFinite = true := by
  rw [nearlyEqual] at h
  have hfinite : (x.sub y).isFinite = true := by
    cases hsub : x.sub y with
    | finite negative units hunits => rfl
    | nan =>
        rw [hsub, Binary64.abs, nan_le_tolerance] at h
        cases h
    | infinite negative =>
        rw [hsub, Binary64.abs, infinite_le_tolerance] at h
        cases h
  cases x with
  | nan => cases hfinite
  | infinite a =>
      cases y with
      | nan => cases hfinite
      | finite b n hn => cases hfinite
      | infinite b => cases a <;> cases b <;> cases hfinite
  | finite a m hm =>
      cases y with
      | finite b n hn => exact ⟨rfl, rfl⟩
      | nan => cases hfinite
      | infinite b => cases hfinite

/-- Finite doubles are nearly equal exactly if their rounded distance is within the tolerance. -/
theorem nearlyEqual_finite {a b : Bool} {m n : Nat} (hm : Representable m)
    (hn : Representable n) : nearlyEqual (.finite a m hm) (.finite b n hn) =
      (ofRatio false (signed a m - signed b n).natAbs 1).le tolerance := by
  rw [nearlyEqual, abs_sub_finite]

/-- Near equality goes both ways. -/
theorem nearlyEqual_comm (x y : Binary64) : nearlyEqual x y = nearlyEqual y x := by
  have of_true {x y : Binary64} (h : nearlyEqual x y = true) : nearlyEqual y x = true := by
    obtain ⟨hx, hy⟩ := isFinite_of_nearlyEqual h
    cases x with
    | finite a m hm =>
        cases y with
        | finite b n hn =>
            rw [nearlyEqual_finite] at h ⊢
            rwa [← Int.natAbs_neg, Int.neg_sub]
        | _ => cases hy
    | _ => cases hx
  exact Bool.eq_iff_iff.2 ⟨of_true, of_true⟩

/-- A smaller distance is no more above the tolerance than a larger one. -/
theorem le_tolerance_of_le {m n : Nat} (h : m ≤ n)
    (hn : (ofRatio false n 1).le tolerance = true) : (ofRatio false m 1).le tolerance = true := by
  rw [le_iff_rank_le (ofRatio_ne_nan _ _ _) tolerance_ne_nan] at hn ⊢
  exact (rank_ofRatio_mono Nat.one_pos h).trans hn

/-- **What lies between doubles that are nearly equal** is nearly equal to both. -/
theorem nearlyEqual_of_between {x y z : Binary64} (hxy : x.rank ≤ y.rank) (hyz : y.rank ≤ z.rank)
    (h : nearlyEqual x z = true) : nearlyEqual x y = true ∧ nearlyEqual y z = true := by
  obtain ⟨hx, hz⟩ := isFinite_of_nearlyEqual h
  cases x with
  | finite a m hm =>
      cases z with
      | finite c n hn =>
          cases y with
          | finite b k hk =>
              have hab : signed a m ≤ signed b k := by
                simpa [rank, Prod.Lex.toLex_le_toLex] using hxy
              have hbc : signed b k ≤ signed c n := by
                simpa [rank, Prod.Lex.toLex_le_toLex] using hyz
              rw [nearlyEqual_finite] at h
              rw [nearlyEqual_finite, nearlyEqual_finite]
              exact ⟨le_tolerance_of_le (by omega) h, le_tolerance_of_le (by omega) h⟩
          | nan => simp [rank, Prod.Lex.toLex_le_toLex] at hyz
          | infinite b => cases b <;> simp [rank, Prod.Lex.toLex_le_toLex] at hxy hyz
      | _ => cases hz
  | _ => cases hx

/-! ### The order of doubles -/

/-- **The order of doubles**: that of their ranks, unless they are nearly equal. -/
theorem compareDoubles_eq (x y : Binary64) :
    compareDoubles x y = if nearlyEqual x y then .eq else Ord.compare x.rank y.rank := by
  rw [compareDoubles]
  split
  · rfl
  split
  · next o ho =>
      have hne : ¬ (x = .nan ∨ y = .nan) := fun h => by
        rw [compare?_eq_none_iff.2 h] at ho
        cases ho
      rw [compare?_eq_some (not_or.1 hne).1 (not_or.1 hne).2] at ho
      exact (Option.some.inj ho).symm
  · next hnone =>
      rcases compare?_eq_none_iff.1 hnone with rfl | rfl
      · cases y with
        | infinite b => cases b <;> rfl
        | _ => rfl
      · cases x with
        | infinite a => cases a <;> rfl
        | _ => rfl

/-- **The order of doubles can be read backwards.** -/
theorem compareDoubles_swap (x y : Binary64) : (compareDoubles x y).swap = compareDoubles y x := by
  rw [compareDoubles_eq, compareDoubles_eq, nearlyEqual_comm]
  split
  · rfl
  · rw [← cmp_eq_compare, ← cmp_eq_compare, cmp_swap]

/-- A double compares equal to itself. -/
theorem compareDoubles_self (x : Binary64) : compareDoubles x x = .eq := by
  rw [compareDoubles_eq]
  split
  · rfl
  · exact compare_eq_iff_eq.2 rfl

/-- A double compares less exactly if it is not nearly equal and comes first by rank. -/
theorem compareDoubles_eq_lt_iff {x y : Binary64} :
    compareDoubles x y = .lt ↔ nearlyEqual x y = false ∧ x.rank < y.rank := by
  rw [compareDoubles_eq]
  cases nearlyEqual x y with
  | true => simp
  | false => simp [compare_lt_iff_lt]

/-- What is below or at a double below another one is below that one. -/
theorem compareDoubles_lt_of_le_of_lt {x y z : Binary64} (hxy : x.rank ≤ y.rank)
    (hyz : compareDoubles y z = .lt) : compareDoubles x z = .lt := by
  rw [compareDoubles_eq_lt_iff] at hyz ⊢
  refine ⟨?_, hxy.trans_lt hyz.2⟩
  by_contra hnear
  have := (nearlyEqual_of_between hxy hyz.2.le (by simpa using hnear)).2
  exact absurd hyz.1 (by simp [this])

/-- What is above or at a double above another one is above that one. -/
theorem compareDoubles_lt_of_lt_of_le {x y z : Binary64} (hxy : compareDoubles x y = .lt)
    (hyz : y.rank ≤ z.rank) : compareDoubles x z = .lt := by
  rw [compareDoubles_eq_lt_iff] at hxy ⊢
  refine ⟨?_, hxy.2.trans_le hyz⟩
  by_contra hnear
  have := (nearlyEqual_of_between hxy.2.le hyz (by simpa using hnear)).1
  exact absurd hxy.1 (by simp [this])

/-- **To be below is transitive** for doubles. -/
theorem compareDoubles_trans {x y z : Binary64} (hxy : compareDoubles x y = .lt)
    (hyz : compareDoubles y z = .lt) : compareDoubles x z = .lt :=
  compareDoubles_lt_of_lt_of_le hxy (compareDoubles_eq_lt_iff.1 hyz).2.le

end JsonPath
