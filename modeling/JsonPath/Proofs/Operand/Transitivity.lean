import JsonPath.Proofs.Operand.Mirroring

/-!
# Where the Order of Operands is Transitive

The rule under which two operands are compared is chosen for each pair. Two numbers compare as
numbers, but a number and a text that is none compare as texts, and so three operands can form
a circle: `10` is below `1a` and `1a` is below `9` as texts, and `9` is below `10` as a number
(`Operand.compare_cycle`). This takes two numbers and a text that is none, all of them neither
absent nor bytes (`Operand.Mixed`).

All other operands are not mixed, and on them to be below is transitive. Three operands of one
tier are then compared under one rule (`Operand.numbers_or_oneRule`), either as numbers or under
a rule that is transitive by itself. Numbers need an argument, since two integers compare
exactly and other numbers as doubles within a tolerance: the doubles of integers stand in the
order of the integers, and a double that is below another one stays below it if the two are
moved apart. That two operands are equal is not transitive even then, because of the tolerance,
and this is all that can go wrong with being below or equal.

## Main definitions

* `Operand.Mixed`: two numbers and a text that is none.

## Main results

* `Operand.compare_lt_trans`: to be below is transitive, except for mixed operands.
* `Operand.compare_trans_of_not_mixed`: **where the order is transitive**.
* `Operand.not_forall_compare_trans`: operands can form a circle.
-/

namespace JsonPath

namespace Operand

/-- Whether an operand is a number or a text that is a numeral. -/
def isNumber (v : Operand) : Bool :=
  v.number?.isSome

/-- Three operands that are neither absent nor bytes, two of them numbers and one a text that is
none. -/
def Mixed (u v w : Operand) : Prop :=
  u.tier = 1 ∧ v.tier = 1 ∧ w.tier = 1 ∧ [u, v, w].countP isNumber = 2

instance (u v w : Operand) : Decidable (Mixed u v w) :=
  inferInstanceAs (Decidable (_ ∧ _ ∧ _ ∧ _))

variable {u v w : Operand}

/-- It does not matter in which order the operands are listed. -/
theorem Mixed.rotate (h : Mixed u v w) : Mixed v w u := by
  obtain ⟨hu, hv, hw, hcount⟩ := h
  refine ⟨hv, hw, hu, ?_⟩
  simp only [List.countP_cons, List.countP_nil] at hcount ⊢
  omega

/-- A value that does not compare greater is of no higher tier. -/
theorem tier_le_of_compare_ne_gt (h : v.compare w ≠ .gt) : v.tier ≤ w.tier := by
  by_contra hlt
  exact h (compare_of_tier_gt (Nat.lt_of_not_le hlt))

/-- A value is less than another exactly if the other is greater. -/
theorem compare_eq_lt_iff_gt : v.compare w = .lt ↔ w.compare v = .gt := by
  rw [← compare_swap v w]
  cases v.compare w <;> decide

/-! ### Numbers -/

section Numbers

variable {x y z : Binary64}

/-- Values with numbers compare as doubles, unless both are unsigned integers. -/
theorem compare_of_numbers (hx : v.number? = some x) (hy : w.number? = some y)
    (h : v.kind ≠ .unsigned ∨ w.kind ≠ .unsigned) : v.compare w = compareDoubles x y := by
  have tier_eq_one {v : Operand} {x : Binary64} (hx : v.number? = some x) : v.tier = 1 := by
    cases v <;> first | rfl | cases hx
  rw [compare_eq_compareBetween (tier_eq_one hx) (tier_eq_one hy) h, compareBetween, hx, hy]

/-- The doubles of integers stand in the order of the integers. -/
theorem rank_number_mono {m n : UInt64} (h : m.toNat ≤ n.toNat)
    (hx : (unsigned m).number? = some x) (hy : (unsigned n).number? = some y) :
    x.rank ≤ y.rank := by
  obtain rfl := Option.some.inj hx
  obtain rfl := Option.some.inj hy
  exact Binary64.rank_ofRatio_mono Nat.one_pos (Nat.mul_le_mul_right _ h)

/-- A value of the unsigned kind holds an unsigned integer. -/
theorem exists_eq_unsigned (h : v.kind = .unsigned) : ∃ n, v = unsigned n := by
  cases v with
  | unsigned n => exact ⟨n, rfl⟩
  | _ => cases h

/-- Unsigned integers compare as natural numbers. -/
theorem compare_unsigned_eq_lt_iff {m n : UInt64} :
    (unsigned m).compare (unsigned n) = .lt ↔ m.toNat < n.toNat :=
  Nat.compare_eq_lt

/-- The double of a number that is below another one does not stand above its double. -/
theorem rank_le_of_compare_lt (hx : v.number? = some x) (hy : w.number? = some y)
    (h : v.compare w = .lt) : x.rank ≤ y.rank := by
  by_cases hint : v.kind = .unsigned ∧ w.kind = .unsigned
  · obtain ⟨m, rfl⟩ := exists_eq_unsigned hint.1
    obtain ⟨n, rfl⟩ := exists_eq_unsigned hint.2
    exact rank_number_mono (compare_unsigned_eq_lt_iff.1 h).le hx hy
  · rw [compare_of_numbers hx hy (not_and_or.1 hint)] at h
    exact (compareDoubles_eq_lt_iff.1 h).2.le

/-- **To be below is transitive for numbers**, for integers and doubles alike. A double that is
between two integers keeps their doubles apart. -/
theorem compare_lt_trans_of_numbers (hx : u.number? = some x) (hy : v.number? = some y)
    (hz : w.number? = some z) (huv : u.compare v = .lt) (hvw : v.compare w = .lt) :
    u.compare w = .lt := by
  by_cases houter : u.kind = .unsigned ∧ w.kind = .unsigned
  · obtain ⟨m, rfl⟩ := exists_eq_unsigned houter.1
    obtain ⟨k, rfl⟩ := exists_eq_unsigned houter.2
    rw [compare_unsigned_eq_lt_iff]
    by_cases hv : v.kind = .unsigned
    · obtain ⟨n, rfl⟩ := exists_eq_unsigned hv
      exact (compare_unsigned_eq_lt_iff.1 huv).trans (compare_unsigned_eq_lt_iff.1 hvw)
    · rw [compare_of_numbers hx hy (.inr hv)] at huv
      rw [compare_of_numbers hy hz (.inl hv)] at hvw
      have hlt := (compareDoubles_eq_lt_iff.1 (compareDoubles_trans huv hvw)).2
      by_contra hle
      exact absurd (rank_number_mono (Nat.le_of_not_lt hle) hz hx) (not_le.2 hlt)
  · rw [compare_of_numbers hx hz (not_and_or.1 houter)]
    by_cases hfirst : u.kind = .unsigned ∧ v.kind = .unsigned
    · have hw : w.kind ≠ .unsigned := fun hw => houter ⟨hfirst.1, hw⟩
      rw [compare_of_numbers hy hz (.inr hw)] at hvw
      exact compareDoubles_lt_of_le_of_lt (rank_le_of_compare_lt hx hy huv) hvw
    · rw [compare_of_numbers hx hy (not_and_or.1 hfirst)] at huv
      exact compareDoubles_lt_of_lt_of_le huv (rank_le_of_compare_lt hy hz hvw)

end Numbers

/-! ### Other operands -/

/-- The three operands are compared under one rule, and it is transitive. -/
def UnderOneRule (u v w : Operand) : Prop :=
  ∃ (α : Type) (cmp : α → α → Ordering) (a b c : α), Std.TransCmp cmp ∧
    u.compare v = cmp a b ∧ v.compare w = cmp b c ∧ u.compare w = cmp a c

/-- Where one of two values has no number, they compare as texts. -/
theorem compare_eq_compareTexts (hv : v.tier = 1) (hw : w.tier = 1)
    (h : v.isNumber = false ∨ w.isNumber = false) :
    v.compare w = compareTexts v.display w.display := by
  have hkind : v.kind ≠ .unsigned ∨ w.kind ≠ .unsigned := by
    refine h.imp ?_ ?_ <;>
    · intro hnumber hkind
      obtain ⟨n, rfl⟩ := exists_eq_unsigned hkind
      cases hnumber
  rw [compare_eq_compareBetween hv hw hkind, compareBetween]
  split
  · next x y hx hy =>
      rw [isNumber, isNumber, hx, hy] at h
      rcases h with h | h <;> cases h
  · rfl

/-- **Operands of one tier that are not mixed** are all numbers, or are compared under one
rule. -/
theorem numbers_or_oneRule (h : ¬ Mixed u v w) (huv : u.tier = v.tier) (hvw : v.tier = w.tier) :
    (u.isNumber = true ∧ v.isNumber = true ∧ w.isNumber = true) ∨ UnderOneRule u v w := by
  have eq_absent {v : Operand} (hv : 0 = v.tier) : v = absent := by
    cases v <;> first | rfl | cases hv
  have exists_eq_bytes {v : Operand} (hv : 2 = v.tier) : ∃ s, v = bytes s := by
    cases v <;> first | exact ⟨_, rfl⟩ | cases hv
  by_cases htier : u.tier = 1
  · have hv : v.tier = 1 := huv ▸ htier
    have hw : w.tier = 1 := hvw ▸ hv
    have hcount : [u, v, w].countP isNumber ≠ 2 := fun hcount => h ⟨htier, hv, hw, hcount⟩
    by_cases hall : u.isNumber = true ∧ v.isNumber = true ∧ w.isNumber = true
    · exact .inl hall
    · have hpairs : (u.isNumber = false ∨ v.isNumber = false) ∧
          (v.isNumber = false ∨ w.isNumber = false) ∧
          (u.isNumber = false ∨ w.isNumber = false) := by
        simp only [List.countP_cons, List.countP_nil] at hcount
        cases hu : u.isNumber <;> cases hv : v.isNumber <;> cases hw : w.isNumber <;>
          simp [hu, hv, hw] at hcount hall ⊢
      exact .inr ⟨_, compareTexts, u.display, v.display, w.display, inferInstance,
        compare_eq_compareTexts htier hv hpairs.1, compare_eq_compareTexts hv hw hpairs.2.1,
        compare_eq_compareTexts htier hw hpairs.2.2⟩
  · cases u with
    | absent =>
        obtain rfl := eq_absent huv
        obtain rfl := eq_absent hvw
        exact .inr ⟨_, compareTexts, [], [], [], inferInstance, rfl, rfl, rfl⟩
    | bytes s =>
        obtain ⟨t, rfl⟩ := exists_eq_bytes huv
        obtain ⟨r, rfl⟩ := exists_eq_bytes hvw
        exact .inr ⟨_, compareBytes, s, t, r, inferInstance, rfl, rfl, rfl⟩
    | _ => exact absurd rfl htier

/-! ### The order of operands -/

/-- **To be below is transitive**, except for mixed operands. -/
theorem compare_lt_trans (h : ¬ Mixed u v w) (huv : u.compare v = .lt) (hvw : v.compare w = .lt) :
    u.compare w = .lt := by
  have hle : u.tier ≤ v.tier := tier_le_of_compare_ne_gt (by rw [huv]; decide)
  have hle' : v.tier ≤ w.tier := tier_le_of_compare_ne_gt (by rw [hvw]; decide)
  rcases (hle.trans hle').lt_or_eq with hlt | heq
  · exact compare_of_tier_lt hlt
  rcases numbers_or_oneRule h (by omega) (by omega) with
    ⟨hu, hv, hw⟩ | ⟨α, cmp, a, b, c, htrans, hab, hbc, hac⟩
  · obtain ⟨x, hx⟩ := Option.isSome_iff_exists.1 hu
    obtain ⟨y, hy⟩ := Option.isSome_iff_exists.1 hv
    obtain ⟨z, hz⟩ := Option.isSome_iff_exists.1 hw
    exact compare_lt_trans_of_numbers hx hy hz huv hvw
  · rw [hab] at huv
    rw [hbc] at hvw
    rw [hac]
    exact Std.TransCmp.lt_trans huv hvw

/-- If being below or equal is not transitive, both pairs of neighbours are equal. -/
theorem compare_eq_of_not_trans (h : ¬ Mixed u v w) (huv : u.compare v ≠ .gt)
    (hvw : v.compare w ≠ .gt) (huw : u.compare w = .gt) :
    u.compare v = .eq ∧ v.compare w = .eq := by
  have hwu : w.compare u = .lt := compare_eq_lt_iff_gt.2 huw
  constructor
  · by_contra hne
    have hlt : u.compare v = .lt := by
      cases huv' : u.compare v with
      | lt => rfl
      | eq => exact absurd huv' hne
      | gt => exact absurd huv' huv
    have hcircle := compare_lt_trans (fun hmixed => h hmixed.rotate) hwu hlt
    exact hvw (compare_eq_lt_iff_gt.1 hcircle)
  · by_contra hne
    have hlt : v.compare w = .lt := by
      cases hvw' : v.compare w with
      | lt => rfl
      | eq => exact absurd hvw' hne
      | gt => exact absurd hvw' hvw
    have hcircle := compare_lt_trans (fun hmixed => h hmixed.rotate.rotate) hlt hwu
    exact huv (compare_eq_lt_iff_gt.1 hcircle)

/-- **Where the order of operands is transitive.** For operands that are not mixed, to be below
is transitive, so no three of them form a circle. To be below or equal is transitive as well,
unless all three are numbers and the one in the middle counts as equal to the others. -/
theorem compare_trans_of_not_mixed (h : ¬ Mixed u v w) :
    (u.compare v = .lt → v.compare w = .lt → u.compare w = .lt) ∧
      (u.compare v ≠ .gt → v.compare w ≠ .gt → u.compare w ≠ .gt ∨
        (u.isNumber = true ∧ v.isNumber = true ∧ w.isNumber = true ∧
          u.compare v = .eq ∧ v.compare w = .eq)) := by
  refine ⟨compare_lt_trans h, fun huv hvw => ?_⟩
  by_cases huw : u.compare w = .gt
  · obtain ⟨heq, heq'⟩ := compare_eq_of_not_trans h huv hvw huw
    have hle := tier_le_of_compare_ne_gt huv
    have hle' := tier_le_of_compare_ne_gt hvw
    have hge : w.tier ≤ u.tier :=
      tier_le_of_compare_ne_gt (by rw [compare_eq_lt_iff_gt.2 huw]; decide)
    rcases numbers_or_oneRule h (by omega) (by omega) with
      ⟨hu, hv, hw⟩ | ⟨α, cmp, a, b, c, htrans, hab, hbc, hac⟩
    · exact .inr ⟨hu, hv, hw, heq, heq'⟩
    · rw [hab] at heq
      rw [hbc] at heq'
      rw [hac, Std.TransCmp.eq_trans heq heq'] at huw
      cases huw
  · exact .inl huw

/-- An integer, a text that is a numeral, and a double. -/
theorem compare_trans_of_not_mixed_numbers :
    ¬ Mixed (unsigned 9) (text "9.5") (double (.ofNat 10)) ∧
      (unsigned 9).compare (text "9.5") = .lt ∧ (text "9.5").compare (double (.ofNat 10)) = .lt ∧
      (unsigned 9).compare (double (.ofNat 10)) = .lt := by
  have hmixed : ¬ Mixed (unsigned 9) (text "9.5") (double (.ofNat 10)) := by decide +kernel
  have hfirst : (unsigned 9).compare (text "9.5") = .lt := by decide +kernel
  have hsecond : (text "9.5").compare (double (.ofNat 10)) = .lt := by decide +kernel
  exact ⟨hmixed, hfirst, hsecond, (compare_trans_of_not_mixed hmixed).1 hfirst hsecond⟩

/-- Numbers that count as equal: 0.0000018 and 0.0000009, then 0.0000009 and 0. -/
example : (text "0.0000018").compare (text "0.0000009") = .eq ∧
    (text "0.0000009").compare (text "0") = .eq ∧
    (text "0.0000018").compare (text "0") = .gt := by
  decide +kernel

/-- Two numerals and a text that is none form a circle. -/
theorem compare_cycle : (text "10").compare (text "1a") = .lt ∧
    (text "1a").compare (text "9") = .lt ∧ (text "9").compare (text "10") = .lt := by
  decide +kernel

/-- **Operands can form a circle**, so the order is not transitive. -/
theorem not_forall_compare_trans :
    (∃ u v w : Operand, u.compare v = .lt ∧ v.compare w = .lt ∧ w.compare u = .lt) ∧
      ¬ ∀ u v w : Operand, u.compare v ≠ .gt → v.compare w ≠ .gt → u.compare w ≠ .gt := by
  obtain ⟨hfirst, hsecond, hthird⟩ := compare_cycle
  refine ⟨⟨_, _, _, hfirst, hsecond, hthird⟩, fun h => ?_⟩
  refine h (text "10") (text "1a") (text "9") ?_ ?_ (compare_eq_lt_iff_gt.1 hthird)
  · rw [hfirst]
    decide
  · rw [hsecond]
    decide

end Operand

end JsonPath
