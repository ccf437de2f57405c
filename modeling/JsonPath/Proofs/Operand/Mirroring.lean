import JsonPath.Environment.Standard
import JsonPath.Filter.Predicate
import JsonPath.Proofs.Operand.Doubles

/-!
# The Order of Operands Read Backwards

Two operands can be compared under different rules: by their kinds, as integers, as doubles
within a tolerance, or as texts. Which rule it is does not depend on which of the two comes
first, and every rule can be read backwards, so the order of operands can be
(`Operand.compare_swap`). No value is at the bottom of it and bytes are at the top: an operand
has a *tier*, and the rules for numbers and texts apply to the tier between the two.

A filter only asks which of below, equal and above holds (`Filter.run_comparison`). Exactly one
of them does, and what is below on one side is above on the other.

## Main definitions

* `Operand.tier`: the bottom, the top and what is between.
* `Operand.compareBetween`: the rule for numbers and texts.
* `Operator.affirms`: whether a comparison comes out true.

## Main results

* `Operand.compare_swap`, `Operand.compare_self`: the order of operands, read backwards and on
  one operand.
* `Filter.run_comparison`: a comparison in a filter puts its truth value on the stack.
* `Operand.compare_mirrors`: **comparisons mirror each other**.
-/

namespace JsonPath

/-! ### Texts and bytes -/

/-- The order of sequences of numbers is that of lists. -/
theorem lexicographic_eq_compare (s t : List Nat) : lexicographic s t = Ord.compare s t := by
  induction s generalizing t with
  | nil => cases t <;> rfl
  | cons m s ih =>
      cases t with
      | nil => rfl
      | cons n t => rw [lexicographic, List.compare_cons_cons, ih]

/-- Texts compare by the codes of their characters. -/
theorem compareTexts_eq : compareTexts = compareOn (List.map Char.toNat) := by
  funext s t
  exact lexicographic_eq_compare _ _

/-- Bytes compare by length first and then byte by byte. -/
theorem compareBytes_eq :
    compareBytes = compareLex (compareOn List.length) (compareOn (List.map UInt8.toNat)) := by
  funext s t
  rw [compareBytes, lexicographic_eq_compare]
  rfl

instance : Std.TransCmp compareTexts :=
  compareTexts_eq ▸ inferInstance

instance : Std.TransCmp compareBytes :=
  compareBytes_eq ▸ inferInstance

namespace Operand

/-! ### Tiers -/

/-- Where an operand stands because of its kind: no value below all others, and bytes above. -/
def tier : Operand → Nat
  | .absent => 0
  | .bytes _ => 2
  | _ => 1

variable {v w : Operand}

/-- A value of a lower tier compares less. -/
theorem compare_of_tier_lt (h : v.tier < w.tier) : v.compare w = .lt := by
  cases v <;> cases w <;> first | rfl | simp [tier] at h

/-- A value of a higher tier compares greater. -/
theorem compare_of_tier_gt (h : w.tier < v.tier) : v.compare w = .gt := by
  cases v <;> cases w <;> first | rfl | simp [tier] at h

/-! ### Numbers and texts -/

/-- The order of numbers and texts: two that have numbers compare as doubles, others as texts. -/
def compareBetween (v w : Operand) : Ordering :=
  match v.number?, w.number? with
  | some x, some y => compareDoubles x y
  | _, _ => compareTexts v.display w.display

/-- Two integers are compared as such, and all other numbers and texts as `compareBetween`
says. -/
theorem compare_eq_compareBetween (hv : v.tier = 1) (hw : w.tier = 1)
    (h : v.kind ≠ .unsigned ∨ w.kind ≠ .unsigned) : v.compare w = v.compareBetween w := by
  cases v with
  | absent => cases hv
  | bytes s => cases hv
  | unsigned m =>
      cases w with
      | absent => cases hw
      | bytes t => cases hw
      | unsigned n => exact (h.elim (absurd rfl) (absurd rfl))
      | _ => rfl
  | _ =>
      cases w with
      | absent => cases hw
      | bytes t => cases hw
      | _ => rfl

/-- The order of numbers and texts is mirrored when they change sides. -/
theorem compareBetween_swap (v w : Operand) :
    (v.compareBetween w).swap = w.compareBetween v := by
  have htexts : (compareTexts v.display w.display).swap = compareTexts w.display v.display :=
    Std.OrientedCmp.eq_swap.symm
  rw [compareBetween, compareBetween]
  cases v.number? with
  | none => cases w.number? <;> exact htexts
  | some x =>
      cases w.number? with
      | none => exact htexts
      | some y => exact compareDoubles_swap x y

/-- A number or a text compares equal to itself. -/
theorem compareBetween_self (v : Operand) : v.compareBetween v = .eq := by
  rw [compareBetween]
  cases v.number? with
  | none => exact @Std.ReflCmp.compare_self _ compareTexts _ _
  | some x => exact compareDoubles_self x

/-! ### The order of operands -/

/-- Between numbers and texts a comparison is mirrored when they change sides. -/
theorem compare_swap_of_tier_eq_one (hv : v.tier = 1) (hw : w.tier = 1) :
    (v.compare w).swap = w.compare v := by
  by_cases h : v.kind = .unsigned ∧ w.kind = .unsigned
  · cases v with
    | unsigned m =>
        cases w with
        | unsigned n => exact Nat.compare_swap _ _
        | _ => cases h.2
    | _ => cases h.1
  · have hne := not_and_or.1 h
    rw [compare_eq_compareBetween hv hw hne, compare_eq_compareBetween hw hv hne.symm]
    exact compareBetween_swap v w

/-- **The order of operands can be read backwards.** -/
theorem compare_swap (v w : Operand) : (v.compare w).swap = w.compare v := by
  rcases lt_trichotomy v.tier w.tier with h | h | h
  · rw [compare_of_tier_lt h, compare_of_tier_gt h]
    rfl
  · cases v with
    | absent =>
        cases w with
        | absent => rfl
        | _ => cases h
    | bytes s =>
        cases w with
        | bytes t =>
            show (compareBytes s t).swap = compareBytes t s
            exact Std.OrientedCmp.eq_swap.symm
        | _ => cases h
    | _ => exact compare_swap_of_tier_eq_one rfl h.symm
  · rw [compare_of_tier_lt h, compare_of_tier_gt h]
    rfl

/-- An operand is equal to itself, also a double that is not a number. -/
theorem compare_self (v : Operand) : v.compare v = .eq := by
  cases v with
  | absent => rfl
  | bytes s => exact @Std.ReflCmp.compare_self _ compareBytes _ _
  | unsigned n => exact Nat.compare_eq_eq.2 rfl
  | double x => exact compareBetween_self (.double x)
  | text s => exact compareBetween_self (.text s)

end Operand

/-! ### Comparisons in filters -/

/-- The operators that ask for the order of their operands. -/
def Operator.comparisons : List Operator :=
  [.less, .lessEqual, .equal, .notEqual, .greaterEqual, .greater]

/-- Whether an operator between two operands comes out true. -/
def Operator.affirms (env : Environment) (op : Operator) (left right : Operand) : Bool :=
  match applyBinary env op left right with
  | some (.ok result) => result.isTruthy
  | _ => false

/-- A truth value counts as what it is. -/
theorem isTruthy_truth (b : Bool) : (truth b).isTruthy = b := by
  cases b <;> decide +kernel

/-- A comparison between two operands has the truth value of what it affirms. -/
theorem applyBinary_of_mem_comparisons {op : Operator} (h : op ∈ Operator.comparisons)
    (env : Environment) (left right : Operand) :
    applyBinary env op left right = some (.ok (truth (op.affirms env left right))) := by
  have affirms_eq {op : Operator} {b : Bool}
      (h : applyBinary env op left right = some (.ok (truth b))) :
      op.affirms env left right = b := by
    rw [Operator.affirms, h]
    exact isTruthy_truth b
  simp only [Operator.comparisons, List.mem_cons, List.not_mem_nil, or_false] at h
  rcases h with rfl | rfl | rfl | rfl | rfl | rfl <;> (rw [affirms_eq rfl]; rfl)

/-- **A comparison in a filter** takes its operands off the stack, the right one first, and puts
its truth value there. -/
theorem Filter.run_comparison {op : Operator} (h : op ∈ Operator.comparisons)
    (env : Environment) (left right : Operand) (root candidate : Site) (stack : List Operand)
    (tokens : List Token) :
    run env root candidate (right :: left :: stack) (.operator op :: tokens) =
      run env root candidate (truth (op.affirms env left right) :: stack) tokens := by
  have hrole : op.role = .binary := by
    revert op
    decide
  rw [run, step, stepOperator.eq_def, hrole]
  dsimp only
  rw [applyBinary_of_mem_comparisons h]
  rfl

namespace Operator

variable (env : Environment) (left right : Operand)

/-- The operator for less affirms that the left value compares less. -/
theorem affirms_less : less.affirms env left right = (left.compare right == .lt) :=
  isTruthy_truth _

/-- The operator for at most affirms that the left value does not compare greater. -/
theorem affirms_lessEqual : lessEqual.affirms env left right = (left.compare right != .gt) :=
  isTruthy_truth _

/-- The operator for equal affirms that the values compare equal. -/
theorem affirms_equal : equal.affirms env left right = (left.compare right == .eq) :=
  isTruthy_truth _

/-- The operator for greater affirms that the left value compares greater. -/
theorem affirms_greater : greater.affirms env left right = (left.compare right == .gt) :=
  isTruthy_truth _

end Operator

/-- **Comparisons mirror each other.** The order of two operands is the reverse of their order
the other way round, and an operand is equal to itself. No value is below everything else, and
bytes are above everything else. So in every filter, `<` comes out as `>` does the other way
round, `<=` comes out true exactly where `>` does not, and exactly one of `<`, `==` and `>` comes
out true. -/
theorem Operand.compare_mirrors (env : Environment) (v w : Operand) :
    w.compare v = (v.compare w).swap ∧ v.compare v = .eq ∧
      (v ≠ .absent → Operand.absent.compare v = .lt) ∧
      (∀ bytes, v.kind ≠ .bytes → (Operand.bytes bytes).compare v = .gt) ∧
      (∀ op ∈ Operator.comparisons, ∀ root candidate stack tokens,
        Filter.run env root candidate (w :: v :: stack) (.operator op :: tokens) =
          Filter.run env root candidate (truth (op.affirms env v w) :: stack) tokens) ∧
      Operator.less.affirms env v w = Operator.greater.affirms env w v ∧
      Operator.lessEqual.affirms env v w = !Operator.greater.affirms env v w ∧
      [Operator.less, .equal, .greater].countP (fun op => op.affirms env v w) = 1 := by
  refine ⟨(compare_swap v w).symm, compare_self v, compare_absent_left v,
    fun bytes => compare_bytes_left bytes v, fun op hop => Filter.run_comparison hop env v w,
    ?_, ?_, ?_⟩
  · rw [Operator.affirms_less, Operator.affirms_greater, ← compare_swap v w]
    cases v.compare w <;> rfl
  · rw [Operator.affirms_lessEqual, Operator.affirms_greater]
    rfl
  · simp only [List.countP_cons, Operator.affirms_less, Operator.affirms_equal,
      Operator.affirms_greater]
    cases v.compare w <;> rfl

/-- What is not a number, against a text that is a numeral. -/
theorem Operand.compare_mirrors_nan :
    (Operand.text "10").compare (.double .nan) = ((Operand.double .nan).compare (.text "10")).swap ∧
      (Operand.double .nan).compare (.double .nan) = .eq ∧
      Operand.absent.compare (.double .nan) = .lt ∧
      (Operand.bytes []).compare (.double .nan) = .gt ∧
      Operator.less.affirms .standard (.double .nan) (.text "10") =
        Operator.greater.affirms .standard (.text "10") (.double .nan) := by
  obtain ⟨hswap, hself, habsent, hbytes, -, hless, -, -⟩ :=
    compare_mirrors .standard (.double .nan) (.text "10")
  exact ⟨hswap, hself, habsent (by decide), hbytes [] (by decide), hless⟩

end JsonPath
