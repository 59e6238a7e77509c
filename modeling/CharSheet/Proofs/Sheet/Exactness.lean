import CharSheet.Formula.Eval
import CharSheet.Operator
import CharSheet.Proofs.Number.Floor

/-
  Contributions that are joined without rounding.

  A value with a finite numeric view stands for a fraction.
  Where sums and products are exact, joining a contribution is
  an operation on fractions, whichever of the values are truth
  values, numbers or texts.  The first contribution stays as
  it is written, and of two equal values one is kept, so that
  another order may give another spelling, but never another
  fraction.

  Main declarations:
    * `Number.exactValue_add`, `Number.exactValue_mul`
    * `Value.isFinite`, `Value.fraction`
    * `Value.looseCmp?_of_isFinite`
    * `Operator.onFractions`
    * `Operator.exists_combine_of_isFinite`
    * `Operator.combineExactly`
    * `Operator.fraction_combineExactly`
    * `Operator.equalValues_combineExactly_of_perm`
-/

namespace CharSheet

------------------------------------------------------------
-- Exact Numbers
------------------------------------------------------------

namespace Number

variable {x y : Number}

/- The exact sum of finite numbers. -/
theorem exactValue_add
    (hx : x.isFinite = true)
    (hy : y.isFinite = true) :
    (x.add y .exact).isFinite = true ∧
      (x.add y .exact).exactValue =
        x.exactValue + y.exactValue := by
  cases x with
  | nan s => cases hx
  | infinite s => cases hx
  | negZero =>
      cases y with
      | nan t => cases hy
      | infinite t => cases hy
      | negZero => exact ⟨rfl, rfl⟩
      | finite e => exact ⟨rfl, (Dyadic.zero_add e).symm⟩
  | finite d =>
      cases y with
      | nan t => cases hy
      | infinite t => cases hy
      | negZero => exact ⟨rfl, (Dyadic.add_zero d).symm⟩
      | finite e => exact ⟨rfl, rfl⟩

/- The exact product of finite numbers. -/
theorem exactValue_mul
    (hx : x.isFinite = true)
    (hy : y.isFinite = true) :
    (x.mul y .exact).isFinite = true ∧
      (x.mul y .exact).exactValue =
        x.exactValue * y.exactValue := by
  rcases Option.isSome_iff_exists.mp hx with ⟨d, hd⟩
  rcases Option.isSome_iff_exists.mp hy with ⟨e, he⟩
  have hZero (negative : Bool) :
      (zero negative).isFinite = true ∧
        (zero negative).exactValue = 0 := by
    cases negative with
    | false => exact ⟨rfl, rfl⟩
    | true => exact ⟨rfl, rfl⟩
  simp only [mul, exactValue, hd, he, Option.getD_some]
  split
  · next hNull =>
      rw [hNull]
      exact hZero _
  · exact ⟨rfl, rfl⟩

/- Finite numbers are in the order of their fractions. -/
theorem cmp?_of_isFinite
    (hx : x.isFinite = true)
    (hy : y.isFinite = true) :
    x.cmp? y =
      some (compareOfLessAndEq x.exactValue y.exactValue) := by
  cases x with
  | nan s => cases hx
  | infinite s => cases hx
  | negZero =>
      cases y with
      | nan t => cases hy
      | infinite t => cases hy
      | negZero => rfl
      | finite e => rfl
  | finite d =>
      cases y with
      | nan t => cases hy
      | infinite t => cases hy
      | negZero => rfl
      | finite e => rfl

end Number

------------------------------------------------------------
-- Fractions of Values
------------------------------------------------------------

namespace Value

variable {v w : Value}

/- The value has a numeric view, which is finite. -/
def isFinite (v : Value) : Bool :=
  v.number?.any (·.isFinite)

/- The fraction that the numeric view of a value stands for. -/
def fraction (v : Value) : Rat :=
  (v.number?.getD 0).exactValue.toRat

theorem exists_number?_of_isFinite
    (h : v.isFinite = true) :
    ∃ x, v.number? = some x ∧ x.isFinite = true := by
  cases hNumber : v.number? with
  | none =>
      rw [isFinite, hNumber] at h
      cases h
  | some x =>
      rw [isFinite, hNumber] at h
      exact ⟨x, rfl, h⟩

theorem fraction_of_number?
    {x : Number}
    (h : v.number? = some x) :
    v.fraction = x.exactValue.toRat := by
  rw [fraction, h, Option.getD_some]

/- A finite number is its own numeric view. -/
theorem isFinite_number
    {x : Number}
    (h : x.isFinite = true) :
    (Value.number x).isFinite = true ∧
      (Value.number x).fraction = x.exactValue.toRat := by
  have hView : (Value.number x).number? = some x := by
    cases x with
    | nan s => cases h
    | infinite s => rfl
    | negZero => rfl
    | finite d => rfl
  constructor
  · rw [isFinite, hView]
    exact h
  · exact fraction_of_number? hView

/- What has a numeric view is no word. -/
theorem isWord_of_isFinite
    (h : v.isFinite = true) :
    v.isWord = false := by
  rcases exists_number?_of_isFinite h with ⟨x, hNumber, -⟩
  cases v with
  | bool b => rfl
  | number n => rfl
  | text s => simp [isWord, hNumber]

section Pair

variable (hv : v.isFinite = true)
variable (hw : w.isFinite = true)

include hv hw

/- They are compared by their fractions. -/
theorem looseCmp?_of_isFinite :
    v.looseCmp? w =
      some (compareOfLessAndEq v.fraction w.fraction) := by
  rcases exists_number?_of_isFinite hv with ⟨x, hNumber, hx⟩
  rcases exists_number?_of_isFinite hw with ⟨y, hNumber', hy⟩
  have hCompare : v.looseCmp? w = x.cmp? y := by
    unfold looseCmp?
    rw [hNumber, hNumber']
  rw [hCompare, Number.cmp?_of_isFinite hx hy,
    fraction_of_number? hNumber, fraction_of_number? hNumber']
  simp only [compareOfLessAndEq, Dyadic.toRat_lt_toRat_iff,
    Dyadic.toRat_inj]

theorem looseEq_iff_of_isFinite :
    v.looseEq w = true ↔ v.fraction = w.fraction := by
  rcases exists_number?_of_isFinite hv with ⟨x, hNumber, hx⟩
  rcases exists_number?_of_isFinite hw with ⟨y, hNumber', hy⟩
  rw [fraction_of_number? hNumber, fraction_of_number? hNumber',
    looseEq, hNumber, hNumber']
  change x.eqv y = true ↔ _
  rw [Number.eqv, Number.cmp?_of_isFinite hx hy, Dyadic.toRat_inj]
  simp [compareOfLessAndEq_eq_eq]

/- The sum of two values is a number, never a text. -/
theorem exists_plus?_of_isFinite :
    ∃ u, v.plus? w .exact = some u ∧ u.isFinite = true ∧
      u.fraction = v.fraction + w.fraction := by
  rcases exists_number?_of_isFinite hv with ⟨x, hNumber, hx⟩
  rcases exists_number?_of_isFinite hw with ⟨y, hNumber', hy⟩
  have hSum := Number.exactValue_add hx hy
  have hView := isFinite_number hSum.1
  refine ⟨.number (x.add y .exact), ?_, hView.1, ?_⟩
  · simp [plus?, isWord_of_isFinite hv, isWord_of_isFinite hw,
      hNumber, hNumber']
  · rw [hView.2, hSum.2, Dyadic.toRat_add,
      fraction_of_number? hNumber, fraction_of_number? hNumber']

theorem exists_times?_of_isFinite :
    ∃ u, v.times? w .exact = some u ∧ u.isFinite = true ∧
      u.fraction = v.fraction * w.fraction := by
  rcases exists_number?_of_isFinite hv with ⟨x, hNumber, hx⟩
  rcases exists_number?_of_isFinite hw with ⟨y, hNumber', hy⟩
  have hProduct := Number.exactValue_mul hx hy
  have hView := isFinite_number hProduct.1
  refine ⟨.number (x.mul y .exact), ?_, hView.1, ?_⟩
  · simp [times?, hNumber, hNumber']
  · rw [hView.2, hProduct.2, Dyadic.toRat_mul,
      fraction_of_number? hNumber, fraction_of_number? hNumber']

/- The larger one of two values is that of the larger fraction. -/
theorem max_of_isFinite :
    v.max w = if v.fraction < w.fraction then w else v := by
  rw [Value.max, looseCmp?_of_isFinite hv hw]
  by_cases hLt : v.fraction < w.fraction
  · simp [compareOfLessAndEq, hLt]
  · by_cases hEq : v.fraction = w.fraction
    · simp [compareOfLessAndEq, hEq]
    · simp [compareOfLessAndEq, hLt, hEq]

theorem min_of_isFinite :
    v.min w = if w.fraction < v.fraction then w else v := by
  rw [Value.min, looseCmp?_of_isFinite hv hw]
  rcases lt_trichotomy v.fraction w.fraction with
    hLt | hEq | hGt
  · simp [compareOfLessAndEq, hLt, hLt.le]
  · simp [compareOfLessAndEq, hEq]
  · simp [compareOfLessAndEq, hGt, hGt.not_gt, hGt.ne']

end Pair

end Value

------------------------------------------------------------
-- Joined Contributions
------------------------------------------------------------

namespace Operator

/- What an operator makes of two fractions. -/
def onFractions : Operator → Rat → Rat → Rat
  | .gate, p, _ => p
  | .set, _, q => q
  | .add, p, q => p + q
  | .multiply, p, q => p * q
  | .max, p, q => Max.max p q
  | .min, p, q => Min.min p q

/- Join fractions to a first one, one after another. -/
def joinFractions
    (op : Operator)
    (start : Option Rat)
    (qs : List Rat) : Option Rat :=
  qs.foldl (fun p q => some (p.elim q (op.onFractions · q))) start

/- Join values to a first one, without rounding. -/
def combineExactly
    (op : Operator)
    (start : Option Value)
    (vs : List Value) : Option Value :=
  vs.foldl (fun v c => op.combine v c .exact) start

variable {op : Operator}
variable {v w : Value}
variable {start : Option Value}
variable {vs ws : List Value}

/- Joining a contribution is an operation on fractions. -/
theorem exists_combine_of_isFinite
    (op : Operator)
    (hv : v.isFinite = true)
    (hw : w.isFinite = true) :
    ∃ u, op.combine (some v) w .exact = some u ∧
      u.isFinite = true ∧
        u.fraction = op.onFractions v.fraction w.fraction := by
  cases op with
  | gate => exact ⟨v, rfl, hv, rfl⟩
  | set => exact ⟨w, rfl, hw, rfl⟩
  | add =>
      rcases Value.exists_plus?_of_isFinite hv hw with
        ⟨u, hSum, hu⟩
      refine ⟨u, ?_, hu⟩
      rw [combine, hSum, Option.getD_some]
  | multiply =>
      rcases Value.exists_times?_of_isFinite hv hw with
        ⟨u, hProduct, hu⟩
      refine ⟨u, ?_, hu⟩
      rw [combine, hProduct, Option.getD_some]
  | max =>
      refine ⟨_, rfl, ?_⟩
      rw [Value.max_of_isFinite hv hw]
      split
      · next hLt => exact ⟨hw, (max_eq_right hLt.le).symm⟩
      · next hLe =>
          exact ⟨hv, (max_eq_left (not_lt.mp hLe)).symm⟩
  | min =>
      refine ⟨_, rfl, ?_⟩
      rw [Value.min_of_isFinite hv hw]
      split
      · next hLt => exact ⟨hw, (min_eq_right hLt.le).symm⟩
      · next hLe =>
          exact ⟨hv, (min_eq_left (not_lt.mp hLe)).symm⟩

/-
  By induction on the contributions: they come to what their
  fractions come to.  The first one is not coerced, and it
  stands for its fraction all the same.
-/
theorem fraction_combineExactly
    (op : Operator)
    (hStart : ∀ v ∈ start, v.isFinite = true)
    (hFinite : ∀ v ∈ vs, v.isFinite = true) :
    (∀ v ∈ op.combineExactly start vs, v.isFinite = true) ∧
      (op.combineExactly start vs).map Value.fraction =
        op.joinFractions (start.map Value.fraction)
          (vs.map Value.fraction) := by
  induction vs generalizing start with
  | nil => exact ⟨hStart, rfl⟩
  | cons c vs ih =>
      rcases List.forall_mem_cons.mp hFinite with ⟨hFirst, hRest⟩
      cases start with
      | none =>
          apply ih _ hRest
          rintro _ ⟨⟩
          exact hFirst
      | some v =>
          rcases exists_combine_of_isFinite op (hStart v rfl)
            hFirst with ⟨u, hJoined, hu, hFraction⟩
          have hSome : ∀ v ∈ some u, v.isFinite = true := by
            rintro _ ⟨⟩
            exact hu
          have hNext := ih hSome hRest
          rw [combineExactly, List.foldl_cons, hJoined]
          rw [Option.map_some, hFraction] at hNext
          exact hNext

/- Two fractions may be joined to a third one in any order. -/
theorem onFractions_right_comm
    (hOp : op.isCommutative = true)
    (p q r : Rat) :
    op.onFractions (op.onFractions p q) r =
      op.onFractions (op.onFractions p r) q := by
  cases op with
  | gate => cases hOp
  | set => cases hOp
  | add => exact add_right_comm p q r
  | multiply => exact mul_right_comm p q r
  | max => exact max_right_comm p q r
  | min => exact min_right_comm p q r

theorem onFractions_comm
    (hOp : op.isCommutative = true)
    (p q : Rat) :
    op.onFractions p q = op.onFractions q p := by
  cases op with
  | gate => cases hOp
  | set => cases hOp
  | add => exact add_comm p q
  | multiply => exact mul_comm p q
  | max => exact max_comm p q
  | min => exact min_comm p q

/- Fractions come to the same in any order. -/
theorem joinFractions_of_perm
    {qs rs : List Rat}
    (hOp : op.isCommutative = true)
    (start : Option Rat)
    (hPerm : qs.Perm rs) :
    op.joinFractions start qs = op.joinFractions start rs := by
  apply hPerm.foldl_eq'
  intro q _ r _ p
  cases p with
  | none => exact congrArg some (onFractions_comm hOp q r)
  | some p => exact congrArg some (onFractions_right_comm hOp p q r)

/- A contribution is always there once there is one. -/
theorem combineExactly_eq_none_iff :
    op.combineExactly start vs = none ↔
      start = none ∧ vs = [] := by
  induction vs generalizing start with
  | nil => simp [combineExactly]
  | cons c vs ih =>
      have hSome : op.combine start c .exact ≠ none := by
        cases start with
        | none => simp [combine]
        | some v => cases op <;> simp [combine]
      rw [combineExactly, List.foldl_cons]
      change op.combineExactly _ vs = none ↔ _
      rw [ih]
      simp [hSome]

end Operator

/- Values of one fraction are equal, and absent ones, too. -/
theorem equalValues_of_isFinite
    {a b : Option Value}
    (ha : ∀ v ∈ a, v.isFinite = true)
    (hb : ∀ v ∈ b, v.isFinite = true)
    (h : a.map Value.fraction = b.map Value.fraction) :
    equalValues a b = true := by
  cases a with
  | none =>
      cases b with
      | none => rfl
      | some w => cases h
  | some v =>
      cases b with
      | none => cases h
      | some w =>
          exact (Value.looseEq_iff_of_isFinite (ha v rfl)
            (hb w rfl)).mpr (Option.some.inj h)

/-
  Sums, products, maxima and minima without rounding: whatever
  the current value and the contributions are, as long as they
  have finite numeric views, the contributions come to values
  that are loosely equal in any two orders.  They come to what
  their fractions come to, and to none only if there is nothing
  to join.
-/
theorem Operator.equalValues_combineExactly_of_perm
    {op : Operator}
    {current : Option Value}
    {vs ws : List Value}
    (hOp : op.isCommutative = true)
    (hCurrent : ∀ v ∈ current, v.isFinite = true)
    (hFinite : ∀ v ∈ vs, v.isFinite = true)
    (hPerm : vs.Perm ws) :
    equalValues (op.combineExactly current vs)
        (op.combineExactly current ws) = true ∧
      (op.combineExactly current ws).map Value.fraction =
        op.joinFractions (current.map Value.fraction)
          (vs.map Value.fraction) ∧
      (op.combineExactly current ws = none ↔
        current = none ∧ ws = []) := by
  have hFinite' : ∀ v ∈ ws, v.isFinite = true :=
    fun v hv => hFinite v (hPerm.mem_iff.mpr hv)
  have hFirst := fraction_combineExactly op hCurrent hFinite
  have hSecond := fraction_combineExactly op hCurrent hFinite'
  have hSame : (op.combineExactly current ws).map Value.fraction =
      (op.combineExactly current vs).map Value.fraction := by
    rw [hFirst.2, hSecond.2]
    exact joinFractions_of_perm hOp _
      (hPerm.map Value.fraction).symm
  refine ⟨?_, hSame.trans hFirst.2, combineExactly_eq_none_iff⟩
  exact equalValues_of_isFinite hFirst.1 hSecond.1 hSame.symm

/-
  A truth value, a number and two texts: the text that comes
  first is kept as it is written, and the values are equal.
-/
theorem Operator.equalValues_combineExactly_max :
    let vs : List Value := [.text " 2.0 ", .number 2, .bool true]
    let ws : List Value := [.number 2, .bool true, .text " 2.0 "]
    let current : Option Value := some (.text "-1e1")
    Operator.max.isCommutative = true ∧
      (∀ v ∈ current, v.isFinite = true) ∧
        (∀ v ∈ vs, v.isFinite = true) ∧ vs.Perm ws ∧
          Operator.max.combineExactly current vs =
              some (.text " 2.0 ") ∧
            Operator.max.combineExactly current ws =
                some (.number 2) ∧
              equalValues (Operator.max.combineExactly current vs)
                (Operator.max.combineExactly current ws) =
                  true := by
  intro vs ws current
  have hCurrent : ∀ v ∈ current, v.isFinite = true := by
    decide +kernel
  have hFinite : ∀ v ∈ vs, v.isFinite = true := by
    decide +kernel
  have hPerm : vs.Perm ws := by decide +kernel
  have hOp : Operator.max.isCommutative = true := rfl
  have hEqual :=
    equalValues_combineExactly_of_perm hOp hCurrent hFinite hPerm
  exact ⟨hOp, hCurrent, hFinite, hPerm, by decide +kernel,
    by decide +kernel, hEqual.1⟩

end CharSheet
