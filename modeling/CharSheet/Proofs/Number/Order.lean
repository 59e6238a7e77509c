import CharSheet.Proofs.Number.Floor
import Mathlib.Algebra.Order.Ring.Rat
import Mathlib.Data.Prod.Lex

/-
  The two orders of numbers.

  The order by which numbers are compared can be turned round,
  and leaves `nan` out.  The total order has a place for every
  number, and agrees with the first one where both apply.

  Main declarations:
    * `Number.place`
    * `Number.totalLe_iff`
    * `Number.cmp?_swap`
    * `Number.eqv_self`
    * `Number.le_eq_any_cmp?`
    * `Number.le_of_totalLe`
-/

namespace CharSheet

namespace Number

variable {x y z : Number}

------------------------------------------------------------
-- The Total Order
------------------------------------------------------------

/- The place of a number: its class, then its fraction. -/
def place (x : Number) : Nat ×ₗ Rat :=
  toLex (x.orderClass, x.exactValue.toRat)

/- The total order is that of the places. -/
theorem totalLe_iff :
    x.totalLe y = true ↔ x.place ≤ y.place := by
  unfold place totalLe
  rw [Prod.Lex.toLex_le_toLex, Dyadic.toRat_le_toRat_iff]
  by_cases hClass : x.orderClass = y.orderClass
  · simp [hClass]
  · simp [hClass]

theorem totalLe_trans
    (hxy : x.totalLe y = true)
    (hyz : y.totalLe z = true) :
    x.totalLe z = true :=
  totalLe_iff.mpr
    ((totalLe_iff.mp hxy).trans (totalLe_iff.mp hyz))

theorem totalLe_total (x y : Number) :
    (x.totalLe y || y.totalLe x) = true := by
  rw [Bool.or_eq_true, totalLe_iff, totalLe_iff]
  exact le_total _ _

theorem totalLe_refl (x : Number) : x.totalLe x = true :=
  totalLe_iff.mpr le_rfl

------------------------------------------------------------
-- Comparisons
------------------------------------------------------------

/- Comparing two numbers the other way round. -/
theorem cmp?_swap (x y : Number) :
    y.cmp? x = (x.cmp? y).map Ordering.swap := by
  have hFractions (d e : Dyadic) :
      compareOfLessAndEq e d =
        (compareOfLessAndEq d e).swap :=
    compareOfLessAndEq_eq_swap Dyadic.le_antisymm
      Dyadic.le_total Dyadic.not_lt
  cases x with
  | nan s => cases y <;> rfl
  | infinite s =>
      cases y with
      | nan t => rfl
      | infinite t => cases s <;> cases t <;> rfl
      | negZero => cases s <;> rfl
      | finite e => cases s <;> rfl
  | negZero =>
      cases y with
      | nan t => rfl
      | infinite t => cases t <;> rfl
      | negZero => rfl
      | finite e => exact congrArg some (hFractions 0 e)
  | finite d =>
      cases y with
      | nan t => rfl
      | infinite t => cases t <;> rfl
      | negZero => exact congrArg some (hFractions d 0)
      | finite e => exact congrArg some (hFractions d e)

/- All numbers but `nan` are equal to themselves. -/
theorem eqv_self
    (h : x.isNaN = false) :
    x.eqv x = true := by
  cases x with
  | nan negative => cases h
  | infinite negative => simp [eqv, cmp?]
  | negZero => simp [eqv, cmp?, compareOfLessAndEq]
  | finite d => simp [eqv, cmp?, compareOfLessAndEq]

/- A `nan` is not even equal to itself. -/
theorem eqv_self_of_isNaN
    (h : x.isNaN = true) :
    x.eqv x = false := by
  cases x with
  | nan negative => rfl
  | _ => cases h

theorem eqv_comm (x y : Number) : x.eqv y = y.eqv x := by
  unfold eqv
  rw [cmp?_swap x y]
  rcases x.cmp? y with _ | order
  · rfl
  · cases order <;> rfl

/- A number is at most another if the other is not below it. -/
theorem le_eq_any_cmp? (x y : Number) :
    x.le y = (y.cmp? x).any (· != .lt) := by
  rw [cmp?_swap x y, le, lt, eqv]
  rcases x.cmp? y with _ | order
  · rfl
  · cases order <;> rfl

/- A number that is at most another is no `nan`. -/
theorem isNaN_of_le
    (h : x.le y = true) :
    x.isNaN = false := by
  cases x with
  | nan s => cases h
  | _ => rfl

/- A number is not at most another that is below it. -/
theorem le_eq_false_of_lt
    (h : y.lt x = true) :
    x.le y = false := by
  rw [lt, beq_iff_eq] at h
  rw [le_eq_any_cmp?, h]
  rfl

/- Numbers in the total order are in the other one too. -/
theorem le_of_totalLe
    (h : x.totalLe y = true)
    (hx : x.isNaN = false)
    (hy : y.isNaN = false) :
    x.le y = true := by
  have hFinite {d e : Dyadic} (h : d ≤ e) :
      (finite d).le (finite e) = true :=
    le_finite_iff.mpr (Dyadic.toRat_le_toRat_iff.mpr h)
  cases x with
  | nan s => cases hx
  | infinite s =>
      cases y with
      | nan t => cases hy
      | infinite t => revert h; cases s <;> cases t <;> decide
      | negZero => revert h; cases s <;> decide
      | finite e =>
          cases s with
          | true => rfl
          | false =>
              simp only [totalLe, orderClass] at h
              grind
  | negZero =>
      cases y with
      | nan t => cases hy
      | infinite t => revert h; cases t <;> decide
      | negZero => rfl
      | finite e =>
          apply hFinite (d := 0)
          simp only [totalLe, orderClass] at h
          grind
  | finite d =>
      cases y with
      | nan t => cases hy
      | infinite t =>
          cases t with
          | true =>
              simp only [totalLe, orderClass] at h
              grind
          | false => rfl
      | negZero =>
          apply hFinite (e := 0)
          simp only [totalLe, orderClass] at h
          grind
      | finite e =>
          apply hFinite
          simp only [totalLe, orderClass, exactValue, dyadic?] at h
          grind

end Number

end CharSheet
