import CharSheet.Number.Arithmetic
import Mathlib.Algebra.Order.Ring.Nat

/-
  Sums of whole numbers.

  Whole numbers are added exactly as long as the sum is at
  most two to the power of 53 in size.  A count that is kept
  as a number stops there.

  Main declarations:
    * `Number.countLimit`
    * `Number.representable_intCast`
    * `Number.add_ofInt`
    * `Number.add_ofNat_one`
    * `Number.ofWhole`, `Number.size`
    * `Number.add_comm_of_whole`
    * `Number.add_right_comm_of_whole`
    * `Number.lt_ofInt_trans`
    * `Number.integer?_add`, `Number.integer?_sub`
    * `Number.countUp`
    * `Number.countUp_of_integer?`
    * `Number.lt_iff_of_integer?`
    * `Number.cmp?_of_integer?`
-/

namespace CharSheet

namespace Number

/- The greatest count that counting by ones comes to. -/
def countLimit : Nat := 9007199254740992

theorem countLimit_eq : countLimit = 2 ^ precision := by
  decide

/- The odd part of an integer, shifted back, is the integer. -/
theorem shiftRight_mul_two_pow
    {i : Int}
    (h : i ≠ 0) :
    i >>> i.trailingZeros * ((2 ^ i.trailingZeros : Nat) : Int)
      = i := by
  have hDivides :
      ((2 ^ i.trailingZeros : Nat) : Int) ∣ i := by
    rw [Int.natCast_pow]
    exact Int.two_pow_trailingZeros_dvd h
  rw [Int.shiftRight_eq_div_pow]
  exact Int.ediv_mul_cancel hDivides

/- So is it in size. -/
theorem natAbs_eq_odd_mul
    {i : Int}
    (h : i ≠ 0) :
    i.natAbs =
      (i >>> i.trailingZeros).natAbs * 2 ^ i.trailingZeros := by
  have hAbs := congrArg Int.natAbs (shiftRight_mul_two_pow h)
  rw [Int.natAbs_mul, Int.natAbs_natCast] at hAbs
  exact hAbs.symm

/-
  A fraction with an odd part and some more trailing zeros
  fits a binary64 up to the limit.  The odd part is below the
  limit, since the limit itself is even.
-/
theorem representable_ofOdd
    {m : Int}
    {t : Nat}
    (hOdd : m % 2 = 1)
    (h : m.natAbs * 2 ^ t ≤ countLimit) :
    Representable (.ofOdd m (0 - t) hOdd) := by
  rw [countLimit_eq] at h
  have hLe : m.natAbs ≤ 2 ^ precision :=
    Nat.le_trans
      (Nat.le_mul_of_pos_right _ (Nat.two_pow_pos t)) h
  have hNe : m.natAbs ≠ 2 ^ precision := by
    have hEven : 2 ^ precision % 2 = 0 := by decide
    omega
  have hLog : m.natAbs.log2 + t ≤ precision := by
    have hBelow : 2 ^ m.natAbs.log2 ≤ m.natAbs :=
      Nat.log2_self_le (by omega)
    have hProduct :
        2 ^ (m.natAbs.log2 + t) ≤ 2 ^ precision := by
      rw [Nat.pow_add]
      exact Nat.le_trans (Nat.mul_le_mul_right _ hBelow) h
    exact (Nat.pow_le_pow_iff_right (by decide)).mp hProduct
  refine ⟨Nat.lt_of_le_of_ne hLe hNe, ?_, ?_⟩
  · simp only [minExponent]
    omega
  · simp only [maxExponent, precision] at hLog ⊢
    omega

/- A whole number up to the limit fits a binary64. -/
theorem representable_intCast
    {i : Int}
    (h : i.natAbs ≤ countLimit) :
    Representable (i : Dyadic) := by
  change Representable (Dyadic.ofIntWithPrec i 0)
  unfold Dyadic.ofIntWithPrec
  by_cases hZero : i = 0
  · rw [dif_pos hZero]
    trivial
  · rw [dif_neg hZero]
    rw [natAbs_eq_odd_mul hZero] at h
    exact representable_ofOdd
      (Int.shiftRight_trailingZeros_mod_two hZero) h

/- Whole numbers are added exactly up to the limit. -/
theorem add_ofInt
    {i j : Int}
    (h : (i + j).natAbs ≤ countLimit) :
    (ofInt i).add (ofInt j) = ofInt (i + j) := by
  have hSum :
      (i : Dyadic) + (j : Dyadic) = ((i + j : Int) : Dyadic) := by
    rw [← Dyadic.toRat_inj, Dyadic.toRat_add]
    simp only [Dyadic.toRat_intCast, Rat.intCast_add]
  have hFits := representable_intCast h
  rw [← hSum] at hFits
  change nearest ((i : Dyadic) + (j : Dyadic)) = _
  rw [nearest_of_representable hFits, hSum]
  rfl

/- Beyond the limit, one more is a tie that goes back. -/
theorem add_countLimit_one :
    (ofNat countLimit).add 1 = ofNat countLimit := by
  decide +kernel

/- Counting by ones is exact up to the limit, and stops. -/
theorem add_ofNat_one
    {n : Nat}
    (h : n ≤ countLimit) :
    (ofNat n).add 1 = ofNat (Nat.min (n + 1) countLimit) := by
  rcases Nat.lt_or_eq_of_le h with hBelow | hAt
  · have hMin : Nat.min (n + 1) countLimit = n + 1 :=
      Nat.min_eq_left hBelow
    have hSum := add_ofInt (i := n) (j := 1) (by omega)
    rw [hMin]
    exact hSum
  · have hMin : Nat.min (n + 1) countLimit = countLimit :=
      Nat.min_eq_right (by omega)
    rw [hMin, hAt]
    exact add_countLimit_one

------------------------------------------------------------
-- Whole Numbers
------------------------------------------------------------

/- An integer is the whole part of itself. -/
theorem wholePart?_intCast (i : Int) :
    wholePart? (i : Dyadic) = some i := by
  change wholePart? (Dyadic.ofIntWithPrec i 0) = some i
  unfold Dyadic.ofIntWithPrec
  by_cases hZero : i = 0
  · rw [dif_pos hZero, hZero]
    rfl
  · have hShift :
        (-((0 : Int) - i.trailingZeros)).toNat =
          i.trailingZeros := by
      omega
    rw [dif_neg hZero, wholePart?, if_pos (by omega), hShift]
    exact congrArg some (shiftRight_mul_two_pow hZero)

/- A fraction with a whole part is that integer. -/
theorem eq_intCast_of_wholePart?
    {d : Dyadic}
    {i : Int}
    (h : wholePart? d = some i) :
    d = (i : Dyadic) := by
  cases d with
  | zero =>
      cases h
      rfl
  | ofOdd n k hOdd =>
      rw [wholePart?] at h
      split at h
      · cases h
        have hShift : -k = ((-k).toNat : Int) := by omega
        rw [← Dyadic.toRat_inj,
          Dyadic.toRat_ofOdd_eq_mul_two_pow,
          Dyadic.toRat_intCast, hShift, Rat.zpow_natCast,
          Rat.intCast_mul]
        congr 1
        exact (Rat.intCast_pow 2 _).symm
      · cases h

/-
  A whole number, where none stands for the negative zero,
  which leaves all others as they are when it is added.
-/
def ofWhole : Option Int → Number
  | none => .negZero
  | some i => .ofInt i

/- How far a whole number is from zero. -/
def size (x : Number) : Nat :=
  (x.integer?.getD 0).natAbs

theorem integer?_ofWhole (a : Option Int) :
    (ofWhole a).integer? = some (a.getD 0) := by
  cases a with
  | none => rfl
  | some i => exact wholePart?_intCast i

theorem integer?_ofInt (i : Int) :
    (ofInt i).integer? = some i :=
  wholePart?_intCast i

theorem ofNat_inj
    {m n : Nat} :
    ofNat m = ofNat n ↔ m = n := by
  constructor
  · intro hSame
    have hInteger := congrArg integer? hSame
    change (ofInt m).integer? = (ofInt n).integer? at hInteger
    rw [integer?_ofInt, integer?_ofInt] at hInteger
    exact Int.ofNat_inj.mp (Option.some.inj hInteger)
  · rintro rfl
    rfl

theorem size_ofWhole (a : Option Int) :
    (ofWhole a).size = (a.getD 0).natAbs := by
  rw [size, integer?_ofWhole]
  rfl

theorem isNaN_ofWhole (a : Option Int) :
    (ofWhole a).isNaN = false := by
  cases a <;> rfl

/- A number that is an integer is one of these. -/
theorem exists_ofWhole
    {x : Number}
    (h : x.integer?.isSome = true) :
    ∃ a, x = ofWhole a := by
  rcases Option.isSome_iff_exists.mp h with ⟨i, hInteger⟩
  cases x with
  | nan negative => cases hInteger
  | infinite negative => cases hInteger
  | negZero => exact ⟨none, rfl⟩
  | finite d =>
      exact ⟨some i,
        congrArg Number.finite (eq_intCast_of_wholePart? hInteger)⟩

/- Whole numbers are added as integers, if there are any. -/
theorem add_ofWhole
    {a b : Option Int}
    (h : (a.getD 0 + b.getD 0).natAbs ≤ countLimit) :
    (ofWhole a).add (ofWhole b) =
      ofWhole (a.merge (· + ·) b) := by
  cases a with
  | none => cases b <;> rfl
  | some i =>
      cases b with
      | none => rfl
      | some j => exact add_ofInt h

/- The size of a sum is at most the sum of the sizes. -/
theorem natAbs_merge_le (a b : Option Int) :
    ((a.merge (· + ·) b).getD 0).natAbs ≤
      (a.getD 0).natAbs + (b.getD 0).natAbs := by
  cases a with
  | none => cases b <;> simp
  | some i =>
      cases b with
      | none => simp
      | some j => exact Int.natAbs_add_le i j

section Sums

variable {x y z : Number}
variable (hx : x.integer?.isSome = true)
variable (hy : y.integer?.isSome = true)

include hx hy

/- The sum of two whole numbers is whole. -/
theorem integer?_add_of_whole
    (h : x.size + y.size ≤ countLimit) :
    (x.add y).integer?.isSome = true ∧
      (x.add y).size ≤ x.size + y.size := by
  rcases exists_ofWhole hx with ⟨a, rfl⟩
  rcases exists_ofWhole hy with ⟨b, rfl⟩
  rw [size_ofWhole, size_ofWhole] at h ⊢
  rw [add_ofWhole (by omega), integer?_ofWhole, size_ofWhole]
  exact ⟨rfl, natAbs_merge_le a b⟩

/- Two whole numbers may be added in any order. -/
theorem add_comm_of_whole
    (h : x.size + y.size ≤ countLimit) :
    x.add y = y.add x := by
  rcases exists_ofWhole hx with ⟨a, rfl⟩
  rcases exists_ofWhole hy with ⟨b, rfl⟩
  rw [size_ofWhole, size_ofWhole] at h
  have hMerge :
      a.merge (· + ·) b = b.merge (· + ·) a := by
    cases a <;> cases b <;> simp [Int.add_comm]
  rw [add_ofWhole (by omega), add_ofWhole (by omega), hMerge]

/- So may three. -/
theorem add_right_comm_of_whole
    (hz : z.integer?.isSome = true)
    (h : z.size + x.size + y.size ≤ countLimit) :
    (z.add x).add y = (z.add y).add x := by
  rcases exists_ofWhole hx with ⟨a, rfl⟩
  rcases exists_ofWhole hy with ⟨b, rfl⟩
  rcases exists_ofWhole hz with ⟨c, rfl⟩
  rw [size_ofWhole, size_ofWhole, size_ofWhole] at h
  have hFirst := natAbs_merge_le c a
  have hSecond := natAbs_merge_le c b
  have hMerge :
      (c.merge (· + ·) a).merge (· + ·) b =
        (c.merge (· + ·) b).merge (· + ·) a := by
    cases a <;> cases b <;> cases c <;>
      simp [Int.add_comm, Int.add_left_comm]
  rw [add_ofWhole (by omega), add_ofWhole (by omega),
    add_ofWhole (by omega), add_ofWhole (by omega), hMerge]

end Sums

section Integers

variable {x y : Number}
variable {i j : Int}

/- The number of an integer is the integer, or a zero. -/
theorem exists_ofWhole_eq
    (h : x.integer? = some i) :
    ∃ a, x = ofWhole a ∧ a.getD 0 = i := by
  rcases exists_ofWhole (Option.isSome_iff_exists.mpr ⟨i, h⟩) with
    ⟨a, rfl⟩
  rw [integer?_ofWhole] at h
  exact ⟨a, rfl, Option.some.inj h⟩

/- Integers are added as integers if the sum can be counted. -/
theorem integer?_add
    (hx : x.integer? = some i)
    (hy : y.integer? = some j)
    (h : (i + j).natAbs ≤ countLimit) :
    (x.add y).integer? = some (i + j) := by
  rcases exists_ofWhole_eq hx with ⟨a, rfl, rfl⟩
  rcases exists_ofWhole_eq hy with ⟨b, rfl, rfl⟩
  rw [add_ofWhole h, integer?_ofWhole]
  cases a <;> cases b <;> simp

theorem integer?_neg
    (h : x.integer? = some i) :
    x.neg.integer? = some (-i) := by
  rcases exists_ofWhole_eq h with ⟨a, rfl, rfl⟩
  cases a with
  | none => rfl
  | some i =>
      change (if (i : Dyadic) = 0 then negZero
        else finite (-(i : Dyadic))).integer? = some (-i)
      have hNeg : -(i : Dyadic) = ((-i : Int) : Dyadic) := by
        rw [← Dyadic.toRat_inj, Dyadic.toRat_neg,
          Dyadic.toRat_intCast, Dyadic.toRat_intCast,
          Rat.intCast_neg]
      split
      · rename_i hZero
        rw [← Dyadic.toRat_inj, Dyadic.toRat_intCast,
          Dyadic.toRat_zero, Rat.intCast_eq_zero_iff] at hZero
        rw [hZero]
        rfl
      · rw [hNeg]
        exact integer?_ofInt (-i)

theorem integer?_sub
    (hx : x.integer? = some i)
    (hy : y.integer? = some j)
    (h : (i - j).natAbs ≤ countLimit) :
    (x.sub y).integer? = some (i - j) :=
  integer?_add hx (integer?_neg hy) h

/- Integers are added as numbers of one form. -/
theorem ofInt_add
    (h : x.integer? = some j)
    (hLimit : (i + j).natAbs ≤ countLimit) :
    (ofInt i).add x = ofInt (i + j) := by
  rcases exists_ofWhole_eq h with ⟨a, rfl, rfl⟩
  refine (add_ofWhole (a := some i) hLimit).trans ?_
  cases a with
  | none => exact congrArg ofInt (Int.add_zero i).symm
  | some j => rfl

/- One more than an integer is the next one. -/
theorem add_one_of_integer?
    (h : x.integer? = some i)
    (hLimit : (i + 1).natAbs ≤ countLimit) :
    x.add 1 = ofInt (i + 1) := by
  rcases exists_ofWhole_eq h with ⟨a, rfl, rfl⟩
  refine (add_ofWhole (b := some 1) hLimit).trans ?_
  cases a <;> rfl

/- A number after it has been counted up by some ones. -/
def countUp (x : Number) (n : Nat) : Number :=
  (fun x => x.add 1)^[n] x

/- Integers are counted up exactly up to the limit. -/
theorem countUp_of_integer?
    {n : Nat}
    (h : x.integer? = some i)
    (hPositive : 0 < n)
    (hLimit : i.natAbs + n ≤ countLimit) :
    x.countUp n = ofInt (i + n) := by
  induction n generalizing x i with
  | zero => cases hPositive
  | succ n ih =>
      have hOne := add_one_of_integer? h (by omega)
      change (x.add 1).countUp n = _
      rcases Nat.eq_zero_or_pos n with rfl | hMore
      · exact hOne
      · rw [hOne, ih (integer?_ofInt (i + 1)) hMore (by omega),
          Int.natCast_succ, Int.add_comm (n : Int) 1,
          Int.add_assoc]

end Integers

------------------------------------------------------------
-- Comparisons
------------------------------------------------------------

/- Integers are compared as numbers as they are. -/
theorem lt_ofInt_iff
    {i j : Int} :
    (ofInt i).lt (ofInt j) = true ↔ i < j := by
  rw [← Rat.intCast_lt_intCast, ← Dyadic.toRat_intCast,
    ← Dyadic.toRat_intCast, Dyadic.toRat_lt_toRat_iff]
  have hCompare :
      (ofInt i).cmp? (ofInt j) =
        some (compareOfLessAndEq (i : Dyadic) (j : Dyadic)) :=
    rfl
  rw [lt, hCompare]
  simp [compareOfLessAndEq_eq_lt]

/- What is below an integer is below all greater ones. -/
theorem lt_ofInt_trans
    {x : Number}
    {i j : Int}
    (h : x.lt (ofInt i) = true)
    (hLt : i < j) :
    x.lt (ofInt j) = true := by
  have hCompare (d : Dyadic) (k : Int) :
      some (compareOfLessAndEq d (k : Dyadic)) == some .lt ↔
        d < (k : Dyadic) := by
    simp [compareOfLessAndEq_eq_lt]
  have hGreater : (i : Dyadic) < (j : Dyadic) := by
    rw [← Dyadic.toRat_lt_toRat_iff, Dyadic.toRat_intCast,
      Dyadic.toRat_intCast]
    exact Rat.intCast_lt_intCast.mpr hLt
  cases x with
  | nan negative => cases h
  | infinite negative => exact h
  | negZero =>
      exact (hCompare 0 j).mpr
        (Std.lt_trans ((hCompare 0 i).mp h) hGreater)
  | finite d =>
      exact (hCompare d j).mpr
        (Std.lt_trans ((hCompare d i).mp h) hGreater)

theorem le_ofInt_iff
    {i j : Int} :
    (ofInt i).le (ofInt j) = true ↔ i ≤ j := by
  have hEqv :
      (ofInt i).eqv (ofInt j) = true ↔ i = j := by
    have hCompare :
        (ofInt i).cmp? (ofInt j) =
          some (compareOfLessAndEq (i : Dyadic) (j : Dyadic)) :=
      rfl
    rw [eqv, hCompare, ← Rat.intCast_inj, ← Dyadic.toRat_intCast,
      ← Dyadic.toRat_intCast, Dyadic.toRat_inj]
    simp [compareOfLessAndEq_eq_eq]
  rw [le, Bool.or_eq_true, lt_ofInt_iff, hEqv, Int.le_iff_lt_or_eq]

/- So are numbers that are integers. -/
theorem lt_iff_of_integer?
    {x y : Number}
    {i j : Int}
    (hx : x.integer? = some i)
    (hy : y.integer? = some j) :
    x.lt y = true ↔ i < j := by
  rcases exists_ofWhole_eq hx with ⟨a, rfl, rfl⟩
  rcases exists_ofWhole_eq hy with ⟨b, rfl, rfl⟩
  cases a with
  | none =>
      cases b with
      | none => exact lt_ofInt_iff (i := 0) (j := 0)
      | some j => exact lt_ofInt_iff (i := 0)
  | some i =>
      cases b with
      | none => exact lt_ofInt_iff (j := 0)
      | some j => exact lt_ofInt_iff

/- Their order as numbers is that of the integers. -/
theorem cmp?_of_integer?
    {x y : Number}
    {i j : Int}
    (hx : x.integer? = some i)
    (hy : y.integer? = some j) :
    x.cmp? y = some (compare i j) := by
  have hOfInt (i j : Int) :
      (ofInt i).cmp? (ofInt j) = some (compare i j) := by
    change some (compareOfLessAndEq (i : Dyadic) (j : Dyadic)) =
      some (compareOfLessAndEq i j)
    simp only [compareOfLessAndEq,
      ← Dyadic.toRat_lt_toRat_iff, ← Dyadic.toRat_inj,
      Dyadic.toRat_intCast, Rat.intCast_lt_intCast,
      Rat.intCast_inj]
  rcases exists_ofWhole_eq hx with ⟨a, rfl, rfl⟩
  rcases exists_ofWhole_eq hy with ⟨b, rfl, rfl⟩
  cases a with
  | none =>
      cases b with
      | none => exact hOfInt 0 0
      | some j => exact hOfInt 0 j
  | some i =>
      cases b with
      | none => exact hOfInt i 0
      | some j => exact hOfInt i j

theorem lt_ofInt_iff_of_integer?
    {x : Number}
    {i j : Int}
    (h : x.integer? = some i) :
    x.lt (ofInt j) = true ↔ i < j :=
  lt_iff_of_integer? h (integer?_ofInt j)

theorem le_zero_iff_of_integer?
    {x : Number}
    {i : Int}
    (h : x.integer? = some i) :
    x.le 0 = true ↔ i ≤ 0 := by
  rcases exists_ofWhole_eq h with ⟨a, rfl, rfl⟩
  cases a with
  | none => exact le_ofInt_iff (i := 0) (j := 0)
  | some i => exact le_ofInt_iff (j := 0)

end Number

end CharSheet
