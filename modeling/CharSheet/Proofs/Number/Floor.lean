import CharSheet.Proofs.Number.Whole
import Mathlib.Algebra.Order.Field.Rat
import Mathlib.Tactic.FieldSimp
import Mathlib.Tactic.Linarith
import Mathlib.Tactic.Positivity

/-
  Whole parts of numbers.

  The floor of a number is the greatest integer that is at
  most the number, also where the number is infinite.  One can
  be taken from a binary64 without rounding as long as ones
  can be counted.

  Main declarations:
    * `Number.floor_finite`
    * `Number.ofInt_le_floor_iff`
    * `Number.min_clampToNat`
    * `Number.ofNat_clampToNat`
    * `Number.ofNat_clampToNat_eq`
    * `Number.ofNat_clampToNat_le`
    * `Number.IsBinary64`
    * `Number.exists_sub_one`
    * `Number.ofNat_succ_le`
-/

namespace CharSheet

namespace Number

variable {x : Number}
variable {d e : Dyadic}

------------------------------------------------------------
-- Order of Fractions
------------------------------------------------------------

theorem lt_finite_iff :
    (finite d).lt (finite e) = true ↔ d.toRat < e.toRat := by
  have hCompare :
      (finite d).cmp? (finite e) =
        some (compareOfLessAndEq d e) :=
    rfl
  rw [lt, hCompare, Dyadic.toRat_lt_toRat_iff]
  simp [compareOfLessAndEq_eq_lt]

theorem le_finite_iff :
    (finite d).le (finite e) = true ↔ d.toRat ≤ e.toRat := by
  have hCompare :
      (finite d).cmp? (finite e) =
        some (compareOfLessAndEq d e) :=
    rfl
  rw [le, Bool.or_eq_true, lt_finite_iff, eqv, hCompare,
    le_iff_lt_or_eq, Dyadic.toRat_inj]
  simp [compareOfLessAndEq_eq_eq]

theorem ofInt_le_finite_iff
    {i : Int} :
    (ofInt i).le (finite d) = true ↔ i ≤ d.toRat.floor := by
  rw [ofInt, le_finite_iff, Dyadic.toRat_intCast,
    Rat.le_floor_iff]

theorem floor_lt_zero_iff : d.toRat.floor < 0 ↔ d < 0 := by
  rw [← Dyadic.toRat_lt_toRat_iff, Dyadic.toRat_zero]
  exact Rat.floor_lt_iff

------------------------------------------------------------
-- Floors
------------------------------------------------------------

/- Without binary places, the floor of a fraction is left. -/
theorem roundDown_zero (d : Dyadic) :
    d.roundDown 0 = (d.toRat.floor : Dyadic) := by
  rw [← Dyadic.toDyadic_toRat, ← Dyadic.toRat_inj,
    Rat.toRat_toDyadic, Dyadic.toRat_intCast]
  simp

/- The floor of a fraction is an integer, and never `-0`. -/
theorem floor_finite (d : Dyadic) :
    (finite d).floor = ofInt d.toRat.floor := by
  change (if d.roundDown 0 = 0 then zero (decide (d < 0))
    else finite (d.roundDown 0)) = _
  rw [roundDown_zero]
  split
  · next hZero =>
      have hFloor : d.toRat.floor = 0 := by
        rwa [← Dyadic.toRat_inj, Dyadic.toRat_intCast,
          Dyadic.toRat_zero, Rat.intCast_eq_zero_iff] at hZero
      have hNonneg : ¬ d < 0 := by
        rw [← floor_lt_zero_iff]
        omega
      rw [hFloor, decide_eq_false hNonneg]
      rfl
  · rfl

theorem isNaN_floor (x : Number) :
    x.floor.isNaN = x.isNaN := by
  cases x with
  | finite d =>
      rw [floor_finite]
      rfl
  | nan negative => rfl
  | infinite negative => rfl
  | negZero => rfl

theorem isNaN_neg (x : Number) :
    x.neg.isNaN = x.isNaN := by
  cases x with
  | finite d =>
      rw [neg]
      split
      · rfl
      · rfl
  | nan negative => rfl
  | infinite negative => rfl
  | negZero => rfl

/- Integers are at most a number if at most its floor. -/
theorem ofInt_le_floor_iff
    {i : Int} :
    (ofInt i).le x.floor = true ↔ (ofInt i).le x = true := by
  cases x with
  | nan negative => rfl
  | infinite negative => rfl
  | negZero => rfl
  | finite d => rw [floor_finite, le_ofInt_iff, ofInt_le_finite_iff]

/- The larger of two counts is that of the numbers. -/
theorem ofNat_max (m n : Nat) :
    ofNat (Max.max m n) = Number.max (ofNat m) (ofNat n) := by
  change _ = if (ofInt m).lt (ofInt n) then ofNat n else ofNat m
  by_cases hLess : m < n
  · rw [if_pos (lt_ofInt_iff.mpr (by omega)),
      Nat.max_eq_right hLess.le]
  · rw [if_neg (mt lt_ofInt_iff.mp (by omega)),
      Nat.max_eq_left (by omega)]

------------------------------------------------------------
-- Whole Parts up to a Limit
------------------------------------------------------------

theorem clampToNat_finite
    (h : 0 ≤ d.toRat.floor)
    (limit : Nat) :
    (finite d).clampToNat limit =
      Min.min d.toRat.floor.toNat limit := by
  have hNonneg : ¬ d < 0 := by
    rw [← floor_lt_zero_iff]
    omega
  rw [clampToNat, if_neg hNonneg]

theorem clampToNat_le
    (x : Number)
    (limit : Nat) :
    x.clampToNat limit ≤ limit := by
  cases x with
  | nan negative => exact Nat.zero_le limit
  | negZero => exact Nat.zero_le limit
  | infinite negative =>
      rw [clampToNat]
      split
      · exact Nat.zero_le limit
      · exact Nat.le_refl limit
  | finite d =>
      rw [clampToNat]
      split
      · exact Nat.zero_le limit
      · exact Nat.min_le_right _ limit

/- Of two limits the lower one counts. -/
theorem min_clampToNat
    {lower limit : Nat}
    (h : lower ≤ limit)
    (x : Number) :
    Min.min (x.clampToNat limit) lower = x.clampToNat lower := by
  cases x with
  | nan negative => exact Nat.zero_min lower
  | negZero => exact Nat.zero_min lower
  | infinite negative =>
      cases negative with
      | true => exact Nat.zero_min lower
      | false => exact Nat.min_eq_right h
  | finite d =>
      simp only [clampToNat]
      split
      · exact Nat.zero_min lower
      · rw [Nat.min_assoc, Nat.min_eq_right h]

theorem one_le_clampToNat
    {limit : Nat}
    (h : Number.le 1 x = true)
    (hLimit : 1 ≤ limit) :
    1 ≤ x.clampToNat limit := by
  cases x with
  | nan negative => cases h
  | negZero => cases h
  | infinite negative =>
      cases negative with
      | true => cases h
      | false => exact hLimit
  | finite d =>
      have hOne : 1 ≤ d.toRat.floor :=
        ofInt_le_finite_iff.mp h
      rw [clampToNat_finite (by omega)]
      omega

/- Without a sign it is the floor, or the limit if smaller. -/
theorem ofNat_clampToNat_finite
    (h : 0 ≤ d.toRat.floor)
    (limit : Nat) :
    ofNat ((finite d).clampToNat limit) =
      (finite d).floor.min (ofNat limit) := by
  rw [clampToNat_finite h, floor_finite]
  change ofNat (Min.min d.toRat.floor.toNat limit) =
    if (ofInt limit).lt (ofInt d.toRat.floor) then
      ofInt limit
    else ofInt d.toRat.floor
  by_cases hLess : (limit : Int) < d.toRat.floor
  · rw [if_pos (lt_ofInt_iff.mpr hLess),
      Nat.min_eq_right (by omega)]
    rfl
  · have hFloor :
        (d.toRat.floor.toNat : Int) = d.toRat.floor := by
      omega
    rw [if_neg (mt lt_ofInt_iff.mp hLess),
      Nat.min_eq_left (by omega), ← hFloor]
    rfl

/-
  The whole part of a number from one on, up to a limit, is
  its floor or the limit, whichever is smaller.
-/
theorem ofNat_clampToNat
    (h : Number.le 1 x = true)
    (limit : Nat) :
    ofNat (x.clampToNat limit) = x.floor.min (ofNat limit) := by
  cases x with
  | nan negative => cases h
  | negZero => cases h
  | infinite negative =>
      cases negative with
      | true => cases h
      | false => rfl
  | finite d =>
      have hOne : 1 ≤ d.toRat.floor :=
        ofInt_le_finite_iff.mp h
      exact ofNat_clampToNat_finite (by omega) limit

/-
  In any case it is the floor of the number or of zero,
  whichever is larger, up to the limit.
-/
theorem ofNat_clampToNat_eq
    (x : Number)
    (limit : Nat) :
    ofNat (x.clampToNat limit) =
      (Number.max 0 x).floor.min (ofNat limit) := by
  have hZero : (Number.floor 0).min (ofNat limit) = 0 := by
    have hFloor : Number.floor 0 = 0 := by decide
    have hLimit : ¬ (ofNat limit).lt 0 = true := by
      intro hLess
      have hNeg := (lt_ofInt_iff (i := limit) (j := 0)).mp hLess
      omega
    rw [hFloor]
    exact if_neg hLimit
  cases x with
  | nan negative => exact hZero.symm
  | negZero => exact hZero.symm
  | infinite negative =>
      cases negative with
      | true => exact hZero.symm
      | false => rfl
  | finite d =>
      by_cases hLess : Number.lt 0 (finite d) = true
      · have hMax : Number.max 0 (finite d) = finite d :=
          if_pos hLess
        have hNonneg : 0 ≤ d.toRat.floor := by
          rw [Rat.le_floor_iff, Int.cast_zero,
            ← Dyadic.toRat_zero]
          exact (lt_finite_iff.mp hLess).le
        rw [hMax, ofNat_clampToNat_finite hNonneg]
      · have hMax : Number.max 0 (finite d) = 0 := if_neg hLess
        have hLe : d.toRat ≤ 0 := by
          rw [← Dyadic.toRat_zero]
          exact not_lt.mp (mt lt_finite_iff.mpr hLess)
        have hNone : (finite d).clampToNat limit = 0 := by
          rw [clampToNat]
          split
          · rfl
          · next hNot =>
              rw [← floor_lt_zero_iff] at hNot
              have hFloor : d.toRat.floor ≤ 0 := by
                rw [← Int.lt_add_one_iff, Rat.floor_lt_iff]
                exact_mod_cast lt_of_le_of_lt hLe one_pos
              have hZero : d.toRat.floor.toNat = 0 := by omega
              rw [hZero, Nat.zero_min]
        rw [hMax, hNone]
        exact hZero.symm

/- What is at most an integer is at most all above it. -/
theorem ofInt_le_trans
    {i j : Int}
    (hLe : i ≤ j)
    (h : (ofInt j).le x = true) :
    (ofInt i).le x = true := by
  cases x with
  | nan negative => cases h
  | negZero =>
      have hZero := (le_ofInt_iff (j := 0)).mp h
      exact (le_ofInt_iff (j := 0)).mpr (hLe.trans hZero)
  | infinite negative => exact h
  | finite d =>
      rw [ofInt_le_finite_iff] at h ⊢
      exact hLe.trans h

theorem le_self
    (h : x.isNaN = false) :
    x.le x = true := by
  cases x with
  | nan negative => cases h
  | negZero => rfl
  | infinite negative => cases negative <;> rfl
  | finite d => exact le_finite_iff.mpr le_rfl

/- The smaller number is at most the first one. -/
theorem min_le_left
    (h : x.isNaN = false)
    (y : Number) :
    (x.min y).le x = true := by
  rw [Number.min, h, if_neg Bool.false_ne_true]
  split
  · exact le_self h
  · split
    · next hLess => rw [le, hLess, Bool.true_or]
    · exact le_self h

theorem isNaN_max_zero (x : Number) :
    (Number.max 0 x).isNaN = false := by
  change (if x.isNaN then 0
    else if Number.lt 0 x then x else 0).isNaN = false
  split
  · rfl
  · next hNumber =>
      split
      · exact Bool.eq_false_iff.mpr hNumber
      · rfl

/- A whole part up to a limit is at most the floor. -/
theorem ofNat_clampToNat_le
    (x : Number)
    (limit : Nat) :
    (ofNat (x.clampToNat limit)).le (Number.max 0 x).floor =
      true := by
  rw [ofNat_clampToNat_eq]
  exact min_le_left ((isNaN_floor _).trans (isNaN_max_zero x)) _

------------------------------------------------------------
-- Counting Down
------------------------------------------------------------

/- If finite, the number is one that a binary64 can hold. -/
def IsBinary64 (x : Number) : Prop :=
  ∀ d, x = .finite d → Representable d

/- The limit is not passed by an integer that is one less. -/
theorem exists_representable_sub_one_of_whole
    {i : Int}
    (hOne : 1 ≤ (i : Rat))
    (hLimit : (i : Rat) ≤ countLimit) :
    ∃ e, Representable e ∧ e.toRat = i - 1 := by
  have hLower : 1 ≤ i := by exact_mod_cast hOne
  have hUpper : i ≤ countLimit := by exact_mod_cast hLimit
  refine ⟨((i - 1 : Int) : Dyadic),
    representable_intCast (by omega), ?_⟩
  rw [Dyadic.toRat_intCast, Rat.intCast_sub]
  rfl

/- A fraction that is one less has as many binary places. -/
theorem exists_representable_sub_one_of_odd
    {n : Int}
    {m : Nat}
    {hOdd : n % 2 = 1}
    (hPlaces : 0 < m)
    (h : Representable (.ofOdd n m hOdd))
    (hOne : 1 ≤ (Dyadic.ofOdd n m hOdd).toRat) :
    ∃ e, Representable e ∧
      e.toRat = (Dyadic.ofOdd n m hOdd).toRat - 1 := by
  have hValue (n : Int) (hOdd : n % 2 = 1) :
      (Dyadic.ofOdd n m hOdd).toRat = n / 2 ^ m := by
    rw [Dyadic.toRat_ofOdd_eq_mul_two_pow, zpow_neg,
      zpow_natCast, div_eq_mul_inv]
  rcases h with ⟨hBits, hExponent, -⟩
  have hPower : 0 < (2 : Rat) ^ m := by positivity
  have hLe : (2 : Int) ^ m ≤ n := by
    rw [hValue, le_div_iff₀ hPower, one_mul] at hOne
    exact_mod_cast hOne
  have hPositive : 0 < (2 : Int) ^ m := by positivity
  have hEven : (2 : Int) ^ m % 2 = 0 := by
    obtain ⟨k, rfl⟩ : ∃ k, m = k + 1 := ⟨m - 1, by omega⟩
    rw [pow_succ, Int.mul_emod_left]
  have hOdd' : (n - 2 ^ m) % 2 = 1 := by omega
  have hBits' : (n - 2 ^ m).natAbs < Nat.pow 2 precision := by
    omega
  refine ⟨.ofOdd (n - 2 ^ m) m hOdd', ⟨hBits', hExponent, ?_⟩,
    ?_⟩
  · have hLog : (n - 2 ^ m).natAbs.log2 < precision :=
      (Nat.log2_lt (by omega)).mpr hBits'
    simp only [maxExponent, precision] at hLog ⊢
    omega
  · rw [hValue, hValue]
    push_cast
    field_simp

/-
  One can be taken from a number without rounding, as long as
  ones can be counted up to it.
-/
theorem exists_sub_one
    (h : Representable d)
    (hOne : 1 ≤ d.toRat)
    (hLimit : d.toRat ≤ countLimit) :
    ∃ e, (finite d).sub 1 = finite e ∧ Representable e ∧
      e.toRat = d.toRat - 1 := by
  have hExact :
      ∃ e, Representable e ∧ e.toRat = d.toRat - 1 := by
    cases d with
    | zero => exact absurd hOne (by decide)
    | ofOdd n k hOdd =>
        by_cases hPlaces : k ≤ 0
        · have hWhole :
              wholePart? (.ofOdd n k hOdd) =
                some (n * Nat.pow 2 (-k).toNat) :=
            if_pos hPlaces
          have hRat := congrArg Dyadic.toRat
            (eq_intCast_of_wholePart? hWhole)
          rw [Dyadic.toRat_intCast] at hRat
          rw [hRat] at hOne hLimit ⊢
          exact exists_representable_sub_one_of_whole hOne hLimit
        · obtain ⟨m, rfl⟩ : ∃ m : Nat, k = m :=
            ⟨k.toNat, by omega⟩
          exact exists_representable_sub_one_of_odd (by omega) h
            hOne
  rcases hExact with ⟨e, hRepresentable, hValue⟩
  have hSum : d + (-1) = e := by
    rw [← Dyadic.toRat_inj, Dyadic.toRat_add, hValue]
    exact (sub_eq_add_neg d.toRat 1).symm
  refine ⟨e, ?_, hRepresentable, hValue⟩
  change nearest (d + (-1)) = finite e
  rw [hSum, nearest_of_representable hRepresentable]

theorem IsBinary64.neg
    (h : x.IsBinary64) :
    x.neg.IsBinary64 := by
  cases x with
  | nan negative => nofun
  | infinite negative => nofun
  | negZero =>
      intro e hEq
      cases hEq
      trivial
  | finite d =>
      intro e hEq
      rw [Number.neg] at hEq
      split at hEq
      · cases hEq
      · cases hEq
        have hFits := h d rfl
        cases d with
        | zero => exact hFits
        | ofOdd n k hOdd =>
            rcases hFits with ⟨hBits, hExponent, hLog⟩
            exact ⟨by rwa [Int.natAbs_neg], hExponent,
              by rwa [Int.natAbs_neg]⟩

/-
  What is left by one may be counted on by one: a number that
  is not below one is at least one more than what is at most
  the number less one.
-/
theorem ofNat_succ_le
    {n : Nat}
    (hNaN : x.isNaN = false)
    (hBinary : x.IsBinary64)
    (hOne : x.lt 1 = false)
    (hLimit : n + 1 ≤ countLimit)
    (h : 0 < n → (x.sub 1).isNaN = false →
      (x.sub 1).IsBinary64 → (ofNat n).le (x.sub 1) = true) :
    (ofNat (n + 1)).le x = true := by
  cases x with
  | nan negative => cases hNaN
  | negZero => cases hOne
  | infinite negative =>
      cases negative with
      | true => cases hOne
      | false => rfl
  | finite d =>
      have hValue (k : Nat) :
          (ofNat k).le (finite d) = true ↔ (k : Rat) ≤ d.toRat := by
        rw [← Dyadic.toRat_natCast]
        exact le_finite_iff
      have hLower : 1 ≤ d.toRat := by
        by_contra hLess
        have hBelow : (finite d).lt 1 = true :=
          lt_finite_iff.mpr (not_le.mp hLess)
        rw [hOne] at hBelow
        cases hBelow
      rw [hValue]
      rcases Nat.eq_zero_or_pos n with rfl | hPositive
      · exact_mod_cast hLower
      · by_cases hCounted : d.toRat ≤ countLimit
        · rcases exists_sub_one (hBinary d rfl) hLower hCounted with
            ⟨e, hSub, hFits, hLeft⟩
          have hRest := h hPositive
          rw [hSub] at hRest
          have hLe : (n : Rat) ≤ e.toRat := by
            rw [← Dyadic.toRat_natCast]
            apply le_finite_iff.mp
            apply hRest rfl
            rintro _ ⟨⟩
            exact hFits
          rw [hLeft] at hLe
          push_cast
          linarith
        · have hSmall : ((n + 1 : Nat) : Rat) ≤ countLimit := by
            exact_mod_cast hLimit
          exact hSmall.trans (not_le.mp hCounted).le

/- What is above a positive count is positive. -/
theorem zero_lt_of_ofNat_le
    {n : Nat}
    (hPositive : 0 < n)
    (h : (ofNat n).le x = true) :
    Number.lt 0 x = true := by
  cases x with
  | nan negative => cases h
  | negZero =>
      have hLe := (le_ofInt_iff (i := n) (j := 0)).mp h
      omega
  | infinite negative =>
      cases negative with
      | true => cases h
      | false => rfl
  | finite d =>
      have hLe := le_finite_iff.mp h
      have hCast : (0 : Rat) < n := by exact_mod_cast hPositive
      rw [Dyadic.toRat_natCast] at hLe
      exact lt_finite_iff.mpr (lt_of_lt_of_le hCast hLe)

/- A count is at most a number or zero, whichever is larger. -/
theorem ofNat_le_max_zero
    {n : Nat}
    (hNaN : x.isNaN = false)
    (h : 0 < n → (ofNat n).le x = true) :
    (ofNat n).le (Number.max 0 x) = true := by
  have hMax :
      Number.max 0 x = if Number.lt 0 x then x else 0 := by
    change (if x.isNaN then 0
      else if Number.lt 0 x then x else 0) = _
    rw [hNaN]
    rfl
  rw [hMax]
  rcases Nat.eq_zero_or_pos n with rfl | hPositive
  · split
    · next hLess => exact (Bool.or_eq_true _ _).mpr (.inl hLess)
    · rfl
  · rw [if_pos (zero_lt_of_ofNat_le hPositive (h hPositive))]
    exact h hPositive

end Number

end CharSheet
