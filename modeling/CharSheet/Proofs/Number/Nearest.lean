import CharSheet.Proofs.Number.Floor
import Mathlib.Algebra.Order.Field.Power
import Mathlib.Data.Int.Log
import Mathlib.Data.Rat.Floor
import Mathlib.Tactic.Linarith

/-
  The rounding of fractions keeps their order.

  A fraction that is at least zero is rounded to a multiple of
  the power of two in its last place.  Larger fractions have
  coarser places, and a power of two that lies between two
  fractions is a multiple of both.

  Main declarations:
    * `Number.nearestEven_mono`
    * `Number.rounded`
    * `Number.rounded_mono`
    * `Number.representable_of_eq_mul`
    * `Number.rounded_natCast_mul`
    * `Number.rounded_of_representable`
    * `Number.ofRat_cases`
    * `Number.nearest_eq_ofRat`
    * `Number.ofRat_mono`
-/

namespace CharSheet

namespace Number

variable {q r : Rat}
variable {d : Dyadic}

------------------------------------------------------------
-- Nearest Integers
------------------------------------------------------------

/- The nearest integer is at most one half away. -/
theorem abs_nearestEven_sub_le (q : Rat) :
    |(nearestEven q : Rat) - q| ≤ 1 / 2 := by
  have hLower : (q.floor : Rat) ≤ q := Rat.floor_le q
  have hUpper : q < (q.floor : Rat) + 1 := by
    have hNext := Rat.lt_floor_add_one q
    push_cast at hNext
    exact hNext
  rw [abs_le]
  simp only [nearestEven]
  split
  · constructor <;> linarith
  · split
    · push_cast
      constructor <;> linarith
    · rcases Int.emod_two_eq_zero_or_one q.floor with hEven | hOdd
      · rw [hEven]
        push_cast
        constructor <;> linarith
      · rw [hOdd]
        push_cast
        constructor <;> linarith

theorem nearestEven_mono
    (h : q ≤ r) :
    nearestEven q ≤ nearestEven r := by
  by_contra hLess
  have hStep : (nearestEven r : Rat) + 1 ≤ nearestEven q := by
    exact_mod_cast Int.add_one_le_iff.mpr (not_le.mp hLess)
  have hFirst := abs_le.mp (abs_nearestEven_sub_le q)
  have hSecond := abs_le.mp (abs_nearestEven_sub_le r)
  -- The two fractions would have to be the same half.
  have hSame : q = r := by linarith [hFirst.2, hSecond.1]
  rw [hSame] at hLess
  exact hLess le_rfl

theorem nearestEven_intCast (i : Int) :
    nearestEven (i : Rat) = i := by
  have hFloor : (i : Rat).floor = i := Rat.floor_intCast i
  simp only [nearestEven, hFloor, sub_self]
  rw [if_pos (by norm_num)]

------------------------------------------------------------
-- Binades
------------------------------------------------------------

theorem powerOfTwo_eq_zpow (e : Int) :
    powerOfTwo e = (2 : Rat) ^ e := by
  cases e with
  | ofNat k =>
      change ((2 ^ k : Nat) : Rat) = 2 ^ (k : Int)
      rw [zpow_natCast, Nat.cast_pow, Nat.cast_ofNat]
  | negSucc k =>
      change mkRat 1 (2 ^ (k + 1)) = _
      rw [Rat.mkRat_eq_div, zpow_negSucc, Int.cast_one, one_div,
        Nat.cast_pow, Nat.cast_ofNat]

theorem zpow_log2_le
    {n : Nat}
    (h : n ≠ 0) :
    (2 : Rat) ^ (n.log2 : Int) ≤ n := by
  exact_mod_cast Nat.log2_self_le h

theorem lt_zpow_log2_add_one (n : Nat) :
    (n : Rat) < 2 ^ ((n.log2 : Int) + 1) := by
  exact_mod_cast Nat.lt_log2_self (n := n)

/- A quotient lies between the powers of its parts. -/
theorem zpow_log2_bounds
    (h : 0 < q) :
    let k : Int := (q.num.natAbs.log2 : Int) - q.den.log2
    2 ^ (k - 1) < q ∧ q < 2 ^ (k + 1) := by
  have hNum : 0 < q.num := Rat.num_pos.mpr h
  have hAbs : ((q.num.natAbs : Nat) : Rat) = q * q.den := by
    rw [Rat.mul_den_eq_num, ← Int.natAbs_of_nonneg hNum.le]
    rfl
  have hDen : (0 : Rat) < q.den := by exact_mod_cast q.den_pos
  have hNumLower := zpow_log2_le (n := q.num.natAbs) (by omega)
  have hNumUpper := lt_zpow_log2_add_one q.num.natAbs
  have hDenLower := zpow_log2_le q.den_nz
  have hDenUpper := lt_zpow_log2_add_one q.den
  rw [hAbs] at hNumLower hNumUpper
  dsimp only
  generalize (q.num.natAbs.log2 : Int) = m at *
  generalize (q.den.log2 : Int) = n at *
  constructor
  · have hLess : 2 ^ (m - n - 1) * (q.den : Rat) < q * q.den :=
      calc 2 ^ (m - n - 1) * (q.den : Rat)
          < 2 ^ (m - n - 1) * 2 ^ (n + 1) := by gcongr
        _ = 2 ^ m := by
            rw [← zpow_add₀ two_ne_zero]
            congr 1
            omega
        _ ≤ q * q.den := hNumLower
    exact lt_of_mul_lt_mul_right hLess hDen.le
  · have hLess : q * 2 ^ n < 2 ^ (m - n + 1) * (2 : Rat) ^ n :=
      calc q * 2 ^ n ≤ q * q.den := by gcongr
        _ < 2 ^ (m + 1) := hNumUpper
        _ = 2 ^ (m - n + 1) * 2 ^ n := by
            rw [← zpow_add₀ two_ne_zero]
            congr 1
            omega
    exact lt_of_mul_lt_mul_right hLess (by positivity)

/- So its exponent is the difference of theirs, or one less. -/
theorem floorLog2_eq_log
    (h : 0 < q) :
    floorLog2 q = Int.log 2 q := by
  rcases zpow_log2_bounds h with ⟨hLower, hUpper⟩
  have hBase : (1 : Nat) < 2 := one_lt_two
  have hPower (k : Int) :
      (2 : Rat) ^ k ≤ q ↔ k ≤ Int.log 2 q :=
    Int.zpow_le_iff_le_log hBase h
  have hFirst := (hPower _).mp hLower.le
  have hSecond := (Int.lt_zpow_iff_log_lt hBase h).mp hUpper
  simp only [floorLog2, powerOfTwo_eq_zpow]
  split
  · next hLe =>
      rw [hPower] at hLe
      omega
  · next hLess =>
      rw [hPower] at hLess
      omega

------------------------------------------------------------
-- Rounding to a Grid
------------------------------------------------------------

/- The multiple of a power of two nearest to a fraction. -/
def roundedAt (e : Int) (q : Rat) : Rat :=
  nearestEven (q / 2 ^ e) * 2 ^ e

theorem roundedAt_mono
    (e : Int)
    (h : q ≤ r) :
    roundedAt e q ≤ roundedAt e r := by
  have hScaled : q / (2 : Rat) ^ e ≤ r / 2 ^ e := by gcongr
  have hInteger : (nearestEven (q / 2 ^ e) : Rat) ≤
      nearestEven (r / 2 ^ e) := by
    exact_mod_cast nearestEven_mono hScaled
  unfold roundedAt
  gcongr

/- What is on a grid stays where it is. -/
theorem roundedAt_intCast_mul
    (i e : Int) :
    roundedAt e (i * 2 ^ e) = i * 2 ^ e := by
  have hNonzero : (2 : Rat) ^ e ≠ 0 := by positivity
  rw [roundedAt, mul_div_cancel_right₀ _ hNonzero,
    nearestEven_intCast]

/- A coarser place is on the grid of a finer one. -/
theorem intCast_mul_zpow
    {e l : Int}
    (hLe : e ≤ l)
    (i : Int) :
    (i : Rat) * 2 ^ l =
      ((i * 2 ^ (l - e).toNat : Int) : Rat) * 2 ^ e := by
  have hSplit : (2 : Rat) ^ l = 2 ^ (l - e).toNat * 2 ^ e := by
    rw [← zpow_natCast, ← zpow_add₀ two_ne_zero]
    congr 1
    omega
  rw [hSplit]
  push_cast
  ring

theorem roundedAt_zpow
    {e l : Int}
    (h : e ≤ l) :
    roundedAt e (2 ^ l) = 2 ^ l := by
  have hGrid := intCast_mul_zpow h 1
  rw [Int.cast_one, one_mul] at hGrid
  rw [hGrid, roundedAt_intCast_mul]

------------------------------------------------------------
-- Rounding
------------------------------------------------------------

/-
  The nearest fraction that has at most 53 significant bits
  and no place below the least one of a binary64.  It may be
  beyond the range of a binary64.
-/
def rounded (q : Rat) : Rat :=
  roundedAt (quantumExponent q) q

theorem quantumExponent_eq
    (h : 0 < q) :
    quantumExponent q = Max.max (Int.log 2 q - 52) (-1074) := by
  rw [quantumExponent, floorLog2_eq_log h]
  rfl

theorem rounded_zero : rounded 0 = 0 := by
  have hZero := roundedAt_intCast_mul 0 (quantumExponent 0)
  rw [Int.cast_zero, zero_mul] at hZero
  exact hZero

theorem rounded_nonneg
    (h : 0 ≤ q) :
    0 ≤ rounded q := by
  have hZero := roundedAt_intCast_mul 0 (quantumExponent q)
  rw [Int.cast_zero, zero_mul] at hZero
  rw [← hZero]
  exact roundedAt_mono _ h

/-
  Rounding keeps the order.  Where the places of the larger
  fraction are coarser, its power of two lies between the two
  fractions, and between those that they are rounded to.
-/
theorem rounded_mono
    (h : 0 ≤ q)
    (hLe : q ≤ r) :
    rounded q ≤ rounded r := by
  rcases h.eq_or_lt with rfl | hPositive
  · rw [rounded_zero]
    exact rounded_nonneg hLe
  have hPositive' : 0 < r := hPositive.trans_le hLe
  have hLog : Int.log 2 q ≤ Int.log 2 r :=
    Int.log_mono_right hPositive hLe
  have hFirst := quantumExponent_eq hPositive
  have hSecond := quantumExponent_eq hPositive'
  by_cases hSame : quantumExponent q = quantumExponent r
  · rw [rounded, rounded, hSame]
    exact roundedAt_mono _ hLe
  · have hBelow : q ≤ 2 ^ Int.log 2 r := by
      apply le_of_lt
      have hLess : Int.log 2 q < Int.log 2 r := by omega
      exact (Int.lt_zpow_iff_log_lt one_lt_two hPositive).mpr
        hLess
    have hAbove : (2 : Rat) ^ Int.log 2 r ≤ r :=
      Int.zpow_log_le_self one_lt_two hPositive'
    calc rounded q
        ≤ roundedAt (quantumExponent q) (2 ^ Int.log 2 r) :=
          roundedAt_mono _ hBelow
      _ = 2 ^ Int.log 2 r := roundedAt_zpow (by omega)
      _ = roundedAt (quantumExponent r) (2 ^ Int.log 2 r) :=
          (roundedAt_zpow (by omega)).symm
      _ ≤ rounded r := roundedAt_mono _ hAbove

------------------------------------------------------------
-- Representable Fractions
------------------------------------------------------------

/- The exponent of a count is shifted by a power of two. -/
theorem log_natCast_mul_zpow
    {n : Nat}
    (h : n ≠ 0)
    (k : Int) :
    Int.log 2 ((n : Rat) * 2 ^ k) = n.log2 + k := by
  have hBase : (1 : Nat) < 2 := one_lt_two
  have hPositive : (0 : Rat) < n * 2 ^ k := by positivity
  have hLower : ((2 : Nat) : Rat) ^ ((n.log2 : Int) + k) ≤
      n * 2 ^ k := by
    rw [Nat.cast_ofNat, zpow_add₀ two_ne_zero]
    have hLog := zpow_log2_le h
    gcongr
  have hUpper : (n : Rat) * 2 ^ k <
      ((2 : Nat) : Rat) ^ ((n.log2 : Int) + k + 1) := by
    have hLog := lt_zpow_log2_add_one n
    rw [Nat.cast_ofNat, add_right_comm, zpow_add₀ two_ne_zero _ k]
    gcongr
  rw [Int.zpow_le_iff_le_log hBase hPositive] at hLower
  rw [Int.lt_zpow_iff_log_lt hBase hPositive] at hUpper
  omega

theorem abs_toRat_ofOdd
    (n k : Int)
    (hOdd : n % 2 = 1) :
    |(Dyadic.ofOdd n k hOdd).toRat| =
      (n.natAbs : Rat) * 2 ^ (-k) := by
  rw [Dyadic.toRat_ofOdd_eq_mul_two_pow, abs_mul,
    abs_of_pos (by positivity : (0 : Rat) < 2 ^ (-k)),
    Nat.cast_natAbs, Int.cast_abs]

/-
  A fraction of at most 53 bits on the grid of some place
  fits a binary64, if its size is within the range.
-/
theorem representable_of_eq_mul
    {m e : Int}
    (hBits : m.natAbs ≤ 2 ^ precision)
    (hPlace : minExponent ≤ e)
    (hRange : |d.toRat| < 2 ^ maxExponent)
    (h : d.toRat = m * 2 ^ e) :
    Representable d := by
  cases d with
  | zero => trivial
  | ofOdd n k hOdd =>
      have hNonzero : n.natAbs ≠ 0 := by omega
      rw [abs_toRat_ofOdd] at hRange
      rw [Dyadic.toRat_ofOdd_eq_mul_two_pow] at h
      -- An odd part has no place below that of the grid.
      have hShift : e ≤ -k := by
        by_contra hLess
        have hGrid := intCast_mul_zpow (by omega : -k ≤ e) m
        rw [hGrid] at h
        have hPower : (2 : Rat) ^ (-k) ≠ 0 := by positivity
        have hEven := mul_right_cancel₀ hPower h
        have hEq : n = m * 2 ^ (e - -k).toNat := by
          exact_mod_cast hEven
        obtain ⟨t, ht⟩ : ∃ t, (e - -k).toNat = t + 1 :=
          ⟨(e - -k).toNat - 1, by omega⟩
        rw [ht, pow_succ, ← mul_assoc] at hEq
        omega
      have hGrid := intCast_mul_zpow hShift n
      rw [hGrid] at h
      have hPower : (2 : Rat) ^ e ≠ 0 := by positivity
      have hEq : n * 2 ^ (-k - e).toNat = m := by
        exact_mod_cast mul_right_cancel₀ hPower h
      have hLe : n.natAbs ≤ m.natAbs := by
        rw [← hEq, Int.natAbs_mul, Int.natAbs_pow]
        exact Nat.le_mul_of_pos_right _ (Nat.two_pow_pos _)
      have hEven : 2 ^ precision % 2 = 0 := by decide
      have hLog : (n.natAbs.log2 : Int) + -k < maxExponent := by
        rw [← log_natCast_mul_zpow hNonzero]
        exact (Int.lt_zpow_iff_log_lt one_lt_two
          (by positivity)).mp hRange
      refine ⟨?_, ?_, by omega⟩
      · change n.natAbs < 2 ^ precision
        omega
      · omega

theorem lt_of_representable
    (h : Representable d) :
    |d.toRat| < 2 ^ maxExponent := by
  cases d with
  | zero => positivity
  | ofOdd n k hOdd =>
      have hNonzero : n.natAbs ≠ 0 := by omega
      rcases h with ⟨-, -, hLog⟩
      rw [abs_toRat_ofOdd]
      apply (Int.lt_zpow_iff_log_lt one_lt_two
        (by positivity)).mpr
      rw [log_natCast_mul_zpow hNonzero]
      omega

/- A count below the limit is kept at any place. -/
theorem rounded_natCast_mul
    {n : Nat}
    {e : Int}
    (hBits : n < 2 ^ precision)
    (hPlace : minExponent ≤ e) :
    rounded (n * 2 ^ e) = n * 2 ^ e := by
  by_cases hNone : n = 0
  · rw [hNone, Nat.cast_zero, zero_mul, rounded_zero]
  · have hLog : n.log2 < precision :=
      (Nat.log2_lt hNone).mpr hBits
    have hQuantum : quantumExponent ((n : Rat) * 2 ^ e) ≤ e := by
      rw [quantumExponent_eq (by positivity),
        log_natCast_mul_zpow hNone]
      simp only [precision, minExponent] at hLog hPlace
      omega
    have hGrid := intCast_mul_zpow hQuantum n
    rw [Int.cast_natCast] at hGrid
    rw [rounded]
    generalize quantumExponent _ = l at *
    rw [hGrid, roundedAt_intCast_mul]

/- What a binary64 can hold is rounded to itself. -/
theorem rounded_of_representable
    (h : Representable d)
    (hNonneg : 0 ≤ d.toRat) :
    rounded d.toRat = d.toRat := by
  cases d with
  | zero => exact rounded_zero
  | ofOdd n k hOdd =>
      have hValue := abs_toRat_ofOdd n k hOdd
      rw [abs_of_nonneg hNonneg] at hValue
      rcases h with ⟨hBits, hPlaces, -⟩
      rw [hValue, rounded_natCast_mul hBits (by omega)]

------------------------------------------------------------
-- Nearest Numbers
------------------------------------------------------------

/- A fraction has at most 53 bits before its last place. -/
theorem exists_rounded_eq
    (h : 0 < q) :
    ∃ m : Nat, m ≤ 2 ^ precision ∧
      nearestEven (q / powerOfTwo (quantumExponent q)) = m ∧
      rounded q = m * 2 ^ quantumExponent q := by
  have hQuantum := quantumExponent_eq h
  have hRounded : rounded q =
      roundedAt (quantumExponent q) q := rfl
  have hLog : Int.log 2 q < 53 + quantumExponent q := by omega
  generalize quantumExponent q = e at *
  have hPower : (0 : Rat) < 2 ^ e := by positivity
  rw [← Int.lt_zpow_iff_log_lt one_lt_two h, Nat.cast_ofNat,
    zpow_add₀ two_ne_zero] at hLog
  have hScaled : q / 2 ^ e ≤ ((2 ^ precision : Int) : Rat) := by
    rw [div_le_iff₀ hPower]
    exact_mod_cast hLog.le
  have hUpper := nearestEven_mono hScaled
  rw [nearestEven_intCast] at hUpper
  have hPositive : ((0 : Int) : Rat) ≤ q / 2 ^ e := by
    rw [Int.cast_zero]
    positivity
  have hLower := nearestEven_mono hPositive
  rw [nearestEven_intCast] at hLower
  obtain ⟨m, hm⟩ := Int.eq_ofNat_of_zero_le hLower
  refine ⟨m, ?_, ?_, ?_⟩
  · rw [hm] at hUpper
    exact_mod_cast hUpper
  · rw [powerOfTwo_eq_zpow, hm]
  · rw [hRounded, roundedAt, hm, Int.cast_natCast]

/-
  A fraction that is at least zero becomes the number that it
  is rounded to, or infinite if that is beyond the range.
-/
theorem ofRat_cases
    (h : 0 ≤ q) :
    (2 ^ maxExponent ≤ rounded q ∧ ofRat q = .infinite false) ∨
      ∃ d, ofRat q = .finite d ∧ d.toRat = rounded q ∧
        Representable d := by
  have hZero : ofRat 0 = .finite 0 := rfl
  rcases h.eq_or_lt with rfl | hPositive
  · exact .inr ⟨0, hZero, rounded_zero.symm, trivial⟩
  rcases exists_rounded_eq hPositive with ⟨m, hBits, hm, hRounded⟩
  have hPlace : minExponent ≤ quantumExponent q := le_max_right ..
  have hUnfold :
      ofRat q =
        if m = 0 then zero false
        else if maxExponent ≤ (m.log2 : Int) + quantumExponent q
          then .infinite false
        else .finite (.ofIntWithPrec m (-quantumExponent q)) := by
    rw [ofRat, if_neg (not_lt.mpr h), ofMagnitude,
      if_neg (not_le.mpr hPositive)]
    simp only [hm, Int.natAbs_natCast, Bool.false_eq_true,
      if_false]
  rw [hUnfold]
  by_cases hNone : m = 0
  · rw [if_pos hNone]
    refine .inr ⟨0, rfl, ?_, trivial⟩
    rw [hRounded, hNone, Nat.cast_zero, zero_mul,
      Dyadic.toRat_zero]
  rw [if_neg hNone]
  have hLarge : (2 : Rat) ^ maxExponent ≤ rounded q ↔
      maxExponent ≤ (m.log2 : Int) + quantumExponent q := by
    rw [hRounded, ← log_natCast_mul_zpow hNone]
    exact Int.zpow_le_iff_le_log one_lt_two (by positivity)
  by_cases hInfinite :
      maxExponent ≤ (m.log2 : Int) + quantumExponent q
  · exact .inl ⟨hLarge.mpr hInfinite, if_pos hInfinite⟩
  · rw [if_neg hInfinite]
    have hValue :
        (Dyadic.ofIntWithPrec m (-quantumExponent q)).toRat =
          rounded q := by
      rw [Dyadic.toRat_ofIntWithPrec_eq_mul_two_pow, hRounded,
        neg_neg, Int.cast_natCast]
    refine .inr ⟨_, rfl, hValue, ?_⟩
    apply representable_of_eq_mul (m := m) hBits hPlace
    · rw [hValue, abs_of_nonneg (rounded_nonneg h)]
      exact not_le.mp (mt hLarge.mp hInfinite)
    · rw [hValue, hRounded, Int.cast_natCast]

/- A number that fits is nearest to its own fraction. -/
theorem ofRat_toRat
    (h : Representable d)
    (hNonneg : 0 ≤ d.toRat) :
    ofRat d.toRat = .finite d := by
  have hSame := rounded_of_representable h hNonneg
  rcases ofRat_cases hNonneg with
    ⟨hLarge, -⟩ | ⟨e, hFinite, hValue, -⟩
  · have hRange := lt_of_representable h
    rw [abs_of_nonneg hNonneg] at hRange
    rw [hSame] at hLarge
    exact absurd hRange (not_lt.mpr hLarge)
  · rw [hSame, Dyadic.toRat_inj] at hValue
    rw [hFinite, hValue]

theorem ofRat_natCast
    {n : Nat}
    (h : n ≤ countLimit) :
    ofRat (n : Rat) = ofNat n := by
  have hFits : Representable (n : Dyadic) :=
    representable_intCast (i := n) h
  have hSame := ofRat_toRat hFits
  rw [Dyadic.toRat_natCast] at hSame
  exact hSame (Nat.cast_nonneg n)

theorem nearest_eq_ofRat
    (h : 0 ≤ d.toRat) :
    nearest d = ofRat d.toRat := by
  by_cases hFits : Representable d
  · rw [nearest_of_representable hFits, ofRat_toRat hFits h]
  · rw [nearest, if_neg hFits]

end Number

end CharSheet
