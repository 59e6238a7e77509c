import CharSheet.Proofs.Number.Nearest
import CharSheet.Proofs.Random.Outcome

/-
  Draws by weights.

  Weights are added from the left.  Few of them have a finite
  sum, which is zero only if all of them are, so that there is
  a position to be drawn.

  Main declarations:
    * `Number.IsWeight`
    * `Number.IsWeight.add`
    * `Number.isWeight_foldl`
    * `Number.areWeights`
    * `Random.ensures_weighted`
-/

namespace CharSheet

namespace Number

variable {x y : Number}
variable {a b c : Rat}

------------------------------------------------------------
-- Weights
------------------------------------------------------------

/-
  A weight is a binary64 that is zero, or from one on and up
  to a limit.
-/
def IsWeight (limit : Rat) (x : Number) : Prop :=
  ∃ d, x = .finite d ∧ Representable d ∧
    (d = 0 ∨ 1 ≤ d.toRat) ∧ d.toRat ≤ limit

theorem isWeight_ofNat
    {n : Nat}
    (hCounted : n ≤ countLimit)
    (hLimit : (n : Rat) ≤ a) :
    IsWeight a (ofNat n) := by
  refine ⟨n, rfl, representable_intCast (i := n) hCounted, ?_, ?_⟩
  · rw [← Dyadic.toRat_inj, Dyadic.toRat_natCast,
      Dyadic.toRat_zero]
    rcases Nat.eq_zero_or_pos n with rfl | hPositive
    · exact .inl Nat.cast_zero
    · exact .inr (by exact_mod_cast hPositive)
  · rw [Dyadic.toRat_natCast]
    exact hLimit

theorem isZero_finite_iff
    {d : Dyadic} :
    (finite d).isZero = true ↔ d = 0 :=
  decide_eq_true_iff

theorem isZero_ofNat_iff
    {n : Nat} :
    (ofNat n).isZero = true ↔ n = 0 := by
  rw [ofNat, isZero_finite_iff, ← Dyadic.toRat_inj,
    Dyadic.toRat_natCast, Dyadic.toRat_zero, Nat.cast_eq_zero]

/- What is zero or from one on is rounded to the like. -/
theorem rounded_weight
    (h : a = 0 ∨ 1 ≤ a) :
    rounded a = 0 ∧ a = 0 ∨ 1 ≤ rounded a ∧ 1 ≤ a := by
  rcases h with rfl | hOne
  · exact .inl ⟨rounded_zero, rfl⟩
  · have hSame := rounded_natCast_mul (n := 1) (e := 0)
      (by decide) (by decide)
    rw [Nat.cast_one, zpow_zero, one_mul] at hSame
    have hMono := rounded_mono zero_le_one hOne
    rw [hSame] at hMono
    exact .inr ⟨hMono, hOne⟩

/-
  The sum of two weights is one up to a limit that the limits
  together are rounded to.  It is zero only if both are.
-/
theorem IsWeight.add
    (hx : IsWeight a x)
    (hy : IsWeight b y)
    (hLimit : rounded (a + b) ≤ c)
    (hRange : c < 2 ^ maxExponent) :
    IsWeight c (x.add y) ∧
      ((x.add y).isZero = true ↔
        x.isZero = true ∧ y.isZero = true) := by
  rcases hx with ⟨d, rfl, -, hd, hdLimit⟩
  rcases hy with ⟨e, rfl, -, he, heLimit⟩
  simp only [IsWeight, isZero_finite_iff, ← Dyadic.toRat_inj,
    Dyadic.toRat_zero] at hd he ⊢
  have hSum : d.toRat + e.toRat = 0 ∨ 1 ≤ d.toRat + e.toRat := by
    grind
  have hNonneg : 0 ≤ d.toRat + e.toRat := by grind
  have hRounded : rounded (d.toRat + e.toRat) ≤ c :=
    (rounded_mono hNonneg (by linarith)).trans hLimit
  have hAdd : (finite d).add (finite e) =
      ofRat (d.toRat + e.toRat) := by
    rw [← Dyadic.toRat_add] at hNonneg ⊢
    exact nearest_eq_ofRat hNonneg
  rcases ofRat_cases hNonneg with
    ⟨hLarge, -⟩ | ⟨f, hFinite, hValue, hFits⟩
  · exact absurd (hLarge.trans hRounded) (not_le.mpr hRange)
  · have hWeight := rounded_weight hSum
    rw [← hValue] at hRounded hWeight
    rw [hAdd, hFinite, isZero_finite_iff, ← Dyadic.toRat_inj,
      Dyadic.toRat_zero]
    refine ⟨⟨f, rfl, hFits, by grind, hRounded⟩, by grind⟩

------------------------------------------------------------
-- Sums
------------------------------------------------------------

/-
  Limits for the sums of weights: the limit of each sum and
  that of one more weight are rounded to the next limit.
-/
structure AreLimits
    (weight : Rat)
    (limit : Nat → Rat)
    (last : Nat) : Prop where
  step : ∀ i < last, rounded (limit i + weight) ≤ limit (i + 1)
  range : ∀ i < last, limit (i + 1) < 2 ^ maxExponent

section Sums

variable {weight : Rat}
variable {limit : Nat → Rat}
variable {n last : Nat}
variable {ws : List Number}

theorem isWeight_foldl
    (hLimits : AreLimits weight limit last)
    (hWs : ∀ w ∈ ws, IsWeight weight w)
    (hx : IsWeight (limit n) x)
    (hLast : n + ws.length ≤ last) :
    IsWeight (limit (n + ws.length))
        (ws.foldl (·.add ·) x) ∧
      ((ws.foldl (·.add ·) x).isZero = true ↔
        x.isZero = true ∧ ∀ w ∈ ws, w.isZero = true) := by
  induction ws generalizing x n with
  | nil => simpa using hx
  | cons w ws ih =>
      rcases List.forall_mem_cons.mp hWs with ⟨hw, hWs⟩
      rw [List.length_cons, Nat.add_comm ws.length,
        ← Nat.add_assoc] at hLast ⊢
      have hAdd := hx.add hw (hLimits.step n (by omega))
        (hLimits.range n (by omega))
      rcases ih hWs hAdd.1 hLast with ⟨hWeight, hZero⟩
      rw [List.foldl_cons, List.forall_mem_cons, hZero, hAdd.2,
        and_assoc]
      exact ⟨hWeight, Iff.rfl⟩

theorem two_pow_lt_maxExponent
    {k : Nat}
    (h : (k : Int) < maxExponent) :
    (2 : Rat) ^ k < 2 ^ maxExponent := by
  rw [← zpow_natCast]
  exact zpow_lt_zpow_right₀ one_lt_two h

/- Words of 32 bits never add up to more than one limit. -/
theorem areLimits_words (last : Nat) :
    AreLimits (2 ^ 32) (fun _ => 2 ^ 90) last where
  step _ _ := by decide +kernel
  range _ _ := two_pow_lt_maxExponent (by decide)

/- Few weights add up to a multiple of their limit. -/
theorem areLimits_multiples
    (h : last < 2 ^ precision) :
    AreLimits (2 ^ 90) (fun i => i * 2 ^ 90) last where
  step i hi := by
    have hSame := rounded_natCast_mul (n := i + 1) (e := 90)
      (by omega) (by decide)
    have hNext : (i : Rat) * 2 ^ 90 + 2 ^ 90 =
        ((i + 1 : Nat) : Rat) * 2 ^ (90 : Int) := by
      push_cast
      ring
    rw [hNext, hSame]
    rfl
  range i hi := by
    have hCount : ((i + 1 : Nat) : Rat) ≤ 2 ^ precision := by
      exact_mod_cast (show i + 1 ≤ 2 ^ precision by omega)
    calc ((i + 1 : Nat) : Rat) * 2 ^ 90
        ≤ 2 ^ precision * 2 ^ 90 := by gcongr
      _ = 2 ^ (precision + 90) := (pow_add 2 _ _).symm
      _ < 2 ^ maxExponent :=
          two_pow_lt_maxExponent (by decide)

end Sums

end Number

------------------------------------------------------------
-- Positions
------------------------------------------------------------

namespace Number

/- Weights are not negative. -/
theorem IsWeight.zero_le (h : IsWeight a x) :
    Number.le 0 x = true := by
  rcases h with ⟨d, rfl, -, hd, -⟩
  apply le_finite_iff.mpr
  rw [Dyadic.toRat_natCast, Nat.cast_zero]
  rcases hd with rfl | hOne
  · exact le_rfl
  · exact zero_le_one.trans hOne

theorem IsWeight.isFinite (h : IsWeight a x) :
    x.isFinite = true := by
  rcases h with ⟨d, rfl, -⟩
  rfl

/- Few numbers that are weights have a sum. -/
theorem areWeights
    {ws : List Number}
    (hWs : ∀ w ∈ ws, IsWeight (2 ^ 90) w)
    (hFew : ws.length < 2 ^ precision) :
    AreWeights ws where
  nonneg := fun w hw => (hWs w hw).zero_le
  sum :=
    have hStart : IsWeight ((0 : Nat) * 2 ^ 90) 0 :=
      isWeight_ofNat (n := 0) (Nat.zero_le _) (by simp)
    (isWeight_foldl (areLimits_multiples hFew) hWs hStart
      (Nat.zero_add _).le).1.isFinite

end Number

/-
  A position is drawn unless all weights are zero, and never
  one whose weight is zero.
-/
theorem Random.ensures_weighted
    {ws : List Number}
    (hWs : ∀ w ∈ ws, Number.IsWeight (2 ^ 90) w)
    (hFew : ws.length < 2 ^ Number.precision) :
    Ensures (weighted ws) fun drawn =>
      (drawn = none → ∀ w ∈ ws, w.isZero = true) ∧
        ∀ i ∈ drawn, ∃ w, ws[i]? = some w ∧
          w.isZero = false := by
  apply ensures_draw
  intro generator used
  constructor
  · intro hNone
    have hWeights := Number.areWeights hWs hFew
    exact generator.isZero_of_position hWeights hNone
  · intro i hDrawn
    exact generator.exists_of_position hDrawn

end CharSheet
