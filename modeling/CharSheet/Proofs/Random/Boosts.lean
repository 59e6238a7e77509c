import CharSheet.Proofs.Key.Scopes
import CharSheet.Proofs.Random.Weighted
import CharSheet.Proofs.Rulebook.Command
import CharSheet.Proofs.Sheet.Locality
import CharSheet.Random.Abilities
import CharSheet.Random.Fill
import Mathlib.Algebra.BigOperators.Group.Finset.Basic

/-
  Ability boosts that are spent at random.

  Boosts are spent one after another, each on an ability that
  has weight and that the boost does not lift above the
  highest score.  Spending stops when no boost is left or no
  such ability.

  Main declarations:
    * `Boosts.GivesWeight`, `Boosts.HasWeight`
    * `Boosts.isWeight_weight`
    * `Boosts.Spent`
    * `Boosts.ensures_spent`
    * `Boosts.Spent.capped`
    * `Boosts.Spent.exhausted`
    * `Boosts.Spent.getElem?_key`
    * `Boosts.unspent`
    * `Rulebook.SpendsBoosts`
    * `Boosts.Spent.spendsBoosts`
    * `Rulebook.ensures_spendsBoosts`
-/

namespace CharSheet

namespace Boosts

variable {book : Rulebook}
variable {sheet store : Store}
variable {ability : String}

------------------------------------------------------------
-- Weights
------------------------------------------------------------

/- The score of an ability on a sheet. -/
def score (sheet : Store) (ability : String) : Number :=
  (sheet.number? (abilityKey ability)).getD 0

/- The boosts of an ability that are stored. -/
def held (store : Store) (ability : String) : Number :=
  (store.number? (key ability)).getD 0

/- The counts of the open pools that allow an ability. -/
def given
    (pools : List Pool)
    (sheet : Store)
    (ability : String) : List Number :=
  (pools.filter fun p =>
    p.kind = .abilityBoost && sheet.truthy p.gate).flatMap
      (poolWeights · ability)

/- The weight of an ability. -/
def weight
    (pools : List Pool)
    (sheet : Store)
    (ability : String) : Number :=
  if abilities.all fun other =>
      (Number.sum (given pools sheet other)).isZero
  then 1
  else Number.sum (given pools sheet ability)

theorem weights_eq
    (pools : List Pool)
    (sheet : Store) :
    weights pools sheet =
      abilities.map (weight pools sheet) := by
  have hAll :
      ((abilities.map fun ability =>
        Number.sum (given pools sheet ability)).all
          (·.isZero)) =
        abilities.all fun other =>
          (Number.sum (given pools sheet other)).isZero :=
    List.all_map
  change (if ((abilities.map fun ability =>
    Number.sum (given pools sheet ability)).all (·.isZero))
      then _ else _) = abilities.map (weight pools sheet)
  unfold weight
  rw [hAll]
  split
  · rfl
  · rfl

/-
  An open pool gives an ability weight: one that allows any
  ability, or has the option of any, or names the ability.
-/
def GivesWeight
    (book : Rulebook)
    (sheet : Store)
    (ability : String) : Prop :=
  ∃ p ∈ book.pools, p.kind = .abilityBoost ∧
    sheet.truthy p.gate = true ∧ 0 < p.count ∧
      ∀ options ∈ p.options, ∃ option ∈ options,
        equalIgnoringCase option "any" = true ∨
          equalIgnoringCase option ability = true

/- Some pool gives an ability weight, or none any ability. -/
def HasWeight
    (book : Rulebook)
    (sheet : Store)
    (ability : String) : Prop :=
  GivesWeight book sheet ability ∨
    ∀ other ∈ abilities, ¬ GivesWeight book sheet other

theorem mem_poolWeights_iff
    {p : Pool}
    {w : Number} :
    w ∈ poolWeights p ability ↔
      w = .ofNat p.count ∧
        ∀ options ∈ p.options, ∃ option ∈ options,
          equalIgnoringCase option "any" = true ∨
            equalIgnoringCase option ability = true := by
  unfold poolWeights
  cases hOptions : p.options with
  | none => simp
  | some options =>
      simp only [List.mem_map, List.mem_filter, allows,
        Bool.or_eq_true, Option.mem_some_iff, forall_eq']
      constructor
      · rintro ⟨option, ⟨hIn, hAllows⟩, rfl⟩
        exact ⟨rfl, option, hIn, hAllows⟩
      · rintro ⟨rfl, option, hIn, hAllows⟩
        exact ⟨option, ⟨hIn, hAllows⟩, rfl⟩

/- Counts are given by the open pools that allow an ability. -/
theorem mem_given_iff
    {w : Number} :
    w ∈ given book.pools sheet ability ↔
      ∃ p ∈ book.pools, p.kind = .abilityBoost ∧
        sheet.truthy p.gate = true ∧ w = .ofNat p.count ∧
          ∀ options ∈ p.options, ∃ option ∈ options,
            equalIgnoringCase option "any" = true ∨
              equalIgnoringCase option ability = true := by
  simp only [given, List.mem_flatMap, List.mem_filter,
    Bool.and_eq_true, decide_eq_true_iff, mem_poolWeights_iff,
    and_assoc]

section Words

variable (hCounts : ∀ p ∈ book.pools, p.count < Nat.pow 2 32)

include hCounts

theorem isWeight_of_mem_given :
    ∀ w ∈ given book.pools sheet ability,
      Number.IsWeight (2 ^ 32) w := by
  intro w hw
  rcases mem_given_iff.mp hw with ⟨p, hp, -, -, rfl, -⟩
  have hCount := hCounts p hp
  have hLimit : Nat.pow 2 32 ≤ Number.countLimit := by decide
  refine Number.isWeight_ofNat (by omega) ?_
  exact_mod_cast hCount.le

/-
  What an ability is given is a weight, and it is zero unless
  some pool gives the ability weight.
-/
theorem isWeight_given :
    Number.IsWeight (2 ^ 90)
        (Number.sum (given book.pools sheet ability)) ∧
      ((Number.sum (given book.pools sheet ability)).isZero =
          false ↔
        GivesWeight book sheet ability) := by
  have hZero : Number.IsWeight (2 ^ 90) 0 :=
    Number.isWeight_ofNat (n := 0) (Nat.zero_le _) (by simp)
  rcases Number.isWeight_foldl (n := 0)
      (Number.areLimits_words _) (isWeight_of_mem_given hCounts)
      hZero (Nat.le_refl _) with
    ⟨hWeight, hSum⟩
  have hNone : (0 : Number).isZero = true := by decide
  rw [and_iff_right hNone] at hSum
  refine ⟨hWeight, ?_⟩
  rw [← Bool.not_eq_true]
  change ¬ (List.foldl _ (0 : Number) _).isZero = true ↔ _
  rw [hSum]
  constructor
  · intro hNot
    push Not at hNot
    rcases hNot with ⟨w, hw, hSome⟩
    rcases mem_given_iff.mp hw with
      ⟨p, hp, hKind, hOpen, rfl, hAllows⟩
    rw [ne_eq, Number.isZero_ofNat_iff] at hSome
    exact ⟨p, hp, hKind, hOpen, Nat.pos_of_ne_zero hSome,
      hAllows⟩
  · rintro ⟨p, hp, hKind, hOpen, hPositive, hAllows⟩ hAll
    have hMem := mem_given_iff.mpr
      ⟨p, hp, hKind, hOpen, rfl, hAllows⟩
    have hCount := Number.isZero_ofNat_iff.mp (hAll _ hMem)
    omega

/- An ability has weight if its weight is not zero. -/
theorem isWeight_weight :
    Number.IsWeight (2 ^ 90) (weight book.pools sheet ability) ∧
      ((weight book.pools sheet ability).isZero = false ↔
        HasWeight book sheet ability) := by
  have hNone (other : String) :
      (Number.sum (given book.pools sheet other)).isZero = true ↔
        ¬ GivesWeight book sheet other := by
    rw [← (isWeight_given hCounts).2, Bool.not_eq_false]
  unfold weight HasWeight
  split
  · next hAll =>
      simp only [List.all_eq_true, hNone] at hAll
      exact ⟨Number.isWeight_ofNat (n := 1) (by decide)
        (by norm_num), iff_of_true (by decide) (.inr hAll)⟩
  · next hSome =>
      simp only [List.all_eq_true, hNone] at hSome
      rw [or_iff_left hSome]
      exact isWeight_given hCounts

end Words

------------------------------------------------------------
-- Spending
------------------------------------------------------------

/- The scores after one more boost of an ability. -/
def raise
    (scores : String → Number)
    (ability : String) : String → Number :=
  fun other =>
    if other = ability then (scores other).add 1
    else scores other

theorem raise_self
    (scores : String → Number)
    (ability : String) :
    raise scores ability ability = (scores ability).add 1 :=
  if_pos rfl

theorem raise_of_ne
    {other : String}
    (h : other ≠ ability)
    (scores : String → Number) :
    raise scores ability other = scores other :=
  if_neg h

/- What is counted up later may be counted up at first. -/
theorem countUp_raise
    (scores : String → Number)
    (other ability : String)
    (picks : List String)
    (n : Nat) :
    (raise scores other ability).countUp
        (picks.count ability + n) =
      (scores ability).countUp
        ((other :: picks).count ability + n) := by
  by_cases hSame : ability = other
  · subst hSame
    rw [raise_self, List.count_cons_self, Nat.add_right_comm]
    rfl
  · rw [raise_of_ne hSame, List.count_cons_of_ne (Ne.symm hSame)]

/-
  What spending a number of boosts may come to: none is left,
  or no ability that has weight may be boosted, or such an
  ability is boosted, and then the others are spent.
-/
inductive Spent
    (highest : Number)
    (weight : String → Number) :
    Nat → (String → Number) → Store → List String → Store →
      Prop where
  | done
      (scores : String → Number)
      (store : Store) :
      Spent highest weight 0 scores store [] store
  | stuck
      {n : Nat}
      {scores : String → Number}
      {store : Store}
      (hStuck : ∀ ability ∈ abilities,
        (weight ability).isZero = false →
          ((scores ability).add 1).le highest = false) :
      Spent highest weight (n + 1) scores store [] store
  | boost
      {n : Nat}
      {scores : String → Number}
      {store after : Store}
      {ability : String}
      {picks : List String}
      (hIn : ability ∈ abilities)
      (hWeight : (weight ability).isZero = false)
      (hBelow : ((scores ability).add 1).le highest = true)
      (h : Spent highest weight n (raise scores ability)
        (Boosts.boost store ability) picks after) :
      Spent highest weight (n + 1) scores store
        (ability :: picks) after

variable {highest : Number}
variable {weight : String → Number}
variable {scores : String → Number}

theorem openWeights_map
    (highest : Number)
    (weight scores : String → Number) :
    openWeights highest (abilities.map weight)
        (abilities.map scores) =
      abilities.map fun ability =>
        if ((scores ability).add 1).le highest then
          weight ability
        else 0 := by
  rw [openWeights, List.zipWith_map, List.zipWith_self]

theorem modify_map
    {i : Nat}
    (h : abilities[i]? = some ability) :
    (abilities.map scores).modify i (fun s => s.add 1) =
      abilities.map (raise scores ability) := by
  apply List.ext_getElem?
  intro j
  rw [List.getElem?_modify, List.getElem?_map, List.getElem?_map]
  by_cases hSame : i = j
  · subst hSame
    simp [h, raise]
  · cases hAt : abilities[j]? with
    | none => rfl
    | some other =>
        have hApart : other ≠ ability := by
          rintro rfl
          have hBound := (List.getElem?_eq_some_iff.mp h).1
          exact hSame ((List.getElem?_inj hBound
            (by decide)).mp (h.trans hAt.symm))
        simp [hSame, raise, hApart]

/- Whatever the source, boosts are spent like this. -/
theorem ensures_spent
    (highest : Number)
    (hWeights : ∀ ability ∈ abilities,
      Number.IsWeight (2 ^ 90) (weight ability))
    (n : Nat)
    (scores : String → Number)
    (store : Store) :
    Random.Ensures
      (spend highest (abilities.map weight) n
        (abilities.map scores) store)
      fun after => ∃ picks,
        Spent highest weight n scores store picks after := by
  induction n generalizing scores store with
  | zero => exact Random.ensures_pure ⟨[], .done scores store⟩
  | succ n ih =>
      have hOpen : ∀ w ∈ abilities.map fun ability =>
          if ((scores ability).add 1).le highest then
            weight ability
          else 0,
          Number.IsWeight (2 ^ 90) w := by
        intro w hw
        rcases List.mem_map.mp hw with ⟨ability, hIn, rfl⟩
        split
        · exact hWeights ability hIn
        · exact Number.isWeight_ofNat (n := 0) (Nat.zero_le _)
            (by simp)
      rw [spend, openWeights_map]
      refine (Random.ensures_weighted hOpen (by
        rw [List.length_map]
        decide)).bind ?_
      intro drawn hDrawn
      cases drawn with
      | none =>
          refine Random.ensures_pure ⟨[], .stuck ?_⟩
          intro ability hIn hSome
          by_contra hBelow
          rw [Bool.not_eq_false] at hBelow
          have hZero := hDrawn.1 rfl _
            (List.mem_map_of_mem hIn)
          rw [if_pos hBelow, hSome] at hZero
          cases hZero
      | some i =>
          rcases hDrawn.2 i rfl with ⟨w, hAt, hSome⟩
          rw [List.getElem?_map, Option.map_eq_some_iff] at hAt
          rcases hAt with ⟨ability, hAbility, rfl⟩
          have hIn := List.mem_of_getElem? hAbility
          split at hSome
          · next hBelow =>
              dsimp only
              rw [modify_map hAbility, hAbility]
              refine (ih _ _).mono ?_
              rintro after ⟨picks, h⟩
              exact ⟨ability :: picks, .boost hIn hSome hBelow h⟩
          · cases hSome

------------------------------------------------------------
-- Boosts of Each Ability
------------------------------------------------------------

theorem key_inj
    {other : String}
    (h : key ability = key other) :
    ability = other :=
  (Key.under_inj (by decide) (by decide) h).2

/- One more boost of an ability is stored. -/
theorem held_boost_self
    {i : Int}
    (h : (held store ability).add 1 = .ofInt i) :
    held (Boosts.boost store ability) ability = .ofInt i := by
  have hBoost : (Boosts.boost store ability)[key ability]? =
      some (.number ((held store ability).add 1)) :=
    Std.ExtTreeMap.getElem?_insert_self
  rw [held, Store.number?, hBoost, h]
  rfl

theorem held_boost_of_ne
    {other : String}
    (h : ability ≠ other) :
    held (Boosts.boost store other) ability =
      held store ability := by
  have hApart : key other ≠ key ability := fun hEq =>
    h (key_inj hEq).symm
  rw [held, Store.number?, Boosts.boost,
    Std.ExtTreeMap.getElem?_insert]
  simp [hApart, held, Store.number?]

namespace Spent

variable {highest : Number}
variable {weight : String → Number}
variable {n : Nat}
variable {scores : String → Number}
variable {store after : Store}
variable {ability : String}
variable {picks : List String}

theorem length_le
    (h : Spent highest weight n scores store picks after) :
    picks.length ≤ n := by
  induction h with
  | done => exact Nat.le_refl 0
  | stuck => exact Nat.zero_le _
  | boost _ _ _ _ ih => exact Nat.succ_le_succ ih

theorem mem_abilities
    (h : Spent highest weight n scores store picks after) :
    ∀ ability ∈ picks, ability ∈ abilities := by
  induction h with
  | done => nofun
  | stuck => nofun
  | boost hIn _ _ _ ih => exact List.forall_mem_cons.mpr ⟨hIn, ih⟩

/- The boosts of the abilities are as many as are spent. -/
theorem sum_count
    (h : Spent highest weight n scores store picks after) :
    (abilities.map (picks.count ·)).sum = picks.length := by
  have hDistinct : abilities.Nodup := by decide
  have hCount := Multiset.sum_count_eq_card (m := picks)
    (s := abilities.toFinset) fun ability hPicked =>
      List.mem_toFinset.mpr (h.mem_abilities ability hPicked)
  rw [← List.sum_toFinset _ hDistinct]
  simpa using hCount

/-
  An ability that is boosted has weight, and its last boost
  does not lift it above the highest score.
-/
theorem capped
    (h : Spent highest weight n scores store picks after)
    (hPicked : 0 < picks.count ability) :
    ((scores ability).countUp (picks.count ability)).le highest =
        true ∧
      (weight ability).isZero = false := by
  induction h with
  | done => cases hPicked
  | stuck => cases hPicked
  | @boost n scores store after other picks _ hWeight hBelow _
      ih =>
      rcases Nat.eq_zero_or_pos (picks.count ability) with
        hLast | hMore
      · have hSame : ability = other := by
          by_contra hApart
          rw [List.count_cons_of_ne (Ne.symm hApart), hLast]
            at hPicked
          cases hPicked
        subst hSame
        rw [List.count_cons_self, hLast]
        exact ⟨hBelow, hWeight⟩
      · have hRest := ih hMore
        have hUp := countUp_raise scores other ability picks 0
        rw [Nat.add_zero, Nat.add_zero] at hUp
        rwa [hUp] at hRest

/-
  If boosts are left, one more would lift any ability that has
  weight above the highest score.
-/
theorem exhausted
    (h : Spent highest weight n scores store picks after)
    (hLeft : picks.length < n)
    (hIn : ability ∈ abilities)
    (hWeight : (weight ability).isZero = false) :
    ((scores ability).countUp (picks.count ability + 1)).le
      highest = false := by
  induction h with
  | done => cases hLeft
  | stuck hStuck => exact hStuck ability hIn hWeight
  | @boost n scores store after other picks _ _ _ _ ih =>
      rw [← countUp_raise]
      exact ih (Nat.lt_of_succ_lt_succ hLeft)

/- Nothing but the boosts of what is picked is changed. -/
theorem getElem?_of_not_key
    {k : Key}
    (h : Spent highest weight n scores store picks after)
    (hApart : ∀ ability ∈ picks, k ≠ key ability) :
    after[k]? = store[k]? := by
  induction h with
  | done => rfl
  | stuck => rfl
  | boost _ _ _ _ ih =>
      rcases List.forall_mem_cons.mp hApart with ⟨hFirst, hRest⟩
      rw [ih hRest, Boosts.boost, Std.ExtTreeMap.getElem?_insert]
      simp [hFirst.symm]

/-
  The boosts of an ability that is picked are counted up, as
  long as ones can be counted.
-/
theorem getElem?_key
    {i : Int}
    (h : Spent highest weight n scores store picks after)
    (hHeld : (held store ability).integer? = some i)
    (hSmall : i.natAbs + n ≤ Number.countLimit)
    (hPicked : 0 < picks.count ability) :
    after[key ability]? =
      some (.number (.ofInt (i + picks.count ability))) := by
  induction h generalizing i with
  | done => cases hPicked
  | stuck => cases hPicked
  | @boost n scores store after other picks _ _ _ h ih =>
      by_cases hSame : ability = other
      · subst hSame
        have hNext := Number.add_one_of_integer? hHeld (by omega)
        rw [List.count_cons_self]
        by_cases hMore : picks.count ability = 0
        · have hApart : ∀ other ∈ picks,
              key ability ≠ key other := by
            intro other hOther hEq
            rw [← key_inj hEq] at hOther
            exact List.count_eq_zero.mp hMore hOther
          rw [h.getElem?_of_not_key hApart, hMore, Boosts.boost,
            Std.ExtTreeMap.getElem?_insert_self]
          change some (Value.number ((held store ability).add 1)) =
            _
          rw [hNext]
          rfl
        · have hRest := ih (i := i + 1)
            (by rw [held_boost_self hNext, Number.integer?_ofInt])
            (by omega) (Nat.pos_of_ne_zero hMore)
          rw [hRest]
          congr 3
          push_cast
          ring
      · rw [List.count_cons_of_ne (Ne.symm hSame)] at hPicked ⊢
        exact ih (by rwa [held_boost_of_ne hSame]) (by omega)
          hPicked

end Spent

------------------------------------------------------------
-- Boosts Left
------------------------------------------------------------

/- Integers that are stored are added up exactly. -/
theorem foldl_held
    {names : List String}
    {amount : String → Int}
    (total : Int)
    (hHeld : ∀ ability ∈ names,
      (held store ability).integer? = some (amount ability))
    (hSmall : total.natAbs +
      (names.map fun ability => (amount ability).natAbs).sum ≤
        Number.countLimit) :
    (names.filterMap (store.number? <| key ·)).foldl (·.add ·)
        (Number.ofInt total) =
      .ofInt (total + (names.map amount).sum) := by
  induction names generalizing total with
  | nil => exact congrArg Number.ofInt (Int.add_zero total).symm
  | cons ability names ih =>
      rcases List.forall_mem_cons.mp hHeld with ⟨hFirst, hRest⟩
      rw [List.map_cons, List.sum_cons] at hSmall ⊢
      have hStep := ih (total + amount ability) hRest (by omega)
      rw [List.filterMap_cons]
      cases hNumber : store.number? (key ability) with
      | none =>
          rw [held, hNumber] at hFirst
          have hNone : (0 : Number).integer? = some 0 := by decide
          have hZero : amount ability = 0 :=
            (Option.some.inj (hNone.symm.trans hFirst)).symm
          rw [hZero, Int.add_zero] at hStep
          rw [hZero, Int.zero_add]
          exact hStep
      | some x =>
          rw [held, hNumber] at hFirst
          have hAdd : (Number.ofInt total).add x =
              .ofInt (total + amount ability) :=
            Number.ofInt_add hFirst (by omega)
          rw [← Int.add_assoc, ← hStep, ← hAdd]
          rfl

/-
  What is left of the budget on a sheet: the whole part of it
  less what is spent, or zero if more is spent.
-/
def unspent (sheet : Store) (spent : Int) : Number :=
  let budget :=
    (sheet.number? PoolKind.abilityBoost.budget).getD 0
  (Number.max 0 (budget.sub (.ofInt spent))).floor

section Remaining

variable {amount : String → Int}
variable (hHeld : ∀ ability ∈ abilities,
  (held store ability).integer? = some (amount ability))
variable (hSmall :
  (abilities.map fun ability => (amount ability).natAbs).sum ≤
    Number.countLimit)

include hHeld hSmall

theorem sum_held :
    Number.sum (abilities.filterMap (store.number? <| key ·)) =
      .ofInt (abilities.map amount).sum := by
  have hSum := foldl_held 0 hHeld (by rwa [Int.natAbs_zero,
    Nat.zero_add])
  rw [Int.zero_add] at hSum
  exact hSum

/- As many boosts are spent as are left, up to a limit. -/
theorem ofNat_remaining :
    Number.ofNat (remaining sheet store) =
      (unspent sheet (abilities.map amount).sum).min
        (.ofNat (Nat.pow 2 32 - 1)) := by
  rw [remaining, sum_held hHeld hSmall,
    Number.ofNat_clampToNat_eq]
  rfl

theorem ofNat_remaining_le :
    (Number.ofNat (remaining sheet store)).le
      (unspent sheet (abilities.map amount).sum) = true := by
  rw [remaining, sum_held hHeld hSmall]
  exact Number.ofNat_clampToNat_le _ _

end Remaining

end Boosts

------------------------------------------------------------
-- Filling at Random
------------------------------------------------------------

/-
  Boosts have been spent: to some abilities, boosts are added.
  They are no more than were left of the budget, and each such
  ability has weight and is not lifted above the highest
  score.  If more were left, no ability that has weight may
  have another one.
-/
structure Rulebook.SpendsBoosts
    (book : Rulebook)
    (store : Store)
    (amount : String → Int)
    (picks : String → Nat)
    (after : Store) : Prop where
  added : ∀ ability ∈ abilities, 0 < picks ability →
    after[Boosts.key ability]? =
      some (.number (.ofInt (amount ability + picks ability)))
  kept : ∀ k : Key,
    (∀ ability ∈ abilities, 0 < picks ability →
      k ≠ Boosts.key ability) →
        after[k]? = store[k]?
  within :
    (Number.ofNat (abilities.map picks).sum).le
      (Boosts.unspent (book.sheet store)
        (abilities.map amount).sum) = true
  weighty : ∀ ability ∈ abilities, 0 < picks ability →
    Boosts.HasWeight book (book.sheet store) ability
  capped : ∀ ability ∈ abilities, 0 < picks ability →
    let before := Boosts.score (book.sheet store) ability
    let highest := book.settings.abilityMax
    (before.countUp (picks ability)).le highest = true ∧
      ∀ i, before.integer? = some i →
        i.natAbs + picks ability ≤ Number.countLimit →
          (Number.ofInt (i + picks ability)).le highest = true
  exhausted :
    (Number.ofNat (abilities.map picks).sum).lt
        ((Boosts.unspent (book.sheet store)
          (abilities.map amount).sum).min
            (.ofNat (Nat.pow 2 32 - 1))) = true →
      ∀ ability ∈ abilities,
        Boosts.HasWeight book (book.sheet store) ability →
          ((Boosts.score (book.sheet store) ability).countUp
            (picks ability + 1)).le book.settings.abilityMax =
              false

section Filling

open Boosts

variable {book : Rulebook}
variable {store after : Store}
variable {amount : String → Int}
variable {picks : List String}
variable (hCounts : ∀ p ∈ book.pools, p.count < Nat.pow 2 32)
variable (hHeld : ∀ ability ∈ abilities,
  (held store ability).integer? = some (amount ability))
variable (hSmall :
  (abilities.map fun ability => (amount ability).natAbs).sum +
    remaining (book.sheet store) store ≤ Number.countLimit)

include hCounts hHeld hSmall

/- All that is left is spent like this, as far as it may be. -/
theorem Boosts.Spent.spendsBoosts
    (h : Spent book.settings.abilityMax
      (weight book.pools (book.sheet store))
      (remaining (book.sheet store) store)
      (score (book.sheet store)) store picks after) :
    book.SpendsBoosts store amount (picks.count ·) after := by
  have hSum := h.sum_count
  have hFew :
      (abilities.map fun ability =>
        (amount ability).natAbs).sum ≤ Number.countLimit := by
    omega
  have hWeight (ability : String) :
      (weight book.pools (book.sheet store) ability).isZero =
          false ↔
        HasWeight book (book.sheet store) ability :=
    (isWeight_weight hCounts).2
  refine ⟨?_, ?_, ?_, ?_, ?_, ?_⟩
  · intro ability hIn hPicked
    have hLe := List.single_le_sum (by simp) _
      (List.mem_map_of_mem (f := fun other =>
        (amount other).natAbs) hIn)
    exact h.getElem?_key (hHeld ability hIn) (by omega) hPicked
  · intro k hApart
    apply h.getElem?_of_not_key
    intro ability hPicked
    exact hApart ability (h.mem_abilities ability hPicked)
      (List.count_pos_iff.mpr hPicked)
  · rw [hSum]
    exact Number.ofInt_le_trans (by exact_mod_cast h.length_le)
      (ofNat_remaining_le hHeld hFew)
  · intro ability _ hPicked
    exact (hWeight ability).mp (h.capped hPicked).2
  · intro ability _ hPicked before highest
    have hBelow := (h.capped hPicked).1
    refine ⟨hBelow, fun i hScore hLimit => ?_⟩
    rwa [Number.countUp_of_integer? hScore hPicked hLimit]
      at hBelow
  · intro hMore ability hIn hHas
    rw [hSum, ← ofNat_remaining hHeld hFew] at hMore
    have hLess := Number.lt_ofInt_iff.mp hMore
    exact h.exhausted (by omega) hIn ((hWeight ability).mpr hHas)

end Filling

/-
  Where the boosts that are stored are integers, and with the
  boosts that are left can be counted, whatever the source,
  boosts are spent within the budget and the highest score.
-/
theorem Rulebook.ensures_spendsBoosts
    {book : Rulebook}
    {store : Store}
    {amount : String → Int}
    (hCounts : ∀ p ∈ book.pools, p.count < Nat.pow 2 32)
    (hHeld : ∀ ability ∈ abilities,
      (Boosts.held store ability).integer? =
        some (amount ability))
    (hSmall :
      (abilities.map fun ability => (amount ability).natAbs).sum +
        Boosts.remaining (book.sheet store) store ≤
          Number.countLimit) :
    Random.Ensures (book.fill .abilityBoosts store) fun after =>
      ∃ picks, book.SpendsBoosts store amount picks after := by
  have hWeights : ∀ ability ∈ abilities,
      Number.IsWeight (2 ^ 90)
        (Boosts.weight book.pools (book.sheet store) ability) :=
    fun _ _ => (Boosts.isWeight_weight hCounts).1
  have hSpend := Boosts.ensures_spent book.settings.abilityMax
    hWeights (Boosts.remaining (book.sheet store) store)
    (Boosts.score (book.sheet store)) store
  rw [← Boosts.weights_eq] at hSpend
  refine hSpend.mono ?_
  rintro after ⟨picks, h⟩
  exact ⟨(picks.count ·), h.spendsBoosts hCounts hHeld hSmall⟩

------------------------------------------------------------
-- A Gift of Strength
------------------------------------------------------------

namespace Gifted

open Rulebook Boosts

/- A gift allows two boosts of strength. -/
def book : Rulebook :=
  Command.runAll none (Rulebook.empty .standard)
    [.declare (.pool .abilityBoost 2 "features.Gifted"
      (some ["Strength"]))]

/- Two boosts are left, but strength is one below its cap. -/
def store : Store :=
  .ofList [("features.Gifted", Value.ofNat 1),
    ("abilityBoostChoiceCount", .ofNat 2),
    ("strength", .ofNat 19)]

theorem sheet_store : book.sheet store = store :=
  sheet_eq_self (by decide +kernel) store

/- No other ability than strength is given weight. -/
theorem givesWeight_iff
    {ability : String} :
    GivesWeight book store ability ↔
      equalIgnoringCase "Strength" ability = true := by
  have hPools : book.pools =
      [⟨.abilityBoost, 2, "features.Gifted",
        some ["Strength"], none⟩] := by
    decide +kernel
  have hOpen : store.truthy "features.Gifted" = true := by
    decide +kernel
  have hAny : equalIgnoringCase "Strength" "any" = false := by
    decide +kernel
  simp [GivesWeight, hPools, hOpen, hAny]

theorem givesWeight_strength :
    GivesWeight book store "Strength" :=
  givesWeight_iff.mpr (by decide +kernel)

/- Two boosts are left of the budget. -/
theorem unspent_store :
    unspent (book.sheet store)
      (abilities.map fun _ => (0 : Int)).sum = .ofNat 2 := by
  rw [sheet_store]
  decide +kernel

section Picks

variable {picks : String → Nat}
variable {after : Store}
variable (h : book.SpendsBoosts store (fun _ => 0) picks after)

include h

theorem picks_eq_zero
    (ability : String)
    (hIn : ability ∈ abilities)
    (hApart : ability ≠ "Strength") :
    picks ability = 0 := by
  by_contra hSome
  have hHas := h.weighty ability hIn (Nat.pos_of_ne_zero hSome)
  rw [sheet_store] at hHas
  rcases hHas with hOwn | hOthers
  · have hNamed : ∀ ability ∈ abilities,
        equalIgnoringCase "Strength" ability = true →
          ability = "Strength" := by
      decide +kernel
    exact hApart (hNamed ability hIn (givesWeight_iff.mp hOwn))
  · exact hOthers "Strength" (by decide) givesWeight_strength

theorem sum_picks :
    (abilities.map picks).sum = picks "Strength" := by
  simp [abilities,
    picks_eq_zero h "Charisma" (by decide) (by decide),
    picks_eq_zero h "Constitution" (by decide) (by decide),
    picks_eq_zero h "Dexterity" (by decide) (by decide),
    picks_eq_zero h "Intelligence" (by decide) (by decide),
    picks_eq_zero h "Wisdom" (by decide) (by decide)]

/- One boost may be spent, and so one is. -/
theorem picks_strength : picks "Strength" = 1 := by
  have hHighest : book.settings.abilityMax = .ofNat 20 := by
    decide +kernel
  rcases Nat.eq_zero_or_pos (picks "Strength") with
    hZero | hPositive
  · have hStuck := h.exhausted
    rw [unspent_store, sum_picks h, hZero, hHighest, sheet_store]
      at hStuck
    have hNext := hStuck (by decide +kernel) "Strength"
      (by decide) (.inl givesWeight_strength)
    have hMore : ((score store "Strength").countUp 1).le
        (.ofNat 20) = true := by
      decide +kernel
    rw [hZero, hMore] at hNext
    cases hNext
  · have hWithin := h.within
    rw [unspent_store, sum_picks h] at hWithin
    have hAtMost := Number.le_ofInt_iff.mp hWithin
    have hScore : (score (book.sheet store) "Strength").integer? =
        some 19 := by
      rw [sheet_store]
      decide +kernel
    have hLimit : 21 ≤ Number.countLimit := by decide
    have hBelow := (h.capped "Strength" (by decide) hPositive).2
      19 hScore (by omega)
    rw [hHighest] at hBelow
    have hLe := Number.le_ofInt_iff.mp hBelow
    omega

end Picks

/- One boost is spent on strength, and the other one is kept. -/
theorem spendsBoosts_strength :
    (∀ p ∈ book.pools, p.count < Nat.pow 2 32) ∧
      (∀ ability ∈ abilities,
        (held store ability).integer? = some 0) ∧
        (abilities.map fun _ => Int.natAbs 0).sum +
            remaining (book.sheet store) store ≤
              Number.countLimit ∧
          ∀ source,
            let after :=
              ((book.fill .abilityBoosts store).run source).1
            after["abilityBoosts.Strength"]? =
                some (Value.ofNat 1) ∧
              after["abilityBoosts.Wisdom"]? = none := by
  have hCounts : ∀ p ∈ book.pools, p.count < Nat.pow 2 32 := by
    decide +kernel
  have hHeld : ∀ ability ∈ abilities,
      (held store ability).integer? = some 0 := by
    decide +kernel
  have hSmall :
      (abilities.map fun _ => Int.natAbs 0).sum +
        remaining (book.sheet store) store ≤ Number.countLimit := by
    rw [sheet_store]
    decide +kernel
  refine ⟨hCounts, hHeld, hSmall, fun source => ?_⟩
  intro after
  rcases ensures_spendsBoosts hCounts hHeld hSmall source with
    ⟨picks, h⟩
  have hOne := picks_strength h
  constructor
  · have hAdded := h.added "Strength" (by decide) (by omega)
    rw [hOne] at hAdded
    exact hAdded
  · have hKept := h.kept "abilityBoosts.Wisdom" ?_
    · exact hKept.trans (by decide +kernel)
    · intro ability hIn hPicked hEq
      have hWisdom : key "Wisdom" = key ability := hEq
      rw [← key_inj hWisdom,
        picks_eq_zero h "Wisdom" (by decide) (by decide)]
        at hPicked
      cases hPicked

/- As many boosts are stored as ones can be counted. -/
def full : Store :=
  .ofList [
    ("abilityBoostChoiceCount",
      .number (.ofNat (Number.countLimit + 2))),
    ("abilityBoosts.Strength", .ofNat Number.countLimit),
    ("charisma", Value.ofNat 20), ("constitution", .ofNat 20),
    ("dexterity", .ofNat 20), ("intelligence", .ofNat 20),
    ("strength", .ofNat 10), ("wisdom", .ofNat 20)]

/-
  Beyond the count, one more boost changes nothing, so that
  boosts are left though strength is far below its cap.
-/
theorem not_forall_spendsBoosts :
    ¬ ∀ (book : Rulebook) (store : Store) (amount : String → Int),
      (∀ p ∈ book.pools, p.count < Nat.pow 2 32) →
        (∀ ability ∈ abilities,
          (held store ability).integer? = some (amount ability)) →
          Random.Ensures (book.fill .abilityBoosts store)
            fun after =>
              ∃ picks, book.SpendsBoosts store amount picks after := by
  intro hAll
  let none : Rulebook := Rulebook.empty .standard
  let amount : String → Int := fun ability =>
    if ability = "Strength" then Number.countLimit else 0
  let source := Source.ofSeed 0 #[]
  have hSheet : none.sheet full = full := sheet_eq_self rfl full
  have hHeld : ∀ ability ∈ abilities,
      (held full ability).integer? = some (amount ability) := by
    decide +kernel
  rcases hAll none full amount nofun hHeld source with ⟨picks, h⟩
  have hAfter :
      abilities.map (fun ability =>
        ((none.fill .abilityBoosts full).run source).1[
          key ability]?) =
        abilities.map fun ability => full[key ability]? := by
    change abilities.map (fun ability =>
      ((spend none.settings.abilityMax
        (weights none.pools (none.sheet full))
        (remaining (none.sheet full) full)
        (scores (none.sheet full)) full).run source).1[
          key ability]?) = _
    rw [hSheet]
    decide +kernel
  have hZero : ∀ ability ∈ abilities, picks ability = 0 := by
    intro ability hIn
    by_contra hSome
    have hAdded := h.added ability hIn (Nat.pos_of_ne_zero hSome)
    rw [List.map_inj_left.mp hAfter ability hIn] at hAdded
    have hSame := hHeld ability hIn
    rw [held, Store.number?, hAdded] at hSame
    have hNext := Number.integer?_ofInt
      (amount ability + picks ability)
    have hEq := Option.some.inj (hNext.symm.trans hSame)
    omega
  have hSum : (abilities.map picks).sum = 0 := by
    rw [List.map_congr_left hZero]
    rfl
  have hStuck := h.exhausted
  rw [hSum, hSheet] at hStuck
  have hHas : HasWeight none full "Strength" := .inr nofun
  have hNext := hStuck (by decide +kernel) "Strength" (by decide) hHas
  rw [hZero _ (by decide)] at hNext
  revert hNext
  decide +kernel

end Gifted

end CharSheet
