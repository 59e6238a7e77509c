import CharSheet.Random.Source
import CharSheet.Rulebook.Sheet

/-
  Random ability scores and ability boosts.

  Key definitions include:
    * `Random.abilityScore`
    * `Random.abilityScores`
    * `Boosts.weights`
    * `Boosts.spend`
    * `Random.boosts`
-/

namespace CharSheet

------------------------------------------------------------
-- Scores
------------------------------------------------------------

namespace Random

/- Throw a number of dice of six sides. -/
def dice : Nat → Random (List Nat)
  | 0 => return []
  | n + 1 => do
      let d ← between 1 6
      let ds ← dice n
      return d :: ds

/- Throw four dice, and add all but the lowest one. -/
def abilityScore : Random Nat := do
  let thrown ← dice 4
  let kept := (thrown.mergeSort (· ≤ ·)).drop 1
  return kept.foldl (· + ·) 0

/- Set all scores to random ones. -/
def abilityScores (store : Store) : Random Store :=
  abilities.foldlM
    (fun store ability => do
      let score ← abilityScore
      return store.insert (abilityKey ability) (.ofNat score))
    store

end Random

------------------------------------------------------------
-- Boosts
------------------------------------------------------------

namespace Boosts

/- The attribute that counts the boosts of an ability. -/
def key (ability : String) : Key :=
  .under PoolKind.abilityBoost.chosenScope ability

/- The number of boosts that are not spent yet. -/
def remaining (sheet store : Store) : Nat :=
  let budget :=
    (sheet.number? PoolKind.abilityBoost.budget).getD 0
  let spent :=
    Number.sum (abilities.filterMap (store.number? <| key ·))
  (budget.sub spent).clampToNat (Nat.pow 2 32 - 1)

/- An option of a pool allows the ability. -/
def allows (option ability : String) : Bool :=
  equalIgnoringCase option "any" ||
    equalIgnoringCase option ability

/-
  What a pool adds to the weight of an ability: its count for
  each option that allows it.
-/
def poolWeights (p : Pool) (ability : String) : List Number :=
  match p.options with
  | none => [.ofNat p.count]
  | some options =>
      (options.filter (allows · ability)).map fun _ =>
        .ofNat p.count

/-
  The weights of the abilities: the counts of the open pools
  that allow them.  If no pool allows any, all are equal.
-/
def weights (pools : List Pool) (sheet : Store) : List Number :=
  let active :=
    pools.filter fun p =>
      p.kind = .abilityBoost && sheet.truthy p.gate
  let weights :=
    abilities.map fun ability =>
      Number.sum (active.flatMap (poolWeights · ability))
  if weights.all (·.isZero) then abilities.map fun _ => 1
  else weights

/- The scores of the abilities on a sheet. -/
def scores (sheet : Store) : List Number :=
  abilities.map fun ability =>
    (sheet.number? (abilityKey ability)).getD 0

/-
  The weights of the abilities that a boost does not lift
  above the highest score; the others weigh nothing.
-/
def openWeights
    (highest : Number)
    (weights scores : List Number) : List Number :=
  List.zipWith
    (fun w s => if (s.add 1).le highest then w else 0)
    weights scores

/- Add one to the number of boosts of an ability. -/
def boost (store : Store) (ability : String) : Store :=
  let current := (store.number? (key ability)).getD 0
  store.insert (key ability) (.number (current.add 1))

/-
  Spend a number of boosts one after another, as long as some
  ability may be boosted.
-/
def spend
    (highest : Number)
    (weights : List Number) :
    Nat → List Number → Store → Random Store
  | 0, _, store => return store
  | n + 1, scores, store => do
      match ← Random.weighted
          (openWeights highest weights scores) with
      | none => return store
      | some i =>
          spend highest weights n
            (scores.modify i fun s => s.add 1)
            (boost store (abilities[i]?.getD ""))

end Boosts

/- Spend the boosts that are left on random abilities. -/
def Random.boosts
    (book : Rulebook)
    (plan : Plan)
    (store : Store) : Random Store := do
  let sheet := plan.sheet store
  Boosts.spend book.settings.abilityMax
    (Boosts.weights book.pools sheet)
    (Boosts.remaining sheet store) (Boosts.scores sheet) store

end CharSheet
