import CharSheet.Random.Abilities
import CharSheet.Random.Attribute
import CharSheet.Random.Budgets
import CharSheet.Random.Identity

/-
  Filling a part of a character at random.

  Key definitions include:
    * `Random.gender`
    * `Random.spells`
    * `Random.hitPoints`
    * `Rulebook.fill`
-/

namespace CharSheet

namespace Random

/- Select a random gender, if there are any. -/
def gender
    (book : Rulebook)
    (store : Store) : Random Store := do
  match ← pick book.settings.genders with
  | none => return store
  | some gender => return store.insert "gender" (.text gender)

------------------------------------------------------------
-- Spells
------------------------------------------------------------

/-
  Learn random spells of a slot, of those that are not known
  yet, until there are as many as the slot has room for.
-/
def learnSpells
    (spells : List Key)
    (store : Store)
    (slot : String)
    (count : Number) : Random Store := do
  let listed :=
    spells.filter (Text.endsWith · ("(" ++ slot ++ ")"))
  let known := listed.countP store.truthy
  let unknown ← shuffle (listed.filter (!store.truthy ·))
  let wanted := count.clampToNat (Nat.pow 2 64 - 1) - known
  return (unknown.take wanted).foldl
    (fun store key => store.insert key (.ofNat 1)) store

/- Fill all spell slots. -/
def spells
    (book : Rulebook)
    (plan : Plan)
    (store : Store) : Random Store :=
  let keys :=
    (book.choicesOf .spell).flatMap Choice.spellKeys
  ((plan.sheet store).under "spellSlots").foldlM
    (fun store (key, v) =>
      match v.number? with
      | none => return store
      | some count => learnSpells keys store key.name count)
    store

------------------------------------------------------------
-- Hit Points
------------------------------------------------------------

/- The sides of a hit die such as `d8`. -/
def hitDie? (text : String) : Option Nat :=
  let sides :=
    (Text.trimChars text.toList).dropWhile fun c =>
      c = 'd' || c = 'D'
  (wordOfText? (String.ofList sides)).filter (0 < ·)

/- The sides of the hit die of a class. -/
def classDie (c : Choice) : Nat :=
  ((c.first? "HitDie").bind hitDie?).getD 8

/- Throw a die for each level, and add what is thrown. -/
def throwDice (sides : Nat) : Nat → Nat → Random Nat
  | 0, total => return total
  | n + 1, total => do
      let d ← between 1 sides
      throwDice sides n (total + d)

/-
  The hit points of the levels in the given classes.  The very
  first level has all points of its die.  No more levels count
  than are left.
-/
def classHitPoints
    (store : Store) :
    List Choice → Nat → Bool → Nat → Random Nat
  | [], _, _, total => return total
  | c :: cs, left, isFirst, total => do
      let stored :=
        (store.number? (classKey c.name)).getD 0
      let levels := stored.clampToNat left
      let die := classDie c
      if levels = 0 then
        classHitPoints store cs left isFirst total
      else
        let total ←
          if isFirst then
            throwDice die (levels - 1) (total + die)
          else throwDice die levels total
        classHitPoints store cs (left - levels) false total

/- Set the hit points, if there is any level. -/
def hitPoints
    (book : Rulebook)
    (store : Store) : Random Store := do
  let classes := book.choicesOf .characterClass
  let total ←
    classHitPoints store classes (highestLevel book) true 0
  if total = 0 then return store
  else
    return store.insert "hitPoints"
      (.number (.ofRat (total : Rat)))

end Random

------------------------------------------------------------
-- Parts
------------------------------------------------------------

/- Fill a part of a character with random inputs. -/
def Rulebook.fill
    (book : Rulebook)
    (part : RandomAttribute)
    (store : Store) : Random Store :=
  let plan := book.plan
  match part with
  | .abilities => Random.abilityScores store
  | .abilityBoosts => Random.boosts book plan store
  | .armor => Random.identity book plan .armor store
  | .background => Random.identity book plan .background store
  | .deity => Random.identity book plan .deity store
  | .feats => Random.fillBudgets book plan "featCount" store
  | .gender => Random.gender book store
  | .hitPoints => Random.hitPoints book store
  | .languages => Random.fillPool book plan .language store
  | .levels => Random.levels book plan store
  | .race => Random.identity book plan .race store
  | .selectableFeatures =>
      Random.fillBudgets book plan "selectableFeatureCount"
        store
  | .shield => Random.identity book plan .shield store
  | .skills => Random.fillPool book plan .skill store
  | .spells => Random.spells book plan store
  | .tools => Random.fillPool book plan .tool store
  | .weapons => Random.fillPool book plan .weapon store

end CharSheet
