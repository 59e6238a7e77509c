import CharSheet.Error
import CharSheet.Key

/-
  The settings of a rulebook.

  Key definitions include:
    * `Settings`
    * `Settings.standard`
    * `Settings.check`
-/

namespace CharSheet

/-
  Limits of repairing and of filling at random, the attributes
  that notes may adjust even if no rule has them as a target,
  and the genders to choose from.
-/
structure Settings where
  repairPasses : Nat
  randomRetries : Nat
  multiclassChance : Number
  maxRandomLevel : Nat
  abilityMax : Number
  adjustable : List Key
  genders : List String
deriving DecidableEq, Inhabited

namespace Settings

/- The settings that are used where nothing else is said. -/
def standard : Settings where
  repairPasses := 8
  randomRetries := 20
  multiclassChance := Number.ofRat (1 / 10)
  maxRandomLevel := 20
  abilityMax := 20
  adjustable :=
    ["armorClass", "charisma", "constitution", "dexterity",
      "hitPoints", "initiative", "intelligence", "speed",
      "strength", "wisdom"]
  genders := ["Female", "Male"]

/-
  Refuse a chance that is no probability, and then a highest
  level of zero.
-/
def check (s : Settings) : Except SettingFault Settings :=
  let chance := s.multiclassChance
  if !(Number.le 0 chance && Number.le chance 1) then
    .error (.chanceOutOfRange chance)
  else if s.maxRandomLevel = 0 then .error .noLevels
  else .ok s

end Settings

end CharSheet
