import CharSheet.Key

/-
  The six abilities of a character.

  Key definitions include:
    * `abilities`
    * `abilityKey`
    * `abilityModifierKey`
-/

namespace CharSheet

/- The six abilities, as texts name them. -/
def abilities : List String :=
  ["Charisma", "Constitution", "Dexterity", "Intelligence",
    "Strength", "Wisdom"]

/- The attribute of an ability's score. -/
def abilityKey (ability : String) : Key :=
  Text.lower ability

/- The attribute of an ability's modifier. -/
def abilityModifierKey (ability : String) : Key :=
  Text.lower ability ++ "Modifier"

end CharSheet
