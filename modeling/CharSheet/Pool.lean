import CharSheet.Key

/-
  The kinds of things that a character may choose from.

  Each kind has a budget, attributes by which a player spends
  it, attributes that are granted, and a note that compares
  the choices with the budget.

  Key definitions include:
    * `PoolKind`
    * `PoolKind.budget`
    * `PoolKind.grantScope`
    * `PoolKind.chosenScope`
    * `PoolKind.allocation`
-/

namespace CharSheet

/- A kind of choices with a budget of its own. -/
inductive PoolKind where
  | armor
  | save
  | skill
  | tool
  | weapon
  | language
  | abilityBoost
deriving DecidableEq

namespace PoolKind

/- All kinds. -/
def all : List PoolKind :=
  [.armor, .save, .skill, .tool, .weapon, .language,
    .abilityBoost]

/- The kind of a word that stands before `Proficiency`. -/
def ofProficiency? (word : String) : Option PoolKind :=
  match word with
  | "Armor" => some .armor
  | "Save" => some .save
  | "Skill" => some .skill
  | "Tool" => some .tool
  | "Weapon" => some .weapon
  | _ => none

/- The stem of the names that belong to a kind. -/
def stem : PoolKind → String
  | .armor => "armor"
  | .save => "save"
  | .skill => "skill"
  | .tool => "tool"
  | .weapon => "weapon"
  | .language => "language"
  | .abilityBoost => "abilityBoost"

/- The attribute that counts how much may be chosen. -/
def budget (kind : PoolKind) : Key :=
  kind.stem ++ "ChoiceCount"

/- The scope of what is granted. -/
def grantScope : PoolKind → String
  | .armor => "armorProficiency"
  | .save => "saveProficiency"
  | .skill => "skillProficiency"
  | .tool => "toolProficiency"
  | .weapon => "weaponProficiency"
  | .language => "languages"
  | .abilityBoost => "abilityBoosts"

/- The scope of the attributes that spend the budget. -/
def chosenScope : PoolKind → String
  | .armor => "armorChosen"
  | .save => "savesChosen"
  | .skill => "skillsChosen"
  | .tool => "toolsChosen"
  | .weapon => "weaponsChosen"
  | .language => "languagesChosen"
  | .abilityBoost => "abilityBoosts"

/- The note that compares the choices with the budget. -/
def allocation (kind : PoolKind) : Key :=
  Key.under "validationNotes"
    (kind.stem ++ "ChoiceAllocation")

end PoolKind

end CharSheet
