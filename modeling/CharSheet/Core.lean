import CharSheet.Declaration

/-
  What every character has: ability modifiers, saves, combat
  values, and the pools of choices.

  Key definitions include:
    * `coreDeclarations`
-/

namespace CharSheet

namespace Core

/- The whole steps of a size that a value lies above a base. -/
def stepsAbove (base size : Number) : Expr :=
  .call .floor
    [.binary .div (.binary .sub .source (.number base))
      (.number size)]

/- The modifier of an ability's score. -/
def modifier : Formula :=
  ⟨"Math.floor((source - 10) / 2)", stepsAbove 10 2⟩

/- The armor class without armor. -/
def unarmored : Formula :=
  ⟨"10 + source", .binary .add (.number 10) .source⟩

/- The proficiency bonus at a level. -/
def proficiencyBonus : Formula :=
  ⟨"2 + Math.floor((source - 1) / 4)",
    .binary .add (.number 2) (stepsAbove 1 4)⟩

/- The hit points that come from a modifier at each level. -/
def perLevel : Formula :=
  ⟨"source * dict['level']",
    .binary .mul .source (.attr "level")⟩

/- The score and the modifier of each ability. -/
def abilityDeclarations : List Declaration :=
  abilities.flatMap fun ability =>
    let score := abilityKey ability
    [.rule score (.under "abilityBoosts" ability) .add none,
      .rule (abilityModifierKey ability) score .set
        (some modifier)]

/- The values that follow from abilities and the level. -/
def combatDeclarations : List Declaration :=
  [.rule "armorClass" (abilityModifierKey "Dexterity") .set
      (some unarmored),
    .rule "initiative" (abilityModifierKey "Dexterity") .set
      none,
    .rule "proficiencyBonus" "level" .set
      (some proficiencyBonus),
    .rule "hitPoints" (abilityModifierKey "Constitution") .add
      (some perLevel)]

/- The modifier of each ability's saves. -/
def saveDeclarations : List Declaration :=
  abilities.flatMap fun ability =>
    let save := Key.under "saveModifier" ability
    [.rule save (abilityModifierKey ability) .set none,
      .rule save (.under "saveProficiency" ability) .add
        (some .whenProficient)]

/- The allocation of each kind of pools. -/
def allocationDeclarations : List Declaration :=
  PoolKind.all.map fun kind =>
    .allocation kind.allocation kind.budget

/- The abilities as options for boosts and for saves. -/
def optionDeclarations : List Declaration :=
  abilities.flatMap fun ability =>
    [.option .abilityBoost ability, .option .save ability]

end Core

/- What every rulebook of a game declares first. -/
def coreDeclarations : List Declaration :=
  Core.abilityDeclarations ++ Core.combatDeclarations ++
    Core.saveDeclarations ++ Core.allocationDeclarations ++
    Core.optionDeclarations

end CharSheet
