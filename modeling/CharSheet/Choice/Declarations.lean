import CharSheet.Choice.Basic
import CharSheet.FeatureList
import CharSheet.SpellSlots

/-
  What a choice declares.

  The attributes of a choice say what it grants, from which
  level on, and what it requires.  Attributes that cannot be
  read are left out.

  Key definitions include:
    * `Choice.classDeclarations` and its like, by kind
    * `Choice.declarations`
-/

namespace CharSheet

------------------------------------------------------------
-- Parts Shared by Kinds
------------------------------------------------------------

/- The languages of a list, of which `any` is a choice. -/
def languageDeclarations
    (gate : Key)
    (languages : List String) : List Declaration :=
  grantDeclarations gate .language
    (languages.map fun language =>
      if equalIgnoringCase language "any" then .choose 1 none
      else .grant language 1)

/- The spell slots that a list of tables gives by level. -/
def slotDeclarations
    (level : Key)
    (tables : List String) : List Declaration :=
  tables.flatMap fun text =>
    match SlotTable.ofText text with
    | .error _ => []
    | .ok table =>
        [.rule (.under "spellSlots" table.slot) level .add
          (some (table.formula text))]

/-
  The attack modifier and the difficulty class of a caster's
  spells.
-/
def spellcastingDeclarations
    (owner ability : String)
    (casterLevel : Key) : List Declaration :=
  let attack := Key.under "spellAttackModifier" owner
  let difficulty := Key.under "spellDifficultyClass" owner
  [.rule attack casterLevel .gate none,
    .rule attack (abilityModifierKey ability) .set none,
    .rule attack "proficiencyBonus" .add none,
    .rule difficulty casterLevel .gate none,
    .rule difficulty attack .set
      (some ⟨"source + 8",
        .binary .add .source (.number 8)⟩)]

/-
  The rule that sets an attribute to what a text spells: a
  formula, or else the name of another attribute.
-/
def valueDeclaration?
    (target source : Key)
    (text : String) : Option Declaration :=
  match Formula.ofText text with
  | .ok formula => some (.rule target source .set (some formula))
  | .error _ =>
      if text.isEmpty || text.toList.any Text.isBlank then none
      else some (.rule target text .set none)

namespace Choice

/- The requirement of a choice, as a note on its selector. -/
def requirementDeclarations
    (c : Choice)
    (key heading suffix : String)
    (selector : Key) : List Declaration :=
  match c.list key with
  | [] => []
  | texts =>
      match Requirement.ofTexts texts with
      | .error _ => []
      | .ok requirement =>
          CharSheet.requirementDeclarations heading
            (camelCase c.name ++ suffix) selector requirement

/- The attribute of the level that a choice has. -/
def levelKey (c : Choice) : Key :=
  camelCase c.name ++ "Level"

/- The formula that holds where the choice is selected. -/
def isSelected (c : Choice) : Formula :=
  ⟨"source == '" ++ c.name ++ "'",
    .binary .eq .source (.text c.name)⟩

/-
  The level of a choice is the character's while the choice
  is selected.
-/
def identityDeclarations
    (c : Choice)
    (selector : Key) : List Declaration :=
  [.rule c.levelKey selector .gate (some c.isSelected),
    .rule c.levelKey "level" .set none]

/- The features and the selectable features of a choice. -/
def featureDeclarations
    (c : Choice)
    (level : Key) : List Declaration :=
  featureListDeclarations c.name level (c.list "Features")
    (c.list "Selectables")

------------------------------------------------------------
-- Identity
------------------------------------------------------------

/- What a background declares. -/
def backgroundDeclarations (c : Choice) : List Declaration :=
  c.identityDeclarations "background" ++
    featureListDeclarations c.name c.levelKey
      (c.list "Features") [] ++
    languageDeclarations c.levelKey (c.list "Languages")

/- What a race declares. -/
def raceDeclarations (c : Choice) : List Declaration :=
  c.identityDeclarations "race" ++
    c.requirementDeclarations "Require" "validation" "Race"
      c.levelKey ++
    c.featureDeclarations c.levelKey ++
    languageDeclarations c.levelKey (c.list "Languages") ++
    slotDeclarations c.levelKey (c.list "SpellSlots")

/-
  The caster level of a class, and what it adds to the total
  of its kind of magic.
-/
def casterDeclarations
    (c : Choice)
    (key total : String)
    (casterLevel level : Key) : List Declaration :=
  match c.first? key with
  | none => []
  | some text =>
      match valueDeclaration? casterLevel level text with
      | none => []
      | some declaration =>
          [declaration, .rule total casterLevel .add none]

/- What a class declares. -/
def classDeclarations (c : Choice) : List Declaration :=
  let level := Key.under "levels" c.name
  let casterLevel := Key.under "casterLevels" c.name
  .rule "level" level .add none ::
    c.requirementDeclarations "Require" "validation" "Class"
      level ++
    c.featureDeclarations level ++
    languageDeclarations level (c.list "Languages") ++
    c.casterDeclarations "CasterLevelArcane"
      "casterLevelArcane" casterLevel level ++
    c.casterDeclarations "CasterLevelDivine"
      "casterLevelDivine" casterLevel level ++
    (match c.first? "SpellAbility" with
    | none => []
    | some ability =>
        spellcastingDeclarations c.name ability casterLevel) ++
    slotDeclarations level (c.list "SpellSlots")

/- The attribute that a path takes its level from. -/
def pathSource (c : Choice) : Key :=
  match c.first? "Level", c.first? "Group" with
  | some level, _ => level
  | none, some group => .under "levels" group
  | none, none => "level"

/- What a path declares. -/
def pathDeclarations (c : Choice) : List Declaration :=
  let casterLevel := Key.under "casterLevels" c.name
  [.rule c.levelKey (.under "features" c.name) .gate none,
    .rule c.levelKey c.pathSource .set none] ++
    c.featureDeclarations c.levelKey ++
    (match c.first? "SpellAbility" with
    | none => []
    | some ability =>
        .rule casterLevel c.levelKey .set none ::
          spellcastingDeclarations c.name ability
            casterLevel) ++
    slotDeclarations c.levelKey (c.list "SpellSlots")

------------------------------------------------------------
-- Talents
------------------------------------------------------------

/- The note that compares feats of a type with their number. -/
def featAllocation (type : String) : Key :=
  .under "validationNotes" (camelCase type ++ "FeatAllocation")

/- What a feat declares. -/
def featDeclarations (c : Choice) : List Declaration :=
  let selector := Key.under "feats" c.name
  c.requirementDeclarations "Require" "validation" "Feat"
      selector ++
    c.requirementDeclarations "Imply" "sanity" "Feat"
      selector ++
    .rule (.under "features" c.name) selector .add none ::
    c.featTypes.flatMap fun type =>
      [.allocation (featAllocation type)
          (.under "featCount" type),
        .member (featAllocation type) selector]

/- The sections of a feature that are not repeated. -/
def firstSections :
    List (String × String) → List (String × String)
  | [] => []
  | (name, text) :: rest =>
      (name, text) ::
        (firstSections rest).filter (·.1 ≠ name)

/-
  What a feature declares: a note in each of its sections.
  A note with a value is only opened by the feature.
-/
def sectionDeclarations
    (c : Choice)
    (name text : String) : List Declaration :=
  let note := Key.under (name ++ "Notes") (camelCase c.name)
  let hasValue := (Text.cutAt? ['%', 'V'] text.toList).isSome
  .rule note (.under "features" c.name)
      (if hasValue then .gate else .set) none ::
    .note note text ::
    noteDeclarations note text

/- What a feature declares. -/
def noteSectionDeclarations (c : Choice) : List Declaration :=
  (firstSections
    ((c.list "Section").zip (c.list "Note"))).flatMap
      fun (name, text) => c.sectionDeclarations name text

/- What a skill declares. -/
def skillDeclarations (c : Choice) : List Declaration :=
  let modifier := Key.under "skillModifier" c.name
  let ability :=
    (c.first? "Ability").map fun ability =>
      .rule modifier (abilityModifierKey ability) .set none
  ability.toList ++
    [.rule modifier (.under "skillProficiency" c.name) .add
        (some .whenProficient),
      .option .skill c.name]

------------------------------------------------------------
-- Equipment
------------------------------------------------------------

/- What armor or a shield declares. -/
def armorDeclarations
    (c : Choice)
    (selector : Key) : List Declaration :=
  match c.attrs.number? "AC" with
  | none => []
  | some ac =>
      [.rule "armorClass" selector .add
        (some ⟨c.isSelected.text ++ " ? " ++ ac.plain ++
            " : null",
          .choose c.isSelected.expr (.number ac) .absent⟩)]

/- The operator and the expression of a goody's effect. -/
def goodyEffect?
    (effect : String)
    (value : Number) : Option (Operator × Expr) :=
  match effect with
  | "add" =>
      some (.add, .binary .mul .source (.number value))
  | "lower" => some (.min, .number value)
  | "raise" => some (.max, .number value)
  | "set" => some (.set, .number value)
  | _ => none

/- The note that a goody shows. -/
def goodyNoteDeclarations
    (c : Choice)
    (count : Key) : List Declaration :=
  match c.first? "Section", c.first? "Note" with
  | some name, some text =>
      let note :=
        Key.under (name ++ "Notes") (camelCase c.name)
      [.rule note count .set none, .note note text]
  | _, _ => []

/- What a goody does for each time that it is found. -/
def goodyEffectDeclarations
    (c : Choice)
    (changed count : Key) : List Declaration :=
  let value := (c.attrs.number? "Value").getD 1
  let effect := (c.first? "Effect").getD "add"
  match goodyEffect? effect value with
  | none => []
  | some (op, expr) =>
      .rule changed count op
          (some ⟨(Value.number value).display, expr⟩) ::
        c.goodyNoteDeclarations count

/-
  What a goody declares: how often the notes of a character
  match its pattern, and what follows from it.
-/
def goodyDeclarations (c : Choice) : List Declaration :=
  match c.first? "Pattern", c.first? "Attribute" with
  | some source, some changed =>
      match Pattern.ofText? source with
      | none => []
      | some pattern =>
          let count := Key.under "goodies" (c.name ++ " Count")
          let found := Expr.occurrences .source pattern
          .rule count "notes" .set
              (some ⟨"matches(source, '" ++ source ++ "')",
                .choose (.binary .gt found (.number 0)) found
                  .absent⟩) ::
            c.goodyEffectDeclarations changed count
  | _, _ => []

------------------------------------------------------------
-- All Kinds
------------------------------------------------------------

/- What a choice declares, by its kind. -/
def declarations (c : Choice) : List Declaration :=
  match c.kind with
  | .armor => c.armorDeclarations "armor"
  | .background => c.backgroundDeclarations
  | .characterClass => c.classDeclarations
  | .deity => []
  | .feat => c.featDeclarations
  | .feature => c.noteSectionDeclarations
  | .goody => c.goodyDeclarations
  | .language => [.option .language c.name]
  | .path => c.pathDeclarations
  | .race => c.raceDeclarations
  | .school => []
  | .shield => c.armorDeclarations "shield"
  | .skill => c.skillDeclarations
  | .spell => []
  | .tool => [.option .tool c.name]
  | .weapon => [.option .weapon c.name]

end Choice

end CharSheet
