import CharSheet.Error
import CharSheet.Key

/-
  The kinds of content that a character may be made of.

  Key definitions include:
    * `ChoiceKind`
    * `ChoiceKind.name`
    * `ChoiceKind.ofText`
    * `ChoiceKind.recognizedKeys`
    * `ChoiceKind.selector?`
    * `ChoiceKind.loadOrder`
-/

namespace CharSheet

/- A kind of content. -/
inductive ChoiceKind where
  | armor
  | background
  | characterClass
  | deity
  | feat
  | feature
  | goody
  | language
  | path
  | race
  | school
  | shield
  | skill
  | spell
  | tool
  | weapon
deriving DecidableEq, Inhabited

namespace ChoiceKind

/- All kinds, in the order of their names. -/
def all : List ChoiceKind :=
  [.armor, .background, .characterClass, .deity, .feat,
    .feature, .goody, .language, .path, .race, .school,
    .shield, .skill, .spell, .tool, .weapon]

/- The name of a kind. -/
def name : ChoiceKind → String
  | .armor => "Armor"
  | .background => "Background"
  | .characterClass => "Class"
  | .deity => "Deity"
  | .feat => "Feat"
  | .feature => "Feature"
  | .goody => "Goody"
  | .language => "Language"
  | .path => "Path"
  | .race => "Race"
  | .school => "School"
  | .shield => "Shield"
  | .skill => "Skill"
  | .spell => "Spell"
  | .tool => "Tool"
  | .weapon => "Weapon"

/- The kind of a name, whose ASCII case is ignored. -/
def ofText (s : String) : Except ContentError ChoiceKind :=
  match all.find? fun kind => equalIgnoringCase kind.name s with
  | some kind => .ok kind
  | none => .error (.unknownChoiceType s)

/- The keys that the attributes of a kind may have. -/
def recognizedKeys : ChoiceKind → List String
  | .armor => ["AC", "Weight"]
  | .background => ["Equipment", "Features", "Languages"]
  | .characterClass =>
      ["Require", "HitDie", "Features", "Selectables",
        "Languages", "CasterLevelArcane",
        "CasterLevelDivine", "SpellAbility", "SpellSlots"]
  | .deity => ["Alignment", "Domain"]
  | .feat => ["Require", "Imply", "Type"]
  | .feature => ["Section", "Note"]
  | .goody =>
      ["Pattern", "Effect", "Value", "Attribute", "Section",
        "Note"]
  | .language => []
  | .path =>
      ["Group", "Level", "Features", "Selectables",
        "SpellAbility", "SpellSlots"]
  | .race =>
      ["Require", "Features", "Selectables", "Languages",
        "SpellSlots"]
  | .school => ["Abbreviation"]
  | .shield => ["AC"]
  | .skill => ["Ability", "Class"]
  | .spell => ["School", "Level", "Description"]
  | .tool => ["Type"]
  | .weapon => ["Category", "Property", "Damage", "Range"]

/-
  The attribute that selects a choice of a kind, for the
  kinds of which a character has exactly one.
-/
def selector? : ChoiceKind → Option Key
  | .armor => some "armor"
  | .background => some "background"
  | .deity => some "deity"
  | .race => some "race"
  | .shield => some "shield"
  | _ => none

/-
  The order in which kinds are loaded: equipment, magic,
  identity, talents, and at last what works on all others.
-/
def loadOrder : List ChoiceKind :=
  [.armor, .shield, .weapon, .school, .spell, .background,
    .characterClass, .deity, .path, .race, .feat, .feature,
    .language, .skill, .tool, .goody]

end ChoiceKind

end CharSheet
