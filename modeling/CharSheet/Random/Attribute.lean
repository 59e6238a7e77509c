import CharSheet.Error

/-
  The attributes that can be filled at random.

  Key definitions include:
    * `RandomAttribute`
    * `RandomAttribute.name`
    * `RandomAttribute.ofText`
-/

namespace CharSheet

/- A part of a character that can be filled at random. -/
inductive RandomAttribute where
  | abilities
  | abilityBoosts
  | armor
  | background
  | deity
  | feats
  | gender
  | hitPoints
  | languages
  | levels
  | race
  | selectableFeatures
  | shield
  | skills
  | spells
  | tools
  | weapons
deriving DecidableEq

namespace RandomAttribute

/- All of them, in the order of their names. -/
def all : List RandomAttribute :=
  [.abilities, .abilityBoosts, .armor, .background, .deity,
    .feats, .gender, .hitPoints, .languages, .levels, .race,
    .selectableFeatures, .shield, .skills, .spells, .tools,
    .weapons]

/- The name of a part. -/
def name : RandomAttribute → String
  | .abilities => "abilities"
  | .abilityBoosts => "abilityBoosts"
  | .armor => "armor"
  | .background => "background"
  | .deity => "deity"
  | .feats => "feats"
  | .gender => "gender"
  | .hitPoints => "hitPoints"
  | .languages => "languages"
  | .levels => "levels"
  | .race => "race"
  | .selectableFeatures => "selectableFeatures"
  | .shield => "shield"
  | .skills => "skills"
  | .spells => "spells"
  | .tools => "tools"
  | .weapons => "weapons"

/- The part of a name, whose ASCII case is ignored. -/
def ofText
    (s : String) : Except ContentError RandomAttribute :=
  match all.find? fun part => equalIgnoringCase part.name s with
  | some part => .ok part
  | none => .error (.unknownRandomAttribute s)

end RandomAttribute

end CharSheet
