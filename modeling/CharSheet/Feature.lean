import CharSheet.Requirement

/-
  Entries of feature lists such as
  `features.Fighting Style ? 3:Martial Adept:Maneuver`.

  Key definitions include:
    * `Feature`
    * `Feature.ofText`
    * `selectableKey`
    * `selectableBudget`
    * `selectableAllocation`
-/

namespace CharSheet

/-
  What a list entry grants: a feature from a level on, in a
  group or none, if a requirement is met.
-/
structure Feature where
  prerequisite : Option Requirement
  level : Nat
  name : String
  group : Option String
deriving DecidableEq

namespace Feature

/- Cut a text at a character into at most three parts. -/
def cutInThree
    (separator : Char)
    (cs : List Char) : List (List Char) :=
  match Text.cutAt? [separator] cs with
  | none => [cs]
  | some (first, rest) =>
      match Text.cutAt? [separator] rest with
      | none => [first, rest]
      | some (second, third) => [first, second, third]

/-
  The level, the name and the group of an entry.  The level
  may be left out.
-/
def splitEntry
    (cs : List Char) : Nat × String × Option String :=
  let parts :=
    (cutInThree ':' cs).map fun part =>
      String.ofList (Text.trimChars part)
  let first := parts.headD ""
  match wordOfText? first with
  | some level => (level, parts[1]?.getD "", parts[2]?)
  | none => (1, first, parts[1]?)

/- The requirement before a question mark, if there is one. -/
def splitPrerequisite
    (cs : List Char) :
    Except ContentError (Option Requirement × List Char) :=
  match Text.cutAt? [' ', '?', ' '] cs with
  | none => .ok (none, cs)
  | some (before, rest) => do
      let requirement ← Requirement.ofText (String.ofList before)
      return (some requirement, rest)

/- The entry that a text spells. -/
def ofText (text : String) : Except ContentError Feature := do
  let (prerequisite, rest) ← splitPrerequisite text.toList
  let (level, name, group) := splitEntry rest
  if name.isEmpty then
    throw (.attributes text .namelessFeature)
  return ⟨prerequisite, level, name, group.filter (· ≠ "")⟩

end Feature

------------------------------------------------------------
-- Selectable Features
------------------------------------------------------------

/-
  The attribute that a player sets to select a feature of an
  owner.
-/
def selectableKey (owner name : String) : Key :=
  Key.under "selectableFeatures" (owner ++ " - " ++ name)

/- A name with the group that it belongs to in brackets. -/
def withGroup (name : String) : Option String → String
  | none => name
  | some group => name ++ " (" ++ group ++ ")"

/- The number of features that may be selected. -/
def selectableBudget
    (owner : String)
    (group : Option String) : Key :=
  Key.under "selectableFeatureCount" (withGroup owner group)

/- The note that compares selections with their number. -/
def selectableAllocation
    (owner : String)
    (group : Option String) : Key :=
  Key.under "validationNotes"
    (withGroup (camelCase owner ++ "SelectableFeatureAllocation")
      group)

end CharSheet
