import CharSheet.Formula.Token
import CharSheet.Number.Layout

/-
  The errors of loading content.

  Computing a sheet never fails.  Errors arise from texts that
  cannot be read, from names that are not known, and from
  content that is not there.

  Key definitions include:
    * `AttributeFault`
    * `RequirementFault`
    * `SettingFault`
    * `ContentError`
    * `ContentError.message?`
-/

namespace CharSheet

------------------------------------------------------------
-- Faults
------------------------------------------------------------

/- Why a text of attributes cannot be read. -/
inductive AttributeFault where
  | noValue (key : String)
  | unterminatedQuote (key : String)
  | noSlot
  | badStep (step : String)
  | badLevel (level : String)
  | badCount (count : String)
  | emptySlots
  | namelessFeature
deriving DecidableEq

/- The wording of a fault. -/
def AttributeFault.message : AttributeFault → String
  | .noValue key => "`" ++ key ++ "` has no value"
  | .unterminatedQuote key => key ++ ": unterminated quote"
  | .noSlot => "spell slots need `<slot>:<table>`"
  | .badStep step => "bad step `" ++ step ++ "`"
  | .badLevel level => "bad level `" ++ level ++ "`"
  | .badCount count => "bad count `" ++ count ++ "`"
  | .emptySlots => "empty spell slot table"
  | .namelessFeature => "feature has no name"

/- Why a text is no requirement. -/
inductive RequirementFault where
  | missingValue
  | missingSubject (test : String)
  | badPattern
  | empty
deriving DecidableEq

/- The wording of a fault; a bad pattern has none. -/
def RequirementFault.message? :
    RequirementFault → Option String
  | .missingValue => some "missing comparison value"
  | .missingSubject test =>
      some ("missing attribute in `" ++ test ++ "`")
  | .badPattern => none
  | .empty => some "empty requirement"

/- Why settings are refused. -/
inductive SettingFault where
  | malformed
  | chanceOutOfRange (chance : Number)
  | noLevels
deriving DecidableEq

/- The wording of a fault; malformed settings have none. -/
def SettingFault.message? : SettingFault → Option String
  | .malformed => none
  | .chanceOutOfRange chance =>
      some ("multiclass_chance must be within 0..=1, got " ++
        chance.plain)
  | .noLevels => some "max_random_level must be at least 1"

------------------------------------------------------------
-- Errors
------------------------------------------------------------

/- An error of loading content. -/
inductive ContentError where
  | formula (text : String) (fault : FormulaFault)
  | attributes (text : String) (fault : AttributeFault)
  | requirement (text : String) (fault : RequirementFault)
  | unknownChoiceType (name : String)
  | unknownOperator (spelling : String)
  | unknownRandomAttribute (name : String)
  | missingEntry (name : String)
  | missingModule (module needed : String)
  | settings (fault : SettingFault)
deriving DecidableEq

/-
  The wording of an error.  Malformed settings have none.
-/
def ContentError.message? : ContentError → Option String
  | .formula text fault =>
      some ("Invalid formula `" ++ text ++ "`: " ++
        fault.message)
  | .attributes text fault =>
      some ("Malformed attribute string `" ++ text ++ "`: " ++
        fault.message)
  | .requirement text fault =>
      let invalid := "Invalid requirement `" ++ text ++ "`"
      match fault.message? with
      | some reason => some (invalid ++ ": " ++ reason)
      | none => some invalid
  | .unknownChoiceType name =>
      some ("Unknown choice type: " ++ name)
  | .unknownOperator spelling =>
      some ("Unknown rule operator: " ++ spelling)
  | .unknownRandomAttribute name =>
      some ("Unknown random attribute: " ++ name)
  | .missingEntry name =>
      some ("No entry named " ++ name ++ " in table")
  | .missingModule module needed =>
      some ("Module " ++ module ++ " requires " ++
        needed ++ ", which has not been loaded")
  | .settings fault =>
      fault.message?.map ("Invalid configuration: " ++ ·)

end CharSheet
