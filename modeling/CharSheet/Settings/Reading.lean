import CharSheet.Settings
import CharSheet.Toml.Reading

/-
  Reading settings.

  A setting that is not given has its standard value, and what
  is no setting is passed over.

  Key definitions include:
    * `Settings.ofTable?`
    * `Settings.ofText`
-/

namespace CharSheet

namespace Settings

/- The count below a limit that a value stands for. -/
def count? (limit : Nat) : Toml → Option Nat
  | .integer n =>
      if 0 ≤ n && n < limit then some n.toNat else none
  | _ => none

/- The number that a value stands for. -/
def number? : Toml → Option Number
  | .integer n => some (.ofRat n)
  | .float x => some x
  | _ => none

/- The text that a value is. -/
def text? : Toml → Option String
  | .text s => some s
  | _ => none

/- The texts of an array. -/
def texts? : Toml → Option (List String)
  | .array items => items.mapM text?
  | _ => none

/-
  The setting of a name: the standard one where it is not
  given, and none where its value is of another type.
-/
def setting?
    {α : Type}
    (read : Toml → Option α)
    (t : Toml.Table)
    (name : String)
    (standard : α) : Option α :=
  match Toml.get? t name with
  | none => some standard
  | some v => read v

/- The settings of a table, unless one has a wrong type. -/
def ofTable? (t : Toml.Table) : Option Settings := do
  let count := count? (Nat.pow 2 64)
  return {
    repairPasses := ← setting? count t "repair_passes"
      standard.repairPasses
    randomRetries := ← setting? count t "random_retries"
      standard.randomRetries
    multiclassChance := ← setting? number? t
      "multiclass_chance" standard.multiclassChance
    maxRandomLevel := ← setting? (count? (Nat.pow 2 32))
      t "max_random_level" standard.maxRandomLevel
    abilityMax := ← setting? number? t "ability_max"
      standard.abilityMax
    adjustable := ← setting? texts? t "adjustable_attributes"
      standard.adjustable
    genders := ← setting? texts? t "genders"
      standard.genders }

/- The settings that a document spells. -/
def ofText (text : String) : Except ContentError Settings :=
  match (Toml.ofText? text).bind ofTable? with
  | none => .error (.settings .malformed)
  | some settings =>
      match settings.check with
      | .ok settings => .ok settings
      | .error fault => .error (.settings fault)

end Settings

end CharSheet
