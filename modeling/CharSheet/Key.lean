import CharSheet.Text.Cut
import CharSheet.Text.Lowering
import CharSheet.Text.Numerals

/-
  Names of attributes.

  An attribute is known by a dotted text.  The part before
  the first dot is its scope, which says what kind of
  attribute it is.

  Key definitions include:
    * `Key`
    * `Key.under`
    * `Key.scope?`
    * `Key.name`
    * `Key.Family`
    * `Key.family`
    * `Key.isConstraint`
    * `camelCase`
-/

namespace CharSheet

/- The name of an attribute, as content modules spell it. -/
abbrev Key := String

namespace Key

------------------------------------------------------------
-- Scopes
------------------------------------------------------------

/- The attribute of the given name under a scope. -/
def under (scope name : String) : Key :=
  scope ++ "." ++ name

/- The scope of an attribute, and its name without it. -/
def split? (key : Key) : Option (String × String) :=
  (Text.cutAt? ['.'] key.toList).map fun (scope, name) =>
    (String.ofList scope, String.ofList name)

/- The part before the first dot, if there is one. -/
def scope? (key : Key) : Option String :=
  key.split?.map (·.1)

/- The part after the first dot, else the whole text. -/
def name (key : Key) : String :=
  (key.split?.map (·.2)).getD key

/- The attribute lies under the scope. -/
def isUnder (key : Key) (scope : String) : Bool :=
  key.scope? == some scope

------------------------------------------------------------
-- Families
------------------------------------------------------------

/- The kinds of attributes that scopes tell apart. -/
inductive Family where
  | root
  | levels
  | features
  | feats
  | selectableFeatures
  | selectableFeatureCount
  | featCount
  | proficiency
  | chosen
  | spells
  | spellSlots
  | notes
  | validation
  | sanity
  | other
deriving DecidableEq

/- The family of the attributes under a scope. -/
def Family.ofScope (scope : String) : Family :=
  match scope with
  | "levels" => .levels
  | "features" => .features
  | "feats" => .feats
  | "selectableFeatures" => .selectableFeatures
  | "selectableFeatureCount" => .selectableFeatureCount
  | "featCount" => .featCount
  | "spells" => .spells
  | "spellSlots" => .spellSlots
  | "validationNotes" => .validation
  | "sanityNotes" => .sanity
  | scope =>
      if Text.endsWith scope "Proficiency" then .proficiency
      else if Text.endsWith scope "Chosen" then .chosen
      else if Text.endsWith scope "Notes" then .notes
      else .other

/- The family of an attribute. -/
def family (key : Key) : Family :=
  match key.scope? with
  | none => .root
  | some scope => Family.ofScope scope

/-
  Validation and sanity notes report broken constraints.
-/
def isConstraint (key : Key) : Bool :=
  key.family = .validation || key.family = .sanity

end Key

------------------------------------------------------------
-- Identifiers
------------------------------------------------------------

/-
  The identifier made of a displayed name: the letters and
  numerals alone, the first of them in lower case.
-/
def camelCase (name : String) : String :=
  match name.toList.filter Text.isLetterOrNumeral with
  | [] => ""
  | c :: cs => String.ofList (Text.lowerChar c ++ cs)

end CharSheet
