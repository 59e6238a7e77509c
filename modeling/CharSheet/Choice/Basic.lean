import CharSheet.AttrTable
import CharSheet.Choice.Kind
import CharSheet.Feature
import CharSheet.Rule

/-
  The choices of which characters are made.

  Key definitions include:
    * `Choice`
    * `Choice.origin`
    * `Choice.featTypes`
    * `Choice.spellKeys`
-/

namespace CharSheet

/- A choice of a kind, with its attributes. -/
structure Choice where
  kind : ChoiceKind
  name : String
  attrs : AttrTable
deriving DecidableEq, Inhabited

namespace Choice

/- The origin of what a choice of the given name declares. -/
def originOf (kind : ChoiceKind) (name : String) : Origin :=
  ⟨kind.name, name⟩

/- The origin of all that a choice declares. -/
def origin (c : Choice) : Origin :=
  originOf c.kind c.name

/- The values of an attribute. -/
def list (c : Choice) (key : String) : List String :=
  c.attrs.list key

/- The first value of an attribute. -/
def first? (c : Choice) (key : String) : Option String :=
  c.attrs.first? key

/- The types of a feat, which is general by default. -/
def featTypes (c : Choice) : List String :=
  match c.list "Type" with
  | [] => ["General"]
  | types => types

/-
  The attributes by which a spell is known, one for each of
  the lists that it is on.
-/
def spellKeys (c : Choice) : List Key :=
  (c.list "Level").map fun level =>
    Key.under "spells" (withGroup c.name (some level))

end Choice

end CharSheet
