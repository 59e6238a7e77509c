import CharSheet.Choice.Declarations
import CharSheet.Rulebook.Basic

/-
  The choices that are registered in a rulebook.

  A choice declares all that its attributes say under its own
  origin.  Registering it again takes the former registration
  back first.

  Key definitions include:
    * `Rulebook.choice?`
    * `Rulebook.choicesOf`
    * `Rulebook.registerChoice`
    * `Rulebook.removeChoice`
-/

namespace CharSheet

/- The choice has the given kind and name. -/
def Choice.isNamed
    (c : Choice)
    (kind : ChoiceKind)
    (name : String) : Bool :=
  c.kind = kind && c.name = name

namespace Rulebook

/- The registered choice of a kind and a name. -/
def choice?
    (book : Rulebook)
    (kind : ChoiceKind)
    (name : String) : Option Choice :=
  book.choices.find? (·.isNamed kind name)

/- The registered choices of a kind, in the order of names. -/
def choicesOf
    (book : Rulebook)
    (kind : ChoiceKind) : List Choice :=
  (book.choices.filter (·.kind = kind)).mergeSort
    fun a b => a.name ≤ b.name

/- The names of the registered choices of a kind. -/
def choiceNames
    (book : Rulebook)
    (kind : ChoiceKind) : List String :=
  (book.choicesOf kind).map (·.name)

/-
  Remove a choice with all that it has declared.  A choice
  that is not registered takes nothing with it.
-/
def removeChoice
    (book : Rulebook)
    (kind : ChoiceKind)
    (name : String) : Rulebook :=
  match book.choice? kind name with
  | none => book
  | some c =>
      { book.withdraw c.origin with
        choices := book.choices.filter fun c =>
          !c.isNamed kind name }

/- Register a choice in place of one of the same name. -/
def registerChoice
    (book : Rulebook)
    (c : Choice) : Rulebook :=
  let declared :=
    (book.removeChoice c.kind c.name).declareAll c.origin
      c.declarations
  { declared with choices := declared.choices ++ [c] }

/-
  Register the choice whose attributes a text spells.  Those
  that cannot be read are left out.
-/
def registerText
    (book : Rulebook)
    (kind : ChoiceKind)
    (name attrs : String) : Rulebook :=
  book.registerChoice
    ⟨kind, name, (AttrTable.ofTextLossy attrs).1⟩

end Rulebook

end CharSheet
