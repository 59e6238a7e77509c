import CharSheet.Core
import CharSheet.Proofs.Rulebook.Steps
import CharSheet.Proofs.Rulebook.Withdrawal
import CharSheet.Rulebook.Choices

/-
  Rulebooks that commands lead to.

  Whatever is declared, registered, removed and withdrawn, and
  for whom, a rulebook that was empty at first is consistent.

  Main declarations:
    * `Command`
    * `Command.run`, `Command.runAll`
    * `Command.isConsistent_runAll`
-/

namespace CharSheet

------------------------------------------------------------
-- Commands
------------------------------------------------------------

/-
  A command that changes a rulebook.  Commands may be carried
  out within an origin, to which their declarations belong.
-/
inductive Command where
  | declare (d : Declaration)
  | spell (target source op : String) (formula : Option String)
  | core
  | register (kind : ChoiceKind) (name attrs : String)
  | remove (kind : ChoiceKind) (name : String)
  | withdraw (origin : Origin)
  | within (origin : Origin) (commands : List Command)

namespace Command

mutual

/-
  Carry out a command for an owner.  A rule whose text cannot
  be read is not declared.
-/
def run
    (owner : Owner)
    (book : Rulebook) : Command → Rulebook
  | .declare d => book.declare owner d
  | .spell target source op formula =>
      match Declaration.ofTexts target source op formula with
      | .ok d => book.declare owner d
      | .error _ => book
  | .core => book.declareAll owner coreDeclarations
  | .register kind name attrs =>
      book.registerText kind name attrs
  | .remove kind name => book.removeChoice kind name
  | .withdraw origin => book.withdraw origin
  | .within origin commands =>
      runAll (some origin) book commands

/- Carry out commands for an owner, one after another. -/
def runAll
    (owner : Owner)
    (book : Rulebook) : List Command → Rulebook
  | [] => book
  | c :: cs => runAll owner (run owner book c) cs

end

end Command

------------------------------------------------------------
-- Consistency
------------------------------------------------------------

namespace Rulebook

variable {book : Rulebook}

/- The removal of a choice is a withdrawal at most. -/
theorem IsConsistent.removeChoice
    (h : book.IsConsistent)
    (kind : ChoiceKind)
    (name : String) :
    (book.removeChoice kind name).IsConsistent := by
  unfold Rulebook.removeChoice
  cases book.choice? kind name with
  | none => exact h
  | some c => exact (h.withdraw c.origin).of_eq rfl rfl rfl rfl

/- A registration is a removal and some declarations. -/
theorem IsConsistent.registerChoice
    (h : book.IsConsistent)
    (c : Choice) :
    (book.registerChoice c).IsConsistent := by
  have hRemoved := h.removeChoice c.kind c.name
  have hDeclared :=
    hRemoved.declareAll (some c.origin) c.declarations
  exact hDeclared.of_eq rfl rfl rfl rfl

end Rulebook

namespace Command

open Rulebook

mutual

/- Each command keeps a rulebook consistent. -/
theorem isConsistent_run
    {book : Rulebook}
    (h : book.IsConsistent)
    (owner : Owner) :
    (c : Command) → (run owner book c).IsConsistent
  | .declare d => h.declare owner d
  | .spell target source op formula => by
      unfold run
      cases Declaration.ofTexts target source op formula with
      | error _ => exact h
      | ok d => exact h.declare owner d
  | .core => h.declareAll owner coreDeclarations
  | .register _ _ _ => h.registerChoice _
  | .remove kind name => h.removeChoice kind name
  | .withdraw origin => h.withdraw origin
  | .within origin commands =>
      isConsistent_runAll_of h (some origin) commands

/- So do commands that are carried out one after another. -/
theorem isConsistent_runAll_of
    {book : Rulebook}
    (h : book.IsConsistent)
    (owner : Owner) :
    (commands : List Command) →
      (runAll owner book commands).IsConsistent
  | [] => h
  | c :: commands =>
      isConsistent_runAll_of (isConsistent_run h owner c) owner
        commands

end

/- All rulebooks that commands lead to are consistent. -/
theorem isConsistent_runAll
    (settings : Settings)
    (commands : List Command) :
    (runAll none (Rulebook.empty settings)
      commands).IsConsistent :=
  isConsistent_runAll_of (isConsistent_empty settings) none
    commands

end Command

end CharSheet
