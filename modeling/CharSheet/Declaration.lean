import CharSheet.Abilities
import CharSheet.Fragment
import CharSheet.Requirement
import CharSheet.Rule

/-
  What content declares to a rulebook.

  Content is turned into a list of declarations first.  Only
  the rulebook knows which of them take effect: an option
  needs an allocation, and an adjustment an attribute.

  Key definitions include:
    * `Declaration`
    * `Declaration.ofTexts`
    * `Formula.whenProficient`
    * `Item.declarations`
    * `grantDeclarations`
    * `noteDeclarations`
    * `requirementDeclarations`
-/

namespace CharSheet

/- One thing that content declares. -/
inductive Declaration where
  /- a rule of the content itself -/
  | rule
      (target source : Key)
      (op : Operator)
      (formula : Option Formula)
  /- a note that compares members with a budget -/
  | allocation (note budget : Key)
  /- an attribute that counts as a member of an allocation -/
  | member (note key : Key)
  /- something that may be chosen from the pools of a kind -/
  | option (kind : PoolKind) (name : String)
  /- a change of the attribute that words name -/
  | adjustment
      (gate : Key)
      (op : Adjustment)
      (amount : Amount)
      (words : List String)
  /- a pool of choices that is open while its gate is truthy -/
  | pool
      (kind : PoolKind)
      (count : Nat)
      (gate : Key)
      (options : Option (List String))
  /- the text that a note is shown with -/
  | note (key : Key) (format : String)
  /- the requirement whose unmet clauses a note counts -/
  | requirement
      (note selector : Key)
      (requirement : Requirement)

/-
  A rule that is spelled by texts.  A bad operator is reported
  before a bad formula.
-/
def Declaration.ofTexts
    (target source op : String)
    (formula : Option String) :
    Except ContentError Declaration := do
  let op ← Operator.ofText op
  let formula ← formula.mapM Formula.ofText
  return .rule target source op formula

/- The formula of the bonus for a truthy proficiency. -/
def Formula.whenProficient : Formula :=
  ⟨"source ? dict['proficiencyBonus'] : 0",
    .choose .source (.attr "proficiencyBonus") (.number 0)⟩

------------------------------------------------------------
-- Grants
------------------------------------------------------------

/- What an item of a grant declares, while a gate is truthy. -/
def Item.declarations
    (gate : Key)
    (kind : PoolKind) : Item → List Declaration
  | .choose count options =>
      .rule kind.budget gate .add
          (some (.gated (.ofNat count))) ::
        (options.getD []).map (.option kind) ++
        [.pool kind count gate options]
  | .grant name amount =>
      match kind with
      | .abilityBoost =>
          [.rule (abilityKey name) gate .add
            (some (.gated amount))]
      | kind =>
          [.rule (.under kind.grantScope name) gate .set
            (some (.gated 1))]

/- What a list of granted items declares. -/
def grantDeclarations
    (gate : Key)
    (kind : PoolKind)
    (items : List Item) : List Declaration :=
  items.flatMap (Item.declarations gate kind)

------------------------------------------------------------
-- Notes
------------------------------------------------------------

/- What a fragment of a note declares. -/
def Fragment.declarations
    (gate : Key) : Fragment → List Declaration
  | .grant kind items => grantDeclarations gate kind items
  | .adjust op amount words =>
      [.adjustment gate op amount words]

/- What the text of a note declares, while a gate is truthy. -/
def noteDeclarations
    (gate : Key)
    (text : String) : List Declaration :=
  (Fragment.allIn text).flatMap (Fragment.declarations gate)

------------------------------------------------------------
-- Requirements
------------------------------------------------------------

/- The formula that is one while a clause does not hold. -/
def Clause.unmetFormula (c : Clause) : Formula :=
  ⟨"!(" ++ c.text ++ ")",
    .choose c.toExpr (.number 0) (.number 1)⟩

/-
  What a requirement declares: a note that counts the unmet
  clauses while the selector is truthy.
-/
def requirementDeclarations
    (heading name : String)
    (selector : Key)
    (requirement : Requirement) : List Declaration :=
  let note := Key.under (heading ++ "Notes") name
  .rule note selector .gate none ::
    .rule note selector .set
      (some (.constant (.number 0))) ::
    (requirement.clauses.map fun c =>
      .rule note selector .add (some c.unmetFormula)) ++
    [.requirement note selector requirement]

end CharSheet
