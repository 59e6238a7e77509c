import CharSheet.Formula
import CharSheet.Operator

/-
  Rules: how one attribute contributes to another one.

  A rule takes the value of its source, through a formula or
  as it is, and joins it to the value of its target.  A source
  without a value contributes nothing.

  Key definitions include:
    * `Origin`, `Owner`
    * `Rule`
    * `Rule.contribution`
    * `Rule.description`
    * `Rule.before`
    * `Rule.joinAll`
    * `Rule.traceAll`
-/

namespace CharSheet

------------------------------------------------------------
-- Origins
------------------------------------------------------------

/- The content that something was declared for. -/
structure Origin where
  kind : String
  name : String
deriving DecidableEq, Inhabited

/- The text of an origin. -/
def Origin.display (o : Origin) : String :=
  o.kind ++ " " ++ o.name

/- Whom a declaration belongs to, if not to all. -/
abbrev Owner := Option Origin

------------------------------------------------------------
-- Rules
------------------------------------------------------------

/-
  A rule.  Its number says when it was declared, and a rule
  without an owner belongs to no single content.
-/
structure Rule where
  target : Key
  source : Key
  op : Operator
  formula : Option Formula
  owner : Owner
  seq : Nat
deriving Inhabited

namespace Rule

/- What a rule contributes on a sheet, if anything. -/
def contribution
    (r : Rule)
    (sheet : Store) : Option Value :=
  match sheet[r.source]?, r.formula with
  | none, _ => none
  | some v, none => some v
  | some v, some f => f.eval (some v) sheet

/- The text of a rule. -/
def description (r : Rule) : String :=
  let rule := r.target ++ " " ++ r.op.symbol ++ " " ++ r.source
  match r.formula with
  | none => rule
  | some f => rule ++ " [" ++ f.text ++ "]"

/-
  Of the rules of one attribute, those of a lower priority
  are applied first, and then those declared earlier.
-/
def before (a b : Rule) : Bool :=
  a.op.priority < b.op.priority ||
    (a.op.priority = b.op.priority && a.seq ≤ b.seq)

/-
  Join what rules contribute to a value, one after another.
  A gate that does not hold leaves no value at all.
-/
def joinAll
    (sheet : Store) :
    List Rule → Option Value → Option Value
  | [], v => v
  | r :: rs, v =>
      if r.op = .gate then
        if holds (r.contribution sheet) then joinAll sheet rs v
        else none
      else
        match r.contribution sheet with
        | none => joinAll sheet rs v
        | some c => joinAll sheet rs (r.op.combine v c)

/-
  What rules contribute, one after another, up to a gate that
  does not hold.  A gate contributes whether it holds.
-/
def traceAll
    (sheet : Store) :
    List Rule → List (Rule × Option Value)
  | [] => []
  | r :: rs =>
      if r.op = .gate then
        let isOpen := holds (r.contribution sheet)
        (r, some (.bool isOpen)) ::
          if isOpen then traceAll sheet rs else []
      else (r, r.contribution sheet) :: traceAll sheet rs

end Rule

end CharSheet
