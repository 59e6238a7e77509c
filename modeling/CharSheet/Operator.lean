import CharSheet.Error
import CharSheet.Value

/-
  The operators of rules.

  An operator joins a contribution to the running value of an
  attribute.  All rules of one attribute are applied in the
  order of their operators' priorities.

  Key definitions include:
    * `Operator`
    * `Operator.ofText`
    * `Operator.priority`
    * `Operator.isCommutative`
    * `Operator.combine`
-/

namespace CharSheet

/- How a contribution is joined to a running value. -/
inductive Operator where
  | gate
  | set
  | add
  | multiply
  | max
  | min
deriving DecidableEq, Inhabited

namespace Operator

/- The spelling of an operator. -/
def symbol : Operator → String
  | .gate => "?"
  | .set => "="
  | .add => "+"
  | .multiply => "*"
  | .max => "^"
  | .min => "v"

/-
  The operator of a spelling; those that do not replace the
  value may be followed by an equals sign.
-/
def ofText (text : String) : Except ContentError Operator :=
  match Text.trim text with
  | "?" => .ok .gate
  | "=" => .ok .set
  | "+" => .ok .add
  | "+=" => .ok .add
  | "*" => .ok .multiply
  | "*=" => .ok .multiply
  | "^" => .ok .max
  | "^=" => .ok .max
  | "v" => .ok .min
  | "v=" => .ok .min
  | other => .error (.unknownOperator other)

/- Operators of a lower priority are applied first. -/
def priority : Operator → Nat
  | .gate => 0
  | .set => 1
  | .add => 2
  | .multiply => 3
  | .max => 4
  | .min => 5

/- The operators for which the order of rules is free. -/
def isCommutative : Operator → Bool
  | .gate => false
  | .set => false
  | .add => true
  | .multiply => true
  | .max => true
  | .min => true

/-
  Join a contribution to a running value.  A contribution
  that cannot be added or multiplied is passed over.
-/
def combine
    (op : Operator)
    (current : Option Value)
    (contribution : Value)
    (rounding : Rounding := .double) : Option Value :=
  match current with
  | none => some contribution
  | some v =>
      match op with
      | .gate => some v
      | .set => some contribution
      | .add => some ((v.plus? contribution rounding).getD v)
      | .multiply =>
          some ((v.times? contribution rounding).getD v)
      | .max => some (v.max contribution)
      | .min => some (v.min contribution)

end Operator

end CharSheet
