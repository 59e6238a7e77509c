import CharSheet.Formula.Expr
import CharSheet.Pattern.Matching

/-
  The value of an expression.

  Every expression has a value or none.  What cannot be
  computed has none, and so has what is computed from it.

  Key definitions include:
    * `BinaryOp.eval`
    * `Func.eval`
    * `Gather.eval`
    * `Expr.eval`
-/

namespace CharSheet

/- A value that is present and truthy. -/
def holds (v : Option Value) : Bool :=
  v.any Value.truthy

------------------------------------------------------------
-- Operators
------------------------------------------------------------

/- The numeric view of a value that may be absent. -/
def numberOf? (v : Option Value) : Option Number :=
  v.bind Value.number?

/- The value of an operator of one operand. -/
def UnaryOp.eval : UnaryOp → Option Value → Option Value
  | .not, v => some (.bool !holds v)
  | .neg, v => (numberOf? v).map fun x => .number x.neg
  | .plus, v => (numberOf? v).map .number

/-
  A comparison of two values.  It fails where one is absent
  or the two are not comparable.
-/
def compareWith
    (accept : Ordering → Bool)
    (a b : Option Value) : Option Value :=
  match a, b with
  | some a, some b => some (.bool ((a.looseCmp? b).any accept))
  | _, _ => some (.bool false)

/- Equality of values; two absent ones are equal. -/
def equalValues : Option Value → Option Value → Bool
  | some a, some b => a.looseEq b
  | none, none => true
  | _, _ => false

/- An operation on the numbers of two values. -/
def onNumbers
    (f : Number → Number → Option Number)
    (a b : Option Value) : Option Value := do
  let x ← numberOf? a
  let y ← numberOf? b
  return .number (← f x y)

/-
  The value of an operator of two operands.  A quotient and a
  remainder by zero have none.
-/
def BinaryOp.eval
    (op : BinaryOp)
    (a b : Option Value) : Option Value :=
  match op with
  | .eq => some (.bool (equalValues a b))
  | .ne => some (.bool !equalValues a b)
  | .lt => compareWith (· == .lt) a b
  | .le => compareWith (· != .gt) a b
  | .gt => compareWith (· == .gt) a b
  | .ge => compareWith (· != .lt) a b
  | .add => do (← a).plus? (← b)
  | .mul => do (← a).times? (← b)
  | .sub => onNumbers (fun x y => some (x.sub y)) a b
  | .div =>
      onNumbers
        (fun x y => if y.isZero then none else some (x.div y)) a b
  | .rem =>
      onNumbers
        (fun x y => if y.isZero then none else some (x.mod y)) a b

------------------------------------------------------------
-- Functions
------------------------------------------------------------

/- Join the numbers of a list, if it holds any. -/
def joinNumbers
    (f : Number → Number → Number) :
    List Number → Option Number
  | [] => none
  | x :: xs => some (xs.foldl f x)

/- The text of a number that shows a plus sign too. -/
def signedText (x : Number) : String :=
  let shown := Value.numberText x
  if Number.le 0 x then "+" ++ shown else shown

/-
  The value of a function.  All but the least and the
  greatest number look at the first argument alone.
-/
def Func.eval
    (f : Func)
    (args : List (Option Value)) : Option Value :=
  let first := numberOf? args.head?.join
  let numbers := args.filterMap numberOf?
  match f with
  | .floor => first.map fun x => .number x.floor
  | .ceil => first.map fun x => .number x.ceil
  | .round => first.map fun x => .number x.round
  | .abs => first.map fun x => .number x.abs
  | .signed => first.map fun x => .text (signedText x)
  | .min => (joinNumbers Number.min numbers).map .number
  | .max => (joinNumbers Number.max numbers).map .number

/- What is made of the attributes that match a pattern. -/
def Gather.eval
    (kind : Gather)
    (p : Pattern)
    (sheet : Store) : Option Value :=
  let numbers :=
    sheet.toList.filterMap fun (key, v) =>
      if p.matchesIn key then v.number? else none
  match kind with
  | .sum => some (.number (Number.sum numbers))
  | .max => (joinNumbers Number.max numbers).map .number

------------------------------------------------------------
-- Expressions
------------------------------------------------------------

namespace Expr

mutual

/-
  The value of an expression, from the value of the source
  and the sheet as far as it is computed.
-/
def eval
    (source : Option Value)
    (sheet : Store) : Expr → Option Value
  | .literal v => some v
  | .absent => none
  | .source => source
  | .attr key => sheet[key]?
  | .unary op e => op.eval (e.eval source sheet)
  | .binary op a b =>
      op.eval (a.eval source sheet) (b.eval source sheet)
  | .both a b =>
      let v := a.eval source sheet
      if holds v then b.eval source sheet else v
  | .either a b =>
      let v := a.eval source sheet
      if holds v then v else b.eval source sheet
  | .choose c a b =>
      if holds (c.eval source sheet) then a.eval source sheet
      else b.eval source sheet
  | .call f args => f.eval (evalAll source sheet args)
  | .occurrences e p =>
      (e.eval source sheet).map fun v =>
        .ofNat (p.count v.display)
  | .gather kind p => kind.eval p sheet

/- The values of a list of expressions. -/
def evalAll
    (source : Option Value)
    (sheet : Store) : List Expr → List (Option Value)
  | [] => []
  | e :: es =>
      e.eval source sheet :: evalAll source sheet es

end

end Expr

end CharSheet
