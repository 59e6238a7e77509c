import CharSheet.Pattern.Basic
import CharSheet.Store

/-
  The expressions of formulas.

  An expression reads the value of a rule's source, named
  attributes, and all attributes whose names match a pattern.

  Key definitions include:
    * `UnaryOp`, `BinaryOp`, `Func`, `Gather`
    * `Expr`
    * `Expr.keys`
    * `Expr.patterns`
-/

namespace CharSheet

------------------------------------------------------------
-- Operators
------------------------------------------------------------

/- The operators of one operand. -/
inductive UnaryOp where
  | neg
  | plus
  | not
deriving DecidableEq

/- The operators of two operands that read both of them. -/
inductive BinaryOp where
  | add
  | sub
  | mul
  | div
  | rem
  | eq
  | ne
  | lt
  | le
  | gt
  | ge
deriving DecidableEq

/- The functions of formulas. -/
inductive Func where
  | floor
  | ceil
  | round
  | abs
  | min
  | max
  | signed
deriving DecidableEq

namespace Func

/- The name of a function. -/
def name : Func → String
  | .floor => "floor"
  | .ceil => "ceil"
  | .round => "round"
  | .abs => "abs"
  | .min => "min"
  | .max => "max"
  | .signed => "signed"

/- All functions. -/
def all : List Func :=
  [.floor, .ceil, .round, .abs, .min, .max, .signed]

/- The function of a name, which may stand after `Math.`. -/
def ofName? (name : String) : Option Func :=
  let short :=
    match Text.after? "Math.".toList name.toList with
    | some rest => String.ofList rest
    | none => name
  all.find? (·.name = short)

end Func

/- What is made of the attributes that match a pattern. -/
inductive Gather where
  | sum
  | max
deriving DecidableEq

------------------------------------------------------------
-- Expressions
------------------------------------------------------------

/- An expression of a formula. -/
inductive Expr where
  | literal (v : Value)
  | absent
  | source
  | attr (key : Key)
  | unary (op : UnaryOp) (e : Expr)
  | binary (op : BinaryOp) (a b : Expr)
  | both (a b : Expr)
  | either (a b : Expr)
  | choose (condition yes no : Expr)
  | call (f : Func) (args : List Expr)
  | occurrences (subject : Expr) (pattern : Pattern)
  | gather (kind : Gather) (pattern : Pattern)

namespace Expr

instance : Inhabited Expr := ⟨.absent⟩

/- The expression of a number. -/
def number (n : Number) : Expr :=
  .literal (.number n)

/- The expression of a text. -/
def text (s : String) : Expr :=
  .literal (.text s)

mutual

/-
  The attributes that an expression names, from left to
  right.
-/
def keys : Expr → List Key
  | .literal _ => []
  | .absent => []
  | .source => []
  | .attr key => [key]
  | .unary _ e => e.keys
  | .binary _ a b => a.keys ++ b.keys
  | .both a b => a.keys ++ b.keys
  | .either a b => a.keys ++ b.keys
  | .choose c a b => c.keys ++ a.keys ++ b.keys
  | .call _ args => keysOfAll args
  | .occurrences e _ => e.keys
  | .gather _ _ => []

/- The attributes that a list of expressions names. -/
def keysOfAll : List Expr → List Key
  | [] => []
  | e :: es => e.keys ++ keysOfAll es

end

mutual

/-
  The patterns by which an expression gathers attributes,
  from left to right.
-/
def patterns : Expr → List Pattern
  | .literal _ => []
  | .absent => []
  | .source => []
  | .attr _ => []
  | .unary _ e => e.patterns
  | .binary _ a b => a.patterns ++ b.patterns
  | .both a b => a.patterns ++ b.patterns
  | .either a b => a.patterns ++ b.patterns
  | .choose c a b => c.patterns ++ a.patterns ++ b.patterns
  | .call _ args => patternsOfAll args
  | .occurrences e _ => e.patterns
  | .gather _ p => [p]

/- The patterns of a list of expressions. -/
def patternsOfAll : List Expr → List Pattern
  | [] => []
  | e :: es => e.patterns ++ patternsOfAll es

end

end Expr

end CharSheet
