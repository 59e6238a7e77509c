import CharSheet.Number.Layout
import CharSheet.Text.Cut

/-
  Values of attributes: truth values, numbers and texts.

  An attribute without a value is `none`, never a value of
  its own.  Values are coerced loosely: a text that reads as
  a number behaves as one.

  Key definitions include:
    * `Value`
    * `Value.display`
    * `Value.truthy`
    * `Value.number?`
    * `Value.looseEq`
    * `Value.looseCmp?`
    * `Value.plus?`
    * `Value.times?`
    * `Value.max`
    * `Value.min`
-/

namespace CharSheet

------------------------------------------------------------
-- Values
------------------------------------------------------------

/- The value of an attribute. -/
inductive Value where
  | bool (b : Bool)
  | number (n : Number)
  | text (s : String)
deriving DecidableEq, Inhabited

namespace Value

/- The value of a count. -/
def ofNat (n : Nat) : Value :=
  .number (.ofNat n)

/-
  The text of a number as a value: a whole number below
  10^15 in size is written as an integer.
-/
def numberText (n : Number) : String :=
  match n.integer? with
  | some i =>
      if i.natAbs < Nat.pow 10 15 then toString i else n.plain
  | none => n.plain

/- The text of a value. -/
def display : Value → String
  | .bool b => if b then "true" else "false"
  | .number n => numberText n
  | .text s => s

------------------------------------------------------------
-- Coercions
------------------------------------------------------------

/- Zero, `nan`, the empty text and `false` are not truthy. -/
def truthy : Value → Bool
  | .bool b => b
  | .number n => !n.isZero && !n.isNaN
  | .text s => !s.isEmpty

/-
  The numeric view of a value.  A text has one when it reads
  as a number, white space around it apart.
-/
def number? : Value → Option Number
  | .bool b => some (if b then 1 else 0)
  | .number n => if n.isNaN then none else some n
  | .text s => Number.ofChars? (Text.trimChars s.toList)

/- A text without a numeric view. -/
def isWord (v : Value) : Bool :=
  match v with
  | .text _ => v.number?.isNone
  | _ => false

------------------------------------------------------------
-- Comparisons
------------------------------------------------------------

/-
  Equality of numbers where both values have one, else of
  their texts.
-/
def looseEq (a b : Value) : Bool :=
  match a.number?, b.number? with
  | some x, some y => x.eqv y
  | _, _ => a.display = b.display

/-
  The order of numbers where both values have one, else of
  two texts.  Other values are not comparable.
-/
def looseCmp? (a b : Value) : Option Ordering :=
  match a.number?, b.number? with
  | some x, some y => x.cmp? y
  | _, _ =>
      match a, b with
      | .text s, .text t => some (compare s t)
      | _, _ => none

/-
  The larger of two values.  Where they are not comparable,
  the first one stays if it is numeric.
-/
def max (a b : Value) : Value :=
  match a.looseCmp? b with
  | some .lt => b
  | some _ => a
  | none => if a.number?.isSome then a else b

/-
  The smaller of two values.  Where they are not comparable,
  the first one stays if it is numeric.
-/
def min (a b : Value) : Value :=
  match a.looseCmp? b with
  | some .gt => b
  | some _ => a
  | none => if a.number?.isSome then a else b

------------------------------------------------------------
-- Arithmetic
------------------------------------------------------------

/-
  The texts put together when either value is a word, else
  the sum of the numbers.
-/
def plus?
    (a b : Value)
    (rounding : Rounding := .double) : Option Value :=
  if a.isWord || b.isWord then
    some (.text (a.display ++ b.display))
  else do
    let x ← a.number?
    let y ← b.number?
    return .number (x.add y rounding)

/- The product of the numbers. -/
def times?
    (a b : Value)
    (rounding : Rounding := .double) : Option Value := do
  let x ← a.number?
  let y ← b.number?
  return .number (x.mul y rounding)

end Value

end CharSheet
