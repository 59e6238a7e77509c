import CharSheet.Number.Rounding

/-
  Arithmetic on numbers.

  Sums and products take the rounding as an argument.  The
  other operations always round to the nearest binary64.

  Key definitions include:
    * `Number.add`, `Number.mul`, `Number.sub`
    * `Number.div`, `Number.mod`
    * `Number.floor`, `Number.ceil`, `Number.round`
    * `Number.cmp?`, `Number.eqv`
    * `Number.max`, `Number.min`
    * `Number.clampToNat`
    * `Number.totalLe`
-/

namespace CharSheet

namespace Number

------------------------------------------------------------
-- Signs
------------------------------------------------------------

/- The number with the other sign. -/
def neg : Number → Number
  | .nan negative => .nan !negative
  | .infinite negative => .infinite !negative
  | .negZero => .finite 0
  | .finite d => if d = 0 then .negZero else .finite (-d)

/- The number without its sign. -/
def abs (x : Number) : Number :=
  if x.isNegative then x.neg else x

------------------------------------------------------------
-- Sums and Products
------------------------------------------------------------

/-
  The sum.  Infinities of two signs cancel to `nan`, and two
  negative zeros stay negative.
-/
def add
    (x y : Number)
    (rounding : Rounding := .double) : Number :=
  match x, y with
  | .nan s, _ => .nan s
  | _, .nan s => .nan s
  | .infinite s, .infinite t =>
      if s = t then .infinite s else .nan false
  | .infinite s, _ => .infinite s
  | _, .infinite t => .infinite t
  | .negZero, .negZero => .negZero
  | .negZero, .finite d => .finite d
  | .finite d, .negZero => .finite d
  | .finite d, .finite e => rounding (d + e)

/- The difference. -/
def sub (x y : Number) : Number :=
  x.add y.neg

/-
  The product.  Its sign is negative when the signs of the
  factors differ, also where it is zero.
-/
def mul
    (x y : Number)
    (rounding : Rounding := .double) : Number :=
  let negative := x.isNegative != y.isNegative
  match x.dyadic?, y.dyadic? with
  | some d, some e =>
      if d * e = 0 then zero negative
      else rounding (d * e)
  | _, _ =>
      if x.isNaN || y.isNaN || x.isZero || y.isZero then
        .nan false
      else .infinite negative

/- The sum of a list, from the left. -/
def sum (xs : List Number) : Number :=
  xs.foldl (·.add ·) 0

------------------------------------------------------------
-- Quotients and Remainders
------------------------------------------------------------

/- The quotient. -/
def div (x y : Number) : Number :=
  let negative := x.isNegative != y.isNegative
  match x.dyadic?, y.dyadic? with
  | some d, some e =>
      if e = 0 then
        if d = 0 then .nan false else .infinite negative
      else
        let q := d.toRat / e.toRat
        ofMagnitude negative (if q < 0 then -q else q)
  | some _, none =>
      if y.isNaN then y else zero negative
  | none, some _ =>
      if x.isNaN then x else .infinite negative
  | none, none => .nan false

/-
  The exact remainder of two binary fractions without sign,
  taken on the finer of their two grids.
-/
def dyadicMod (d e : Dyadic) : Dyadic :=
  match d, e with
  | .ofOdd n k _, .ofOdd m l _ =>
      let fine := max k l
      let a := n.natAbs * Nat.pow 2 (fine - k).toNat
      let b := m.natAbs * Nat.pow 2 (fine - l).toNat
      .ofIntWithPrec (a % b : Nat) fine
  | _, _ => 0

/-
  The remainder of the division toward zero.  It has the
  sign of the first number.
-/
def mod (x y : Number) : Number :=
  match x.dyadic?, y.dyadic? with
  | some d, some e =>
      if e = 0 then .nan false
      else
        let r := dyadicMod d e
        if r = 0 then zero x.isNegative
        else .finite (if x.isNegative then -r else r)
  | some _, none => if y.isNaN then y else x
  | none, _ => .nan false

------------------------------------------------------------
-- Whole Parts
------------------------------------------------------------

/- Apply a map to whole fractions, keeping the sign of zero. -/
def mapWhole
    (f : Dyadic → Dyadic)
    (x : Number) : Number :=
  match x with
  | .finite d =>
      if f d = 0 then zero x.isNegative else .finite (f d)
  | _ => x

/- The greatest integer that is at most the number. -/
def floor : Number → Number :=
  mapWhole (·.roundDown 0)

/- The least integer that is at least the number. -/
def ceil : Number → Number :=
  mapWhole (·.roundUp 0)

/- The fraction one half. -/
def half : Dyadic := .ofOdd 1 1 rfl

/- The nearest integer; a half goes away from zero. -/
def round : Number → Number :=
  mapWhole fun d =>
    if d < 0 then (d - half).roundUp 0
    else (d + half).roundDown 0

/-
  The whole part of a number as a count, at most `limit`.
  Negative numbers and `nan` give zero.
-/
def clampToNat
    (limit : Nat)
    (x : Number) : Nat :=
  match x with
  | .nan _ => 0
  | .infinite negative => if negative then 0 else limit
  | .negZero => 0
  | .finite d =>
      if d < 0 then 0 else min d.toRat.floor.toNat limit

------------------------------------------------------------
-- Order
------------------------------------------------------------

/-
  The order of two numbers; `nan` has no place in it, and
  the two zeros are equal.
-/
def cmp? (x y : Number) : Option Ordering :=
  match x, y with
  | .nan _, _ => none
  | _, .nan _ => none
  | .infinite s, .infinite t =>
      some (if s = t then .eq else if s then .lt else .gt)
  | .infinite s, _ => some (if s then .lt else .gt)
  | _, .infinite t => some (if t then .gt else .lt)
  | x, y =>
      some (compareOfLessAndEq x.exactValue y.exactValue)

/- Equality of numbers, by the order. -/
def eqv (x y : Number) : Bool :=
  x.cmp? y == some .eq

/- The first number is below the second. -/
def lt (x y : Number) : Bool :=
  x.cmp? y == some .lt

/- The first number is at most the second. -/
def le (x y : Number) : Bool :=
  x.lt y || x.eqv y

/- The larger number; `nan` loses to any other. -/
def max (x y : Number) : Number :=
  if x.isNaN then y
  else if y.isNaN then x
  else if x.lt y then y else x

/- The smaller number; `nan` loses to any other. -/
def min (x y : Number) : Number :=
  if x.isNaN then y
  else if y.isNaN then x
  else if y.lt x then y else x

/-
  The place of a number's class in the total order: negative
  `nan`, negative infinity, negative numbers, negative zero,
  zero, positive numbers, infinity, `nan`.
-/
def orderClass : Number → Nat
  | .nan true => 0
  | .infinite true => 1
  | .finite d => if d < 0 then 2 else if d = 0 then 4 else 5
  | .negZero => 3
  | .infinite false => 6
  | .nan false => 7

/-
  The total order of all numbers, `nan` and the zeros
  included.
-/
def totalLe (x y : Number) : Bool :=
  if x.orderClass = y.orderClass then
    x.exactValue ≤ y.exactValue
  else x.orderClass < y.orderClass

end Number

end CharSheet
