/-
  The numbers of a character sheet.

  A number is a binary fraction, a signed infinity, or not a
  number.  Zero has a second, negative form, because some
  texts show its sign.  The type holds every binary fraction;
  `Representable` says which of them a binary64 can hold.

  Key definitions include:
    * `Number`
    * `Number.exactValue`
    * `Number.dyadic?`
    * `Number.isNegative`
    * `Number.zero`
    * `Number.Representable`
    * `Number.integer?`
-/

namespace CharSheet

------------------------------------------------------------
-- Numbers
------------------------------------------------------------

/-
  A number of the sheet.  A `nan` keeps a sign, since the
  total order of numbers tells the two signs apart.
-/
inductive Number where
  | nan (negative : Bool)
  | infinite (negative : Bool)
  | negZero
  | finite (value : Dyadic)
deriving DecidableEq

namespace Number

instance : Inhabited Number := ⟨.finite 0⟩

/- The number of a whole count. -/
def ofNat (n : Nat) : Number :=
  .finite (n : Dyadic)

/- The number of an integer. -/
def ofInt (n : Int) : Number :=
  .finite (n : Dyadic)

instance (n : Nat) : OfNat Number n := ⟨.ofNat n⟩

/- The zero of the given sign. -/
def zero (negative : Bool) : Number :=
  if negative then .negZero else .finite 0

/-
  The binary fraction that a number stands for.  Both zeros
  stand for zero; a number that is not finite stands for
  none.
-/
def dyadic? : Number → Option Dyadic
  | .nan _ => none
  | .infinite _ => none
  | .negZero => some 0
  | .finite d => some d

/- The binary fraction of a number, zero if it has none. -/
def exactValue (x : Number) : Dyadic :=
  x.dyadic?.getD 0

/- Both forms of "not a number". -/
def isNaN : Number → Bool
  | .nan _ => true
  | _ => false

/- Both zeros. -/
def isZero : Number → Bool
  | .negZero => true
  | .finite d => d = 0
  | _ => false

/- Neither infinite nor `nan`. -/
def isFinite (x : Number) : Bool :=
  x.dyadic?.isSome

/- The sign that a number is written with. -/
def isNegative : Number → Bool
  | .nan negative => negative
  | .infinite negative => negative
  | .negZero => true
  | .finite d => d < 0

------------------------------------------------------------
-- Representable Fractions
------------------------------------------------------------

/- The number of significant bits of a binary64. -/
def precision : Nat := 53

/- The exponent of the least positive binary64. -/
def minExponent : Int := -1074

/- Finite binary64 numbers lie below two to this power. -/
def maxExponent : Int := 1024

/-
  A fraction fits a binary64 when its odd part has at most
  53 bits and its exponents lie in the range of the format.
-/
def Representable : Dyadic → Prop
  | .zero => True
  | .ofOdd n k _ =>
      n.natAbs < Nat.pow 2 precision ∧
        k ≤ -minExponent ∧
        (n.natAbs.log2 : Int) - k < maxExponent

instance (d : Dyadic) : Decidable (Representable d) := by
  cases d <;> unfold Representable <;> infer_instance

------------------------------------------------------------
-- Integers
------------------------------------------------------------

/- The integer that a binary fraction is, if it is one. -/
def wholePart? : Dyadic → Option Int
  | .zero => some 0
  | .ofOdd n k _ =>
      if k ≤ 0 then some (n * Nat.pow 2 (-k).toNat) else none

/- The integer that a number is, if it is one. -/
def integer? (x : Number) : Option Int :=
  x.dyadic?.bind wholePart?

end Number

end CharSheet
