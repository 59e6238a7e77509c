import CharSheet.Number.Basic

/-
  Rounding to the nearest binary64, a tie to the even
  neighbour.

  Every operation on numbers is an exact one followed by a
  rounding.  The rounding is a value, so that the same
  operations can also be taken exactly.

  Key definitions include:
    * `Number.nearestEven`
    * `Number.quantumExponent`
    * `Number.ofMagnitude`
    * `Number.ofRat`
    * `Number.nearest`
    * `Rounding`
    * `Rounding.double`
    * `Rounding.exact`
-/

namespace CharSheet

namespace Number

------------------------------------------------------------
-- Rounding Fractions
------------------------------------------------------------

/-
  The nearest integer; a half goes to the even neighbour.
-/
def nearestEven (q : Rat) : Int :=
  let k := q.floor
  if q - k < 1 / 2 then k
  else if 1 / 2 < q - k then k + 1
  else k + k % 2

/- The power of two, as a fraction. -/
def powerOfTwo : Int → Rat
  | .ofNat e => (Nat.pow 2 e : Nat)
  | .negSucc e => mkRat 1 (Nat.pow 2 (e + 1))

/-
  The greatest exponent whose power of two is at most a
  positive fraction.
-/
def floorLog2 (q : Rat) : Int :=
  let k : Int := (q.num.natAbs.log2 : Int) - q.den.log2
  if powerOfTwo k ≤ q then k else k - 1

/-
  The exponent of the last place that a binary64 near a
  positive fraction has.
-/
def quantumExponent (q : Rat) : Int :=
  max (floorLog2 q - (precision - 1)) minExponent

/-
  The number nearest to a fraction that is at least zero,
  with the sign given apart.  Results beyond the range
  become infinite, results below it zero of the given sign.
-/
def ofMagnitude
    (negative : Bool)
    (q : Rat) : Number :=
  if q ≤ 0 then zero negative
  else
    let e := quantumExponent q
    let m := (nearestEven (q / powerOfTwo e)).natAbs
    if m = 0 then zero negative
    else if maxExponent ≤ (m.log2 : Int) + e then
      .infinite negative
    else
      let signed : Int := if negative then -m else m
      .finite (.ofIntWithPrec signed (-e))

/- The number nearest to a fraction. -/
def ofRat (q : Rat) : Number :=
  if q < 0 then ofMagnitude true (-q)
  else ofMagnitude false q

/-
  The number nearest to a binary fraction.  A fraction that
  fits is its own nearest number.
-/
def nearest (d : Dyadic) : Number :=
  if Representable d then .finite d else ofRat d.toRat

/- A representable fraction is kept. -/
theorem nearest_of_representable
    {d : Dyadic}
    (h : Representable d) :
    nearest d = .finite d := by
  simp [nearest, h]

end Number

------------------------------------------------------------
-- Roundings
------------------------------------------------------------

/-
  A rounding settles which number an exact binary fraction
  becomes.
-/
abbrev Rounding := Dyadic → Number

namespace Rounding

/- Results become the nearest binary64. -/
def double : Rounding := Number.nearest

/- Results are kept as they are. -/
def exact : Rounding := Number.finite

end Rounding

end CharSheet
