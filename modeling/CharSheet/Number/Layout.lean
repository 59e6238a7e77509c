import CharSheet.Number.Arithmetic
import CharSheet.Number.Shortest

/-
  The texts of numbers.

  Two spellings are in use.  The plain one never has an
  exponent.  The document one always shows a point or an
  exponent.

  Key definitions include:
    * `Decimal.plain`
    * `Decimal.document`
    * `Number.plain`
    * `Number.document?`
-/

namespace CharSheet

namespace Decimal

/- The decimal digits of a count. -/
def digitsOf (n : Nat) : List Char :=
  Nat.toDigits 10 n

/- A row of zeros. -/
def zeros (n : Nat) : List Char :=
  List.replicate n '0'

/-
  The digits of a decimal with the point in its place.  A
  decimal below one shows a zero before the point.
-/
def positional
    (d : Decimal)
    (wholeEnd : List Char) : List Char :=
  let digits := digitsOf d.coefficient
  let place : Int := digits.length + d.exponent
  if 0 ≤ d.exponent then
    digits ++ zeros d.exponent.toNat ++ wholeEnd
  else if place ≤ 0 then
    ['0', '.'] ++ zeros (-place).toNat ++ digits
  else
    digits.take place.toNat ++ '.' :: digits.drop place.toNat

/- A decimal without an exponent. -/
def plain (d : Decimal) : List Char :=
  d.positional []

/- A decimal with one digit before the point. -/
def scientific (d : Decimal) : List Char :=
  let digits := digitsOf d.coefficient
  let place : Int := digits.length - 1 + d.exponent
  let mantissa :=
    match digits with
    | c :: c' :: rest => c :: '.' :: c' :: rest
    | short => short
  let sign := if place < 0 then '-' else '+'
  mantissa ++ 'e' :: sign :: digitsOf place.natAbs

/-
  A decimal in a document: positional from 10^-5 on and below
  10^16, and with a point in every positional text.
-/
def document (d : Decimal) : List Char :=
  let place : Int :=
    (digitsOf d.coefficient).length - 1 + d.exponent
  if -5 ≤ place ∧ place < 16 then
    d.positional ['.', '0']
  else d.scientific

end Decimal

namespace Number

/-
  The spelling of a number by the spelling of its shortest
  decimal.
-/
def layout
    (tie : Tie)
    (spell : Decimal → List Char)
    (zeroText : List Char)
    (x : Number) : List Char :=
  let q := x.exactValue.toRat
  let sign := if x.isNegative then ['-'] else []
  if q = 0 then sign ++ zeroText
  else
    sign ++
      spell (Decimal.shortest tie (if q < 0 then -q else q))

/-
  The plain text of a number: the fewest digits that read
  back, and never an exponent.
-/
def plain : Number → String
  | .nan _ => "NaN"
  | .infinite false => "inf"
  | .infinite true => "-inf"
  | x => String.ofList (layout .away Decimal.plain ['0'] x)

/-
  The text of a number in a document.  A number that is not
  finite has none.
-/
def document? (x : Number) : Option String :=
  if x.isFinite then
    some (String.ofList
      (layout .even Decimal.document ['0', '.', '0'] x))
  else none

end Number

end CharSheet
