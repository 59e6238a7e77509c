import CharSheet.Number.Rounding

/-
  Decimal fractions, and the reading of numbers from text.

  Key definitions include:
    * `Decimal`
    * `Decimal.toNumber`
    * `Decimal.ofChars?`
    * `Number.ofChars?`
    * `Number.ofText?`
    * `wordOfText?`
-/

namespace CharSheet

------------------------------------------------------------
-- Digits
------------------------------------------------------------

/- The value of a decimal digit. -/
def digitValue (c : Char) : Nat :=
  c.toNat - '0'.toNat

/- The value of a hexadecimal digit. -/
def hexValue? (c : Char) : Option Nat :=
  if c.isDigit then some (digitValue c)
  else if 'a' ≤ c ∧ c ≤ 'f' then some (c.toNat - 87)
  else if 'A' ≤ c ∧ c ≤ 'F' then some (c.toNat - 55)
  else none

/- The number that a list of decimal digits spells. -/
def digitsValue (digits : List Char) : Nat :=
  digits.foldl (fun n c => 10 * n + digitValue c) 0

/- The decimal digits at the front of a text, and the rest. -/
def splitDigits
    (cs : List Char) : List Char × List Char :=
  (cs.takeWhile Char.isDigit, cs.dropWhile Char.isDigit)

------------------------------------------------------------
-- Decimals
------------------------------------------------------------

/- A whole coefficient times a power of ten. -/
structure Decimal where
  coefficient : Nat
  exponent : Int
deriving DecidableEq, Inhabited

namespace Decimal

/- The power of ten, as a fraction. -/
def powerOfTen : Int → Rat
  | .ofNat e => (Nat.pow 10 e : Nat)
  | .negSucc e => mkRat 1 (Nat.pow 10 (e + 1))

/- The fraction that a decimal stands for. -/
def toRat (d : Decimal) : Rat :=
  (d.coefficient : Rat) * powerOfTen d.exponent

/- The number of decimal digits of a positive count. -/
def digitCount (n : Nat) : Nat :=
  (Nat.toDigits 10 n).length

/-
  The number nearest to a decimal.  The size of the decimal
  is looked at first, so that a large exponent costs
  nothing: from 10^310 on every number is infinite, and
  below 10^-330 every number is zero.
-/
def toNumber
    (d : Decimal)
    (negative : Bool) : Number :=
  if d.coefficient = 0 then .zero negative
  else
    let size : Int := digitCount d.coefficient + d.exponent
    if 310 < size then .infinite negative
    else if size < -330 then .zero negative
    else Number.ofMagnitude negative d.toRat

/- The digits of a fraction part, if there is a point. -/
def splitFraction
    (cs : List Char) : List Char × List Char :=
  match cs with
  | '.' :: rest => splitDigits rest
  | _ => ([], cs)

/-
  The exponent at the end of a decimal.  It is `e` or `E`, a
  sign or none, and digits that reach the end of the text.
-/
def exponentOfChars? (cs : List Char) : Option Int :=
  let magnitude? (digits : List Char) : Option Int :=
    if digits.isEmpty || !digits.all Char.isDigit then none
    else some (digitsValue digits)
  match cs with
  | '-' :: digits => (magnitude? digits).map (-·)
  | '+' :: digits => magnitude? digits
  | digits => magnitude? digits

/-
  Read a decimal without a sign: digits with at most one
  point and at least one digit, then an exponent or none.
-/
def ofChars? (cs : List Char) : Option Decimal :=
  let (whole, afterWhole) := splitDigits cs
  let (fraction, rest) := splitFraction afterWhole
  let digits := whole ++ fraction
  if digits.isEmpty then none
  else
    let coefficient := digitsValue digits
    let shift : Int := fraction.length
    match rest with
    | [] => some ⟨coefficient, -shift⟩
    | c :: exponent =>
        if c = 'e' ∨ c = 'E' then
          (exponentOfChars? exponent).map fun e =>
            ⟨coefficient, e - shift⟩
        else none

end Decimal

------------------------------------------------------------
-- Reading Numbers
------------------------------------------------------------

/-
  Two texts are equal when the case of ASCII letters is
  ignored.
-/
def equalIgnoringCase (s t : String) : Bool :=
  s.toList.map Char.toLower = t.toList.map Char.toLower

namespace Number

/-
  Read a number without a sign: a decimal, or the name of
  infinity or of `nan` in any case.
-/
def ofUnsignedChars?
    (negative : Bool)
    (cs : List Char) : Option Number :=
  let name := cs.map Char.toLower
  if name = ['i', 'n', 'f'] ∨
      name = ['i', 'n', 'f', 'i', 'n', 'i', 't', 'y'] then
    some (.infinite negative)
  else if name = ['n', 'a', 'n'] then some (.nan negative)
  else (Decimal.ofChars? cs).map (·.toNumber negative)

/- Read a number with a sign or none. -/
def ofChars? : List Char → Option Number
  | '-' :: cs => ofUnsignedChars? true cs
  | '+' :: cs => ofUnsignedChars? false cs
  | cs => ofUnsignedChars? false cs

/- Read a text that is one number from end to end. -/
def ofText? (s : String) : Option Number :=
  ofChars? s.toList

end Number

/-
  Read a count below 2^32: decimal digits, with a plus sign
  or none.
-/
def wordOfText? (s : String) : Option Nat :=
  let digits :=
    match s.toList with
    | '+' :: cs => cs
    | cs => cs
  if digits.isEmpty || !digits.all Char.isDigit then none
  else
    let n := digitsValue digits
    if n < Nat.pow 2 32 then some n else none

end CharSheet
