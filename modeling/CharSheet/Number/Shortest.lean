import CharSheet.Number.Decimal

/-
  The decimal with the fewest digits that reads back as a
  given number, and of those the nearest one.

  Key definitions include:
    * `ReadBack`
    * `ReadBack.ofFraction`
    * `ReadBack.Contains`
    * `Tie`
    * `Decimal.shortest`
-/

namespace CharSheet

------------------------------------------------------------
-- The Fractions That Read Back
------------------------------------------------------------

/-
  The fractions that round to a positive number: all between
  two halfway points, which belong to them when the last bit
  of the number is even.
-/
structure ReadBack where
  value : Rat
  low : Rat
  high : Rat
  closed : Bool

namespace ReadBack

/-
  The fractions that read back as a positive fraction.  Just
  above a power of two the numbers below lie twice as close.
-/
def ofFraction (q : Rat) : ReadBack :=
  let e := Number.quantumExponent q
  let unit := Number.powerOfTwo e
  let m := (q / unit).floor
  let lowest :=
    m = Nat.pow 2 (Number.precision - 1) ∧
      Number.minExponent < e
  { value := q
    low := if lowest then q - unit / 4 else q - unit / 2
    high := q + unit / 2
    closed := m % 2 = 0 }

/- A fraction reads back as the number. -/
def Contains
    (r : ReadBack)
    (q : Rat) : Prop :=
  if r.closed then r.low ≤ q ∧ q ≤ r.high
  else r.low < q ∧ q < r.high

instance
    (r : ReadBack)
    (q : Rat) :
    Decidable (r.Contains q) := by
  unfold Contains
  infer_instance

end ReadBack

------------------------------------------------------------
-- Shortest Decimals
------------------------------------------------------------

/- Which of two equally near decimals is taken. -/
inductive Tie where
  | even
  | away
deriving DecidableEq

namespace Decimal

/-
  The place before the first digit of a positive fraction:
  the fraction lies below ten to this power, and not below
  the next smaller power.
-/
def leadingPlace (q : Rat) : Int :=
  if 1 ≤ q then digitCount q.floor.toNat
  else 1 - (digitCount ((1 / q).ceil.toNat - 1) : Int)

/-
  The nearer of the two neighbours of a fraction on a decimal
  grid that read back, if one does.
-/
def onGrid?
    (r : ReadBack)
    (tie : Tie)
    (exponent : Int) : Option Decimal :=
  let unit := powerOfTen exponent
  let below := (r.value / unit).floor
  let candidate (c : Int) : Option Decimal :=
    if r.Contains ((c : Rat) * unit) then
      some ⟨c.toNat, exponent⟩
    else none
  match candidate below, candidate (below + 1) with
  | some d, none => some d
  | none, some u => some u
  | none, none => none
  | some d, some u =>
      let gap := r.value / unit - below
      if gap < 1 / 2 then some d
      else if 1 / 2 < gap then some u
      else
        match tie with
        | .away => some u
        | .even => some (if below % 2 = 0 then d else u)

/-
  Try the decimal grids from a coarse one to finer ones.
-/
def firstOnGrid
    (r : ReadBack)
    (tie : Tie)
    (exponent : Int) : Nat → Decimal
  | 0 => ⟨0, 0⟩
  | fuel + 1 =>
      match onGrid? r tie exponent with
      | some d => d
      | none => firstOnGrid r tie (exponent - 1) fuel

/-
  The shortest decimal that reads back as a positive
  fraction.  The first grid holds only the powers of ten that
  the fraction may round up to; seventeen digits always
  suffice for a binary64.
-/
def shortest
    (tie : Tie)
    (q : Rat) : Decimal :=
  firstOnGrid (ReadBack.ofFraction q) tie
    (leadingPlace q) 18

end Decimal

end CharSheet
