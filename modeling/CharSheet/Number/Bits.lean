import CharSheet.Number.Rounding

/-
  The binary64 interchange form of a number: a sign bit,
  eleven exponent bits and 52 fraction bits.

  Key definitions include:
    * `Number.ofBits`
    * `Number.toBits`
-/

namespace CharSheet

namespace Number

/- The number with the given binary64 form. -/
def ofBits (bits : Nat) : Number :=
  let negative := bits / Nat.pow 2 63 % 2 == 1
  let exponent : Nat := bits / Nat.pow 2 52 % Nat.pow 2 11
  let fraction : Nat := bits % Nat.pow 2 52
  if exponent = 2047 then
    if fraction = 0 then .infinite negative else .nan negative
  else if exponent = 0 ∧ fraction = 0 then zero negative
  else
    let m :=
      if exponent = 0 then fraction
      else Nat.pow 2 52 + fraction
    let e : Int := minExponent + (Nat.max exponent 1 - 1 : Nat)
    let signed : Int := if negative then -m else m
    .finite (.ofIntWithPrec signed (-e))

/- The exponent and fraction bits of a representable value. -/
def magnitudeBits : Dyadic → Nat
  | .zero => 0
  | .ofOdd n k _ =>
      let length := n.natAbs.log2
      let exponent : Int := (length : Int) - k + 1023
      if exponent ≤ 0 then
        n.natAbs * Nat.pow 2 (-minExponent - k).toNat
      else
        exponent.toNat * Nat.pow 2 52 +
          (n.natAbs * Nat.pow 2 (52 - length) - Nat.pow 2 52)

/- The binary64 form of a number. -/
def toBits (x : Number) : Nat :=
  let sign := if x.isNegative then Nat.pow 2 63 else 0
  match x with
  | .nan _ => sign + 2047 * Nat.pow 2 52 + Nat.pow 2 51
  | .infinite _ => sign + 2047 * Nat.pow 2 52
  | x => sign + magnitudeBits x.exactValue

end Number

end CharSheet
