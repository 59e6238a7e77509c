import CharSheet.Number.Decimal
import CharSheet.Proofs.Number.Nearest
import Mathlib.Data.List.TakeWhile

/-
  Counts that are written out and read again.

  A count that a number holds exactly is read as that number,
  since the fraction that its digits spell is its own nearest
  number.

  Main declarations:
    * `Number.ofMagnitude_natCast`
    * `Number.ofChars?_toString`
-/

namespace CharSheet

namespace Number

variable {n : Nat}

------------------------------------------------------------
-- Rounding Counts
------------------------------------------------------------

/- A count up to the limit is its own nearest number. -/
theorem ofMagnitude_natCast
    (h : n ≤ countLimit) :
    ofMagnitude false (n : Rat) = ofNat n := by
  have hNonneg : ¬ (n : Rat) < 0 := not_lt.mpr (Nat.cast_nonneg n)
  rw [← ofRat_natCast h, ofRat, if_neg hNonneg]

------------------------------------------------------------
-- Reading Digits
------------------------------------------------------------

theorem isDigit_of_mem
    {c : Char}
    (h : c ∈ Nat.toDigits 10 n) :
    c.isDigit = true :=
  Nat.isDigit_of_mem_toDigits (by decide) (by decide) h

/- There are ten digits. -/
theorem exists_of_isDigit
    {c : Char}
    (h : c.isDigit = true) :
    ∃ k : Fin 10, c = Char.ofNat (48 + k) := by
  have hCode : 48 ≤ c.toNat ∧ c.toNat ≤ 57 := by
    simpa [Char.isDigit, UInt32.le_iff_toNat_le] using h
  have hBack : 48 + (c.toNat - 48) = c.toNat := by omega
  exact ⟨⟨c.toNat - 48, by omega⟩,
    by rw [hBack, Char.ofNat_toNat]⟩

/- A text that begins with a digit is read as a decimal. -/
theorem ofChars?_of_isDigit
    {c : Char}
    {cs : List Char}
    (h : c.isDigit = true) :
    ofChars? (c :: cs) =
      (Decimal.ofChars? (c :: cs)).map (·.toNumber false) := by
  have hAll : ∀ k : Fin 10,
      let d := Char.ofNat (48 + k)
      d ≠ '-' ∧ d ≠ '+' ∧ d.toLower ≠ 'i' ∧ d.toLower ≠ 'n' := by
    decide
  rcases exists_of_isDigit h with ⟨k, hk⟩
  have hThis := hAll k
  rw [← hk] at hThis
  rcases hThis with ⟨hMinus, hPlus, hInf, hNan⟩
  have hUnsigned :
      ofChars? (c :: cs) = ofUnsignedChars? false (c :: cs) := by
    unfold ofChars?
    split
    · next hEq => exact absurd (List.cons.inj hEq).1 hMinus
    · next hEq => exact absurd (List.cons.inj hEq).1 hPlus
    · rfl
  rw [hUnsigned, ofUnsignedChars?]
  simp [hInf, hNan]

/- Digits are read as the count that they spell. -/
theorem decimal_ofChars?_toDigits (n : Nat) :
    Decimal.ofChars? (Nat.toDigits 10 n) = some ⟨n, 0⟩ := by
  have hDigits : ∀ c ∈ Nat.toDigits 10 n, c.isDigit = true :=
    fun _ hc => isDigit_of_mem hc
  have hTake :
      (Nat.toDigits 10 n).takeWhile Char.isDigit =
        Nat.toDigits 10 n :=
    List.takeWhile_eq_self_iff.mpr hDigits
  have hDrop :
      (Nat.toDigits 10 n).dropWhile Char.isDigit = [] :=
    List.dropWhile_eq_nil_iff.mpr hDigits
  have hSome : (Nat.toDigits 10 n).isEmpty = false := by
    rw [List.isEmpty_eq_false_iff]
    exact Nat.toDigits_ne_nil
  have hValue : digitsValue (Nat.toDigits 10 n) = n :=
    Nat.ofDigitChars_ten_toDigits
  simp [Decimal.ofChars?, splitDigits, hTake, hDrop,
    Decimal.splitFraction, hSome, hValue]

/- A count that is written out is read as itself. -/
theorem ofChars?_toString
    (hLimit : n < 2 ^ precision) :
    ofChars? (toString n).toList = some (ofNat n) := by
  have hUnsigned :
      (Decimal.ofChars? (Nat.toDigits 10 n)).map
          (·.toNumber false) =
        some (ofNat n) := by
    have hCount : Decimal.digitCount n ≤ 16 := by
      have hSmall : n < 10 ^ 16 :=
        Nat.lt_trans hLimit (by decide)
      exact (Nat.length_toDigits_le_iff (by decide)
        (by decide)).mpr hSmall
    have hRat : Decimal.toRat ⟨n, 0⟩ = (n : Rat) := by
      change (n : Rat) * ((Nat.pow 10 0 : Nat) : Rat) = n
      norm_num
    rw [decimal_ofChars?_toDigits, Option.map_some,
      Decimal.toNumber]
    by_cases hZero : n = 0
    · rw [if_pos hZero, hZero]
      rfl
    · have hCounted : n ≤ countLimit := by
        rw [countLimit_eq]
        omega
      have hLarge :
          ¬ (310 : Int) < Decimal.digitCount n + 0 := by
        omega
      have hTiny :
          ¬ ((Decimal.digitCount n : Int) + 0) < -330 := by
        omega
      rw [if_neg hZero, if_neg hLarge, if_neg hTiny, hRat,
        ofMagnitude_natCast hCounted]
  rw [Nat.toString_eq_repr, Nat.toList_repr]
  cases hDigits : Nat.toDigits 10 n with
  | nil => exact absurd hDigits Nat.toDigits_ne_nil
  | cons c cs =>
      have hFirst : c ∈ Nat.toDigits 10 n := by
        rw [hDigits]
        exact List.mem_cons_self
      rw [ofChars?_of_isDigit (isDigit_of_mem hFirst),
        ← hDigits, hUnsigned]

end Number

end CharSheet
