import CharSheet.Proofs.Number.Order
import CharSheet.Value
import Mathlib.Data.String.Basic

/-
  Values that are compared loosely.

  The order of two values agrees with their equality, and both
  can be turned round.  Only a text that spells `nan` differs
  from itself: as a number it is equal to none, while the
  number `nan` has no numeric view, and is compared as a text.

  Of two values the larger or the smaller one is the numeric
  one where only one of them is numeric, unless both are
  texts.  Then the order of the texts decides.

  Main declarations:
    * `Number.exists_isNaN_ofChars?_iff`
    * `Value.SpellsNaN`
    * `Value.looseEq_self_iff`
    * `Value.looseCmp?_swap`
    * `Value.looseEq_iff_of_looseCmp?`
    * `Value.compareTexts?`
    * `Value.compares_coherently`
    * `Value.max_min_of_one_number`
-/

namespace CharSheet

------------------------------------------------------------
-- Texts That Spell `nan`
------------------------------------------------------------

/- A decimal is read as some number. -/
theorem Number.isNaN_ofMagnitude
    (negative : Bool)
    (q : Rat) :
    (ofMagnitude negative q).isNaN = false := by
  have hZero : (zero negative).isNaN = false := by
    cases negative <;> rfl
  unfold ofMagnitude
  split
  · exact hZero
  · dsimp only
    split
    · exact hZero
    · split
      · rfl
      · rfl

theorem Decimal.isNaN_toNumber
    (d : Decimal)
    (negative : Bool) :
    (d.toNumber negative).isNaN = false := by
  have hZero : (Number.zero negative).isNaN = false := by
    cases negative <;> rfl
  unfold toNumber
  split
  · exact hZero
  · dsimp only
    split
    · rfl
    · split
      · exact hZero
      · exact Number.isNaN_ofMagnitude negative _

namespace Number

/- A text without the sign that it begins with, if it does. -/
def withoutSign : List Char → List Char
  | '-' :: cs => cs
  | '+' :: cs => cs
  | cs => cs

/- Without a sign, only the name itself is read as `nan`. -/
theorem exists_isNaN_ofUnsignedChars?_iff
    (negative : Bool)
    (cs : List Char) :
    (∃ x ∈ ofUnsignedChars? negative cs, x.isNaN = true) ↔
      cs.map Char.toLower = ['n', 'a', 'n'] := by
  unfold ofUnsignedChars?
  dsimp only
  split
  · next hInfinite =>
      have hNot : cs.map Char.toLower ≠ ['n', 'a', 'n'] := by
        rcases hInfinite with hShort | hLong
        · rw [hShort]
          decide
        · rw [hLong]
          decide
      simp [isNaN, hNot]
  · split
    · next hName => simp [isNaN, hName]
    · next hName =>
        refine iff_of_false ?_ hName
        intro hSome
        rcases hSome with ⟨x, hx, hNaN⟩
        rcases Option.map_eq_some_iff.mp hx with ⟨d, _, rfl⟩
        rw [Decimal.isNaN_toNumber] at hNaN
        cases hNaN

/- A sign changes nothing about that. -/
theorem exists_isNaN_ofChars?_iff (cs : List Char) :
    (∃ x ∈ ofChars? cs, x.isNaN = true) ↔
      (withoutSign cs).map Char.toLower = ['n', 'a', 'n'] := by
  have hSign :
      ∃ negative,
        ofChars? cs =
          ofUnsignedChars? negative (withoutSign cs) := by
    cases cs with
    | nil => exact ⟨false, rfl⟩
    | cons c cs =>
        by_cases hMinus : c = '-'
        · subst hMinus
          exact ⟨true, rfl⟩
        · by_cases hPlus : c = '+'
          · subst hPlus
            exact ⟨false, rfl⟩
          · exact ⟨false,
              by simp [ofChars?, withoutSign, hMinus, hPlus]⟩
  rcases hSign with ⟨negative, hEq⟩
  rw [hEq]
  exact exists_isNaN_ofUnsignedChars?_iff negative _

end Number

namespace Value

variable {a b v w : Value}
variable {s t : String}

/-
  A text that spells `nan`: its letters in any case, with a
  sign or none, and with white space around it.
-/
def SpellsNaN (v : Value) : Prop :=
  ∃ s, v = .text s ∧
    (Number.withoutSign (Text.trimChars s.toList)).map
      Char.toLower = ['n', 'a', 'n']

/- No other value has `nan` for its numeric view. -/
theorem exists_isNaN_number?_iff (v : Value) :
    (∃ x ∈ v.number?, x.isNaN = true) ↔ v.SpellsNaN := by
  unfold SpellsNaN
  cases v with
  | bool truth => cases truth <;> simp [number?] <;> rfl
  | number n => by_cases h : n.isNaN = true <;> simp [number?, h]
  | text s =>
      simpa [number?] using
        Number.exists_isNaN_ofChars?_iff (Text.trimChars s.toList)

------------------------------------------------------------
-- Equality
------------------------------------------------------------

/- All values that do not read as `nan` equal themselves. -/
theorem looseEq_self
    (h : ∀ x ∈ v.number?, x.isNaN = false) :
    v.looseEq v = true := by
  unfold looseEq
  cases hNumber : v.number? with
  | none => exact decide_eq_true rfl
  | some x => exact Number.eqv_self (h x hNumber)

/- A word is equal to itself. -/
theorem looseEq_self_of_word
    (h : v.number? = none) :
    v.looseEq v = true :=
  looseEq_self (by simp [h])

/- Only texts that spell `nan` are not. -/
theorem looseEq_self_iff (v : Value) :
    v.looseEq v = true ↔ ¬ v.SpellsNaN := by
  rw [← exists_isNaN_number?_iff]
  constructor
  · intro hEq hSome
    rcases hSome with ⟨x, hx, hNaN⟩
    rw [looseEq, Option.mem_def.mp hx] at hEq
    exact Bool.false_ne_true
      ((Number.eqv_self_of_isNaN hNaN).symm.trans hEq)
  · intro hNone
    apply looseEq_self
    intro x hx
    rw [Bool.eq_false_iff]
    exact fun hNaN => hNone ⟨x, hx, hNaN⟩

theorem looseEq_comm (a b : Value) :
    a.looseEq b = b.looseEq a := by
  have hTexts :
      decide (a.display = b.display) =
        decide (b.display = a.display) := by
    rw [decide_eq_decide]
    exact eq_comm
  unfold looseEq
  rcases a.number? with _ | x
  · rcases b.number? with _ | y
    · exact hTexts
    · exact hTexts
  · rcases b.number? with _ | y
    · exact hTexts
    · exact Number.eqv_comm x y

------------------------------------------------------------
-- Order
------------------------------------------------------------

/- The order of two texts, and none of any other values. -/
def compareTexts? : Value → Value → Option Ordering
  | .text s, .text t => some (compare s t)
  | _, _ => none

/- Where one value is not numeric, only texts are compared. -/
theorem looseCmp?_of_word
    (h : a.number? = none ∨ b.number? = none) :
    a.looseCmp? b = compareTexts? a b := by
  unfold looseCmp?
  split
  · next hx hy =>
      rw [hx, hy] at h
      simp at h
  · rfl

theorem looseEq_of_word
    (h : a.number? = none ∨ b.number? = none) :
    a.looseEq b = decide (a.display = b.display) := by
  unfold looseEq
  split
  · next hx hy =>
      rw [hx, hy] at h
      simp at h
  · rfl

theorem compareTexts?_swap (a b : Value) :
    compareTexts? b a =
      (compareTexts? a b).map Ordering.swap := by
  cases a with
  | text s =>
      cases b with
      | text t =>
          exact congrArg some Std.OrientedCmp.eq_swap
      | _ => rfl
  | _ => cases b <;> rfl

/- Comparing two values the other way round. -/
theorem looseCmp?_swap (a b : Value) :
    b.looseCmp? a = (a.looseCmp? b).map Ordering.swap := by
  cases ha : a.number? with
  | none =>
      rw [looseCmp?_of_word (.inl ha), looseCmp?_of_word (.inr ha)]
      exact compareTexts?_swap a b
  | some x =>
      cases hb : b.number? with
      | none =>
          rw [looseCmp?_of_word (.inl hb),
            looseCmp?_of_word (.inr hb)]
          exact compareTexts?_swap a b
      | some y =>
          simp only [looseCmp?, ha, hb]
          exact Number.cmp?_swap x y

/- Values that are in some order are equal if it says so. -/
theorem looseEq_iff_of_looseCmp?
    {order : Ordering}
    (h : a.looseCmp? b = some order) :
    a.looseEq b = true ↔ order = .eq := by
  by_cases hBoth : a.number? = none ∨ b.number? = none
  · rw [looseCmp?_of_word hBoth] at h
    rw [looseEq_of_word hBoth, decide_eq_true_eq]
    cases a with
    | text s =>
        cases b with
        | text t =>
            obtain rfl := Option.some.inj h
            exact Std.LawfulEqCmp.compare_eq_iff_eq.symm
        | _ => cases h
    | _ => cases h
  · rw [not_or, ← ne_eq, ← ne_eq, Option.ne_none_iff_exists',
      Option.ne_none_iff_exists'] at hBoth
    rcases hBoth with ⟨⟨x, hx⟩, ⟨y, hy⟩⟩
    simp only [looseCmp?, hx, hy] at h
    simp only [looseEq, hx, hy, Number.eqv, h]
    simp

/-
  Loose equality and loose order agree, and do not depend on
  the order in which two values are given.  A value is equal
  to itself unless it is a text that spells `nan`.
-/
theorem compares_coherently (a b : Value) :
    (a.looseEq a = true ↔ ¬ a.SpellsNaN) ∧
      a.looseEq b = b.looseEq a ∧
        b.looseCmp? a = (a.looseCmp? b).map Ordering.swap ∧
          ∀ order, a.looseCmp? b = some order →
            (a.looseEq b = true ↔ order = .eq) :=
  ⟨looseEq_self_iff a, looseEq_comm a b, looseCmp?_swap a b,
    fun _ => looseEq_iff_of_looseCmp?⟩

/- A numeral in another notation comes after a smaller number. -/
theorem compares_coherently_notation :
    (Value.text " 1e1 ").looseCmp? (.number 9) = some .gt ∧
      (Value.number 9).looseCmp? (.text " 1e1 ") = some .lt ∧
        ((Value.text " 1e1 ").looseEq (.number 9) = true ↔
          Ordering.gt = .eq) := by
  have hCmp :
      (Value.text " 1e1 ").looseCmp? (.number 9) = some .gt := by
    decide +kernel
  rcases compares_coherently (.text " 1e1 ") (.number 9) with
    ⟨_, _, hSwap, hAgree⟩
  rw [hCmp] at hSwap
  exact ⟨hCmp, hSwap, hAgree .gt hCmp⟩

/- A text that spells `nan` differs from itself. -/
theorem not_forall_compares_coherently :
    ¬ ∀ a b : Value,
      a.looseEq a = true ∧
        a.looseEq b = b.looseEq a ∧
          b.looseCmp? a = (a.looseCmp? b).map Ordering.swap ∧
            (a.looseCmp? b = some .eq → a.looseEq b = true) ∧
              (a.looseCmp? b = some .lt ∨
                a.looseCmp? b = some .gt →
                  a.looseEq b = false) := by
  intro hAll
  have hSelf := (hAll (.text "nan") (.text "nan")).1
  revert hSelf
  decide +kernel

------------------------------------------------------------
-- Larger And Smaller Values
------------------------------------------------------------

/- Texts in the same place of their order are the same. -/
theorem eq_of_compareTexts?
    (h : compareTexts? a b = some .eq) :
    a = b := by
  cases a with
  | text s =>
      cases b with
      | text t =>
          exact congrArg text
            (Std.LawfulEqCmp.eq_of_compare (Option.some.inj h))
      | _ => cases h
  | _ => cases h

/-
  Of a numeric value and one that is not, the numeric one is
  taken, whichever is given first.  Only where both are texts
  it is the larger or the smaller text.
-/
theorem max_min_of_one_number
    (hv : v.number?.isSome = true)
    (hw : w.number? = none) :
    v.max w = (if compareTexts? v w = some .lt then w else v) ∧
      w.max v =
        (if compareTexts? v w = some .lt then w else v) ∧
      v.min w =
        (if compareTexts? v w = some .gt then w else v) ∧
      w.min v =
        (if compareTexts? v w = some .gt then w else v) := by
  have hForth : v.looseCmp? w = compareTexts? v w :=
    looseCmp?_of_word (.inr hw)
  have hBack :
      w.looseCmp? v = (compareTexts? v w).map Ordering.swap := by
    rw [looseCmp?_swap, hForth]
  have hDiffer : compareTexts? v w ≠ some .eq := by
    intro hSame
    rw [eq_of_compareTexts? hSame, hw] at hv
    cases hv
  unfold Value.max Value.min
  rw [hForth, hBack, hw]
  rcases hTexts : compareTexts? v w with _ | order
  · simp [hv]
  · cases order with
    | eq => exact absurd hTexts hDiffer
    | lt => simp
    | gt => simp

/- A word wins over a numeral that comes before it as a text. -/
theorem max_min_of_one_number_words :
    (Value.text "5").max (.text "x") = .text "x" ∧
      (Value.text "x").max (.text "5") = .text "x" ∧
      (Value.text "5").min (.text "x") = .text "5" ∧
      (Value.text "x").min (.text "5") = .text "5" := by
  have hNumber : (Value.text "5").number?.isSome = true := by
    decide +kernel
  have hWord : (Value.text "x").number? = none := by
    decide +kernel
  have hOrder :
      compareTexts? (.text "5") (.text "x") = some .lt := by
    decide
  have hAll := max_min_of_one_number hNumber hWord
  rw [hOrder] at hAll
  exact hAll

/- So a value that is not numeric does not always lose. -/
theorem not_forall_max_min :
    ¬ ∀ v w : Value,
      v.number?.isSome = true → w.number? = none →
        v.max w = v ∧ w.max v = v ∧
          v.min w = v ∧ w.min v = v := by
  intro hAll
  have hNumber : (Value.text "5").number?.isSome = true := by
    decide +kernel
  have hWord : (Value.text "x").number? = none := by
    decide +kernel
  have hMax := (hAll _ _ hNumber hWord).1
  revert hMax
  decide +kernel

end Value

end CharSheet
