import CharSheet.Fragment
import Mathlib.Data.List.Infix

/-
  Brackets and the brackets that match them.

  The bracket that matches an opening one is behind it, with a
  balanced text between the two.  That is the one at which a
  text in brackets ends when it is read.

  Main declarations:
    * `Text.Closes`
    * `Text.AreMatched`
    * `Text.areMatched_iff`
    * `Fragment.readInside?_of_closes`
    * `Fragment.readBrackets?_append`
-/

namespace CharSheet

------------------------------------------------------------
-- Matching Brackets
------------------------------------------------------------

namespace Text

variable {cs : List Char}
variable {c : Char}
variable {depth : Nat}

/-
  The text closes all brackets that it opens and the given
  number of others, and no bracket before it is open.  If there
  are no others, it is balanced.
-/
def Closes (depth : Nat) (cs : List Char) : Prop :=
  cs.count '(' + depth = cs.count ')' ∧
    ∀ front, front <+: cs →
      front.count ')' ≤ front.count '(' + depth

/-
  Every opening bracket has its matching bracket in the text.
  A closing bracket may be without one.
-/
def AreMatched (cs : List Char) : Prop :=
  ∀ before after, cs = before ++ '(' :: after →
    ∃ inside rest, after = inside ++ ')' :: rest ∧
      Closes 0 inside

theorem count_open (cs : List Char) :
    ('(' :: cs).count '(' = cs.count '(' + 1 ∧
      ('(' :: cs).count ')' = cs.count ')' :=
  ⟨List.count_cons_self, List.count_cons_of_ne (by decide)⟩

theorem count_close (cs : List Char) :
    (')' :: cs).count '(' = cs.count '(' ∧
      (')' :: cs).count ')' = cs.count ')' + 1 :=
  ⟨List.count_cons_of_ne (by decide), List.count_cons_self⟩

theorem closes_nil_iff : Closes depth [] ↔ depth = 0 := by
  simp [Closes]

/- An opening bracket leaves one more to be closed. -/
theorem closes_open_iff :
    Closes depth ('(' :: cs) ↔ Closes (depth + 1) cs := by
  have hAll := count_open cs
  simp only [Closes, List.prefix_cons_iff]
  constructor
  · rintro ⟨hEqual, hFront⟩
    refine ⟨by omega, fun front hPrefix => ?_⟩
    have hLonger :=
      hFront ('(' :: front) (Or.inr ⟨front, rfl, hPrefix⟩)
    have := count_open front
    omega
  · rintro ⟨hEqual, hFront⟩
    refine ⟨by omega, ?_⟩
    rintro front (rfl | ⟨front, rfl, hPrefix⟩)
    · exact Nat.zero_le _
    · have := hFront front hPrefix
      have := count_open front
      omega

/- A closing bracket needs one that is open. -/
theorem closes_close_iff :
    Closes depth (')' :: cs) ↔
      ∃ fewer, depth = fewer + 1 ∧ Closes fewer cs := by
  have hAll := count_close cs
  simp only [Closes, List.prefix_cons_iff]
  constructor
  · rintro ⟨hEqual, hFront⟩
    have hOne : 1 ≤ depth := by
      simpa using hFront [')'] (Or.inr ⟨[], rfl, by simp⟩)
    refine ⟨depth - 1, by omega, by omega,
      fun front hPrefix => ?_⟩
    have hLonger :=
      hFront (')' :: front) (Or.inr ⟨front, rfl, hPrefix⟩)
    have := count_close front
    omega
  · rintro ⟨fewer, rfl, hEqual, hFront⟩
    refine ⟨by omega, ?_⟩
    rintro front (rfl | ⟨front, rfl, hPrefix⟩)
    · exact Nat.zero_le _
    · have := hFront front hPrefix
      have := count_close front
      omega

/- Other characters are passed over. -/
theorem closes_cons_iff
    (hOpen : c ≠ '(')
    (hClose : c ≠ ')') :
    Closes depth (c :: cs) ↔ Closes depth cs := by
  simp only [Closes, List.prefix_cons_iff,
    List.count_cons_of_ne hOpen, List.count_cons_of_ne hClose]
  constructor
  · rintro ⟨hAll, hFront⟩
    refine ⟨hAll, fun front hPrefix => ?_⟩
    have := hFront (c :: front) (Or.inr ⟨front, rfl, hPrefix⟩)
    simpa [hOpen, hClose] using this
  · rintro ⟨hAll, hFront⟩
    refine ⟨hAll, ?_⟩
    rintro front (rfl | ⟨front, rfl, hPrefix⟩)
    · simp
    · simpa [hOpen, hClose] using hFront front hPrefix

/-
  Where more brackets are closed than opened, there is a first
  one that none before it opens.
-/
theorem exists_closes
    (h : cs.count '(' + depth < cs.count ')') :
    ∃ inside rest, cs = inside ++ ')' :: rest ∧
      Closes depth inside := by
  induction cs generalizing depth with
  | nil => cases h
  | cons c cs ih =>
      by_cases hOpen : c = '('
      · subst hOpen
        have hDeeper :
            cs.count '(' + (depth + 1) < cs.count ')' := by
          have := count_open cs
          omega
        rcases ih hDeeper with ⟨inside, rest, rfl, hInside⟩
        exact ⟨'(' :: inside, rest, rfl,
          closes_open_iff.mpr hInside⟩
      · by_cases hClose : c = ')'
        · subst hClose
          cases depth with
          | zero =>
              exact ⟨[], cs, rfl, closes_nil_iff.mpr rfl⟩
          | succ fewer =>
              have hLess :
                  cs.count '(' + fewer < cs.count ')' := by
                have := count_close cs
                omega
              rcases ih hLess with ⟨inside, rest, rfl, hInside⟩
              exact ⟨')' :: inside, rest, rfl,
                closes_close_iff.mpr ⟨fewer, rfl, hInside⟩⟩
        · rw [List.count_cons_of_ne hOpen,
            List.count_cons_of_ne hClose] at h
          rcases ih h with ⟨inside, rest, rfl, hInside⟩
          exact ⟨c :: inside, rest, rfl,
            (closes_cons_iff hOpen hClose).mpr hInside⟩

/- The end of a text has its brackets in itself. -/
theorem AreMatched.of_suffix
    {rest : List Char}
    (h : AreMatched cs)
    (hRest : rest <:+ cs) :
    AreMatched rest := by
  rcases hRest with ⟨front, rfl⟩
  intro before after hSplit
  exact h (front ++ before) after (by simp [hSplit])

/- So no more brackets are opened than closed. -/
theorem AreMatched.count_le
    (h : AreMatched cs) :
    cs.count '(' ≤ cs.count ')' := by
  induction hLength : cs.length using Nat.strong_induction_on
    generalizing cs with
  | _ n ih =>
      cases cs with
      | nil => simp
      | cons c cs =>
          rw [List.length_cons] at hLength
          by_cases hOpen : c = '('
          · subst hOpen
            rcases h [] cs rfl with
              ⟨inside, rest, rfl, hAll, _⟩
            have hRest : AreMatched rest :=
              h.of_suffix ⟨'(' :: (inside ++ [')']), by simp⟩
            rw [List.length_append, List.length_cons] at hLength
            have hFewer := ih rest.length (by omega) hRest rfl
            have := count_open (inside ++ ')' :: rest)
            have := count_close rest
            simp only [List.count_append] at *
            omega
          · have hRest : AreMatched cs :=
              h.of_suffix (List.suffix_cons c cs)
            have hFewer := ih cs.length (by omega) hRest rfl
            rw [List.count_cons_of_ne hOpen]
            exact hFewer.trans List.count_le_count_cons

/-
  All brackets are matched exactly if no end of the text opens
  more of them than it closes.
-/
theorem areMatched_iff :
    AreMatched cs ↔
      ∀ rest ∈ cs.tails, rest.count '(' ≤ rest.count ')' := by
  constructor
  · intro h rest hRest
    exact (h.of_suffix ((List.mem_tails _ _).mp hRest)).count_le
  · rintro h before after rfl
    have hCount := h ('(' :: after)
      ((List.mem_tails _ _).mpr (List.suffix_append _ _))
    have := count_open after
    exact exists_closes (by omega)

instance (cs : List Char) : Decidable (AreMatched cs) :=
  decidable_of_iff _ areMatched_iff.symm

end Text

------------------------------------------------------------
-- Texts in Brackets
------------------------------------------------------------

namespace Fragment

open Text

variable {cs inside rest : List Char}
variable {depth : Nat}

/-
  The text in brackets is read up to the bracket that closes
  all that are open.
-/
theorem readInside?_of_closes
    (h : Closes depth inside)
    (rest : List Char) :
    readInside? (depth + 1) (inside ++ ')' :: rest) =
      some (inside, rest) := by
  induction inside generalizing depth with
  | nil =>
      rw [closes_nil_iff.mp h]
      rfl
  | cons c inside ih =>
      rw [List.cons_append, readInside?]
      by_cases hOpen : c = '('
      · subst hOpen
        have hNot : ¬ (('(' : Char) = ')' ∧ depth + 1 ≤ 1) := by
          simp
        simp only [if_neg hNot, if_true,
          ih (closes_open_iff.mp h), Option.map_some]
      · by_cases hClose : c = ')'
        · subst hClose
          rcases closes_close_iff.mp h with
            ⟨fewer, rfl, hInside⟩
          simp [ih hInside]
        · simp [hOpen, hClose,
            ih ((closes_cons_iff hOpen hClose).mp h)]

/- What is read in brackets does not depend on what follows. -/
theorem readInside?_append
    (h : readInside? depth cs = some (inside, rest))
    (ds : List Char) :
    readInside? depth (cs ++ ds) =
      some (inside, rest ++ ds) := by
  induction cs generalizing depth inside rest with
  | nil => cases h
  | cons c cs ih =>
      rw [readInside?] at h
      rw [List.cons_append, readInside?]
      by_cases hEnd : c = ')' ∧ depth ≤ 1
      · rw [if_pos hEnd] at h ⊢
        cases h
        rfl
      · rw [if_neg hEnd] at h ⊢
        rcases Option.map_eq_some_iff.mp h with
          ⟨⟨inside', rest'⟩, hInside, hEq⟩
        cases hEq
        dsimp only
        rw [ih hInside]
        rfl

/-
  Where all brackets are matched, what is read in brackets
  ends before whatever else follows.
-/
theorem readBrackets?_append
    (h : AreMatched cs)
    {stop : Char}
    (hStop : stop ≠ '(')
    (ds : List Char) :
    readBrackets? (cs ++ stop :: ds) =
      (readBrackets? cs).map fun (inside, rest) =>
        (inside, rest ++ stop :: ds) := by
  cases cs with
  | nil =>
      unfold readBrackets?
      split
      · next hEq => exact absurd (List.cons.inj hEq).1 hStop
      · rfl
  | cons c cs =>
      by_cases hOpen : c = '('
      · subst hOpen
        rcases h [] cs rfl with ⟨inside, rest, rfl, hInside⟩
        have hRead := readInside?_of_closes hInside rest
        simp only [List.cons_append, readBrackets?]
        rw [hRead, readInside?_append hRead]
        rfl
      · have hNone (ds : List Char) :
            readBrackets? (c :: ds) = none := by
          unfold readBrackets?
          split
          · next hEq => exact absurd (List.cons.inj hEq).1 hOpen
          · rfl
        rw [List.cons_append, hNone, hNone]
        rfl

end Fragment

end CharSheet
