import CharSheet.Proofs.Fragment.Brackets
import CharSheet.Proofs.Text.Stops

/-
  Notes whose parts stand on both sides of a semicolon.

  No reader of a fragment goes past a semicolon, except in
  brackets.  So where all brackets are matched before it, the
  fragments on both sides are found as in texts of their own.

  Main declarations:
    * `Fragment.followedBy`
    * `Fragment.readNumber?_append`, `Fragment.readWords_append`
    * `Fragment.readGrant?_append`
    * `Fragment.readAdjustment?_append`
    * `Fragment.scan_append`
    * `Fragment.allIn_append_semicolon`
-/

namespace CharSheet

namespace Fragment

open Text

variable {cs rest : List Char}
variable (ds : List Char)

/- A result with a semicolon and more text behind its rest. -/
def followedBy
    {α : Type}
    (ds : List Char)
    (result : α × List Char) : α × List Char :=
  (result.1, result.2 ++ ';' :: ds)

------------------------------------------------------------
-- Words and Numbers
------------------------------------------------------------

theorem skipSpaces_append :
    skipSpaces (cs ++ ';' :: ds) =
      skipSpaces cs ++ ';' :: ds :=
  dropWhile_append_stop cs ds (by decide)

theorem splitDigits_append :
    splitDigits (cs ++ ';' :: ds) =
      followedBy ds (splitDigits cs) := by
  unfold splitDigits followedBy
  rw [takeWhile_append_stop cs ds (by decide),
    dropWhile_append_stop cs ds (by decide)]

/-
  The digits of a number with the fraction that may follow its
  whole part.
-/
def readLiteral
    (whole rest : List Char) : List Char × List Char :=
  match rest with
  | '.' :: c :: more =>
      if c.isDigit then
        (whole ++ '.' :: (splitDigits (c :: more)).1,
          (splitDigits (c :: more)).2)
      else (whole, rest)
  | _ => (whole, rest)

theorem readNumber?_eq (cs : List Char) :
    readNumber? cs =
      let digits := splitDigits cs
      let literal := readLiteral digits.1 digits.2
      if digits.1.isEmpty then none
      else (Number.ofChars? literal.1).map (·, literal.2) := rfl

theorem readLiteral_append (whole : List Char) :
    readLiteral whole (rest ++ ';' :: ds) =
      followedBy ds (readLiteral whole rest) := by
  rcases rest with _ | ⟨d, _ | ⟨c, more⟩⟩
  · rfl
  · by_cases hPoint : d = '.'
    · subst hPoint
      rfl
    · simp [readLiteral, followedBy, hPoint]
  · by_cases hPoint : d = '.'
    · subst hPoint
      have hMore :
          splitDigits ((c :: more) ++ ';' :: ds) =
            followedBy ds (splitDigits (c :: more)) :=
        splitDigits_append ds
      rw [List.cons_append] at hMore
      by_cases hDigit : c.isDigit = true
      · simp [readLiteral, followedBy, hDigit, hMore]
      · simp [readLiteral, followedBy, hDigit]
    · simp [readLiteral, followedBy, hPoint]

/- A number ends before a semicolon. -/
theorem readNumber?_append :
    readNumber? (cs ++ ';' :: ds) =
      (readNumber? cs).map (followedBy ds) := by
  rw [readNumber?_eq, readNumber?_eq]
  simp only [splitDigits_append, followedBy, readLiteral_append]
  split
  · rfl
  · rw [Option.map_map]
    rfl

/- Words end there too. -/
theorem readWords_append (word : List Char) :
    readWords word (cs ++ ';' :: ds) =
      followedBy ds (readWords word cs) := by
  have hCapital : isCapital ';' = false := rfl
  have hWord : inWord ';' = false := rfl
  induction cs generalizing word with
  | nil =>
      cases word with
      | nil => simp [readWords, followedBy, hCapital]
      | cons last word => simp [readWords, followedBy, hWord]
  | cons c cs ih =>
      cases word with
      | nil =>
          simp only [List.cons_append, readWords]
          split
          · exact ih [c]
          · rfl
      | cons last word =>
          have hNext :
              (cs ++ ';' :: ds).head?.any isCapital =
                cs.head?.any isCapital := by
            cases cs with
            | nil => exact hCapital
            | cons d cs => rfl
          simp only [List.cons_append, readWords, hNext, ih]
          split
          · rfl
          · split
            · rfl
            · rfl

------------------------------------------------------------
-- Grants
------------------------------------------------------------

/- The word that names a kind is before the semicolon. -/
theorem readKind?_append :
    readKind? (cs ++ ';' :: ds) =
      (readKind? cs).map (followedBy ds) := by
  have hWord : inWord ';' = false := rfl
  unfold readKind?
  rw [after?_append_stop cs ds (by decide),
    after?_append_stop cs ds (by decide),
    takeWhile_append_stop cs ds hWord,
    dropWhile_append_stop cs ds hWord, skipSpaces_append,
    after?_append_stop _ ds (by decide)]
  cases after? "Ability Boost".toList cs with
  | some rest => rfl
  | none =>
      cases after? "Language".toList cs with
      | some rest => rfl
      | none =>
          simp only [Option.map_none]
          cases PoolKind.ofProficiency?
              (String.ofList (cs.takeWhile inWord)) with
          | none => rfl
          | some kind =>
              cases after? "Proficiency".toList
                  (skipSpaces (cs.dropWhile inWord)) with
              | none => rfl
              | some rest => rfl

theorem suffix_of_after?
    {word : List Char}
    (h : after? word cs = some rest) :
    rest <:+ cs :=
  ⟨word, (eq_append_of_after? h).symm⟩

/- What follows the kind of a grant ends the text. -/
theorem suffix_of_readKind?
    {kind : PoolKind}
    (h : readKind? cs = some (kind, rest)) :
    rest <:+ cs := by
  unfold readKind? at h
  split at h
  · next hBoost =>
      cases h
      exact suffix_of_after? hBoost
  · split at h
    · next hLanguage =>
        cases h
        exact suffix_of_after? hLanguage
    · rcases Option.bind_eq_some_iff.mp h with ⟨_, _, h⟩
      rcases Option.bind_eq_some_iff.mp h with
        ⟨after, hAfter, hEq⟩
      cases hEq
      exact (suffix_of_after? hAfter).trans
        ((List.dropWhile_suffix _).trans
          (List.dropWhile_suffix _))

/- A grant ends there, if its brackets are matched. -/
theorem readGrant?_append
    (h : AreMatched cs) :
    readGrant? (cs ++ ';' :: ds) =
      (readGrant? cs).map (followedBy ds) := by
  unfold readGrant?
  rw [readKind?_append]
  cases hKind : readKind? cs with
  | none => rfl
  | some found =>
      rcases found with ⟨kind, rest⟩
      have hSuffix : skipSpaces rest <:+ cs :=
        (List.dropWhile_suffix _).trans
          (suffix_of_readKind? hKind)
      have hBrackets :=
        readBrackets?_append (h.of_suffix hSuffix)
          (show ';' ≠ '(' by decide) ds
      simp only [Option.map_some, followedBy, Option.bind_some,
        skipSpaces_append, hBrackets, bind]
      cases readBrackets? (skipSpaces rest) with
      | none => rfl
      | some group =>
          rcases group with ⟨inside, after⟩
          simp only [Option.map_some, Option.bind_some]
          split
          · rfl
          · rfl

------------------------------------------------------------
-- Adjustments
------------------------------------------------------------

theorem readSign?_append :
    readSign? (cs ++ ';' :: ds) =
      (readSign? cs).map (followedBy ds) := by
  cases cs with
  | nil => rfl
  | cons c cs =>
      by_cases hPlus : c = '+'
      · subst hPlus
        rfl
      · by_cases hMinus : c = '-'
        · subst hMinus
          rfl
        · by_cases hTimes : c = 'x'
          · subst hTimes
            rfl
          · simp [readSign?, hPlus, hMinus, hTimes]

/- Without a percent sign, the amount is a number. -/
theorem readAmount?_of_ne
    (h : cs.head? ≠ some '%') :
    readAmount? cs =
      (readNumber? cs).map fun (n, rest) =>
        (.number n, rest) := by
  unfold readAmount?
  split
  · simp at h
  · simp at h
  · rfl

theorem readAmount?_append :
    readAmount? (cs ++ ';' :: ds) =
      (readAmount? cs).map (followedBy ds) := by
  rcases cs with _ | ⟨c, cs⟩
  · rfl
  · by_cases hPercent : c = '%'
    · subst hPercent
      rcases cs with _ | ⟨d, cs⟩
      · rfl
      · by_cases hValue : d = 'V'
        · subst hValue
          rfl
        · by_cases hDigit : d.isDigit = true
          · simp [readAmount?, followedBy, hDigit]
          · simp [readAmount?, hDigit]
    · rw [readAmount?_of_ne (by simpa using hPercent),
        readAmount?_of_ne (by simpa using hPercent),
        readNumber?_append, Option.map_map, Option.map_map]
      rfl

/- An adjustment ends before a semicolon. -/
theorem readAdjustment?_append :
    readAdjustment? (cs ++ ';' :: ds) =
      (readAdjustment? cs).map (followedBy ds) := by
  unfold readAdjustment?
  rw [readSign?_append]
  cases readSign? cs with
  | none => rfl
  | some sign =>
      rcases sign with ⟨op, rest⟩
      simp only [Option.map_some, followedBy, Option.bind_some,
        readAmount?_append, bind]
      cases readAmount? rest with
      | none => rfl
      | some amount =>
          rcases amount with ⟨amount, after⟩
          simp only [Option.map_some, followedBy,
            Option.bind_some]
          rcases after with _ | ⟨c, after⟩
          · rfl
          · by_cases hSpace : c = ' '
            · subst hSpace
              simp only [List.cons_append, readWords_append,
                followedBy]
              split
              · rfl
              · rfl
            · simp [hSpace]

/- So does whatever is read at the front of a text. -/
theorem read?_append
    (h : AreMatched cs) :
    read? (cs ++ ';' :: ds) = (read? cs).map (followedBy ds) := by
  unfold read?
  rw [readGrant?_append ds h, readAdjustment?_append]
  cases readGrant? cs with
  | none => rfl
  | some found => rfl

------------------------------------------------------------
-- Notes
------------------------------------------------------------

/- Only a letter or a numeral before a text matters. -/
theorem scan_congr
    {previous other : Option Char}
    (h : previous.any isLetterOrNumeral =
      other.any isLetterOrNumeral)
    (cs : List Char) :
    scan previous 0 cs = scan other 0 cs := by
  cases cs with
  | nil => rfl
  | cons c cs => simp only [scan, h]

/- A semicolon and a blank are passed over. -/
theorem scan_semicolon (previous : Option Char) :
    scan previous 0 (';' :: ' ' :: ds) = scan none 0 ds := by
  have hSemicolon : read? (';' :: ' ' :: ds) = none := rfl
  have hBlank : read? (' ' :: ds) = none := rfl
  have hStep :
      scan previous 0 (';' :: ' ' :: ds) =
        scan (some ';') 0 (' ' :: ds) := by
    rw [scan, hSemicolon]
    simp
  have hNext :
      scan (some ';') 0 (' ' :: ds) = scan (some ' ') 0 ds := by
    rw [scan, hBlank]
    simp
  rw [hStep, hNext]
  have hPassed :
      (some ' ').any isLetterOrNumeral =
        none.any isLetterOrNumeral := rfl
  exact scan_congr hPassed ds

/-
  Fragments before a semicolon are found as if the text ended
  there, and those behind it as in a text of their own.
-/
theorem scan_append
    (h : AreMatched cs)
    (previous : Option Char)
    {skip : Nat}
    (hSkip : skip ≤ cs.length) :
    scan previous skip (cs ++ ';' :: ' ' :: ds) =
      scan previous skip cs ++ scan none 0 ds := by
  induction cs generalizing previous skip with
  | nil =>
      obtain rfl : skip = 0 := Nat.le_zero.mp hSkip
      exact scan_semicolon ds previous
  | cons c cs ih =>
      have hRest := h.of_suffix (List.suffix_cons c cs)
      cases skip with
      | succ skip => exact ih hRest previous (by simpa using hSkip)
      | zero =>
          have hRead := read?_append (' ' :: ds) h
          rw [List.cons_append] at hRead
          simp only [List.cons_append, scan, hRead]
          by_cases hWord :
              previous.any isLetterOrNumeral = true
          · simp only [if_pos hWord]
            exact ih hRest (some c) (Nat.zero_le _)
          · simp only [if_neg hWord]
            cases read? (c :: cs) with
            | none => exact ih hRest (some c) (Nat.zero_le _)
            | some found =>
                rcases found with ⟨fragment, rest⟩
                have hTaken :
                    (cs ++ ';' :: ' ' :: ds).length -
                        (rest ++ ';' :: ' ' :: ds).length =
                      cs.length - rest.length := by
                  simp only [List.length_append]
                  omega
                simp only [Option.map_some, followedBy, hTaken]
                rw [ih hRest none (Nat.sub_le _ _)]
                rfl

/-
  Notes do not interfere.  Where every bracket that is opened
  before a semicolon is closed before it, a note has the
  fragments of the text before it and then those of the text
  behind it.
-/
theorem allIn_append_semicolon
    {a : String}
    (h : AreMatched a.toList)
    (b : String) :
    allIn (a ++ "; " ++ b) = allIn a ++ allIn b := by
  unfold allIn
  rw [String.toList_append, String.toList_append,
    List.append_assoc]
  exact scan_append b.toList h none (Nat.zero_le _)

/-
  An adjustment that ends at the semicolon, a bracket that is
  closed without being opened, and brackets in brackets.
-/
theorem allIn_append_semicolon_scholar :
    let a := "Language (Common/Elvish (High)); a) +2 Armor"
    let b := "Class; Skill Proficiency (Arcana)"
    AreMatched a.toList ∧
      allIn (a ++ "; " ++ b) =
        [.grant .language
            [.grant "Common" 1, .grant "Elvish (High)" 1],
          .adjust .add (.number 2) ["Armor"],
          .grant .skill [.grant "Arcana" 1]] := by
  intro a b
  have hMatched : AreMatched a.toList := by decide +kernel
  exact ⟨hMatched,
    (allIn_append_semicolon hMatched b).trans
      (by decide +kernel)⟩

end Fragment

end CharSheet
