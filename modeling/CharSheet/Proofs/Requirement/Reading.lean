import CharSheet.Proofs.Key.Scopes
import CharSheet.Proofs.Number.Reading
import CharSheet.Proofs.Requirement.Holding

/-
  Requirements that are put together as text and read again.

  A text in which no separator begins outside quotes, and whose
  quotes are all closed, stays whole when it is read as part of
  a longer one.  So the text of a level that is asked for is
  read as one test, and what follows it as it is read alone.

  Main declarations:
    * `Text.isWhole`
    * `Text.splitFrom_separator`
    * `Text.splitFrom_append`, `Text.findOutsideQuotes?_append`
    * `Requirement.isNameable`
    * `Requirement.ofText_atLeast`
-/

namespace CharSheet

namespace Text

------------------------------------------------------------
-- Beginnings
------------------------------------------------------------

variable {A B : List Char}
variable {separator : List Char}
variable {spellings : List (List Char)}
variable {quote : Option Char}

/- What follows a text does not begin with more of it. -/
theorem beginsWith_append
    (hHead : ∀ b ∈ B.head?, b ∉ separator) :
    beginsWith (A ++ B) separator = beginsWith A separator := by
  unfold beginsWith
  induction separator generalizing A with
  | nil => cases A <;> cases B <;> rfl
  | cons d ds ih =>
      cases A with
      | nil =>
          cases B with
          | nil => rfl
          | cons b B =>
              have hNot : d ≠ b := by
                rintro rfl
                exact hHead d rfl List.mem_cons_self
              simp [after?, hNot]
      | cons a A =>
          have hRest :=
            @ih A fun b hb hIn =>
              hHead b hb (List.mem_cons_of_mem d hIn)
          by_cases hSame : d = a
          · simp only [List.cons_append, after?, if_pos hSame]
            exact hRest
          · simp [after?, hSame]

/- Nor does the text, if it has a character of its own. -/
theorem beginsWith_cons_append
    (hHead : ∀ b ∈ B.head?, b ∉ separator.tail)
    (c : Char) :
    beginsWith (c :: (A ++ B)) separator =
      beginsWith (c :: A) separator := by
  cases separator with
  | nil => rfl
  | cons d ds =>
      by_cases hSame : d = c
      · have hRest :
            beginsWith (A ++ B) ds = beginsWith A ds :=
          beginsWith_append hHead
        simpa [beginsWith, after?, hSame] using hRest
      · simp [beginsWith, after?, hSame]

------------------------------------------------------------
-- Whole Texts
------------------------------------------------------------

/-
  None of some spellings begins outside quotes, and all quotes
  are closed.
-/
def isWhole
    (spellings : List (List Char)) :
    Option Char → List Char → Bool
  | quote, [] => quote.isNone
  | some q, c :: cs =>
      isWhole spellings (quoteAfter (some q) c) cs
  | none, c :: cs =>
      if isQuote c then isWhole spellings (some c) cs
      else
        !spellings.any (beginsWith (c :: cs)) &&
          isWhole spellings none cs

/- Fewer spellings begin in fewer places. -/
theorem isWhole_mono
    {fewer : List (List Char)}
    (hFewer : fewer ⊆ spellings)
    (h : isWhole spellings quote A = true) :
    isWhole fewer quote A = true := by
  fun_induction isWhole spellings quote A with
  | case1 quote => exact h
  | case2 q c cs ih => exact ih h
  | case3 c cs hQuote ih =>
      rw [isWhole, if_pos hQuote]
      exact ih h
  | case4 c cs hQuote ih =>
      rcases Bool.and_eq_true_iff.mp h with ⟨hNone, hRest⟩
      rw [isWhole, if_neg hQuote, Bool.and_eq_true_iff]
      refine ⟨?_, ih hRest⟩
      rw [Bool.not_eq_true', List.any_eq_false] at hNone ⊢
      exact fun s hs => hNone s (hFewer hs)

/- Two whole texts are whole if none begins across them. -/
theorem isWhole_append
    (h : isWhole spellings quote A = true)
    (hNext : isWhole spellings none B = true)
    (hHead : ∀ s ∈ spellings, ∀ b ∈ B.head?, b ∉ s.tail) :
    isWhole spellings quote (A ++ B) = true := by
  fun_induction isWhole spellings quote A with
  | case1 quote =>
      rw [Option.isNone_iff_eq_none.mp h]
      exact hNext
  | case2 q c cs ih => exact ih h
  | case3 c cs hQuote ih =>
      rw [List.cons_append, isWhole, if_pos hQuote]
      exact ih h
  | case4 c cs hQuote ih =>
      rcases Bool.and_eq_true_iff.mp h with ⟨hNone, hRest⟩
      rw [List.cons_append, isWhole, if_neg hQuote,
        Bool.and_eq_true_iff]
      refine ⟨?_, ih hRest⟩
      rw [Bool.not_eq_true', List.any_eq_false] at hNone ⊢
      intro s hs
      rw [beginsWith_cons_append (hHead s hs)]
      exact hNone s hs

/- A character in which no spelling begins. -/
def isInner
    (spellings : List (List Char))
    (c : Char) : Bool :=
  !isQuote c &&
    spellings.all fun s => s ≠ [] && s.head? ≠ some c

/- Such characters may stand in front. -/
theorem isWhole_append_of_isInner
    (h : ∀ c ∈ A, isInner spellings c = true)
    (hNext : isWhole spellings none B = true) :
    isWhole spellings none (A ++ B) = true := by
  induction A with
  | nil => exact hNext
  | cons c cs ih =>
      have hInner := h c List.mem_cons_self
      simp only [isInner, Bool.and_eq_true, Bool.not_eq_true',
        List.all_eq_true, decide_eq_true_eq] at hInner
      rcases hInner with ⟨hQuote, hAll⟩
      rw [List.cons_append, isWhole, if_neg (by simp [hQuote]),
        Bool.and_eq_true_iff]
      refine ⟨?_, ih fun d hd => h d (List.mem_cons_of_mem c hd)⟩
      rw [Bool.not_eq_true', List.any_eq_false]
      intro s hs
      rcases hAll s hs with ⟨hSome, hFirst⟩
      cases s with
      | nil => exact absurd rfl hSome
      | cons d ds =>
          have hOther : d ≠ c := fun hSame =>
            hFirst (congrArg some hSame)
          simp [beginsWith, after?, hOther]

theorem isWhole_of_isInner
    (h : ∀ c ∈ A, isInner spellings c = true) :
    isWhole spellings none A = true := by
  have hAll :=
    isWhole_append_of_isInner (B := []) h rfl
  rwa [List.append_nil] at hAll

------------------------------------------------------------
-- Splitting
------------------------------------------------------------

theorem foldr_consFirst
    (A part : List Char)
    (parts : List (List Char)) :
    A.foldr consFirst (part :: parts) = (A ++ part) :: parts := by
  induction A with
  | nil => rfl
  | cons c cs ih => rw [List.foldr_cons, ih]; rfl

/- The rest of a separator is passed over. -/
theorem splitFrom_drop
    (separator : List Char)
    (quote : Option Char)
    (skip : Nat)
    (cs : List Char) :
    splitFrom separator quote skip cs =
      splitFrom separator quote 0 (cs.drop skip) := by
  induction skip generalizing cs with
  | zero => rfl
  | succ skip ih =>
      cases cs with
      | nil => rfl
      | cons c cs => exact ih cs

/- At a separator a part ends. -/
theorem splitFrom_separator
    (hSome : separator ≠ [])
    (hPlain : ∀ c ∈ separator, isQuote c = false)
    (rest : List Char) :
    splitFrom separator none 0 (separator ++ rest) =
      [] :: splitFrom separator none 0 rest := by
  cases separator with
  | nil => exact absurd rfl hSome
  | cons d ds =>
      have hHere :
          beginsWith (d :: (ds ++ rest)) (d :: ds) = true :=
        beginsWith_iff.mpr (List.prefix_append (d :: ds) rest)
      rw [List.cons_append, splitFrom,
        if_neg (by simp [hPlain d List.mem_cons_self]),
        if_pos hHere, splitFrom_drop]
      simp

theorem splitFrom_separator_char
    {d : Char}
    (hQuote : isQuote d = false)
    (rest : List Char) :
    splitFrom [d] none 0 (d :: rest) =
      [] :: splitFrom [d] none 0 rest :=
  splitFrom_separator (List.cons_ne_nil _ _)
    (List.forall_mem_singleton.mpr hQuote) rest

/- A whole text belongs to the first part of what follows. -/
theorem splitFrom_append
    (hIn : separator ∈ spellings)
    (h : isWhole spellings quote A = true)
    (hHead : ∀ b ∈ B.head?, b ∉ separator.tail) :
    splitFrom separator quote 0 (A ++ B) =
      A.foldr consFirst (splitFrom separator none 0 B) := by
  fun_induction isWhole spellings quote A with
  | case1 quote =>
      rw [Option.isNone_iff_eq_none.mp h]
      rfl
  | case2 q c cs ih =>
      rw [List.cons_append, splitFrom, ih h]
      rfl
  | case3 c cs hQuote ih =>
      rw [List.cons_append, splitFrom, if_pos hQuote, ih h]
      rfl
  | case4 c cs hQuote ih =>
      rcases Bool.and_eq_true_iff.mp h with ⟨hNone, hRest⟩
      rw [Bool.not_eq_true', List.any_eq_false] at hNone
      rw [List.cons_append, splitFrom, if_neg hQuote,
        beginsWith_cons_append hHead, if_neg (hNone _ hIn),
        ih hRest]
      rfl

/- Alone it is one part. -/
theorem splitOutsideQuotes_of_isWhole
    (hIn : separator ∈ spellings)
    (h : isWhole spellings none A = true) :
    splitOutsideQuotes separator A = [A] := by
  have hNoHead : ∀ b ∈ [].head?, b ∉ separator.tail := nofun
  have hSplit := splitFrom_append hIn h hNoHead
  rw [List.append_nil] at hSplit
  rw [splitOutsideQuotes, hSplit]
  exact (foldr_consFirst A [] []).trans
    (by rw [List.append_nil])

/- Before a separator it is the first part. -/
theorem splitOutsideQuotes_append_cons
    {d : Char}
    (hQuote : isQuote d = false)
    (hIn : [d] ∈ spellings)
    (h : isWhole spellings none A = true)
    (B : List Char) :
    splitOutsideQuotes [d] (A ++ d :: B) =
      A :: splitOutsideQuotes [d] B := by
  have hNoTail : ∀ b ∈ (d :: B).head?, b ∉ [d].tail :=
    fun _ _ => List.not_mem_nil
  have hSplit := splitFrom_append hIn h hNoTail
  rw [splitOutsideQuotes, hSplit,
    splitFrom_separator_char hQuote]
  exact (foldr_consFirst A [] _).trans
    (by rw [List.append_nil]; rfl)

/- No comparison is found before the end of a whole text. -/
theorem findOutsideQuotes?_append
    {α : Type}
    {meanings : List (List Char × α)}
    (hIn : ∀ m ∈ meanings, m.1 ∈ spellings)
    (h : isWhole spellings quote A = true)
    (hHead : ∀ m ∈ meanings, ∀ b ∈ B.head?, b ∉ m.1.tail) :
    findOutsideQuotes? meanings quote (A ++ B) =
      (findOutsideQuotes? meanings none B).map
        fun (before, meaning, rest) =>
          (A ++ before, meaning, rest) := by
  fun_induction isWhole spellings quote A with
  | case1 quote =>
      rw [Option.isNone_iff_eq_none.mp h]
      rw [List.nil_append]
      cases findOutsideQuotes? meanings none B <;> rfl
  | case2 q c cs ih =>
      rw [List.cons_append, findOutsideQuotes?]
      simp only [Option.isSome_some, Bool.true_or, if_true, ih h,
        Option.map_map]
      rfl
  | case3 c cs hQuote ih =>
      have hAfter : quoteAfter none c = some c := if_pos hQuote
      rw [List.cons_append, findOutsideQuotes?]
      simp only [hQuote, Bool.or_true, if_true, hAfter, ih h,
        Option.map_map]
      rfl
  | case4 c cs hQuote ih =>
      rcases Bool.and_eq_true_iff.mp h with ⟨hNone, hRest⟩
      rw [Bool.not_eq_true', List.any_eq_false] at hNone
      have hAfter : quoteAfter none c = none := if_neg hQuote
      rw [List.cons_append, findOutsideQuotes?]
      simp only [Option.isSome_none, Bool.false_or, hQuote,
        Bool.false_eq_true, if_false, hAfter]
      split
      · next hFound =>
          rcases List.exists_of_findSome?_eq_some hFound with
            ⟨m, hm, hSome⟩
          rcases Option.map_eq_some_iff.mp hSome with
            ⟨rest, hRest, _⟩
          refine absurd ?_ (hNone m.1 (hIn m hm))
          rw [← beginsWith_cons_append (hHead m hm), beginsWith,
            hRest]
          rfl
      · rw [ih hRest, Option.map_map]
        rfl

------------------------------------------------------------
-- Trimming
------------------------------------------------------------

theorem trimFront_of_head?
    (h : ∀ c ∈ A.head?, isBlank c = false) :
    trimFront A = A := by
  cases A with
  | nil => rfl
  | cons c cs =>
      rw [trimFront, List.dropWhile_cons_of_neg]
      simp [h c rfl]

/- A text with no blank at its ends is trimmed already. -/
theorem trimChars_of_ends
    (hFirst : ∀ c ∈ A.head?, isBlank c = false)
    (hLast : ∀ c ∈ A.getLast?, isBlank c = false) :
    trimChars A = A := by
  rw [trimChars, trimFront_of_head? hFirst, trimBack,
    trimFront_of_head?, List.reverse_reverse]
  rwa [List.head?_reverse]

/- One blank more at the end makes no difference. -/
theorem trimBack_append_singleton
    {c : Char}
    (h : isBlank c = true)
    (A : List Char) :
    trimBack (A ++ [c]) = trimBack A := by
  rw [trimBack, trimBack, List.reverse_append,
    List.reverse_singleton, List.singleton_append, trimFront,
    List.dropWhile_cons_of_pos h]
  rfl

end Text

------------------------------------------------------------
-- Levels That Are Asked For
------------------------------------------------------------

namespace Requirement

/- What stands between clauses, and between tests. -/
def separators : List (List Char) :=
  [['/'], ['|', '|']]

/- A requirement shows the text that it is read from. -/
theorem text_of_ofText
    {text : String}
    {r : Requirement}
    (h : ofText text = .ok r) :
    r.text = text := by
  unfold ofText at h
  split at h
  · cases h
  · cases h
  · cases h
    rfl

/- What is looked for in the text of a requirement. -/
def marks : List (List Char) :=
  separators ++ ComparisonKind.spellings.map (·.1)

/-
  A name that stays whole in the text of a requirement, with
  no blank at its end.
-/
def isNameable (name : String) : Bool :=
  Text.isWhole marks none name.toList &&
    !name.toList.getLast?.any Text.isBlank

/- The text that asks for a level. -/
def levelText
    (level : Key)
    (n : Nat) : String :=
  level ++ " >= " ++ toString n

/- The clause that asks for a level. -/
def levelClause
    (level : Key)
    (n : Nat) : Clause :=
  ⟨levelText level n,
    [⟨.attr level,
      some (.relation .atLeast (.number (.ofNat n)))⟩]⟩

variable {name : String}
variable {n : Nat}

/- The level of a class with such a name stays whole. -/
theorem isWhole_levels
    (h : isNameable name = true) :
    Text.isWhole marks none (Key.under "levels" name).toList =
      true := by
  have hName := (Bool.and_eq_true_iff.mp h).1
  have hInner :
      ("levels".toList ++ ['.']).all (Text.isInner marks) =
        true := by
    decide +kernel
  rw [Key.toList_under, List.append_cons]
  exact Text.isWhole_append_of_isInner
    (List.all_eq_true.mp hInner) hName

/- It has no blanks at its ends. -/
theorem exists_levels_eq
    (h : isNameable name = true) :
    ∃ cs, (Key.under "levels" name).toList = 'l' :: cs ∧
      ∀ c ∈ ('l' :: cs).getLast?, Text.isBlank c = false := by
  have hLast := (Bool.and_eq_true_iff.mp h).2
  refine ⟨"evels".toList ++ '.' :: name.toList,
    Key.toList_under "levels" name, ?_⟩
  intro c hc
  cases hName : name.toList.getLast? with
  | none =>
      rw [List.getLast?_eq_none_iff.mp hName] at hc
      cases hc
      decide
  | some d =>
      rw [← List.cons_append, List.getLast?_append,
        List.getLast?_cons, hName] at hc
      cases hc
      simpa [hName] using hLast

/- Digits are no marks, and no blanks or quotes. -/
theorem isInner_of_isDigit
    {c : Char}
    (h : c.isDigit = true) :
    Text.isInner marks c = true ∧ Text.isBlank c = false ∧
      Text.isQuote c = false := by
  rcases Number.exists_of_isDigit h with ⟨k, rfl⟩
  revert k
  decide +kernel

/- The digits of a count are read as an operand. -/
theorem readOperand_toDigits
    (hLimit : n < 2 ^ Number.precision) :
    readOperand (Text.trimChars (' ' :: Nat.toDigits 10 n)) =
      .ok (.number (.ofNat n)) := by
  have hDigit {c : Char} (hc : c ∈ Nat.toDigits 10 n) :=
    isInner_of_isDigit (Number.isDigit_of_mem hc)
  have hTrim :
      Text.trimChars (' ' :: Nat.toDigits 10 n) =
        Nat.toDigits 10 n :=
    Text.trimChars_of_ends
      (fun c hc => (hDigit (List.mem_of_head? hc)).2.1)
      (fun c hc => (hDigit (List.mem_of_getLast? hc)).2.1)
  have hNumber := Number.ofChars?_toString hLimit
  rw [Nat.toString_eq_repr, Nat.toList_repr] at hNumber
  have hQuoted : Text.unquote? (Nat.toDigits 10 n) = none := by
    unfold Text.unquote?
    split
    · next c d rest hEq =>
        have hQuote := (hDigit (c := c) (by simp [hEq])).2.2
        simp [hQuote]
    · rfl
  have hSome : (Nat.toDigits 10 n).isEmpty = false := by
    rw [List.isEmpty_eq_false_iff]
    exact Nat.toDigits_ne_nil
  rw [hTrim, readOperand, hSome, hQuoted, hNumber]
  rfl

/- The text of a level is its name, a comparison and digits. -/
theorem toList_levelText
    (level : Key)
    (n : Nat) :
    (levelText level n).toList =
      level.toList ++ [' '] ++
        '>' :: '=' :: ' ' :: Nat.toDigits 10 n := by
  rw [levelText, String.toList_append, String.toList_append,
    Nat.toString_eq_repr, Nat.toList_repr]
  simp

section Nameable

variable (h : isNameable name = true)

include h

/- It is trimmed already. -/
theorem trimChars_levelText (n : Nat) :
    Text.trimChars (levelText (.under "levels" name) n).toList =
      (levelText (.under "levels" name) n).toList := by
  rcases exists_levels_eq h with ⟨cs, hLevel, _⟩
  apply Text.trimChars_of_ends
  · rw [toList_levelText, hLevel]
    intro c hc
    cases hc
    decide
  · intro c hc
    rw [toList_levelText, List.getLast?_append_cons] at hc
    have hSome : Nat.toDigits 10 n ≠ [] := Nat.toDigits_ne_nil
    simp only [List.getLast?_cons_cons,
      List.getLast?_cons_of_ne_nil hSome] at hc
    exact (isInner_of_isDigit
      (Number.isDigit_of_mem (List.mem_of_getLast? hc))).2.1

/- It gathers nothing. -/
theorem splitGather_levelText (n : Nat) :
    splitGather (levelText (.under "levels" name) n).toList =
      (none, (levelText (.under "levels" name) n).toList) := by
  rcases exists_levels_eq h with ⟨cs, hLevel, _⟩
  rw [toList_levelText, hLevel]
  have hOther : ¬ ' ' = 'l' := by decide
  simp only [splitGather, List.cons_append, Text.cutAt?,
    Text.after?, if_neg hOther]
  cases Text.cutAt? [' '] _ with
  | none => rfl
  | some parts => rfl

/- The comparison is found behind the name. -/
theorem findOutsideQuotes?_levelText (n : Nat) :
    Text.findOutsideQuotes? ComparisonKind.spellings none
        (levelText (.under "levels" name) n).toList =
      some ((Key.under "levels" name).toList ++ [' '],
        .relation .atLeast, ' ' :: Nat.toDigits 10 n) := by
  have hWhole :
      Text.isWhole marks none
          ((Key.under "levels" name).toList ++ [' ']) =
        true := by
    refine Text.isWhole_append (isWhole_levels h) ?_ ?_
    · decide
    · intro s hs b hb
      cases hb
      revert s
      decide
  have hIn : ∀ m ∈ ComparisonKind.spellings, m.1 ∈ marks :=
    fun m hm => List.mem_append_right _ (List.mem_map_of_mem hm)
  have hHead : ∀ m ∈ ComparisonKind.spellings,
      ∀ b ∈ ('>' :: '=' :: ' ' :: Nat.toDigits 10 n).head?,
        b ∉ m.1.tail := by
    intro m hm b hb
    cases hb
    revert m
    simp [ComparisonKind.spellings]
  have hFound :
      Text.findOutsideQuotes? ComparisonKind.spellings none
          ('>' :: '=' :: ' ' :: Nat.toDigits 10 n) =
        some ([], .relation .atLeast,
          ' ' :: Nat.toDigits 10 n) :=
    rfl
  rw [toList_levelText,
    Text.findOutsideQuotes?_append hIn hWhole hHead, hFound]
  simp only [Option.map_some, List.append_nil]

/- The name is what is left of the rest. -/
theorem unquote_levels :
    Text.unquote
        (Text.trimChars
          ((Key.under "levels" name).toList ++ [' '])) =
      (Key.under "levels" name).toList := by
  rcases exists_levels_eq h with ⟨cs, hLevel, hLast⟩
  have hFirst {A : List Char} :
      ∀ c ∈ ('l' :: A).head?, Text.isBlank c = false := by
    intro c hc
    cases hc
    decide
  have hTrim :
      Text.trimChars ('l' :: cs ++ [' ']) = 'l' :: cs := by
    rw [Text.trimChars, List.cons_append,
      Text.trimFront_of_head? hFirst, ← List.cons_append,
      Text.trimBack_append_singleton (by decide)]
    have hSame := Text.trimChars_of_ends hFirst hLast
    rwa [Text.trimChars, Text.trimFront_of_head? hFirst] at hSame
  rw [hLevel, hTrim]
  cases cs with
  | nil => rfl
  | cons c cs => rfl

/- It is read as one test. -/
theorem ofChars_levelText
    (hLimit : n < 2 ^ Number.precision) :
    Test.ofChars (levelText (.under "levels" name) n).toList =
      .ok ⟨.attr (.under "levels" name),
        some (.relation .atLeast (.number (.ofNat n)))⟩ := by
  have hSome :
      (Key.under "levels" name).toList.isEmpty = false := by
    rw [Key.toList_under]
    rfl
  simp only [Test.ofChars, trimChars_levelText h,
    splitGather_levelText h, findOutsideQuotes?_levelText h,
    readOperand_toDigits hLimit, pure_bind]
  simp only [bind, Except.bind, pure, Except.pure,
    unquote_levels h, hSome, String.ofList_toList,
    Bool.false_eq_true, if_false]
  rfl

/- It holds no separators. -/
theorem isWhole_levelText (n : Nat) :
    Text.isWhole separators none
        (levelText (.under "levels" name) n).toList = true := by
  have hSome : separators ⊆ marks :=
    List.subset_append_left _ _
  have hDigits :
      Text.isWhole separators none (Nat.toDigits 10 n) = true :=
    Text.isWhole_mono hSome (Text.isWhole_of_isInner fun c hc =>
      (isInner_of_isDigit (Number.isDigit_of_mem hc)).1)
  have hInner :
      [' ', '>', '=', ' '].all (Text.isInner separators) =
        true := by
    decide
  have hRest := Text.isWhole_append_of_isInner
    (List.all_eq_true.mp hInner) hDigits
  rw [toList_levelText, List.append_assoc]
  refine Text.isWhole_append
    (Text.isWhole_mono hSome (isWhole_levels h)) hRest ?_
  intro s hs b hb
  cases hb
  revert s
  decide

/- So it is read as a clause. -/
theorem clause_ofChars_levelText
    (hLimit : n < 2 ^ Number.precision) :
    Clause.ofChars (levelText (.under "levels" name) n).toList =
      .ok (levelClause (.under "levels" name) n) := by
  have hIn : ['|', '|'] ∈ separators := by decide
  rw [Clause.ofChars,
    Text.splitOutsideQuotes_of_isWhole hIn
      (isWhole_levelText h n),
    List.mapM_cons, ofChars_levelText h hLimit,
    trimChars_levelText h, String.ofList_toList]
  rfl

theorem trimChars_levelText_ne_nil (n : Nat) :
    (Text.trimChars
      (levelText (.under "levels" name) n).toList).isEmpty =
        false := by
  rw [trimChars_levelText h, toList_levelText,
    Key.toList_under]
  rfl

/- A level that is asked for alone is read as its clause. -/
theorem ofText_levelText
    (hLimit : n < 2 ^ Number.precision) :
    ofText (levelText (.under "levels" name) n) =
      .ok ⟨levelText (.under "levels" name) n,
        [levelClause (.under "levels" name) n]⟩ := by
  have hIn : ['/'] ∈ separators := by decide
  have hTexts :
      clauseTexts (levelText (.under "levels" name) n).toList =
        [(levelText (.under "levels" name) n).toList] := by
    rw [clauseTexts,
      Text.splitOutsideQuotes_of_isWhole hIn
        (isWhole_levelText h n),
      List.filter_singleton, trimChars_levelText_ne_nil h]
    rfl
  rw [ofText, hTexts, List.mapM_cons,
    clause_ofChars_levelText h hLimit]
  rfl

/- One before a requirement is read as one clause more. -/
theorem ofText_levelText_append
    (hLimit : n < 2 ^ Number.precision)
    {r : Requirement}
    (hText : ofText r.text = .ok r) :
    ofText
        (levelText (.under "levels" name) n ++ "/" ++ r.text) =
      .ok
        ⟨levelText (.under "levels" name) n ++ "/" ++ r.text,
          levelClause (.under "levels" name) n ::
            r.clauses⟩ := by
  have hIn : ['/'] ∈ separators := by decide
  have hTexts :
      clauseTexts
          (levelText (.under "levels" name) n ++ "/" ++
            r.text).toList =
        (levelText (.under "levels" name) n).toList ::
          clauseTexts r.text.toList := by
    have hSlash : "/".toList = ['/'] := rfl
    rw [clauseTexts, String.toList_append, String.toList_append,
      hSlash, ← List.append_cons,
      Text.splitOutsideQuotes_append_cons (by decide) hIn
        (isWhole_levelText h n),
      List.filter_cons_of_pos]
    · rfl
    · rw [trimChars_levelText_ne_nil h]
      rfl
  have hRest :
      (clauseTexts r.text.toList).mapM Clause.ofChars =
        .ok r.clauses := by
    unfold ofText at hText
    split at hText
    · cases hText
    · cases hText
    · next hClauses =>
        rw [hClauses, ← Except.ok.inj hText]
  rw [ofText, hTexts, List.mapM_cons,
    clause_ofChars_levelText h hLimit]
  simp only [bind, Except.bind, pure, Except.pure, hRest]

end Nameable

end Requirement

end CharSheet
