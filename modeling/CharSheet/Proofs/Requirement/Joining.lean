import CharSheet.Proofs.Requirement.Reading

/-
  Requirements that are put together from several texts.

  The texts are joined and read again.  A text whose quotes
  are all closed keeps its clauses in front of whatever comes
  after it.  One that leaves a quote open, such as a name with
  an apostrophe, takes the separator and what follows into its
  last clause.

  Main declarations:
    * `Text.openQuote?`
    * `Text.HasParts`, `Text.exists_hasParts`
    * `Requirement.clauseTexts_append_cons`
    * `Requirement.mapM_clauseTexts_append_cons_ne`
    * `Requirement.ofTexts_eq_ok_iff`
    * `Requirement.not_forall_ofTexts_eq_ok`
-/

namespace CharSheet

namespace Text

variable {A B : List Char}
variable {d : Char}
variable {quote : Option Char}

------------------------------------------------------------
-- Open Quotes
------------------------------------------------------------

/- The quote that a text leaves open, if there is one. -/
def openQuote? (cs : List Char) : Option Char :=
  cs.foldl quoteAfter none

/- Characters that are no quotes open none. -/
theorem openQuote?_of_not_isQuote
    (h : ∀ c ∈ A, isQuote c = false) :
    openQuote? A = none := by
  unfold openQuote?
  induction A with
  | nil => rfl
  | cons c cs ih =>
      rcases List.forall_mem_cons.mp h with ⟨hFirst, hRest⟩
      have hAfter : quoteAfter none c = none := by
        simp [quoteAfter, hFirst]
      rw [List.foldl_cons, hAfter]
      exact ih hRest

/- Nor does white space. -/
theorem openQuote?_of_isBlank
    (h : ∀ c ∈ A, isBlank c = true) :
    openQuote? A = none := by
  apply openQuote?_of_not_isQuote
  intro c hc
  have hBlank := h c hc
  apply eq_false_of_ne_true
  intro hQuote
  rcases Bool.or_eq_true_iff.mp hQuote with hSame | hSame
  · rw [of_decide_eq_true hSame] at hBlank
    revert hBlank
    decide
  · rw [of_decide_eq_true hSame] at hBlank
    revert hBlank
    decide

/- What is left open is a quote. -/
theorem isQuote_of_openQuote?
    {q : Char}
    (h : openQuote? A = some q) :
    isQuote q = true := by
  unfold openQuote? at h
  induction A using List.reverseRecOn generalizing q with
  | nil => cases h
  | append_singleton cs c ih =>
      rw [List.foldl_append, List.foldl_cons,
        List.foldl_nil] at h
      cases hBefore : cs.foldl quoteAfter none with
      | none =>
          rw [hBefore] at h
          rcases Option.ite_none_right_eq_some.mp h with
            ⟨hQuote, hSame⟩
          rwa [← Option.some.inj hSame]
      | some p =>
          rw [hBefore] at h
          rcases Option.ite_none_left_eq_some.mp h with
            ⟨_, hSame⟩
          rw [← Option.some.inj hSame]
          exact ih hBefore

------------------------------------------------------------
-- Last Parts
------------------------------------------------------------

/-
  The parts between the separators of a text.  What follows
  the text is read with the quote that is open then, and its
  first part goes on with the last one.
-/
structure HasParts
    (d : Char)
    (quote : Option Char)
    (A : List Char)
    (front : List (List Char))
    (last : List Char) : Prop where
  alone : splitFrom [d] quote 0 A = front ++ [last]
  append : ∀ B,
    splitFrom [d] quote 0 (A ++ B) =
      front ++ last.foldr consFirst
        (splitFrom [d] (A.foldl quoteAfter quote) 0 B)
  /- separators stand where no quote is open -/
  quote_eq :
    A.foldl quoteAfter quote =
      last.foldl quoteAfter (if front = [] then quote else none)

/- A character that separates nothing goes to the first part. -/
theorem HasParts.consFirst
    {c : Char}
    {front : List (List Char)}
    {last : List Char}
    (h : HasParts d (quoteAfter quote c) A front last)
    (hStep : ∀ B,
      splitFrom [d] quote 0 (c :: B) =
        consFirst c (splitFrom [d] (quoteAfter quote c) 0 B)) :
    ∃ front last, HasParts d quote (c :: A) front last := by
  cases front with
  | nil =>
      refine ⟨[], c :: last, ?_, ?_, ?_⟩
      · rw [hStep, h.alone]
        rfl
      · intro B
        rw [List.cons_append, hStep, h.append]
        rfl
      · exact h.quote_eq
  | cons part front =>
      refine ⟨(c :: part) :: front, last, ?_, ?_, ?_⟩
      · rw [hStep, h.alone]
        rfl
      · intro B
        rw [List.cons_append, hStep, h.append]
        rfl
      · exact h.quote_eq

/- Each text has a last part. -/
theorem exists_hasParts
    (d : Char)
    (quote : Option Char)
    (A : List Char) :
    ∃ front last, HasParts d quote A front last := by
  induction A generalizing quote with
  | nil => exact ⟨[], [], rfl, fun _ => rfl, rfl⟩
  | cons c cs ih =>
      rcases ih (quoteAfter quote c) with ⟨front, last, h⟩
      cases quote with
      | some q => exact h.consFirst fun _ => rfl
      | none =>
          by_cases hQuote : isQuote c = true
          · apply h.consFirst
            intro B
            rw [splitFrom, if_pos hQuote, quoteAfter,
              if_pos hQuote]
          · have hAfter : quoteAfter none c = none :=
              if_neg hQuote
            by_cases hSame : d = c
            · subst hSame
              rw [hAfter] at h
              have hStep :=
                splitFrom_separator_char (eq_false_of_ne_true hQuote)
              refine ⟨[] :: front, last, ?_, ?_, ?_⟩
              · rw [hStep, h.alone]
                rfl
              · intro B
                rw [List.cons_append, hStep, h.append,
                  List.foldl_cons, hAfter]
                rfl
              · rw [List.foldl_cons, hAfter, h.quote_eq,
                  if_neg (List.cons_ne_nil _ _), ite_self]
            · apply h.consFirst
              intro B
              rw [splitFrom, if_neg hQuote, hAfter,
                if_neg (by simp [beginsWith, after?, hSame])]

/- Where no quote is left open, a separator ends the part. -/
theorem splitOutsideQuotes_append_of_closed
    (hQuote : isQuote d = false)
    (h : openQuote? A = none)
    (B : List Char) :
    splitOutsideQuotes [d] (A ++ d :: B) =
      splitOutsideQuotes [d] A ++ splitOutsideQuotes [d] B := by
  rcases exists_hasParts d none A with ⟨front, last, hParts⟩
  unfold splitOutsideQuotes
  rw [openQuote?] at h
  rw [hParts.append, hParts.alone, h,
    splitFrom_separator_char hQuote, foldr_consFirst,
    List.append_nil, List.append_assoc]
  rfl

/-
  Where one is, the part goes on behind the separator.  It is
  not blank, since the quote stands in it.
-/
theorem exists_splitOutsideQuotes_append_of_open
    {q : Char}
    (hQuote : isQuote d = false)
    (h : openQuote? A = some q) :
    ∃ front last,
      splitOutsideQuotes [d] A = front ++ [last] ∧
        (∃ c ∈ last, isBlank c = false) ∧
          ∀ B, ∃ more parts,
            splitOutsideQuotes [d] (A ++ d :: B) =
              front ++ (last ++ d :: more) :: parts := by
  have hOther : d ≠ q := by
    rintro rfl
    rw [isQuote_of_openQuote? h] at hQuote
    cases hQuote
  rcases exists_hasParts d none A with ⟨front, last, hParts⟩
  rw [openQuote?] at h
  refine ⟨front, last, hParts.alone, ?_, ?_⟩
  · by_contra hBlank
    have hBlank' : ∀ c ∈ last, isBlank c = true := by
      intro c hc
      by_contra hNot
      exact hBlank ⟨c, hc, eq_false_of_ne_true hNot⟩
    have hLast := hParts.quote_eq
    rw [h, ite_self] at hLast
    rw [← openQuote?, openQuote?_of_isBlank hBlank'] at hLast
    cases hLast
  · intro B
    have hAfter : quoteAfter (some q) d = some q :=
      if_neg hOther
    cases hNext : splitFrom [d] (some q) 0 B with
    | nil => exact absurd hNext (splitFrom_ne_nil _ _ _ _)
    | cons more parts =>
        refine ⟨more, parts, ?_⟩
        rw [splitOutsideQuotes, hParts.append, h, splitFrom,
          hAfter, hNext, consFirst, foldr_consFirst]

------------------------------------------------------------
-- Trimming
------------------------------------------------------------

/- A text is trimmed up to a character that is not blank. -/
theorem trimFront_append_cons
    (hd : isBlank d = false)
    (A B : List Char) :
    trimFront (A ++ d :: B) = trimFront A ++ d :: B := by
  unfold trimFront
  have hHead :
      (d :: B).dropWhile isBlank = d :: B :=
    List.dropWhile_cons_of_neg (by simp [hd])
  rw [List.dropWhile_append, hHead]
  split
  · next hNone =>
      rw [List.isEmpty_iff.mp hNone]
      rfl
  · rfl

/- So the part before it is not trimmed at its end. -/
theorem trimChars_append_cons
    (hd : isBlank d = false)
    (A B : List Char) :
    trimChars (A ++ d :: B) =
      trimFront A ++ d :: trimBack B := by
  have hBack :
      (trimFront A ++ d :: B).reverse =
        B.reverse ++ d :: (trimFront A).reverse := by
    simp
  rw [trimChars, trimFront_append_cons hd, trimBack, hBack,
    trimFront_append_cons hd, trimBack]
  simp

theorem trimChars_ne_nil
    {c : Char}
    (hIn : c ∈ A)
    (hc : isBlank c = false) :
    trimChars A ≠ [] := by
  rcases List.append_of_mem hIn with ⟨before, after, rfl⟩
  rw [trimChars_append_cons hc]
  simp

/- A text that goes on with such a character is another one. -/
theorem trimChars_append_cons_ne
    (hd : isBlank d = false)
    (A B : List Char) :
    trimChars (A ++ d :: B) ≠ trimChars A := by
  intro hSame
  have hLength := congrArg List.length hSame
  have hShort :
      (trimChars A).length ≤ (trimFront A).length := by
    have hDrop := List.length_dropWhile_le isBlank
      (trimFront A).reverse
    rw [List.length_reverse] at hDrop
    rw [trimChars, trimBack, List.length_reverse]
    exact hDrop
  rw [trimChars_append_cons hd, List.length_append,
    List.length_cons] at hLength
  omega

end Text

namespace Requirement

variable {A : List Char}

------------------------------------------------------------
-- Clauses
------------------------------------------------------------

/- A clause shows the text that it is read from. -/
theorem text_of_clause_ofChars
    {cs : List Char}
    {c : Clause}
    (h : Clause.ofChars cs = .ok c) :
    c.text = String.ofList (Text.trimChars cs) := by
  simp only [Clause.ofChars] at h
  cases hTests :
      (Text.splitOutsideQuotes ['|', '|'] cs).mapM
        Test.ofChars with
  | error fault =>
      rw [hTests] at h
      cases h
  | ok tests =>
      rw [hTests] at h
      cases h
      rfl

/- So do all clauses of a text. -/
theorem map_text_of_map_eq
    {parts : List (List Char)}
    {clauses : List Clause}
    (h : parts.map Clause.ofChars = clauses.map .ok) :
    clauses.map (·.text) =
      parts.map fun cs => String.ofList (Text.trimChars cs) := by
  induction parts generalizing clauses with
  | nil =>
      rw [List.map_nil, eq_comm, List.map_eq_nil_iff] at h
      rw [h]
      rfl
  | cons cs parts ih =>
      cases clauses with
      | nil => cases h
      | cons c clauses =>
          rcases List.cons.inj h with ⟨hFirst, hRest⟩
          rw [List.map_cons, List.map_cons,
            text_of_clause_ofChars hFirst, ih hRest]

/- A requirement is read from its clauses, if there are any. -/
theorem ofText_eq_ok_iff
    {text : String}
    {clauses : List Clause} :
    ofText text = .ok ⟨text, clauses⟩ ↔
      (clauseTexts text.toList).mapM Clause.ofChars =
          .ok clauses ∧
        clauses ≠ [] := by
  unfold ofText
  cases hRead :
      (clauseTexts text.toList).mapM Clause.ofChars with
  | error fault => simp
  | ok read =>
      cases read with
      | nil => simp [eq_comm]
      | cons c read =>
          simp only [Except.ok.injEq, mk.injEq, true_and]
          constructor
          · rintro rfl
            exact ⟨rfl, List.cons_ne_nil _ _⟩
          · exact And.left

theorem mapM_clauseTexts_of_ofText
    {text : String}
    {r : Requirement}
    (h : ofText text = .ok r) :
    (clauseTexts text.toList).mapM Clause.ofChars =
        .ok r.clauses ∧
      r.clauses ≠ [] := by
  have hText := text_of_ofText h
  rcases r with ⟨_, clauses⟩
  cases hText
  exact ofText_eq_ok_iff.mp h

/- Where no quote is left open, a slash ends the clause. -/
theorem clauseTexts_append_cons
    (h : Text.openQuote? A = none)
    (B : List Char) :
    clauseTexts (A ++ '/' :: B) =
      clauseTexts A ++ clauseTexts B := by
  unfold clauseTexts
  rw [Text.splitOutsideQuotes_append_of_closed (by decide) h,
    List.filter_append]

/- So both texts are read on their own. -/
theorem mapM_clauseTexts_append_cons
    (h : Text.openQuote? A = none)
    {clauses : List Clause}
    (hRead :
      (clauseTexts A).mapM Clause.ofChars = .ok clauses)
    {B : List Char}
    {others : List Clause} :
    (clauseTexts (A ++ '/' :: B)).mapM Clause.ofChars =
        .ok (clauses ++ others) ↔
      (clauseTexts B).mapM Clause.ofChars = .ok others := by
  rw [clauseTexts_append_cons h, List.mapM_append, hRead]
  cases (clauseTexts B).mapM Clause.ofChars with
  | error fault => simp [bind, Except.bind]
  | ok read => simp [bind, Except.bind, pure, Except.pure]

/-
  Where one is, the last clause is another one, for its text
  goes on behind the slash.
-/
theorem mapM_clauseTexts_append_cons_ne
    {q : Char}
    (h : Text.openQuote? A = some q)
    {clauses : List Clause}
    (hRead :
      (clauseTexts A).mapM Clause.ofChars = .ok clauses)
    (B : List Char)
    (others : List Clause) :
    (clauseTexts (A ++ '/' :: B)).mapM Clause.ofChars ≠
      .ok (clauses ++ others) := by
  intro hJoined
  rcases Text.exists_splitOutsideQuotes_append_of_open
      (d := '/') (by decide) h with
    ⟨front, last, hAlone, ⟨c, hc, hSome⟩, hAppend⟩
  rcases hAppend B with ⟨more, parts, hParts⟩
  have hKept
      {part : List Char}
      (hIn : c ∈ part)
      (parts : List (List Char)) :
      (part :: parts).filter
          (fun part => !(Text.trimChars part).isEmpty) =
        part :: parts.filter
          fun part => !(Text.trimChars part).isEmpty := by
    apply List.filter_cons_of_pos
    rw [Bool.not_eq_true', List.isEmpty_eq_false_iff]
    exact Text.trimChars_ne_nil hIn hSome
  have hTexts := map_text_of_map_eq (map_eq_of_mapM_eq_ok hRead)
  have hTexts' :=
    map_text_of_map_eq (map_eq_of_mapM_eq_ok hJoined)
  rw [clauseTexts, hAlone, List.filter_append, hKept hc,
    List.filter_nil] at hTexts
  rw [clauseTexts, hParts, List.filter_append,
    hKept (List.mem_append_left _ hc), List.map_append, hTexts,
    List.map_append, List.map_append, List.append_assoc]
    at hTexts'
  have hLast := (List.cons.inj
    (List.append_cancel_left hTexts')).1
  exact Text.trimChars_append_cons_ne (by decide) last more
    (String.ofList_injective hLast).symm

------------------------------------------------------------
-- Several Texts
------------------------------------------------------------

/-
  What several texts come to when they are joined: the clauses
  of all of them, exactly if none but the last one leaves a
  quote open.
-/
theorem mapM_clauseTexts_join_iff
    {texts : List String}
    {requirements : List Requirement}
    (hSome : texts ≠ [])
    (hRead : List.Forall₂ (fun text r => ofText text = .ok r)
      texts requirements) :
    (clauseTexts (Text.join "/" texts).toList).mapM
          Clause.ofChars =
        .ok (requirements.flatMap (·.clauses)) ↔
      ∀ text ∈ texts.dropLast,
        Text.openQuote? text.toList = none := by
  induction hRead with
  | nil => exact absurd rfl hSome
  | @cons text r texts requirements hFirst hRest ih =>
      have hClauses := (mapM_clauseTexts_of_ofText hFirst).1
      cases hRest with
      | nil => simpa [Text.join] using hClauses
      | @cons next r' texts requirements hNext hRest =>
          have hJoin :
              (Text.join "/" (text :: next :: texts)).toList =
                text.toList ++ '/' ::
                  (Text.join "/" (next :: texts)).toList := by
            simp [Text.join, String.intercalate_cons_cons]
          rw [hJoin, List.flatMap_cons, List.dropLast_cons_cons,
            List.forall_mem_cons, ← ih (List.cons_ne_nil _ _)]
          cases hOpen : Text.openQuote? text.toList with
          | none =>
              rw [mapM_clauseTexts_append_cons hOpen hClauses]
              exact (and_iff_right rfl).symm
          | some q =>
              refine iff_of_false ?_ (fun h => nomatch h.1)
              exact mapM_clauseTexts_append_cons_ne hOpen hClauses
                _ _

/-
  Texts of which each one is read alone are read together, to
  the clauses of all of them in order, exactly if none but the
  last one leaves a quote open.
-/
theorem ofTexts_eq_ok_iff
    {texts : List String}
    {requirements : List Requirement}
    (hSome : texts ≠ [])
    (hRead : List.Forall₂ (fun text r => ofText text = .ok r)
      texts requirements) :
    ofTexts texts =
        .ok ⟨Text.join "/" texts,
          requirements.flatMap (·.clauses)⟩ ↔
      ∀ text ∈ texts.dropLast,
        Text.openQuote? text.toList = none := by
  rw [ofTexts, ofText_eq_ok_iff,
    mapM_clauseTexts_join_iff hSome hRead]
  refine and_iff_left_of_imp fun _ => ?_
  cases hRead with
  | nil => exact absurd rfl hSome
  | cons hFirst hRest =>
      rw [List.flatMap_cons]
      exact List.append_ne_nil_of_left_ne_nil
        (mapM_clauseTexts_of_ofText hFirst).2 _

/-
  The quotes of an elf are closed, and the apostrophe of a
  hunter stands in the last text.
-/
theorem ofTexts_eq_ok_hunter :
    let texts := ["race == 'Half-Elf'/wisdom >= 13",
      "features.Hunter's Mark"]
    let requirements : List Requirement :=
      [⟨"race == 'Half-Elf'/wisdom >= 13",
          [⟨"race == 'Half-Elf'", [⟨.attr "race",
              some (.relation .equal (.text "Half-Elf"))⟩]⟩,
            ⟨"wisdom >= 13", [⟨.attr "wisdom",
              some (.relation .atLeast (.number 13))⟩]⟩]⟩,
        ⟨"features.Hunter's Mark",
          [⟨"features.Hunter's Mark",
            [⟨.attr "features.Hunter's Mark", none⟩]⟩]⟩]
    texts ≠ [] ∧
      List.Forall₂ (fun text r => ofText text = .ok r) texts
        requirements ∧
      (∀ text ∈ texts.dropLast,
        Text.openQuote? text.toList = none) ∧
      ofTexts texts =
        .ok ⟨Text.join "/" texts,
          requirements.flatMap (·.clauses)⟩ := by
  intro texts requirements
  have hSome : texts ≠ [] := List.cons_ne_nil _ _
  have hRead : List.Forall₂ (fun text r => ofText text = .ok r)
      texts requirements :=
    .cons (by decide +kernel) (.cons (by decide +kernel) .nil)
  have hClosed : ∀ text ∈ texts.dropLast,
      Text.openQuote? text.toList = none := by
    decide +kernel
  exact ⟨hSome, hRead, hClosed,
    (ofTexts_eq_ok_iff hSome hRead).mpr hClosed⟩

/-
  In the first text it hides the separator: the two clauses
  become one, whose attribute is the whole text.
-/
theorem not_forall_ofTexts_eq_ok :
    ¬ ∀ (texts : List String) (requirements : List Requirement),
        texts ≠ [] →
          List.Forall₂ (fun text r => ofText text = .ok r) texts
            requirements →
          ∃ r, ofTexts texts = .ok r ∧
            r.clauses = requirements.flatMap (·.clauses) := by
  intro h
  let texts := ["features.Hunter's Mark", "strength >= 13"]
  have hRead : List.Forall₂ (fun text r => ofText text = .ok r)
      texts
      [⟨"features.Hunter's Mark",
          [⟨"features.Hunter's Mark",
            [⟨.attr "features.Hunter's Mark", none⟩]⟩]⟩,
        ⟨"strength >= 13",
          [⟨"strength >= 13", [⟨.attr "strength",
            some (.relation .atLeast (.number 13))⟩]⟩]⟩] :=
    .cons (by decide +kernel) (.cons (by decide +kernel) .nil)
  have hOne : ofTexts texts =
      .ok ⟨"features.Hunter's Mark/strength >= 13",
        [⟨"features.Hunter's Mark/strength >= 13",
          [⟨.attr "features.Hunter's Mark/strength >= 13",
            none⟩]⟩]⟩ := by
    decide +kernel
  rcases h texts _ (List.cons_ne_nil _ _) hRead with
    ⟨r, hJoined, hClauses⟩
  rw [hOne] at hJoined
  cases hJoined
  exact absurd (congrArg List.length hClauses) (by decide)

end Requirement

end CharSheet
