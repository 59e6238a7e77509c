import CharSheet.Proofs.Requirement.Joining

/-
  The places where a text is split.

  A text is split at the separators that stand outside its
  quotes, each time at the first one: three bars in a row are a
  separator and a bar.  The parts are the only ones that are
  cut in this way, since the first of them ends at the first
  separator and the others are the parts of what follows it.

  Main declarations:
    * `Text.StandsBehind`, `Text.EndsAtFirst`
    * `Text.exists_endsAtFirst`
    * `Text.splitFrom_of_endsAtFirst`
    * `Text.IsSplit`
    * `Text.splitOutsideQuotes_eq_iff`
-/

namespace CharSheet

namespace Text

variable {separator : List Char}
variable {quote : Option Char}
variable {before part cs : List Char}
variable {c d : Char}

------------------------------------------------------------
-- Places of Separators
------------------------------------------------------------

/-
  A separator stands behind the beginning of a text, and no
  quote is open there.  The text itself begins inside `quote`.
-/
def StandsBehind
    (separator : List Char)
    (quote : Option Char)
    (before cs : List Char) : Prop :=
  before ++ separator <+: cs ∧
    before.foldl quoteAfter quote = none

theorem standsBehind_cons_iff :
    StandsBehind separator quote (d :: before) (c :: cs) ↔
      d = c ∧
        StandsBehind separator (quoteAfter quote c) before cs := by
  unfold StandsBehind
  rw [List.cons_append, List.cons_prefix_cons, List.foldl_cons]
  constructor
  · rintro ⟨⟨rfl, hPrefix⟩, hClosed⟩
    exact ⟨rfl, hPrefix, hClosed⟩
  · rintro ⟨rfl, hPrefix, hClosed⟩
    exact ⟨⟨rfl, hPrefix⟩, hClosed⟩

/- What follows a text moves none of its separators. -/
theorem StandsBehind.append
    (h : StandsBehind separator quote before cs)
    (rest : List Char) :
    StandsBehind separator quote before (cs ++ rest) :=
  ⟨h.1.trans (List.prefix_append cs rest), h.2⟩

/- A separator that ends inside a beginning stands in it. -/
theorem StandsBehind.of_append
    {rest : List Char}
    (h : StandsBehind separator quote before (cs ++ rest))
    (hInside : (before ++ separator).length ≤ cs.length) :
    StandsBehind separator quote before cs :=
  ⟨List.prefix_of_prefix_length_le h.1
    (List.prefix_append cs rest) hInside, h.2⟩

/- Behind closed quotes a text is read as it is alone. -/
theorem standsBehind_append_iff
    {rest : List Char}
    (hClosed : cs.foldl quoteAfter quote = none) :
    StandsBehind separator quote (cs ++ before) (cs ++ rest) ↔
      StandsBehind separator none before rest := by
  unfold StandsBehind
  rw [List.append_assoc, List.prefix_append_right_inj,
    List.foldl_append, hClosed]

/-
  A part ends at the first separator: with a separator added,
  none stands in it but the one at its end.
-/
def EndsAtFirst
    (separator : List Char)
    (quote : Option Char)
    (part : List Char) : Prop :=
  ∀ before,
    StandsBehind separator quote before (part ++ separator) ↔
      before = part

theorem endsAtFirst_nil (separator : List Char) :
    EndsAtFirst separator none [] := by
  intro before
  constructor
  · intro hStands
    have hLength := hStands.1.length_le
    rw [List.nil_append, List.length_append] at hLength
    exact List.eq_nil_of_length_eq_zero (by omega)
  · rintro rfl
    exact ⟨List.prefix_rfl, rfl⟩

theorem endsAtFirst_cons_iff :
    EndsAtFirst separator quote (c :: part) ↔
      ¬ StandsBehind separator quote []
          (c :: (part ++ separator)) ∧
        EndsAtFirst separator (quoteAfter quote c) part := by
  constructor
  · intro h
    refine ⟨fun hHere => ?_, fun before => ?_⟩
    · exact absurd ((h []).mp hHere) (List.cons_ne_nil _ _).symm
    · have hBefore := h (c :: before)
      rw [List.cons_append, standsBehind_cons_iff] at hBefore
      simpa using hBefore
  · rintro ⟨hHere, hNext⟩ before
    cases before with
    | nil => exact iff_of_false hHere (List.cons_ne_nil _ _).symm
    | cons d before =>
        rw [List.cons_append, standsBehind_cons_iff, hNext before,
          List.cons_eq_cons]

/- No quote is open at the end of such a part. -/
theorem EndsAtFirst.foldl_quoteAfter
    (h : EndsAtFirst separator quote part) :
    part.foldl quoteAfter quote = none :=
  ((h part).mpr rfl).2

/- And no separator stands in the part itself. -/
theorem EndsAtFirst.not_standsBehind
    (hSome : separator ≠ [])
    (h : EndsAtFirst separator quote part)
    (before : List Char) :
    ¬ StandsBehind separator quote before part := by
  intro hStands
  have hSame := (h before).mp (hStands.append separator)
  have hLength := hStands.1.length_le
  rw [hSame, List.length_append] at hLength
  exact hSome (List.eq_nil_of_length_eq_zero (by omega))

/-
  Either no separator stands in a text, or there is a first one.
  The text is read up to it, with the quote that is open then.
-/
theorem exists_endsAtFirst
    (hSome : separator ≠ [])
    (quote : Option Char)
    (cs : List Char) :
    (∀ before, ¬ StandsBehind separator quote before cs) ∨
      ∃ part rest,
        cs = part ++ separator ++ rest ∧
          EndsAtFirst separator quote part := by
  induction cs generalizing quote with
  | nil =>
      refine .inl fun before hStands => hSome ?_
      exact (List.append_eq_nil_iff.mp
        (List.prefix_nil.mp hStands.1)).2
  | cons c cs ih =>
      by_cases hHere : StandsBehind separator quote [] (c :: cs)
      · rcases hHere with ⟨⟨rest, hSplit⟩, hQuote⟩
        cases hQuote
        exact .inr ⟨[], rest, hSplit.symm,
          endsAtFirst_nil separator⟩
      · rcases ih (quoteAfter quote c) with
          hNone | ⟨part, rest, rfl, hFirst⟩
        · refine .inl fun before hStands => ?_
          cases before with
          | nil => exact hHere hStands
          | cons d before =>
              exact hNone before
                (standsBehind_cons_iff.mp hStands).2
        · refine .inr ⟨c :: part, rest, rfl, ?_⟩
          exact endsAtFirst_cons_iff.mpr
            ⟨fun hStands => hHere (hStands.append rest), hFirst⟩

------------------------------------------------------------
-- Splitting
------------------------------------------------------------

/- Where no separator stands, a part goes on. -/
theorem splitFrom_cons
    (h : ¬ StandsBehind separator quote [] (c :: cs)) :
    splitFrom separator quote 0 (c :: cs) =
      consFirst c
        (splitFrom separator (quoteAfter quote c) 0 cs) := by
  cases quote with
  | some q => rfl
  | none =>
      rw [splitFrom, quoteAfter]
      split
      · rfl
      · rw [if_neg]
        exact fun hHere => h ⟨beginsWith_iff.mp hHere, rfl⟩

/- So a text without separators is one part. -/
theorem splitFrom_of_not_standsBehind
    (h : ∀ before, ¬ StandsBehind separator quote before cs) :
    splitFrom separator quote 0 cs = [cs] := by
  induction cs generalizing quote with
  | nil => rfl
  | cons c cs ih =>
      have hRest :
          ∀ before,
            ¬ StandsBehind separator (quoteAfter quote c)
              before cs :=
        fun before hStands =>
          h (c :: before)
            (standsBehind_cons_iff.mpr ⟨rfl, hStands⟩)
      rw [splitFrom_cons (h []), ih hRest, consFirst]

/- And the first part ends at the first separator. -/
theorem splitFrom_of_endsAtFirst
    (hSome : separator ≠ [])
    (hPlain : ∀ c ∈ separator, isQuote c = false)
    (h : EndsAtFirst separator quote part)
    (rest : List Char) :
    splitFrom separator quote 0 (part ++ separator ++ rest) =
      part :: splitFrom separator none 0 rest := by
  induction part generalizing quote with
  | nil =>
      have hQuote : quote = none := h.foldl_quoteAfter
      rw [hQuote, List.nil_append,
        splitFrom_separator hSome hPlain]
  | cons c part ih =>
      rcases endsAtFirst_cons_iff.mp h with ⟨hHere, hNext⟩
      -- a separator that began here would end before the rest
      have hPass :
          ¬ StandsBehind separator quote []
              (c :: (part ++ separator ++ rest)) := by
        intro hStands
        rw [← List.cons_append] at hStands
        exact hHere (hStands.of_append (by simp; omega))
      rw [List.cons_append, List.cons_append,
        splitFrom_cons hPass, ih hNext, consFirst]

------------------------------------------------------------
-- Parts
------------------------------------------------------------

/-
  A text is split into parts at a separator.  With the
  separator between them the parts are the text, and in none of
  them does it stand outside quotes.  Where it is put, it
  stands outside the quotes of the whole text, and no earlier
  place was passed over.
-/
structure IsSplit
    (separator cs : List Char)
    (parts : List (List Char)) : Prop where
  ne_nil : parts ≠ []
  join_eq : separator.intercalate parts = cs
  apart :
    ∀ part ∈ parts, ∀ before,
      ¬ StandsBehind separator none before part
  outside :
    ∀ front back, front ≠ [] → back ≠ [] →
      parts = front ++ back →
        StandsBehind separator none
          (separator.intercalate front) cs
  first :
    ∀ part ∈ parts.dropLast, EndsAtFirst separator none part

theorem isSplit_singleton
    (h : ∀ before, ¬ StandsBehind separator none before cs) :
    IsSplit separator cs [cs] where
  ne_nil := List.cons_ne_nil _ _
  join_eq := List.intercalate_singleton
  apart := by simpa using h
  outside := by
    intro front back hFront hBack hParts
    rcases List.singleton_eq_append_iff.mp hParts with
      ⟨hNone, -⟩ | ⟨-, hNone⟩
    · exact absurd hNone hFront
    · exact absurd hNone hBack
  first := by simp

/- No quote is open behind a part and its separator. -/
theorem EndsAtFirst.foldl_append_separator
    (hPlain : ∀ c ∈ separator, isQuote c = false)
    (h : EndsAtFirst separator quote part) :
    (part ++ separator).foldl quoteAfter quote = none := by
  rw [List.foldl_append, h.foldl_quoteAfter]
  exact openQuote?_of_not_isQuote hPlain

/- A part in front of those of what follows its separator. -/
theorem IsSplit.cons
    {rest : List Char}
    {parts : List (List Char)}
    (hSome : separator ≠ [])
    (hPlain : ∀ c ∈ separator, isQuote c = false)
    (hPart : EndsAtFirst separator none part)
    (h : IsSplit separator rest parts) :
    IsSplit separator (part ++ separator ++ rest)
      (part :: parts) where
  ne_nil := List.cons_ne_nil _ _
  join_eq := by
    rw [List.intercalate_cons_of_ne_nil h.ne_nil, h.join_eq]
  apart :=
    List.forall_mem_cons.mpr
      ⟨hPart.not_standsBehind hSome, h.apart⟩
  outside := by
    intro front back hFront hBack hParts
    cases front with
    | nil => exact absurd rfl hFront
    | cons first front =>
        rcases List.cons_eq_cons.mp hParts with ⟨rfl, hRest⟩
        by_cases hOne : front = []
        · rw [hOne, List.intercalate_singleton]
          exact ((hPart part).mpr rfl).append rest
        · rw [List.intercalate_cons_of_ne_nil hOne,
            standsBehind_append_iff
              (hPart.foldl_append_separator hPlain)]
          exact h.outside front back hOne hBack hRest
  first := by
    rw [List.dropLast_cons_of_ne_nil h.ne_nil]
    exact List.forall_mem_cons.mpr ⟨hPart, h.first⟩

/- The other way round, the later parts are those of the rest. -/
theorem IsSplit.exists_rest
    {next : List Char}
    {parts : List (List Char)}
    (hPlain : ∀ c ∈ separator, isQuote c = false)
    (h : IsSplit separator cs (part :: next :: parts)) :
    EndsAtFirst separator none part ∧
      ∃ rest,
        cs = part ++ separator ++ rest ∧
          IsSplit separator rest (next :: parts) := by
  have hSome : next :: parts ≠ [] := List.cons_ne_nil _ _
  have hFirst := h.first
  rw [List.dropLast_cons_of_ne_nil hSome,
    List.forall_mem_cons] at hFirst
  rcases hFirst with ⟨hPart, hLater⟩
  have hJoin := h.join_eq
  rw [List.intercalate_cons_of_ne_nil hSome] at hJoin
  refine ⟨hPart, _, hJoin.symm, hSome, rfl,
    (List.forall_mem_cons.mp h.apart).2, ?_, hLater⟩
  intro front back hFront hBack hParts
  have hOutside := h.outside (part :: front) back
    (List.cons_ne_nil _ _) hBack (congrArg (part :: ·) hParts)
  rwa [← hJoin, List.intercalate_cons_of_ne_nil hFront,
    standsBehind_append_iff
      (hPart.foldl_append_separator hPlain)] at hOutside

/- A text is split into its parts. -/
theorem isSplit_splitOutsideQuotes
    (hSome : separator ≠ [])
    (hPlain : ∀ c ∈ separator, isQuote c = false)
    (cs : List Char) :
    IsSplit separator cs (splitOutsideQuotes separator cs) := by
  unfold splitOutsideQuotes
  -- the rest behind a separator is shorter than the text
  induction hLength : cs.length using Nat.strong_induction_on
    generalizing cs with
  | _ length ih =>
      rcases exists_endsAtFirst hSome none cs with
        hNone | ⟨part, rest, rfl, hFirst⟩
      · rw [splitFrom_of_not_standsBehind hNone]
        exact isSplit_singleton hNone
      · have hShort : rest.length < length := by
          have hPositive := List.length_pos_iff.mpr hSome
          rw [← hLength, List.length_append,
            List.length_append]
          omega
        rw [splitFrom_of_endsAtFirst hSome hPlain hFirst]
        exact (ih rest.length hShort rest rfl).cons hSome hPlain
          hFirst

/- It is split into no other ones. -/
theorem IsSplit.splitOutsideQuotes_eq
    {parts : List (List Char)}
    (hSome : separator ≠ [])
    (hPlain : ∀ c ∈ separator, isQuote c = false)
    (h : IsSplit separator cs parts) :
    splitOutsideQuotes separator cs = parts := by
  unfold splitOutsideQuotes
  induction parts generalizing cs with
  | nil => exact absurd rfl h.ne_nil
  | cons part parts ih =>
      cases parts with
      | nil =>
          have hJoin := h.join_eq
          rw [List.intercalate_singleton] at hJoin
          rw [← hJoin]
          exact splitFrom_of_not_standsBehind
            (h.apart part List.mem_cons_self)
      | cons next parts =>
          rcases h.exists_rest hPlain with
            ⟨hPart, rest, rfl, hRest⟩
          rw [splitFrom_of_endsAtFirst hSome hPlain hPart,
            ih hRest]

/-
  At a separator that holds no quotes a text is split into
  exactly the parts that lose nothing of it and have no
  separator left in them, each cut where no quote is open.
-/
theorem splitOutsideQuotes_eq_iff
    {parts : List (List Char)}
    (hSome : separator ≠ [])
    (hPlain : ∀ c ∈ separator, isQuote c = false) :
    splitOutsideQuotes separator cs = parts ↔
      IsSplit separator cs parts := by
  constructor
  · rintro rfl
    exact isSplit_splitOutsideQuotes hSome hPlain cs
  · exact IsSplit.splitOutsideQuotes_eq hSome hPlain

/-
  A third bar goes to the next part, bars and slashes in quotes
  are passed over, and so is all that follows an apostrophe.
-/
theorem splitOutsideQuotes_eq_three_bars :
    let text := "rage|||race == 'A||B'/Hunter's Mark/sworn"
    let bars := ['|', '|']
    let slash := ['/']
    (bars ≠ [] ∧ (∀ c ∈ bars, isQuote c = false) ∧
        IsSplit bars text.toList
          ["rage".toList,
            "|race == 'A||B'/Hunter's Mark/sworn".toList]) ∧
      slash ≠ [] ∧ (∀ c ∈ slash, isQuote c = false) ∧
        IsSplit slash text.toList
          ["rage|||race == 'A||B'".toList,
            "Hunter's Mark/sworn".toList] := by
  intro text bars slash
  have hBars : bars ≠ [] := List.cons_ne_nil _ _
  have hSlash : slash ≠ [] := List.cons_ne_nil _ _
  have hPlainBars : ∀ c ∈ bars, isQuote c = false := by
    simp [bars, isQuote]
  have hPlainSlash : ∀ c ∈ slash, isQuote c = false := by
    simp [slash, isQuote]
  exact ⟨⟨hBars, hPlainBars,
      (splitOutsideQuotes_eq_iff hBars hPlainBars).mp
        (by decide +kernel)⟩,
    hSlash, hPlainSlash,
    (splitOutsideQuotes_eq_iff hSlash hPlainSlash).mp
      (by decide +kernel)⟩

end Text

end CharSheet
