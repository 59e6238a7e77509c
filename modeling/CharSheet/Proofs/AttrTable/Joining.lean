import CharSheet.Proofs.AttrTable.RoundTrip
import CharSheet.Proofs.Text.Stops

/-
  Attribute texts that are written one behind the other.

  A blank ends whatever is read before it, except an open
  quote.  So the pieces of two texts with a blank between them
  are the pieces of the first one and those of the second.
  Their tables are joined key by key, and a part of a text
  that cannot be read takes no other part with it.

  Main declarations:
    * `AttrTable.appendAll`
    * `AttrTable.IsWithoutOpenQuote`
    * `AttrTable.pieces_append_blank`
    * `AttrTable.addPieces_eq_appendAll`
    * `AttrTable.ofTextLossy_append_blank`
-/

namespace CharSheet

namespace AttrTable

------------------------------------------------------------
-- Reading up to a Blank
------------------------------------------------------------

section Blank

variable {cs after : List Char}
variable (ds : List Char)

/- A quoted value that is closed ends where it did. -/
theorem readQuoted?_append
    {s : List Char}
    (h : readQuoted? cs = some (s, after)) :
    readQuoted? (cs ++ ds) = some (s, after ++ ds) := by
  fun_induction readQuoted? cs generalizing s after with
  | case1 => cases h
  | case2 rest =>
      cases h
      rfl
  | case3 rest ih =>
      rcases Option.map_eq_some_iff.mp h with
        ⟨⟨s', after'⟩, hRest, hEq⟩
      cases hEq
      simp [readQuoted?, ih hRest]
  | case4 c rest hQuote hEscape ih =>
      rcases Option.map_eq_some_iff.mp h with
        ⟨⟨s', after'⟩, hRest, hEq⟩
      cases hEq
      have hHead : c = '\\' → (rest ++ ds).head? ≠ some '"' := by
        intro hc
        cases rest with
        | nil => cases hRest
        | cons d tail =>
            rintro ⟨⟩
            exact hEscape tail hc rfl
      rw [List.cons_append, readQuoted?_cons hQuote hHead,
        ih hRest]
      rfl

/- A value that does not begin with a quote is a bare one. -/
theorem readValue?_cons
    {c : Char}
    (hQuote : c ≠ '"')
    (rest : List Char) :
    readValue? (c :: rest) =
      some (String.ofList ((c :: rest).takeWhile inBareValue),
        (c :: rest).dropWhile inBareValue) := by
  unfold readValue?
  split
  · next hEq =>
      cases hEq
      exact absurd rfl hQuote
  · rfl

/- A value ends at a blank, if it has an end at all. -/
theorem readValue?_append_blank
    {value : String}
    (h : readValue? cs = some (value, after)) :
    readValue? (cs ++ ' ' :: ds) =
      some (value, after ++ ' ' :: ds) := by
  have hStop : inBareValue ' ' = false := rfl
  unfold readValue? at h
  split at h
  · next rest =>
      rcases Option.map_eq_some_iff.mp h with
        ⟨⟨s, after'⟩, hRest, hEq⟩
      cases hEq
      rw [List.cons_append, readValue?,
        readQuoted?_append _ hRest]
      rfl
  · next hBare =>
      cases h
      cases cs with
      | nil =>
          rw [List.nil_append, readValue?_cons (by decide)]
          simp [hStop]
      | cons c rest =>
          have hQuote : c ≠ '"' := by
            rintro rfl
            exact hBare rest rfl
          rw [List.cons_append, readValue?_cons hQuote,
            ← List.cons_append,
            Text.takeWhile_append_stop _ _ hStop,
            Text.dropWhile_append_stop _ _ hStop]

/- So does a list of values. -/
theorem readValues?_append_blank
    {values : List String}
    (h : readValues? cs = some (values, after)) :
    readValues? (cs ++ ' ' :: ds) =
      some (values, after ++ ' ' :: ds) := by
  fun_induction readValues? cs generalizing values after with
  | case1 => cases h
  | case2 cs value rest hValue hShorter ih =>
      rcases Option.map_eq_some_iff.mp h with
        ⟨⟨others, after'⟩, hRest, hEq⟩
      cases hEq
      have hFirst := readValue?_append_blank ds hValue
      rw [List.cons_append] at hFirst
      rw [readValues?_of_comma hFirst, ih hRest]
      rfl
  | case3 cs value after' hLast hValue =>
      cases h
      apply readValues?_of_last
        (readValue?_append_blank ds hValue)
      cases after' with
      | nil => simp
      | cons c rest =>
          rintro ⟨⟩
          exact hLast rest rfl

/- A pair ends there, unless its quote is left open. -/
theorem readPair_append_blank
    {key : List Char}
    (h : ∀ k, (readPair key cs).1 ≠
      .error (.unterminatedQuote k)) :
    readPair key (cs ++ ' ' :: ds) =
      ((readPair key cs).1,
        (readPair key cs).2 ++ ' ' :: ds) := by
  unfold readPair at h ⊢
  cases hValues : readValues? cs with
  | none =>
      rw [hValues] at h
      exact absurd rfl (h (String.ofList key))
  | some result =>
      rw [readValues?_append_blank ds hValues]

/- So does every other piece. -/
theorem readPiece_append_blank
    {c : Char}
    (h : ∀ k, (readPiece c cs).1 ≠
      .error (.unterminatedQuote k)) :
    readPiece c (cs ++ ' ' :: ds) =
      ((readPiece c cs).1,
        (readPiece c cs).2 ++ ' ' :: ds) := by
  have hStop : inKey ' ' = false := rfl
  unfold readPiece at h ⊢
  rw [Text.takeWhile_append_stop _ _ hStop,
    Text.dropWhile_append_stop _ _ hStop]
  by_cases hEquals : c = '='
  · simp only [if_pos hEquals] at h ⊢
    exact readPair_append_blank ds h
  · simp only [if_neg hEquals] at h ⊢
    cases hRest : cs.dropWhile inKey with
    | nil => rfl
    | cons d values =>
        by_cases hd : d = '='
        · subst hd
          rw [hRest] at h
          exact readPair_append_blank ds h
        · simp [hd]

/-
  The pieces before a blank are those of the text before it,
  and those behind it are those of the text behind it.
-/
theorem pieces_append_blank
    (h : ∀ key, .error (.unterminatedQuote key) ∉ pieces cs) :
    pieces (cs ++ ' ' :: ds) = pieces cs ++ pieces ds := by
  fun_induction pieces cs with
  | case1 => exact pieces_blank ds
  | case2 c rest hBlank ih =>
      rw [List.cons_append, pieces, if_pos hBlank]
      exact ih h
  | case3 c rest hBlank hShorter ih =>
      have hFirst (k : String) :
          (readPiece c rest).1 ≠
            .error (.unterminatedQuote k) :=
        fun hEq => h k (hEq ▸ List.mem_cons_self)
      have hOthers (k : String) :=
        fun hIn => h k (List.mem_cons_of_mem _ hIn)
      rw [List.cons_append, pieces, if_neg hBlank,
        readPiece_append_blank ds hFirst, ih hOthers]
      rfl

end Blank

------------------------------------------------------------
-- Joining Tables
------------------------------------------------------------

section Tables

variable {t u : AttrTable}
variable {key other : String}
variable {entries : List (String × List String)}

/- A key that values are appended to is there. -/
theorem contains_append_self (values : List String) :
    (t.append key values).contains key = true := by
  by_cases h : t.contains key = true
  · rw [contains_iff, append, map_fst_update_of_contains h]
    exact contains_iff.mp h
  · rw [append_of_notMem (mt contains_iff.mpr h)]
    simp [contains]

/- A key that is there stays. -/
theorem contains_append
    (hKey : t.contains key = true)
    (values : List String) :
    (t.append other values).contains key = true := by
  by_cases h : t.contains other = true
  · rw [contains_iff, append, map_fst_update_of_contains h]
    exact contains_iff.mp hKey
  · rw [append_of_notMem (mt contains_iff.mpr h), contains,
      List.any_append]
    exact Bool.or_eq_true_iff.mpr (Or.inl hKey)

/- The values of a key that is there are extended. -/
theorem append_of_contains
    (h : t.contains key = true)
    (values : List String) :
    t.append key values =
      ⟨t.entries.map fun e =>
        if e.1 = key then (e.1, e.2 ++ values) else e⟩ := by
  rw [append, update, if_pos h]

/- Without the key, no entry is extended. -/
theorem map_of_notMem
    (h : key ∉ entries.map (·.1))
    (values : List String) :
    (entries.map fun e =>
      if e.1 = key then (e.1, e.2 ++ values) else e) =
        entries := by
  refine (List.map_congr_left ?_).trans (List.map_id entries)
  intro e he
  have hOther : e.1 ≠ key := by
    rintro rfl
    exact h (List.mem_map_of_mem he)
  exact if_neg hOther

/- Values that are appended to one key are put together. -/
theorem append_append (values more : List String) :
    (t.append key values).append key more =
      t.append key (values ++ more) := by
  rw [append_of_contains (contains_append_self values)]
  by_cases h : t.contains key = true
  · rw [append_of_contains h, append_of_contains h,
      List.map_map]
    congr 1
    apply List.map_congr_left
    intro e _
    by_cases he : e.1 = key
    · simp [he]
    · simp [he]
  · have hNew := mt contains_iff.mpr h
    rw [append_of_notMem hNew, append_of_notMem hNew,
      List.map_append, map_of_notMem hNew]
    simp

/- A key that is there is extended before or after others. -/
theorem append_comm
    (hKey : t.contains key = true)
    (hOther : other ≠ key)
    (values more : List String) :
    (t.append other more).append key values =
      (t.append key values).append other more := by
  rw [append_of_contains (contains_append hKey more)]
  by_cases h : t.contains other = true
  · rw [append_of_contains (contains_append h values),
      append_of_contains h, append_of_contains hKey,
      List.map_map, List.map_map]
    congr 1
    apply List.map_congr_left
    intro e _
    by_cases he : e.1 = other
    · simp [he, hOther]
    · by_cases hk : e.1 = key
      · simp [hk, hOther.symm]
      · simp [he, hk]
  · have hNew := mt contains_iff.mpr h
    have hStill :
        other ∉ (t.append key values).entries.map (·.1) := by
      rw [append, map_fst_update_of_contains hKey]
      exact hNew
    rw [append_of_notMem hNew, append_of_notMem hStill,
      append_of_contains hKey]
    simp [hOther]

/- Entries that are appended one after another. -/
def appendAll
    (t : AttrTable)
    (entries : List (String × List String)) : AttrTable :=
  entries.foldl (fun t e => t.append e.1 e.2) t

/- A key that is there is extended before or after them. -/
theorem appendAll_append_comm
    (hKey : t.contains key = true)
    (hNot : key ∉ entries.map (·.1))
    (values : List String) :
    (t.appendAll entries).append key values =
      (t.append key values).appendAll entries := by
  induction entries generalizing t with
  | nil => rfl
  | cons e entries ih =>
      rw [List.map_cons, List.mem_cons, not_or] at hNot
      have hStep := append_comm hKey (Ne.symm hNot.1) values e.2
      exact (ih (contains_append hKey e.2) hNot.2).trans
        (congrArg (·.appendAll entries) hStep)

/- An entry is appended after a part and before the rest. -/
theorem appendAll_append_cons
    (t : AttrTable)
    (before after : List (String × List String))
    (e : String × List String) :
    t.appendAll (before ++ e :: after) =
      ((t.appendAll before).append e.1 e.2).appendAll after :=
  List.foldl_append

/-
  Values that are appended after all entries of a table may as
  well be appended to that table first.
-/
theorem appendAll_append
    (t : AttrTable)
    (hDistinct : (u.entries.map (·.1)).Nodup)
    (values : List String) :
    (t.appendAll u.entries).append key values =
      t.appendAll (u.append key values).entries := by
  by_cases h : key ∈ u.entries.map (·.1)
  · rcases List.mem_map.mp h with ⟨⟨k, old⟩, hIn, rfl⟩
    rcases List.append_of_mem hIn with ⟨before, after, hSplit⟩
    rw [hSplit, List.map_append, List.map_cons,
      List.nodup_middle, List.nodup_cons, List.mem_append,
      not_or] at hDistinct
    rcases hDistinct with ⟨⟨hBefore, hAfter⟩, _⟩
    rw [append_of_contains (contains_iff.mpr h), hSplit]
    simp only [List.map_append, List.map_cons, if_true]
    rw [map_of_notMem hBefore, map_of_notMem hAfter,
      appendAll_append_cons, appendAll_append_cons,
      appendAll_append_comm (contains_append_self old) hAfter,
      append_append]
  · rw [append_of_notMem h]
    simp [appendAll]

/- Pieces are appended behind the entries of a table. -/
theorem appendAll_addPieces
    (t : AttrTable)
    (hu : u.IsWellFormed)
    {ps : List Piece}
    (hPieces : ∀ piece ∈ ps, piece.IsWellFormed) :
    (t.appendAll u.entries).addPieces ps =
      t.appendAll (u.addPieces ps).entries := by
  induction ps generalizing u with
  | nil => rfl
  | cons piece ps ih =>
      rcases List.forall_mem_cons.mp hPieces with
        ⟨hFirst, hRest⟩
      cases piece with
      | error fault => exact ih hu hRest
      | ok pair =>
          rw [addPieces, addPieces,
            appendAll_append t hu.distinct]
          exact ih (hu.append hFirst.1 hFirst.2) hRest

/- A text is added as the entries of its own table. -/
theorem addPieces_eq_appendAll
    (t : AttrTable)
    (cs : List Char) :
    t.addPieces (pieces cs) =
      t.appendAll (empty.addPieces (pieces cs)).entries :=
  appendAll_addPieces t isWellFormed_empty
    isWellFormed_of_mem_pieces

/- Pieces in two parts are added one part after the other. -/
theorem addPieces_append
    (t : AttrTable)
    (ps qs : List Piece) :
    t.addPieces (ps ++ qs) = (t.addPieces ps).addPieces qs := by
  fun_induction addPieces t ps with
  | case1 t => rfl
  | case2 t key values rest ih => exact ih
  | case3 t fault rest ih => exact ih

end Tables

------------------------------------------------------------
-- Texts
------------------------------------------------------------

/- The reason of an error about attributes. -/
def reason? : ContentError → Option AttributeFault
  | .attributes _ fault => some fault
  | _ => none

/- The reasons why parts of a text are left out. -/
def reasons (text : String) : List AttributeFault :=
  (ofTextLossy text).2.filterMap reason?

/- The text is said to have a quote that is not closed. -/
def HasOpenQuote (text : String) : Prop :=
  ∃ key, .unterminatedQuote key ∈ reasons text

theorem reasons_eq (text : String) :
    reasons text = faults (pieces text.toList) := by
  unfold reasons ofTextLossy
  rw [List.filterMap_map]
  exact List.filterMap_some

/- The pieces of a text with a blank in it. -/
theorem pieces_of_append_blank
    {a : String}
    (h : ¬ HasOpenQuote a)
    (b : String) :
    pieces (a ++ " " ++ b).toList =
      pieces a.toList ++ pieces b.toList := by
  have hClosed (key : String) :
      .error (.unterminatedQuote key) ∉ pieces a.toList := by
    intro hIn
    refine h ⟨key, ?_⟩
    rw [reasons_eq]
    exact List.mem_filterMap.mpr ⟨_, hIn, rfl⟩
  rw [String.toList_append, String.toList_append,
    List.append_assoc]
  exact pieces_append_blank b.toList hClosed

theorem reasons_append_blank
    {a : String}
    (h : ¬ HasOpenQuote a)
    (b : String) :
    reasons (a ++ " " ++ b) = reasons a ++ reasons b := by
  rw [reasons_eq, reasons_eq, reasons_eq,
    pieces_of_append_blank h, faults, List.filterMap_append]
  rfl

theorem table_append_blank
    {a : String}
    (h : ¬ HasOpenQuote a)
    (b : String) :
    (ofTextLossy (a ++ " " ++ b)).1 =
      (ofTextLossy a).1.appendAll (ofTextLossy b).1.entries := by
  unfold ofTextLossy
  dsimp only
  rw [pieces_of_append_blank h, addPieces_append,
    addPieces_eq_appendAll]

/-
  Two texts with a blank between them are read one after the
  other, unless the first one has an open quote: the entries of
  the second one are appended to those of the first, and its
  faults are reported after those of the first.  So a text
  without pairs may be written between them, and no other pair
  is lost or changed.
-/
theorem ofTextLossy_append_blank
    {a : String}
    (h : ¬ HasOpenQuote a)
    (b : String) :
    (ofTextLossy (a ++ " " ++ b)).1 =
        (ofTextLossy a).1.appendAll
          (ofTextLossy b).1.entries ∧
      (ofTextLossy (a ++ " " ++ b)).2 =
        (reasons a ++ reasons b).map
          (.attributes (a ++ " " ++ b)) ∧
      ∀ w, (ofTextLossy w).1 = empty → ¬ HasOpenQuote w →
        (ofTextLossy (a ++ " " ++ w ++ " " ++ b)).1 =
          (ofTextLossy (a ++ " " ++ b)).1 := by
  refine ⟨table_append_blank h b, ?_, ?_⟩
  · rw [← reasons_append_blank h, reasons_eq]
    rfl
  · intro w hEmpty hw
    have hBoth : ¬ HasOpenQuote (a ++ " " ++ w) := by
      rintro ⟨key, hIn⟩
      rw [reasons_append_blank h] at hIn
      rcases List.mem_append.mp hIn with hFirst | hSecond
      · exact h ⟨key, hFirst⟩
      · exact hw ⟨key, hSecond⟩
    rw [table_append_blank hBoth, table_append_blank h,
      table_append_blank h, hEmpty]
    rfl

/-
  A text that ends behind a comma, and one that goes on with
  its keys, with a part that has no value in each of them.
-/
theorem ofTextLossy_append_blank_feat :
    let a := "Type=General odd Features=\"a b\","
    let b := "Require=x,y even Type=Feat"
    ¬ HasOpenQuote a ∧
      ofTextLossy (a ++ " " ++ b) =
        (⟨[("Type", ["General", "Feat"]),
            ("Features", ["a b", ""]),
            ("Require", ["x", "y"])]⟩,
          [.attributes (a ++ " " ++ b) (.noValue "odd"),
            .attributes (a ++ " " ++ b) (.noValue "even")]) ∧
      (ofTextLossy (a ++ " " ++ "lost" ++ " " ++ b)).1 =
        (ofTextLossy (a ++ " " ++ b)).1 := by
  intro a b
  have hReasons :
      reasons a = [.noValue "odd"] ∧
        reasons "lost" = [.noValue "lost"] := by
    decide +kernel
  have hClosed : ¬ HasOpenQuote a := by
    rintro ⟨key, hIn⟩
    simp [hReasons.1] at hIn
  have hLost : ¬ HasOpenQuote "lost" := by
    rintro ⟨key, hIn⟩
    simp [hReasons.2] at hIn
  rcases ofTextLossy_append_blank hClosed b with
    ⟨hTable, hErrors, hBetween⟩
  refine ⟨hClosed, Prod.ext ?_ ?_,
    hBetween "lost" (by decide +kernel) hLost⟩
  · exact hTable.trans (by decide +kernel)
  · exact hErrors.trans (by decide +kernel)

end AttrTable

end CharSheet
