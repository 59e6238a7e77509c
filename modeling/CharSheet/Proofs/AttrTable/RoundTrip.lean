import CharSheet.Proofs.AttrTable.Edited
import Mathlib.Data.List.Infix

/-
  Texts of tables, read back.

  A table is read back from its text as it is, except where a
  value in quotes ends with a backslash.  With the closing
  quote this spells an escaped quote, so the value goes on
  behind it, or is never closed.

  Main declarations:
    * `AttrTable.IsClosed`
    * `AttrTable.readQuoted?_escaped`
    * `AttrTable.readValues?_display`
    * `AttrTable.pieces_display`
    * `AttrTable.ofText_display_iff`
-/

namespace CharSheet

namespace AttrTable

------------------------------------------------------------
-- Quoted Values
------------------------------------------------------------

/- The characters of a value between its quotes. -/
def escaped (cs : List Char) : List Char :=
  cs.flatMap fun c => if c = '"' then ['\\', '"'] else [c]

/- No quote is meant unless it is escaped. -/
theorem readQuoted?_cons
    {c : Char}
    {rest : List Char}
    (hQuote : c ≠ '"')
    (hEscape : c = '\\' → rest.head? ≠ some '"') :
    readQuoted? (c :: rest) =
      (readQuoted? rest).map fun (s, after) =>
        (c :: s, after) := by
  rw [readQuoted?.eq_def]
  split
  · next h => cases h
  · next h =>
      cases h
      exact absurd rfl hQuote
  · next h =>
      cases h
      exact absurd rfl (hEscape rfl)
  · next h =>
      cases h
      rfl

/- Characters behind one that is there begin with no quote. -/
theorem head?_escaped_cons
    (c : Char)
    (cs rest : List Char) :
    (escaped (c :: cs) ++ rest).head? ≠ some '"' := by
  rw [escaped, List.flatMap_cons]
  split
  · simp
  · next h => simpa using h

/-
  A quoted value is read up to its closing quote, unless that
  follows a backslash and is taken for an escaped one.
-/
theorem readQuoted?_escaped
    (cs rest : List Char) :
    readQuoted? (escaped cs ++ '"' :: rest) =
      if cs.getLast? = some '\\' then
        (readQuoted? rest).map fun (s, after) =>
          (cs.dropLast ++ '"' :: s, after)
      else some (cs, rest) := by
  induction cs with
  | nil => rfl
  | cons c cs ih =>
      by_cases hQuote : c = '"'
      · subst hQuote
        have hStep :
            readQuoted? (escaped ('"' :: cs) ++ '"' :: rest) =
              (readQuoted? (escaped cs ++ '"' :: rest)).map
                fun (s, after) => ('"' :: s, after) := rfl
        rw [hStep, ih]
        cases cs with
        | nil => rfl
        | cons d cs =>
            rw [List.getLast?_cons_cons]
            split
            · rw [Option.map_map]
              rfl
            · rfl
      · have hText :
            escaped (c :: cs) ++ '"' :: rest =
              c :: (escaped cs ++ '"' :: rest) := by
          simp [escaped, hQuote]
        rw [hText]
        cases cs with
        | nil =>
            by_cases hEscape : c = '\\'
            · subst hEscape
              rfl
            · rw [readQuoted?_cons hQuote fun h =>
                absurd h hEscape]
              simp [escaped, readQuoted?, hEscape]
        | cons d cs =>
            rw [readQuoted?_cons hQuote fun _ =>
              head?_escaped_cons d cs _, ih,
              List.getLast?_cons_cons]
            split
            · rw [Option.map_map]
              rfl
            · rfl

------------------------------------------------------------
-- Values
------------------------------------------------------------

/-
  The closing quote of the value, if it has one, does not
  follow a backslash.
-/
def IsClosed (value : String) : Prop :=
  needsQuotes value.toList = true →
    value.toList.getLast? ≠ some '\\'

instance (value : String) : Decidable (IsClosed value) :=
  inferInstanceAs (Decidable (needsQuotes value.toList = true →
    value.toList.getLast? ≠ some '\\'))

/- What follows a value does not go on with it. -/
def Stops (rest : List Char) : Prop :=
  ∀ c ∈ rest.head?, inBareValue c = false

theorem stops_comma (rest : List Char) : Stops (',' :: rest) := by
  intro c hc
  rw [List.head?_cons, Option.mem_some_iff] at hc
  subst hc
  rfl

/- A bare value is not empty, and all of it is read. -/
theorem readValue?_of_not_needsQuotes
    {value : String}
    {rest : List Char}
    (h : needsQuotes value.toList = false)
    (hRest : Stops rest) :
    readValue? (value.toList ++ rest) = some (value, rest) := by
  have hBare : ∀ c ∈ value.toList,
      inBareValue c = true ∧ c ≠ '"' := by
    intro c hIn
    simp only [needsQuotes, Bool.or_eq_false_iff,
      List.any_eq_false] at h
    have hChar := h.2 c hIn
    simp only [Bool.or_eq_true, decide_eq_true_eq,
      not_or] at hChar
    simp [inBareValue, hChar]
  have hIn : ∀ c ∈ value.toList, inBareValue c = true :=
    fun c hc => (hBare c hc).1
  have hTake : rest.takeWhile inBareValue = [] ∧
      rest.dropWhile inBareValue = rest := by
    cases rest with
    | nil => exact ⟨rfl, rfl⟩
    | cons d rest =>
        have hStop := hRest d rfl
        simp [hStop]
  unfold readValue?
  split
  · next tail hQuote =>
      cases hValue : value.toList with
      | nil =>
          rw [hValue] at h
          cases h
      | cons c cs =>
          rw [hValue, List.cons_append] at hQuote
          have hNot := (hBare c (by simp [hValue])).2
          exact absurd (List.cons.inj hQuote).1 hNot
  · rw [List.takeWhile_append_of_pos hIn,
      List.dropWhile_append_of_pos hIn, hTake.1, hTake.2,
      List.append_nil, String.ofList_toList]

theorem displayValue_of_needsQuotes
    {value : String}
    (h : needsQuotes value.toList = true)
    (rest : List Char) :
    displayValue value ++ rest =
      '"' :: (escaped value.toList ++ '"' :: rest) := by
  simp [displayValue, h, escaped]

theorem displayValue_of_not_needsQuotes
    {value : String}
    (h : needsQuotes value.toList = false) :
    displayValue value = value.toList := by
  simp [displayValue, h]

/- A closed value is read back. -/
theorem readValue?_display
    {value : String}
    {rest : List Char}
    (h : IsClosed value)
    (hRest : Stops rest) :
    readValue? (displayValue value ++ rest) =
      some (value, rest) := by
  cases hQuotes : needsQuotes value.toList with
  | false =>
      rw [displayValue_of_not_needsQuotes hQuotes]
      exact readValue?_of_not_needsQuotes hQuotes hRest
  | true =>
      rw [displayValue_of_needsQuotes hQuotes]
      simp only [readValue?]
      rw [readQuoted?_escaped, if_neg (h hQuotes)]
      simp

/- A value that is not closed is not read back. -/
theorem ne_of_readValue?_display
    {value other : String}
    {rest after : List Char}
    (h : ¬ IsClosed value)
    (hRead :
      readValue? (displayValue value ++ rest) =
        some (other, after)) :
    other ≠ value := by
  simp only [IsClosed, Classical.not_imp, not_not] at h
  rw [displayValue_of_needsQuotes h.1] at hRead
  simp only [readValue?] at hRead
  rw [readQuoted?_escaped, if_pos h.2, Option.map_map] at hRead
  rcases Option.map_eq_some_iff.mp hRead with
    ⟨⟨s, tail⟩, _, hOther⟩
  rintro rfl
  -- Its last backslash was read as a quote.
  have hChars := congrArg (·.1.toList) hOther
  simp only [Function.comp_apply, String.toList_ofList] at hChars
  have hLast :=
    List.dropLast_append_getLast? '\\' (Option.mem_def.mpr h.2)
  rw [← hLast, List.dropLast_concat] at hChars
  have hHeads := List.append_cancel_left hChars
  exact absurd (List.cons.inj hHeads).1 (by decide)

------------------------------------------------------------
-- Lists of Values
------------------------------------------------------------

theorem readValues?_of_comma
    {cs rest : List Char}
    {value : String}
    (h : readValue? cs = some (value, ',' :: rest)) :
    readValues? cs =
      (readValues? rest).map fun (values, after) =>
        (value :: values, after) := by
  rw [readValues?.eq_def]
  split
  · next hNone =>
      rw [h] at hNone
      cases hNone
  · next hSome =>
      rw [h] at hSome
      cases hSome
      rfl
  · next hOther hSome =>
      rw [h] at hSome
      cases hSome
      exact absurd rfl (hOther rest)

theorem readValues?_of_last
    {cs after : List Char}
    {value : String}
    (h : readValue? cs = some (value, after))
    (hLast : after.head? ≠ some ',') :
    readValues? cs = some ([value], after) := by
  rw [readValues?.eq_def]
  split
  · next hNone =>
      rw [h] at hNone
      cases hNone
  · next hSome =>
      rw [h] at hSome
      cases hSome
      exact absurd rfl hLast
  · next hSome =>
      rw [h] at hSome
      cases hSome
      rfl

/- The first value that is read is the first of all values. -/
theorem exists_of_readValues?
    {cs after : List Char}
    {values : List String}
    (h : readValues? cs = some (values, after)) :
    ∃ value rest others,
      readValue? cs = some (value, rest) ∧
        values = value :: others := by
  rw [readValues?.eq_def] at h
  split at h
  · cases h
  · next hFirst =>
      rcases Option.map_eq_some_iff.mp h with ⟨_, _, hEq⟩
      cases hEq
      exact ⟨_, _, _, hFirst, rfl⟩
  · next hFirst =>
      cases h
      exact ⟨_, _, _, hFirst, rfl⟩

/- The texts of values, with commas between them. -/
def displayValues (values : List String) : List Char :=
  [','].intercalate (values.map displayValue)

@[simp] theorem displayValues_singleton (value : String) :
    displayValues [value] = displayValue value := by
  simp [displayValues]

theorem displayValues_cons_cons
    (value next : String)
    (values : List String) :
    displayValues (value :: next :: values) =
      displayValue value ++
        ',' :: displayValues (next :: values) := by
  simp [displayValues, List.intercalate_cons_cons]

/- The text of the first value comes first. -/
theorem exists_displayValues_cons
    (value : String)
    (values : List String)
    (rest : List Char) :
    ∃ rest',
      displayValues (value :: values) ++ rest =
        displayValue value ++ rest' := by
  cases values with
  | nil =>
      rw [displayValues_singleton]
      exact ⟨rest, rfl⟩
  | cons next values =>
      rw [displayValues_cons_cons, List.append_assoc]
      exact ⟨_, rfl⟩

/- What follows the values of a key, if anything, is a blank. -/
def EndsEntry (rest : List Char) : Prop :=
  ∀ c ∈ rest.head?, c = ' '

theorem EndsEntry.stops
    {rest : List Char}
    (h : EndsEntry rest) :
    Stops rest := by
  intro c hc
  rw [h c hc]
  decide

theorem EndsEntry.head?_ne
    {rest : List Char}
    (h : EndsEntry rest) :
    rest.head? ≠ some ',' := by
  intro hComma
  exact absurd (h ',' hComma) (by decide)

/-
  A list of values is read back where all of them are closed.
-/
theorem readValues?_display
    {values : List String}
    {rest : List Char}
    (hSome : values ≠ [])
    (hClosed : ∀ value ∈ values, IsClosed value)
    (hRest : EndsEntry rest) :
    readValues? (displayValues values ++ rest) =
      some (values, rest) := by
  induction values with
  | nil => exact absurd rfl hSome
  | cons value values ih =>
      rcases List.forall_mem_cons.mp hClosed with
        ⟨hFirst, hOthers⟩
      cases values with
      | nil =>
          have hRead := readValue?_display hFirst hRest.stops
          rw [displayValues_singleton]
          exact readValues?_of_last hRead hRest.head?_ne
      | cons next values =>
          rw [displayValues_cons_cons, List.append_assoc,
            List.cons_append]
          have hRead := readValue?_display hFirst
            (stops_comma (displayValues (next :: values) ++ rest))
          rw [readValues?_of_comma hRead,
            ih (List.cons_ne_nil _ _) hOthers]
          rfl

/-
  If some of them is not closed, what is read is not even the
  beginning of them.
-/
theorem not_prefix_of_readValues?_display
    {values others : List String}
    {rest after : List Char}
    (hOpen : ¬ ∀ value ∈ values, IsClosed value)
    (hRead :
      readValues? (displayValues values ++ rest) =
        some (others, after)) :
    ¬ others <+: values := by
  induction values generalizing others with
  | nil => exact absurd (List.forall_mem_nil _) hOpen
  | cons value values ih =>
      intro hPrefix
      by_cases hFirst : IsClosed value
      · cases values with
        | nil => simp [hFirst] at hOpen
        | cons next values =>
            rw [displayValues_cons_cons, List.append_assoc,
              List.cons_append] at hRead
            have hValue := readValue?_display hFirst
              (stops_comma
                (displayValues (next :: values) ++ rest))
            rw [readValues?_of_comma hValue] at hRead
            rcases Option.map_eq_some_iff.mp hRead with
              ⟨⟨later, after'⟩, hLater, hEq⟩
            cases hEq
            have hOpen' :
                ¬ ∀ value ∈ next :: values, IsClosed value :=
              fun hAll => hOpen
                (List.forall_mem_cons.mpr ⟨hFirst, hAll⟩)
            exact ih hOpen' hLater
              (List.cons_prefix_cons.mp hPrefix).2
      · rcases exists_of_readValues? hRead with
          ⟨other, tail, later, hValue, rfl⟩
        rcases exists_displayValues_cons value values rest with
          ⟨rest', hText⟩
        rw [hText] at hValue
        exact ne_of_readValue?_display hFirst hValue
          (List.cons_prefix_cons.mp hPrefix).1

------------------------------------------------------------
-- Entries
------------------------------------------------------------

/- The texts of entries, with blanks between them. -/
def displayEntries
    (entries : List (String × List String)) : List Char :=
  [' '].intercalate (entries.map displayEntry)

/- A key is read up to the equals sign. -/
theorem pieces_key
    {key : String}
    (hKey : IsKey key)
    (cs : List Char) :
    pieces (key.toList ++ '=' :: cs) =
      (readPair key.toList cs).1 ::
        pieces (readPair key.toList cs).2 := by
  have hKey' : ∀ c ∈ key.toList, inKey c = true := hKey
  cases hChars : key.toList with
  | nil =>
      rw [List.nil_append, pieces, if_neg (by decide)]
      rfl
  | cons c rest =>
      rw [hChars] at hKey'
      rcases List.forall_mem_cons.mp hKey' with
        ⟨hFirst, hOthers⟩
      simp only [inKey, Bool.and_eq_true, decide_eq_true_eq,
        Bool.not_eq_true'] at hFirst
      have hPiece :
          readPiece c (rest ++ '=' :: cs) =
            readPair (c :: rest) cs := by
        have hStop : inKey '=' = false := rfl
        unfold readPiece
        rw [if_neg hFirst.1,
          List.takeWhile_append_of_pos hOthers,
          List.dropWhile_append_of_pos hOthers]
        simp [hStop]
      rw [List.cons_append, pieces, if_neg (by simp [hFirst.2]),
        hPiece]

theorem pieces_blank (cs : List Char) :
    pieces (' ' :: cs) = pieces cs := by
  rw [pieces, if_pos (by decide)]

/- What follows the text of an entry. -/
def displayRest
    (entries : List (String × List String)) : List Char :=
  match entries with
  | [] => []
  | entries => ' ' :: displayEntries entries

theorem displayEntries_cons
    (entry : String × List String)
    (entries : List (String × List String)) :
    displayEntries (entry :: entries) =
      entry.1.toList ++
        '=' :: (displayValues entry.2 ++ displayRest entries) :=
    by
  cases entries with
  | nil => simp [displayEntries, displayRest, displayEntry,
      displayValues]
  | cons next entries =>
      simp [displayEntries, displayRest, displayEntry,
        displayValues, List.intercalate_cons_cons]

theorem endsEntry_displayRest
    (entries : List (String × List String)) :
    EndsEntry (displayRest entries) := by
  cases entries with
  | nil => exact nofun
  | cons entry entries =>
      intro c hc
      exact (Option.mem_some_iff.mp hc).symm

theorem pieces_displayRest
    (entries : List (String × List String)) :
    pieces (displayRest entries) =
      pieces (displayEntries entries) := by
  cases entries with
  | nil => rfl
  | cons entry entries => exact pieces_blank _

/- All values in a list of entries are closed. -/
def AreClosed (entries : List (String × List String)) : Prop :=
  ∀ entry ∈ entries, ∀ value ∈ entry.2, IsClosed value

instance (entries : List (String × List String)) :
    Decidable (AreClosed entries) :=
  inferInstanceAs (Decidable
    (∀ entry ∈ entries, ∀ value ∈ entry.2, IsClosed value))

/- Each entry is one piece of the text, if all are closed. -/
theorem pieces_display
    {entries : List (String × List String)}
    (hKeys : ∀ entry ∈ entries, IsKey entry.1)
    (hValues : ∀ entry ∈ entries, entry.2 ≠ [])
    (hClosed : AreClosed entries) :
    pieces (displayEntries entries) = entries.map .ok := by
  induction entries with
  | nil => simp [displayEntries, pieces]
  | cons entry entries ih =>
      rcases List.forall_mem_cons.mp hKeys with ⟨hKey, hKeys⟩
      rcases List.forall_mem_cons.mp hValues with
        ⟨hSome, hValues⟩
      rcases List.forall_mem_cons.mp hClosed with
        ⟨hFirst, hClosed⟩
      have hRead := readValues?_display hSome hFirst
        (endsEntry_displayRest entries)
      rw [displayEntries_cons, pieces_key hKey, readPair]
      simp only [hRead, String.ofList_toList]
      rw [pieces_displayRest, ih hKeys hValues hClosed]
      rfl

------------------------------------------------------------
-- Tables
------------------------------------------------------------

variable {t : AttrTable}
variable {key : String}
variable {values : List String}
variable {entries : List (String × List String)}

/- A new key is added at the end. -/
theorem append_of_notMem
    (h : key ∉ t.entries.map (·.1))
    (values : List String) :
    t.append key values = ⟨t.entries ++ [(key, values)]⟩ := by
  rw [append, update, if_neg (mt contains_iff.mp h),
    List.nil_append]

/- A key that is not repeated is new where it is added. -/
theorem notMem_of_nodup
    (h :
      ((t.entries ++ (key, values) :: entries).map
        (·.1)).Nodup) :
    key ∉ t.entries.map (·.1) := by
  rw [List.map_append, List.map_cons, List.nodup_append] at h
  intro hIn
  exact h.2.2 _ hIn _ List.mem_cons_self rfl

/- Entries of new keys are added as they are. -/
theorem addPieces_map_ok
    (h : ((t.entries ++ entries).map (·.1)).Nodup) :
    t.addPieces (entries.map .ok) = ⟨t.entries ++ entries⟩ := by
  induction entries generalizing t with
  | nil => simp [addPieces]
  | cons entry entries ih =>
      have hAppend :=
        append_of_notMem (notMem_of_nodup h) entry.2
      rw [List.append_cons] at h
      rw [List.map_cons, addPieces, hAppend, ih h,
        List.append_assoc]
      rfl

/- The values of a key. -/
theorem list_eq_of_mem
    (hDistinct : (t.entries.map (·.1)).Nodup)
    (hIn : (key, values) ∈ t.entries) :
    t.list key = values := by
  have hFind :
      t.entries.find? (·.1 = key) = some (key, values) := by
    cases hFound : t.entries.find? (·.1 = key) with
    | none =>
        have hNone := List.find?_eq_none.mp hFound _ hIn
        simp at hNone
    | some entry =>
        have hKey := List.find?_some hFound
        have hSame := List.inj_on_of_nodup_map hDistinct
          (List.mem_of_find?_eq_some hFound) hIn
          (of_decide_eq_true hKey)
        rw [hSame]
  rw [list, hFind]
  rfl

/- A key that is not there has no entry. -/
theorem find?_of_notMem
    (h : key ∉ t.entries.map (·.1)) :
    t.entries.find? (·.1 = key) = none := by
  rw [List.find?_eq_none]
  intro entry hEntry hKey
  exact h (List.mem_map.mpr
    ⟨entry, hEntry, of_decide_eq_true hKey⟩)

/- So it has no values. -/
theorem list_of_notMem
    (h : key ∉ t.entries.map (·.1)) :
    t.list key = [] := by
  rw [list, find?_of_notMem h]
  rfl

/- An update changes the values of its key alone. -/
theorem list_update
    (t : AttrTable)
    (other key : String)
    (f : List String → List String) :
    (t.update other f).list key =
      if key = other then f (t.list key) else t.list key := by
  have hSame :
      ((fun entry : String × List String =>
          decide (entry.1 = key)) ∘
        fun entry : String × List String =>
          if entry.1 = other then (entry.1, f entry.2)
          else (entry.1, entry.2)) =
        fun entry => decide (entry.1 = key) := by
    funext entry
    dsimp only [Function.comp_apply]
    split
    · rfl
    · rfl
  by_cases hContains : t.contains other = true
  · rw [update, if_pos hContains, list, List.find?_map, hSame,
      list]
    cases hFind : t.entries.find? (·.1 = key) with
    | none =>
        have hOther : key ≠ other := by
          rintro rfl
          rcases List.mem_map.mp (contains_iff.mp hContains) with
            ⟨entry, hIn, hKey⟩
          exact List.find?_eq_none.mp hFind entry hIn
            (decide_eq_true hKey)
        rw [if_neg hOther]
        rfl
    | some entry =>
        have hKey : entry.1 = key := by
          simpa using List.find?_some hFind
        rw [← hKey]
        by_cases hOther : entry.1 = other
        · simp [hOther]
        · simp [hOther]
  · have hNew := mt contains_iff.mpr hContains
    rw [update, if_neg hContains, list, List.find?_append,
      List.find?_singleton]
    by_cases hKey : key = other
    · rw [if_pos hKey, hKey, find?_of_notMem hNew,
        list_of_notMem hNew]
      simp
    · rw [if_neg hKey, list]
      simp [Ne.symm hKey]

/- Adding to some key goes on with the values of each one. -/
theorem list_append
    (t : AttrTable)
    (other key : String)
    (values : List String) :
    t.list key <+: (t.append other values).list key := by
  rw [append, list_update]
  split
  · exact List.prefix_append _ _
  · exact List.prefix_rfl

theorem list_addPieces
    (t : AttrTable)
    (ps : List Piece)
    (key : String) :
    t.list key <+: (t.addPieces ps).list key := by
  fun_induction addPieces t ps with
  | case1 t => exact List.prefix_rfl
  | case2 t other values rest ih =>
      exact (list_append t other key values).trans ih
  | case3 t fault rest ih => exact ih

/-
  The values that are added first for a key are the beginning
  of those that it has in the end.
-/
theorem prefix_of_addPieces
    {others : List String}
    {ps : List Piece}
    (hDistinct :
      ((t.entries ++ (key, values) :: entries).map
        (·.1)).Nodup)
    (h :
      (t.append key others).addPieces ps =
        ⟨t.entries ++ (key, values) :: entries⟩) :
    others <+: values := by
  have hList := list_addPieces (t.append key others) ps key
  have hIn :
      (key, values) ∈ t.entries ++ (key, values) :: entries := by
    simp
  rwa [h, append, list_update, if_pos rfl,
    list_of_notMem (notMem_of_nodup hDistinct), List.nil_append,
    list_eq_of_mem hDistinct hIn] at hList

/-
  If entries are read back from their text, all of them are
  closed.  The values that are read for a key are at least the
  beginning of those that it has in the end.
-/
theorem areClosed_of_addPieces
    (hKeys : ∀ entry ∈ entries, IsKey entry.1)
    (hValues : ∀ entry ∈ entries, entry.2 ≠ [])
    (hDistinct : ((t.entries ++ entries).map (·.1)).Nodup)
    (hFaults : faults (pieces (displayEntries entries)) = [])
    (hRead :
      t.addPieces (pieces (displayEntries entries)) =
        ⟨t.entries ++ entries⟩) :
    AreClosed entries := by
  induction entries generalizing t with
  | nil => exact nofun
  | cons entry entries ih =>
      rcases entry with ⟨key, values⟩
      rcases List.forall_mem_cons.mp hKeys with ⟨hKey, hKeys⟩
      rcases List.forall_mem_cons.mp hValues with
        ⟨hSome, hValues⟩
      rw [displayEntries_cons, pieces_key hKey] at hFaults hRead
      unfold readPair at hFaults hRead
      have hNew := notMem_of_nodup hDistinct
      cases hPair :
          readValues? (displayValues values ++
            displayRest entries) with
      | none =>
          simp only [hPair] at hFaults
          cases hFaults
      | some pair =>
          rcases pair with ⟨others, after⟩
          simp only [hPair, String.ofList_toList] at hFaults hRead
          have hFirst : ∀ value ∈ values, IsClosed value := by
            by_contra hOpen
            exact not_prefix_of_readValues?_display hOpen hPair
              (prefix_of_addPieces hDistinct hRead)
          have hPair' := readValues?_display hSome hFirst
            (endsEntry_displayRest entries)
          rw [hPair] at hPair'
          cases hPair'
          rw [pieces_displayRest] at hFaults hRead
          refine List.forall_mem_cons.mpr ⟨hFirst, ?_⟩
          have hAppend := append_of_notMem hNew values
          rw [List.append_cons] at hDistinct hRead
          rw [addPieces, hAppend] at hRead
          exact ih hKeys hValues hDistinct hFaults hRead

/-
  An edited table is read back from its text, as it is,
  exactly if all of its values are closed.
-/
theorem ofText_display_iff
    (h : t.IsEdited) :
    ofText t.display = .ok t ↔ AreClosed t.entries := by
  have hWell := h.isWellFormed
  have hText : t.display.toList = displayEntries t.entries :=
    String.toList_ofList
  rw [ofText_eq_ok_iff, hText]
  constructor
  · intro hRead
    exact areClosed_of_addPieces (t := empty) hWell.isKey
      hWell.hasValues hWell.distinct hRead.1 hRead.2
  · intro hClosed
    rw [pieces_display hWell.isKey hWell.hasValues hClosed]
    refine ⟨?_, addPieces_map_ok (t := empty) hWell.distinct⟩
    simp [faults, List.filterMap_map]

/-
  Quotes, backslashes before them, commas, and values without
  characters are read back; so is a last backslash that no
  quote follows.
-/
theorem ofText_display_backslashes :
    let t : AttrTable :=
      ⟨[("Path", ["C:\\dir\\", "say \\\"hi\\\" twice"]),
        ("Features", ["a", "", "c, d"])]⟩
    t.IsEdited ∧ AreClosed t.entries ∧
      ofText t.display = .ok t := by
  intro t
  have hRead :
      ofText "Path=x Features=a Type=b" =
        .ok ⟨[("Path", ["x"]), ("Features", ["a"]),
          ("Type", ["b"])]⟩ := by
    decide +kernel
  have hSet := (IsEdited.read hRead).set
    (show IsKey "Path" by decide)
    (List.cons_ne_nil "C:\\dir\\" ["say \\\"hi\\\" twice"])
  have hAppended := hSet.append
    (show IsKey "Features" by decide)
    (List.cons_ne_nil "" ["c, d"])
  have hEdited : t.IsEdited := hAppended.remove "Type"
  have hClosed : AreClosed t.entries := by decide
  exact ⟨hEdited, hClosed, (ofText_display_iff hEdited).mpr
    hClosed⟩

/- A value in quotes with a last backslash is not read back. -/
theorem not_forall_ofText_display :
    ¬ ∀ t : AttrTable, t.IsEdited →
      ofText t.display = .ok t := by
  intro hAll
  have hRead : ofText "" = .ok empty := by decide +kernel
  have hEdited := (IsEdited.read hRead).set
    (show IsKey "Note" by decide)
    (List.cons_ne_nil "a b\\" [])
  have hFault :
      ofText (empty.set "Note" ["a b\\"]).display =
        .error (.attributes "Note=\"a b\\\""
          (.unterminatedQuote "Note")) := by
    decide +kernel
  have hBack := hAll _ hEdited
  rw [hFault] at hBack
  cases hBack

end AttrTable

end CharSheet
