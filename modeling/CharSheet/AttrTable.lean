import CharSheet.Error
import CharSheet.Text.Cut

/-
  Attribute texts such as `Type=General Features=a,"b, c"`.

  A text is cut into pieces: a key with a list of values, or a
  fault.  A value in quotes may hold white space, commas and
  escaped quotes.  A quote that is not closed takes the rest
  of the text with it.

  Key definitions include:
    * `AttrTable`
    * `AttrTable.set`, `AttrTable.append`, `AttrTable.remove`
    * `AttrTable.list`, `AttrTable.first?`
    * `AttrTable.pieces`
    * `AttrTable.ofTextLossy`
    * `AttrTable.ofText`
    * `AttrTable.display`
-/

namespace CharSheet

------------------------------------------------------------
-- Tables
------------------------------------------------------------

/- Keys with lists of values, in the order of the keys. -/
structure AttrTable where
  entries : List (String × List String)
deriving DecidableEq, Inhabited

namespace AttrTable

/- The table without keys. -/
def empty : AttrTable := ⟨[]⟩

/- The table has no keys. -/
def isEmpty (t : AttrTable) : Bool :=
  t.entries.isEmpty

/- The table has the key. -/
def contains (t : AttrTable) (key : String) : Bool :=
  t.entries.any (·.1 = key)

/- The values of a key, none if it is not there. -/
def list (t : AttrTable) (key : String) : List String :=
  ((t.entries.find? (·.1 = key)).map (·.2)).getD []

/- The first value of a key. -/
def first? (t : AttrTable) (key : String) : Option String :=
  (t.list key).head?

/- The number that the first value of a key spells. -/
def number? (t : AttrTable) (key : String) : Option Number :=
  (t.first? key).bind fun s =>
    Number.ofChars? (Text.trimChars s.toList)

/-
  Change the values of a key in its place, or add the key at
  the end.
-/
def update
    (t : AttrTable)
    (key : String)
    (f : List String → List String) : AttrTable :=
  if t.contains key then
    ⟨t.entries.map fun (k, values) =>
      if k = key then (k, f values) else (k, values)⟩
  else ⟨t.entries ++ [(key, f [])]⟩

/- Replace the values of a key. -/
def set
    (t : AttrTable)
    (key : String)
    (values : List String) : AttrTable :=
  t.update key fun _ => values

/- Add values after those of a key. -/
def append
    (t : AttrTable)
    (key : String)
    (values : List String) : AttrTable :=
  t.update key (· ++ values)

/- Take a key out of the table. -/
def remove (t : AttrTable) (key : String) : AttrTable :=
  ⟨t.entries.filter (·.1 ≠ key)⟩

------------------------------------------------------------
-- Reading Values
------------------------------------------------------------

/-
  The characters of a quoted value after its first quote, and
  what follows its last quote, if there is one.
-/
def readQuoted? : List Char → Option (List Char × List Char)
  | [] => none
  | '"' :: rest => some ([], rest)
  | '\\' :: '"' :: rest =>
      (readQuoted? rest).map fun (s, after) => ('"' :: s, after)
  | c :: rest =>
      (readQuoted? rest).map fun (s, after) => (c :: s, after)

/- A character that may stand in a value without quotes. -/
def inBareValue (c : Char) : Bool :=
  c ≠ ',' && !Text.isBlank c

/- Read one value, in quotes or without. -/
def readValue? (cs : List Char) :
    Option (String × List Char) :=
  match cs with
  | '"' :: rest =>
      (readQuoted? rest).map fun (s, after) =>
        (String.ofList s, after)
  | cs =>
      some (String.ofList (cs.takeWhile inBareValue),
        cs.dropWhile inBareValue)

/- What follows a quoted value is not longer than it. -/
theorem length_of_readQuoted?
    {cs s after : List Char}
    (h : readQuoted? cs = some (s, after)) :
    after.length ≤ cs.length := by
  fun_induction readQuoted? cs generalizing s after with
  | case1 => simp at h
  | case2 rest =>
      simp only [Option.some.injEq, Prod.mk.injEq] at h
      simp [← h.2]
  | case3 rest ih =>
      obtain ⟨⟨s', after'⟩, hr, he⟩ := Option.map_eq_some_iff.1 h
      simp only [Prod.mk.injEq] at he
      have := ih hr
      rw [← he.2]
      simp only [List.length_cons]
      omega
  | case4 c rest _ _ ih =>
      obtain ⟨⟨s', after'⟩, hr, he⟩ := Option.map_eq_some_iff.1 h
      simp only [Prod.mk.injEq] at he
      have := ih hr
      rw [← he.2]
      simp only [List.length_cons]
      omega

/- What follows a value is not longer than the text. -/
theorem length_of_readValue?
    {cs after : List Char}
    {s : String}
    (h : readValue? cs = some (s, after)) :
    after.length ≤ cs.length := by
  unfold readValue? at h
  split at h
  · obtain ⟨⟨s', after'⟩, hr, he⟩ := Option.map_eq_some_iff.1 h
    simp only [Prod.mk.injEq] at he
    have := length_of_readQuoted? hr
    rw [← he.2]
    simp only [List.length_cons]
    omega
  · simp only [Option.some.injEq, Prod.mk.injEq] at h
    rw [← h.2]
    exact (List.dropWhile_suffix inBareValue).length_le

/- Read values with commas between them. -/
def readValues? (cs : List Char) :
    Option (List String × List Char) :=
  match h : readValue? cs with
  | none => none
  | some (value, ',' :: rest) =>
      have : rest.length < cs.length := length_of_readValue? h
      (readValues? rest).map fun (values, after) =>
        (value :: values, after)
  | some (value, after) => some ([value], after)
termination_by cs.length

------------------------------------------------------------
-- Reading Tables
------------------------------------------------------------

/- A key with its values, or a fault in its place. -/
abbrev Piece := Except AttributeFault (String × List String)

/- A character that may stand in a key. -/
def inKey (c : Char) : Bool :=
  c ≠ '=' && !Text.isBlank c

/-
  Read the values of a key.  Without its closing quote the
  rest of the text is lost.
-/
def readPair
    (key : List Char)
    (cs : List Char) : Piece × List Char :=
  match readValues? cs with
  | some (values, after) =>
      (.ok (String.ofList key, values), after)
  | none =>
      (.error (.unterminatedQuote (String.ofList key)), [])

/-
  Read the piece that begins with a character which is no
  white space.
-/
def readPiece
    (c : Char)
    (rest : List Char) : Piece × List Char :=
  if c = '=' then readPair [] rest
  else
    let key := c :: rest.takeWhile inKey
    match rest.dropWhile inKey with
    | '=' :: values => readPair key values
    | after => (.error (.noValue (String.ofList key)), after)

/- What follows the values of a key is not longer. -/
theorem length_of_readValues?
    {cs after : List Char}
    {values : List String}
    (h : readValues? cs = some (values, after)) :
    after.length ≤ cs.length := by
  fun_induction readValues? cs generalizing values after with
  | case1 => simp at h
  | case2 cs value rest hr hlt ih =>
      obtain ⟨⟨vs, after'⟩, hv, he⟩ := Option.map_eq_some_iff.1 h
      simp only [Prod.mk.injEq] at he
      have := ih hv
      rw [← he.2]
      omega
  | case3 cs value after' _ hr =>
      simp only [Option.some.injEq, Prod.mk.injEq] at h
      rw [← h.2]
      exact length_of_readValue? hr

/- What follows a pair is not longer than its values. -/
theorem length_readPair
    (key cs : List Char) :
    (readPair key cs).2.length ≤ cs.length := by
  unfold readPair
  split
  · next h => exact length_of_readValues? h
  · simp

/- What follows a piece is shorter than the text. -/
theorem length_readPiece
    (c : Char)
    (rest : List Char) :
    (readPiece c rest).2.length ≤ rest.length := by
  have hdrop : (rest.dropWhile inKey).length ≤ rest.length :=
    (List.dropWhile_suffix inKey).length_le
  unfold readPiece
  split
  · exact length_readPair [] rest
  · dsimp only
    split
    · next values hv =>
      have := length_readPair (c :: rest.takeWhile inKey) values
      rw [hv, List.length_cons] at hdrop
      omega
    · exact hdrop

/- The pieces of a text, white space between them apart. -/
def pieces : List Char → List Piece
  | [] => []
  | c :: rest =>
      if Text.isBlank c then pieces rest
      else
        have := length_readPiece c rest
        (readPiece c rest).1 :: pieces (readPiece c rest).2
termination_by cs => cs.length

/- Add the pairs of a list of pieces; a repeated key appends. -/
def addPieces (t : AttrTable) : List Piece → AttrTable
  | [] => t
  | .ok (key, values) :: rest =>
      addPieces (t.append key values) rest
  | .error _ :: rest => addPieces t rest

/- The faults of a list of pieces. -/
def faults (ps : List Piece) : List AttributeFault :=
  ps.filterMap fun p =>
    match p with
    | .ok _ => none
    | .error fault => some fault

/- All pairs of a text, and the faults between them. -/
def ofTextLossy
    (text : String) : AttrTable × List ContentError :=
  let ps := pieces text.toList
  (empty.addPieces ps,
    (faults ps).map (ContentError.attributes text))

/- The table of a text without faults. -/
def ofText (text : String) : Except ContentError AttrTable :=
  match ofTextLossy text with
  | (t, []) => .ok t
  | (_, fault :: _) => .error fault

------------------------------------------------------------
-- Writing
------------------------------------------------------------

/- A value that is only read back from quotes. -/
def needsQuotes (value : List Char) : Bool :=
  value.isEmpty ||
    value.any fun c => Text.isBlank c || c = ',' || c = '"'

/- The text of a value. -/
def displayValue (value : String) : List Char :=
  let cs := value.toList
  if needsQuotes cs then
    '"' ::
      cs.flatMap (fun c => if c = '"' then ['\\', '"'] else [c])
      ++ ['"']
  else cs

/- The text of a key with its values. -/
def displayEntry (entry : String × List String) : List Char :=
  entry.1.toList ++ '=' ::
    [','].intercalate (entry.2.map displayValue)

/- The text of a table. -/
def display (t : AttrTable) : String :=
  String.ofList ([' '].intercalate (t.entries.map displayEntry))

end AttrTable

end CharSheet
