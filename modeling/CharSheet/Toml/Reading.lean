import CharSheet.Toml.Scalar

/-
  Reading TOML documents.

  A document is read line by line: headers say in which table
  the following values are put.  Values in brackets and braces
  are nested to a limited depth.

  Key definitions include:
    * `Toml.readKey?`
    * `Toml.readValue?`
    * `Toml.ofText?`
-/

namespace CharSheet

namespace Toml

/-
  The depth to which values are nested, and the length of keys
  with dots.
-/
def depthLimit : Nat := 79

/- Drop spaces and tabs. -/
def skipGaps (cs : List Char) : List Char :=
  cs.dropWhile isGap

/- Drop a comment. -/
def skipComment (cs : List Char) : List Char :=
  match cs with
  | '#' :: cs => cs.dropWhile inText
  | cs => cs

/- Drop the rest of a line that has no more values. -/
def endLine? (cs : List Char) : Option (List Char) :=
  match skipComment (skipGaps cs) with
  | [] => some []
  | '\n' :: cs => some cs
  | _ => none

/-
  Drop spaces, line ends and comments.  A comment must end
  with a line.
-/
def skipLines? :
    (inComment : Bool) → List Char → Option (List Char)
  | true, [] => none
  | false, [] => some []
  | inComment, c :: cs =>
      if c = '\n' then skipLines? false cs
      else if inComment then
        if inText c then skipLines? true cs else none
      else if isGap c then skipLines? false cs
      else if c = '#' then skipLines? true cs
      else some (c :: cs)

------------------------------------------------------------
-- Keys
------------------------------------------------------------

/- A character of a key without quotes. -/
def inBareKey (c : Char) : Bool :=
  c.isAlphanum || c = '-' || c = '_'

/- Read a key without dots, in quotes or without. -/
def readName? (cs : List Char) : Option (String × List Char) :=
  match readShortText? cs with
  | some found => some found
  | none =>
      let name := cs.takeWhile inBareKey
      if name.isEmpty then none
      else some (String.ofList name, cs.dropWhile inBareKey)

/-
  Read at most so many names between dots, of which the last
  one is given apart from the path to it.
-/
def readPath? :
    Nat → List Char → Option (List String × String × List Char)
  | 0, _ => none
  | fuel + 1, cs => do
      let (name, after) ← readName? (skipGaps cs)
      match skipGaps after with
      | '.' :: rest => do
          let (path, last, after) ← readPath? fuel rest
          return (name :: path, last, after)
      | rest => return ([], name, rest)

/- Read a key, and the path of tables to it. -/
def readKey?
    (cs : List Char) :
    Option (List String × String × List Char) :=
  readPath? depthLimit cs

------------------------------------------------------------
-- Values
------------------------------------------------------------

/- A reader of a value at the front of a text. -/
abbrev Reader := List Char → Option (Toml × List Char)

/-
  Read the items of an array up to its closing bracket.  Each
  item takes some of the text, so its length is fuel enough.
-/
def readItems? (item : Reader) :
    Nat → List Char → Option (List Toml × List Char)
  | 0, _ => none
  | fuel + 1, cs => do
      let cs ← skipLines? false cs
      match cs with
      | ']' :: after => return ([], after)
      | cs => do
          let (v, cs) ← item cs
          match ← skipLines? false cs with
          | ',' :: cs => do
              let (vs, after) ← readItems? item fuel cs
              return (v :: vs, after)
          | ']' :: after => return ([v], after)
          | _ => none

/-
  Read a key and its value into a table, and what follows on
  the line.
-/
def readEntry?
    (value : Reader)
    (t : Table)
    (cs : List Char) : Option (Table × List Char) := do
  let (path, key, cs) ← readKey? cs
  match cs with
  | '=' :: cs => do
      let (v, cs) ← value (skipGaps cs)
      let t ← insert? t path key v
      return (t, skipGaps cs)
  | _ => none

/- Read the entries of a table in braces up to the last one. -/
def readEntries? (value : Reader) :
    Nat → Table → List Char → Option (Table × List Char)
  | 0, _, _ => none
  | fuel + 1, t, cs => do
      let (t, cs) ← readEntry? value t cs
      match cs with
      | ',' :: cs => readEntries? value fuel t cs
      | '\x7d' :: after => return (t, after)
      | _ => none

/- Read a value that is nested at most to a depth. -/
def readValue? : (depth : Nat) → Reader
  | 0, cs => readScalar? cs
  | depth + 1, cs =>
      match cs with
      | '[' :: cs => do
          let (items, after) ←
            readItems? (readValue? depth) (cs.length + 1) cs
          return (.array items, after)
      | '\x7b' :: cs =>
          match skipGaps cs with
          | '\x7d' :: after => some (.table .braces [], after)
          | cs => do
              let (t, after) ←
                readEntries? (readValue? depth)
                  (cs.length + 1) [] cs
              return (.table .braces t, after)
      | cs => readScalar? cs

------------------------------------------------------------
-- Documents
------------------------------------------------------------

/- A document that is being read, and its current table. -/
structure Draft where
  root : Table
  current : List String

/- Read a header, which opens a table or an item of one. -/
def readHeader?
    (d : Draft)
    (cs : List Char) : Option (Draft × List Char) := do
  let (isItem, cs) :=
    match cs with
    | '[' :: cs => (true, cs)
    | cs => (false, cs)
  let (path, key, cs) ← readKey? cs
  let close := if isItem then [']', ']'] else [']']
  let after ← Text.after? close cs
  let opened := if isItem then openItem? key else openTable? key
  let root ← within? opened d.root path
  return (⟨root, path ++ [key]⟩, after)

/- Read a key and its value into the current table. -/
def readLineEntry?
    (d : Draft)
    (cs : List Char) : Option (Draft × List Char) := do
  let (path, key, cs) ← readKey? cs
  match cs with
  | '=' :: cs => do
      let (v, after) ← readValue? depthLimit (skipGaps cs)
      let root ←
        within? (insert? · path key v) d.root d.current
      return (⟨root, d.current⟩, after)
  | _ => none

/-
  Read lines until the text ends.  Each line takes some of the
  text, so its length is fuel enough.
-/
def readLinesOf? : Nat → Draft → List Char → Option Table
  | 0, _, _ => none
  | fuel + 1, d, cs => do
      let (d, cs) ←
        match skipGaps cs with
        | '[' :: cs => readHeader? d cs
        | [] => some (d, [])
        | '\n' :: cs => some (d, '\n' :: cs)
        | '#' :: cs => some (d, '#' :: cs)
        | cs => readLineEntry? d cs
      match ← endLine? cs with
      | [] => return d.root
      | cs => readLinesOf? fuel d cs

/- Write all line ends in the same way. -/
def unifyLineEnds : List Char → List Char
  | [] => []
  | '\r' :: '\n' :: cs => '\n' :: unifyLineEnds cs
  | c :: cs => c :: unifyLineEnds cs

/- Drop a mark of the byte order at the front. -/
def dropMark : List Char → List Char
  | [] => []
  | c :: cs => if c.toNat = 0xFEFF then cs else c :: cs

/- The table that a document spells. -/
def ofText? (text : String) : Option Table :=
  let cs := unifyLineEnds (dropMark text.toList)
  readLinesOf? (cs.length + 1) ⟨[], []⟩ cs

end Toml

end CharSheet
