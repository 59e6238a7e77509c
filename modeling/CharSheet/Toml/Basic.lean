import CharSheet.Number.Basic

/-
  Values of TOML documents, and tables that are built line by
  line.

  A table may be given in pieces: by headers, and by keys with
  dots.  Each piece says whether the table may be continued.

  Key definitions include:
    * `Toml`
    * `Toml.Table`
    * `Toml.insert?`
    * `Toml.within?`
    * `Toml.openTable?`, `Toml.openItem?`
-/

namespace CharSheet

/-
  How a table came to be: in braces, by a header of its own,
  by a header of a table inside of it, or by a dotted key.
-/
inductive TableKind where
  | braces
  | header
  | implied
  | dotted
deriving DecidableEq

/-
  A value of a document.  Dates and times are not told apart.
-/
inductive Toml where
  | text (s : String)
  | integer (n : Int)
  | float (x : Number)
  | bool (b : Bool)
  | moment
  | array (items : List Toml)
  | table (kind : TableKind) (entries : List (String × Toml))
  | tables (items : List (List (String × Toml)))

namespace Toml

instance : Inhabited Toml := ⟨.moment⟩

/- The entries of a table, in their order. -/
abbrev Table := List (String × Toml)

/- The value of a key. -/
def get? (t : Table) (key : String) : Option Toml :=
  (t.find? (·.1 = key)).map (·.2)

/- Replace the value of a key in its place. -/
def replace (t : Table) (key : String) (v : Toml) : Table :=
  t.map fun e => if e.1 = key then (key, v) else e

/- Add a key that is not in the table yet. -/
def addNew?
    (t : Table)
    (key : String)
    (v : Toml) : Option Table :=
  if (get? t key).isSome then none else some (t ++ [(key, v)])

------------------------------------------------------------
-- Dotted Keys
------------------------------------------------------------

/-
  Add a value below a table that a dotted key has led to.
  Only tables of dotted keys may be continued in this way.
-/
def insertBelow?
    (kind : TableKind)
    (t : Table)
    (key : String)
    (v : Toml) : List String → Option Table
  | [] => if kind = .dotted then addNew? t key v else none
  | name :: path =>
      match get? t name with
      | none => do
          let inner ← insertBelow? .dotted [] key v path
          return t ++ [(name, .table .dotted inner)]
      | some (.table kind inner) =>
          if kind = .dotted || kind = .implied then do
            let inner ← insertBelow? kind inner key v path
            return replace t name (.table kind inner)
          else none
      | some (.tables items) => do
          let inner ← insertBelow? .header (items.getLastD [])
            key v path
          return replace t name
            (.tables (items.dropLast ++ [inner]))
      | some _ => none

/- Add a value to a table by a key with dots or without. -/
def insert?
    (t : Table)
    (path : List String)
    (key : String)
    (v : Toml) : Option Table :=
  match path with
  | [] => addNew? t key v
  | path => insertBelow? .header t key v path

------------------------------------------------------------
-- Headers
------------------------------------------------------------

/-
  Change the table that a header leads to.  Tables on the way
  that are not there yet are implied.
-/
def within?
    (f : Table → Option Table)
    (t : Table) : List String → Option Table
  | [] => f t
  | name :: path =>
      match get? t name with
      | none => do
          let inner ← within? f [] path
          return t ++ [(name, .table .implied inner)]
      | some (.table kind inner) =>
          if kind = .braces then none
          else do
            let inner ← within? f inner path
            return replace t name (.table kind inner)
      | some (.tables items) => do
          let inner ← within? f (items.getLastD []) path
          return replace t name
            (.tables (items.dropLast ++ [inner]))
      | some _ => none

/-
  Open a table by a header of its own.  It may only have been
  implied before.
-/
def openTable? (key : String) (t : Table) : Option Table :=
  match get? t key with
  | none => some (t ++ [(key, .table .header [])])
  | some (.table .implied inner) =>
      some (replace t key (.table .header inner))
  | some _ => none

/- Open the next item of an array of tables. -/
def openItem? (key : String) (t : Table) : Option Table :=
  match get? t key with
  | none => some (t ++ [(key, .tables [[]])])
  | some (.tables items) =>
      some (replace t key (.tables (items ++ [[]])))
  | some _ => none

end Toml

end CharSheet
