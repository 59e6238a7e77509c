import CharSheet.AttrTable

/-
  Tables of content, and layers of changes to them.

  A table has the attribute texts of entries by their names.
  Where a name is there twice, its first entry is the one that
  is read and changed.  A layer adds entries of its own to the
  table below it and then changes it by patches.  A patch that
  cannot be made is left out.

  Key definitions include:
    * `ContentTable`
    * `ContentTable.insert`, `ContentTable.remove`
    * `Patch`
    * `Patch.apply`
    * `LayeredTable`
    * `LayeredTable.merge`
    * `LayeredTable.onTopOf`
-/

namespace CharSheet

------------------------------------------------------------
-- Tables
------------------------------------------------------------

/- The attribute texts of entries, in their order. -/
structure ContentTable where
  entries : List (String × String)
deriving DecidableEq, Inhabited

namespace ContentTable

/- The table without entries. -/
def empty : ContentTable := ⟨[]⟩

/- The number of entries. -/
def size (t : ContentTable) : Nat :=
  t.entries.length

/- The table has no entries. -/
def isEmpty (t : ContentTable) : Bool :=
  t.entries.isEmpty

/- The text of an entry. -/
def get? (t : ContentTable) (name : String) : Option String :=
  (t.entries.find? (·.1 = name)).map (·.2)

/- The table has the entry. -/
def contains (t : ContentTable) (name : String) : Bool :=
  t.entries.any (·.1 = name)

/-
  The first entry of a name gets another text in its place.
  Without one, an entry is added last.
-/
def insertEntry (name text : String) :
    List (String × String) → List (String × String)
  | [] => [(name, text)]
  | e :: es =>
      if e.1 = name then (name, text) :: es
      else e :: insertEntry name text es

/- Replace the text of an entry in its place, or add one. -/
def insert
    (t : ContentTable)
    (name text : String) : ContentTable :=
  ⟨insertEntry name text t.entries⟩

/- Take the first entry of a name out of the table. -/
def remove (t : ContentTable) (name : String) : ContentTable :=
  ⟨t.entries.eraseP (·.1 = name)⟩

/- Insert entries one after another. -/
def insertAll
    (t : ContentTable)
    (entries : List (String × String)) : ContentTable :=
  entries.foldl (fun t e => t.insert e.1 e.2) t

/- The table of a list of entries. -/
def ofList (entries : List (String × String)) : ContentTable :=
  empty.insertAll entries

end ContentTable

------------------------------------------------------------
-- Patches
------------------------------------------------------------

/- A change of the entry of a name. -/
inductive Patch where
  | add (name text : String)
  | overrideField (name key : String) (values : List String)
  | appendToList (name key : String) (values : List String)
  | remove (name : String)
deriving DecidableEq

namespace Patch

/- The name of the entry that is changed. -/
def target : Patch → String
  | .add name _ => name
  | .overrideField name _ _ => name
  | .appendToList name _ _ => name
  | .remove name => name

/-
  Change the attributes of an entry, all of which must read.
  The table is the one from before if they do not.
-/
def editEntry
    (t : ContentTable)
    (name : String)
    (f : AttrTable → AttrTable) :
    ContentTable × Except ContentError Unit :=
  match t.get? name with
  | none => (t, .error (.missingEntry name))
  | some text =>
      match AttrTable.ofText text with
      | .error e => (t, .error e)
      | .ok attrs => (t.insert name (f attrs).display, .ok ())

/- Try to make a change, and tell whether it was made. -/
def apply
    (t : ContentTable) :
    Patch → ContentTable × Except ContentError Unit
  | .add name text => (t.insert name text, .ok ())
  | .overrideField name key values =>
      editEntry t name (·.set key values)
  | .appendToList name key values =>
      editEntry t name (·.append key values)
  | .remove name =>
      if t.contains name then (t.remove name, .ok ())
      else (t, .error (.missingEntry name))

end Patch

------------------------------------------------------------
-- Layers
------------------------------------------------------------

/- Entries, and patches that follow them. -/
structure LayeredTable where
  base : ContentTable
  patches : List Patch
deriving DecidableEq

namespace LayeredTable

/- The entries after all patches, of which some may fail. -/
def merge (t : LayeredTable) : ContentTable :=
  t.patches.foldl (fun table p => (p.apply table).1) t.base

/- The layer on another table. -/
def onTopOf
    (t : LayeredTable)
    (lower : ContentTable) : ContentTable :=
  merge ⟨lower.insertAll t.base.entries, t.patches⟩

end LayeredTable

end CharSheet
