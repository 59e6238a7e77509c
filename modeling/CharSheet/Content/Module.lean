import CharSheet.Content.Table
import CharSheet.Core
import CharSheet.Rulebook.Choices

/-
  Modules of content, and the library of loaded modules.

  A module registers the choices of its tables in a rulebook.
  It may need other modules, and layer its tables over those
  that they have exported.

  Key definitions include:
    * `Tables`
    * `RuleText`
    * `ContentModule`
    * `ContentModule.tables`
    * `ContentModule.register`
    * `Library`
    * `Library.load`
-/

namespace CharSheet

------------------------------------------------------------
-- Modules
------------------------------------------------------------

/- The tables of a module, by the kinds of their choices. -/
abbrev Tables := ChoiceKind → Option ContentTable

/- A rule that is spelled by texts. -/
structure RuleText where
  target : Key
  source : Key
  op : String
  formula : Option String
deriving DecidableEq

/- The declaration of a rule. -/
def RuleText.declaration
    (r : RuleText) : Except ContentError Declaration :=
  Declaration.ofTexts r.target r.source r.op r.formula

/- Rules that a module adds to one of its choices. -/
structure ExtraRules where
  kind : ChoiceKind
  name : String
  rules : List RuleText
deriving DecidableEq

/- A table of a module, above that of another one or none. -/
structure ModuleTable where
  kind : ChoiceKind
  layer : LayeredTable
  below : Option String
deriving DecidableEq

/-
  A module: what it needs, what it declares before its
  choices, its tables, and the rules that it adds to choices.
-/
structure ContentModule where
  name : String
  needs : List String
  opening : List Declaration
  layers : List ModuleTable
  extras : List ExtraRules

/- The merged tables of loaded modules, by their names. -/
abbrev Exports := Std.ExtTreeMap String Tables

/-
  The merged table of a layer.  A module that is not loaded
  has empty tables.
-/
def ModuleTable.merged
    (t : ModuleTable)
    (exports : Exports) : ContentTable :=
  match t.below with
  | none => t.layer.merge
  | some name =>
      let lower := exports[name]?.bind fun tables => tables t.kind
      t.layer.onTopOf (lower.getD .empty)

namespace ContentModule

/-
  The merged tables of a module.  Of several tables of a kind
  the last one stands.
-/
def tables (m : ContentModule) (exports : Exports) : Tables :=
  fun kind =>
    (m.layers.reverse.find? (·.kind = kind)).map
      (·.merged exports)

/-
  What a list of rules declares, up to the first one that
  cannot be read.
-/
def readable : List RuleText → List Declaration
  | [] => []
  | r :: rs =>
      match r.declaration with
      | .ok declaration => declaration :: readable rs
      | .error _ => []

/- What a module adds to a choice. -/
def extraDeclarations
    (m : ContentModule)
    (kind : ChoiceKind)
    (name : String) : List Declaration :=
  readable
    ((m.extras.filter fun e =>
      e.kind = kind && e.name = name).flatMap (·.rules))

/- Register an entry of a table, with what is added to it. -/
def registerEntry
    (m : ContentModule)
    (kind : ChoiceKind)
    (book : Rulebook)
    (entry : String × String) : Rulebook :=
  (book.registerText kind entry.1 entry.2).declareAll
    (some (Choice.originOf kind entry.1))
    (m.extraDeclarations kind entry.1)

/- The entries of tables, in the order of loading. -/
def loadingEntries
    (tables : Tables) : List (ChoiceKind × String × String) :=
  ChoiceKind.loadOrder.flatMap fun kind =>
    match tables kind with
    | none => []
    | some table => table.entries.map (kind, ·)

/- Register all choices of a module's tables. -/
def register
    (m : ContentModule)
    (tables : Tables)
    (book : Rulebook) : Rulebook :=
  (loadingEntries tables).foldl
    (fun book (kind, entry) => m.registerEntry kind book entry)
    (book.declareAll none m.opening)

end ContentModule

------------------------------------------------------------
-- Libraries
------------------------------------------------------------

/- The loaded modules, and the tables that they export. -/
structure Library where
  loaded : List String
  exports : Exports

namespace Library

/- The library without modules. -/
def empty : Library := ⟨[], ∅⟩

/- The module is loaded. -/
def isLoaded (l : Library) (name : String) : Bool :=
  l.loaded.contains name

/-
  Load a module, and count its choices.  If a module that it
  needs is not loaded, nothing changes.
-/
def load
    (l : Library)
    (book : Rulebook)
    (m : ContentModule) :
    Except ContentError (Library × Rulebook × Nat) :=
  match m.needs.find? fun name => !l.isLoaded name with
  | some needed => .error (.missingModule m.name needed)
  | none =>
      let tables := m.tables l.exports
      .ok
        (⟨l.loaded ++ [m.name], l.exports.insert m.name tables⟩,
          m.register tables book,
          (ContentModule.loadingEntries tables).length)

end Library

end CharSheet
