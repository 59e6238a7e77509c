import CharSheet.Proofs.Choice.Lookup
import CharSheet.Proofs.Content.Loading
import CharSheet.Proofs.Content.Patches

/-
  Runs of loads, of which some fail.

  What a module does besides registering its choices is left
  open here: its tables are any function of what is exported,
  and its hooks any changes that declarations can make.  A
  module that needs what is not loaded changes nothing.  All
  others are loaded after what they need, and what is exported
  or registered under a name is from the last one to do so.

  Main declarations:
    * `Hook`, `Loadable`
    * `ContentModule.loadable`
    * `ContentModule.latest?`
    * `Loadable.choice?_registerEach`
    * `Session.load`, `Session.run`, `Session.loads`
    * `Session.load_loadable`
    * `Session.Refuses`, `Session.Accepts`
    * `Session.IsAfter`
    * `Session.outcome_of_run`
-/

namespace CharSheet

------------------------------------------------------------
-- Modules with Hooks
------------------------------------------------------------

/-
  A change of a rulebook that only makes declarations, each
  for an owner, and depends on the rulebook.  A hook that
  fails has made those before its failure.
-/
structure Hook where
  run : Rulebook → Rulebook × Except ContentError Unit
  declares :
    ∀ book, ∃ ds : List (Owner × Declaration),
      (run book).1 = book.declareEach ds

/- The hook that makes some declarations, and may fail then. -/
def Hook.ofDeclarations
    (ds : List (Owner × Declaration))
    (outcome : Except ContentError Unit) : Hook where
  run := fun book => (book.declareEach ds, outcome)
  declares := fun _ => ⟨ds, rfl⟩

/- A hook does not change which choices are registered. -/
theorem Hook.choice?_run
    (hook : Hook)
    (book : Rulebook)
    (kind : ChoiceKind)
    (name : String) :
    (hook.run book).1.choice? kind name =
      book.choice? kind name := by
  rcases hook.declares book with ⟨ds, hRun⟩
  rw [hRun, Rulebook.choice?, Rulebook.choices_declareEach]
  rfl

/-
  A module that may be loaded: what it needs, its tables, a
  hook that comes first, and one for each of its choices.
-/
structure Loadable where
  name : String
  needs : List String
  tables : Exports → Tables
  opening : Hook
  extra : ChoiceKind → String → Hook

/-
  A module of content makes its declarations.  The hook for a
  choice fails at the first rule that cannot be read.
-/
def ContentModule.loadable (m : ContentModule) : Loadable where
  name := m.name
  needs := m.needs
  tables := m.tables
  opening :=
    .ofDeclarations (m.opening.map (none, ·)) (.ok ())
  extra := fun kind name =>
    let texts := (m.extras.filter fun e =>
      e.kind = kind && e.name = name).flatMap (·.rules)
    .ofDeclarations
      ((m.extraDeclarations kind name).map
        (some (Choice.originOf kind name), ·))
      ((texts.mapM RuleText.declaration).map fun _ => ())

------------------------------------------------------------
-- Entries of Tables
------------------------------------------------------------

namespace ContentModule

variable {tables : Tables}
variable {kind : ChoiceKind}
variable {name : String}

/- How many entries the table of a kind has. -/
def entryCount (tables : Tables) (kind : ChoiceKind) : Nat :=
  match tables kind with
  | none => 0
  | some table => table.size

/- The entries of all kinds are loaded. -/
theorem length_loadingEntries (tables : Tables) :
    (loadingEntries tables).length =
      (ChoiceKind.all.map (entryCount tables)).sum := by
  have hEach : ∀ kind,
      (entriesOfKind tables kind).length =
        entryCount tables kind := by
    intro kind
    unfold entriesOfKind entryCount
    cases tables kind with
    | none => rfl
    | some table => exact List.length_map ..
  have hKinds : ChoiceKind.loadOrder.Perm ChoiceKind.all := by
    decide
  rw [loadingEntries_eq, List.length_flatMap,
    List.map_congr_left fun kind _ => hEach kind]
  exact (hKinds.map (entryCount tables)).sum_eq

/- They are those of the tables. -/
theorem mem_loadingEntries_iff
    {e : ChoiceKind × String × String} :
    e ∈ loadingEntries tables ↔
      ∃ table, tables e.1 = some table ∧
        e.2 ∈ table.entries := by
  have hIn : e.1 ∈ ChoiceKind.loadOrder := by
    cases e.1 <;> decide
  rw [loadingEntries_eq, List.mem_flatMap]
  constructor
  · intro hSome
    rcases hSome with ⟨kind, _, he⟩
    unfold entriesOfKind at he
    split at he
    · cases he
    · next table hTable =>
        rcases List.mem_map.mp he with ⟨entry, hEntry, rfl⟩
        exact ⟨table, hTable, hEntry⟩
  · intro hTable
    rcases hTable with ⟨table, hTable, he⟩
    refine ⟨e.1, hIn, ?_⟩
    rw [entriesOfKind, hTable]
    exact List.mem_map.mpr ⟨e.2, he, rfl⟩

/- The choice of the last entry of a kind and a name. -/
def latest?
    (es : List (ChoiceKind × String × String))
    (kind : ChoiceKind)
    (name : String) : Option Choice :=
  (es.filter (isEntryOf kind name)).getLast?.map choiceOf

/- An entry that comes later stands. -/
theorem latest?_append
    (es later : List (ChoiceKind × String × String))
    (kind : ChoiceKind)
    (name : String) :
    latest? (es ++ later) kind name =
      (latest? later kind name).or (latest? es kind name) := by
  unfold latest?
  rw [List.filter_append, List.getLast?_append, Option.map_or]

theorem latest?_singleton
    (e : ChoiceKind × String × String)
    (kind : ChoiceKind)
    (name : String) :
    latest? [e] kind name =
      if isEntryOf kind name e then some (choiceOf e)
      else none := by
  unfold latest?
  rw [List.filter_singleton]
  cases isEntryOf kind name e with
  | false => rfl
  | true => rfl

/- The last entry in the table of its kind is the latest. -/
theorem latest?_loadingEntries
    {table : ContentTable}
    {text : String}
    (hTable : tables kind = some table)
    (hEntry :
      (table.entriesOf name).getLast? = some (name, text)) :
    latest? (loadingEntries tables) kind name =
      some ⟨kind, name, (AttrTable.ofTextLossy text).1⟩ := by
  rw [latest?, filter_loadingEntries hTable, List.getLast?_map,
    hEntry]
  rfl

/- A name that is in no table of the kind has no entry. -/
theorem latest?_eq_none
    (hNone : ∀ table, tables kind = some table →
      name ∉ table.names) :
    latest? (loadingEntries tables) kind name = none := by
  have hNothing :
      (loadingEntries tables).filter (isEntryOf kind name) =
        [] := by
    apply List.filter_eq_nil_iff.mpr
    rintro ⟨kind', name', text⟩ he hNamed
    rcases mem_loadingEntries_iff.mp he with ⟨table, hTable, hIn⟩
    simp only [isEntryOf, Bool.and_eq_true,
      decide_eq_true_eq] at hNamed
    rcases hNamed with ⟨rfl, rfl⟩
    exact hNone table hTable (List.mem_map_of_mem hIn)
  rw [latest?, hNothing]
  rfl

end ContentModule

/- Where no name is twice, each entry is the last of its name. -/
theorem ContentTable.getLast?_entriesOf
    {table : ContentTable}
    {e : String × String}
    (hNames : table.names.Nodup)
    (he : e ∈ table.entries) :
    (table.entriesOf e.1).getLast? = some e := by
  have hIn : table.contains e.1 = true :=
    contains_iff.mpr (List.mem_map_of_mem he)
  rcases exists_last_entry hIn with ⟨text, hLast, hThere⟩
  rw [hLast, List.inj_on_of_nodup_map hNames hThere he rfl]

------------------------------------------------------------
-- Registration
------------------------------------------------------------

namespace Loadable

open ContentModule

variable (m : Loadable)

/- Register an entry, and call its hook, which may fail. -/
def registerEntry
    (book : Rulebook)
    (e : ChoiceKind × String × String) : Rulebook :=
  ((m.extra e.1 e.2.1).run
    (book.registerText e.1 e.2.1 e.2.2)).1

/- Register entries, one after another. -/
def registerEach
    (book : Rulebook)
    (es : List (ChoiceKind × String × String)) : Rulebook :=
  es.foldl m.registerEntry book

/- Register an entry, and count it. -/
def countEntry
    (registered : Rulebook × Nat)
    (e : ChoiceKind × String × String) : Rulebook × Nat :=
  (m.registerEntry registered.1 e, registered.2 + 1)

/- Register all entries of tables, and count them. -/
def register
    (tables : Tables)
    (book : Rulebook) : Rulebook × Nat :=
  (loadingEntries tables).foldl m.countEntry
    ((m.opening.run book).1, 0)

theorem foldl_countEntry
    (es : List (ChoiceKind × String × String))
    (book : Rulebook)
    (n : Nat) :
    es.foldl m.countEntry (book, n) =
      (m.registerEach book es, n + es.length) := by
  induction es generalizing book n with
  | nil => rfl
  | cons e es ih =>
      refine (ih (m.registerEntry book e) (n + 1)).trans ?_
      rw [List.length_cons, Nat.add_right_comm, Nat.add_assoc]
      rfl

/- Each entry counts one. -/
theorem register_eq
    (tables : Tables)
    (book : Rulebook) :
    m.register tables book =
      (m.registerEach (m.opening.run book).1
        (loadingEntries tables),
        (loadingEntries tables).length) := by
  unfold register
  rw [foldl_countEntry, Nat.zero_add]

/- An entry is registered as the choice that it spells. -/
theorem choice?_registerEntry
    (book : Rulebook)
    (e : ChoiceKind × String × String)
    (kind : ChoiceKind)
    (name : String) :
    (m.registerEntry book e).choice? kind name =
      if isEntryOf kind name e then some (choiceOf e)
      else book.choice? kind name := by
  unfold registerEntry
  rw [Hook.choice?_run]
  exact Rulebook.choice?_registerChoice book (choiceOf e) kind
    name

/-
  After a run of entries the latest one of a kind and a name
  is registered, or what was registered before.
-/
theorem choice?_registerEach
    (book : Rulebook)
    (es : List (ChoiceKind × String × String))
    (kind : ChoiceKind)
    (name : String) :
    (m.registerEach book es).choice? kind name =
      (latest? es kind name).or (book.choice? kind name) := by
  induction es generalizing book with
  | nil => rfl
  | cons e es ih =>
      have hFirst :
          (m.registerEntry book e).choice? kind name =
            (latest? [e] kind name).or
              (book.choice? kind name) := by
        rw [choice?_registerEntry, latest?_singleton]
        split
        · rfl
        · rfl
      refine (ih (m.registerEntry book e)).trans ?_
      rw [hFirst, ← Option.or_assoc, ← latest?_append]
      rfl

/- So it is after the registration of tables. -/
theorem choice?_register
    (tables : Tables)
    (book : Rulebook)
    (kind : ChoiceKind)
    (name : String) :
    (m.register tables book).1.choice? kind name =
      (latest? (loadingEntries tables) kind name).or
        (book.choice? kind name) := by
  rw [register_eq, choice?_registerEach, Hook.choice?_run]

/- A module of content registers as it does in a library. -/
theorem register_loadable
    (m : ContentModule)
    (tables : Tables)
    (book : Rulebook) :
    m.loadable.register tables book =
      (m.register tables book,
        (loadingEntries tables).length) := by
  have hEntry : m.loadable.registerEntry =
      fun book e => m.registerEntry e.1 book e.2 := by
    funext book e
    exact Rulebook.declareEach_map ..
  have hOpening :
      (m.loadable.opening.run book).1 =
        book.declareAll none m.opening :=
    Rulebook.declareEach_map ..
  rw [register_eq, registerEach, hEntry, hOpening]
  rfl

end Loadable

------------------------------------------------------------
-- Sessions
------------------------------------------------------------

/- A library, and the rulebook that modules are loaded into. -/
structure Session where
  library : Library
  book : Rulebook

namespace Session

open ContentModule

/- Take a module in, and count its entries. -/
def takeIn (s : Session) (m : Loadable) : Session × Nat :=
  let tables := m.tables s.library.exports
  let registered := m.register tables s.book
  (⟨⟨s.library.loaded ++ [m.name],
        s.library.exports.insert m.name tables⟩,
      registered.1⟩,
    registered.2)

/- Load a module, and tell its outcome. -/
def load
    (s : Session)
    (m : Loadable) : Session × Except ContentError Nat :=
  match m.needs.find? fun name => !s.library.isLoaded name with
  | some needed => (s, .error (.missingModule m.name needed))
  | none =>
      let taken := s.takeIn m
      (taken.1, .ok taken.2)

/- Load modules one after another, whatever the outcomes. -/
def run (s : Session) (ms : List Loadable) : Session :=
  ms.foldl (fun s m => (s.load m).1) s

/- The modules that are loaded, each with its tables then. -/
def loads (s : Session) :
    List Loadable → List (Loadable × Tables)
  | [] => []
  | m :: ms =>
      match s.load m with
      | (next, .error _) => next.loads ms
      | (next, .ok _) =>
          (m, m.tables s.library.exports) :: next.loads ms

variable {s s' : Session}
variable {m : Loadable}

/- A module of content is loaded as in a library. -/
theorem load_loadable
    (l : Library)
    (book : Rulebook)
    (m : ContentModule) :
    load ⟨l, book⟩ m.loadable =
      match l.load book m with
      | .error e => (⟨l, book⟩, .error e)
      | .ok (l', book', n) => (⟨l', book'⟩, .ok n) := by
  have hNeeds : m.loadable.needs = m.needs := rfl
  unfold load Library.load
  rw [hNeeds]
  dsimp only
  cases m.needs.find? fun name => !l.isLoaded name with
  | some needed => rfl
  | none =>
      dsimp only [takeIn]
      rw [Loadable.register_loadable]
      rfl

------------------------------------------------------------
-- One Load
------------------------------------------------------------

/-
  A load that fails names the first module that is needed and
  not loaded, and leaves all as it was.
-/
structure Refuses
    (s : Session)
    (m : Loadable)
    (s' : Session)
    (e : ContentError) : Prop where
  missing :
    ∃ before needed after,
      m.needs = before ++ needed :: after ∧
      (∀ name ∈ before, name ∈ s.library.loaded) ∧
      needed ∉ s.library.loaded ∧
      e = .missingModule m.name needed
  unchanged : s' = s

/-
  A load that succeeds counts the entries of all tables, adds
  the module to those that are loaded, exports its tables, and
  registers the choices that they spell.  If a name is twice
  in a table, its last entry stands.
-/
structure Accepts
    (s : Session)
    (m : Loadable)
    (s' : Session)
    (n : Nat) : Prop where
  needs : ∀ needed ∈ m.needs, needed ∈ s.library.loaded
  count :
    n = (ChoiceKind.all.map
      (entryCount (m.tables s.library.exports))).sum
  loaded : s'.library.loaded = s.library.loaded ++ [m.name]
  exported :
    s'.library.exports[m.name]? =
      some (m.tables s.library.exports)
  otherExports : ∀ name, name ≠ m.name →
    s'.library.exports[name]? = s.library.exports[name]?
  registered : ∀ kind table,
    m.tables s.library.exports kind = some table →
    table.names.Nodup → ∀ e ∈ table.entries,
    s'.book.choice? kind e.1 =
      some ⟨kind, e.1, (AttrTable.ofTextLossy e.2).1⟩
  lastRegistered : ∀ kind table name text,
    m.tables s.library.exports kind = some table →
    (table.entriesOf name).getLast? = some (name, text) →
    s'.book.choice? kind name =
      some ⟨kind, name, (AttrTable.ofTextLossy text).1⟩
  otherChoices : ∀ kind name,
    (∀ table, m.tables s.library.exports kind = some table →
      name ∉ table.names) →
    s'.book.choice? kind name = s.book.choice? kind name

theorem isLoaded_iff
    {l : Library}
    {name : String} :
    l.isLoaded name = true ↔ name ∈ l.loaded :=
  List.contains_iff_mem

/- Where something that is needed is missing, a load fails. -/
theorem refuses_of_find?
    {needed : String}
    (hMissing :
      (m.needs.find? fun name => !s.library.isLoaded name) =
        some needed) :
    s.Refuses m s (.missingModule m.name needed) where
  missing := by
    rcases List.find?_eq_some_iff_append.mp hMissing with
      ⟨hNot, before, after, hNeeds, hBefore⟩
    refine ⟨before, needed, after, hNeeds, ?_, ?_, rfl⟩
    · intro name hName
      have hLoaded := hBefore name hName
      rwa [Bool.not_not, isLoaded_iff] at hLoaded
    · intro hLoaded
      rw [isLoaded_iff.mpr hLoaded] at hNot
      cases hNot
  unchanged := rfl

/- The last entry of a name in a table is registered. -/
theorem choice?_takeIn
    {kind : ChoiceKind}
    {table : ContentTable}
    {name text : String}
    (hTable : m.tables s.library.exports kind = some table)
    (hLast :
      (table.entriesOf name).getLast? = some (name, text)) :
    (s.takeIn m).1.book.choice? kind name =
      some ⟨kind, name, (AttrTable.ofTextLossy text).1⟩ := by
  refine (m.choice?_register ..).trans ?_
  rw [latest?_loadingEntries hTable hLast, Option.some_or]

/- Where nothing is missing, it succeeds. -/
theorem accepts_of_find?
    (hNone :
      (m.needs.find? fun name => !s.library.isLoaded name) =
        none) :
    s.Accepts m (s.takeIn m).1 (s.takeIn m).2 where
  needs := by
    intro needed hNeeded
    have hNot := List.find?_eq_none.mp hNone needed hNeeded
    rwa [Bool.not_eq_true', Bool.not_eq_false, isLoaded_iff]
      at hNot
  count := by
    dsimp only [takeIn]
    rw [Loadable.register_eq, length_loadingEntries]
  loaded := rfl
  exported := Std.ExtTreeMap.getElem?_insert_self
  otherExports := by
    intro name hOther
    simp [takeIn, Std.ExtTreeMap.getElem?_insert, hOther.symm]
  registered := by
    intro kind table hTable hNames e he
    exact choice?_takeIn hTable
      (ContentTable.getLast?_entriesOf hNames he)
  lastRegistered := by
    intro kind table name text hTable hLast
    exact choice?_takeIn hTable hLast
  otherChoices := by
    intro kind name hNone
    refine (m.choice?_register ..).trans ?_
    rw [latest?_eq_none hNone, Option.none_or]

/- What a load may bring about. -/
def Tells (s : Session) (m : Loadable) :
    Session × Except ContentError Nat → Prop
  | (s', .error e) => s.Refuses m s' e
  | (s', .ok n) => s.Accepts m s' n

theorem tells_load (s : Session) (m : Loadable) :
    s.Tells m (s.load m) := by
  unfold load
  split
  · next hMissing => exact refuses_of_find? hMissing
  · next hNone => exact accepts_of_find? hNone

/- A module is taken in where all that it needs is loaded. -/
theorem load_cases (s : Session) (m : Loadable) :
    (∃ e, s.load m = (s, .error e)) ∨
      (∀ needed ∈ m.needs, needed ∈ s.library.loaded) ∧
        s.load m = ((s.takeIn m).1, .ok (s.takeIn m).2) := by
  unfold load
  split
  · exact Or.inl ⟨_, rfl⟩
  · next hNone =>
      exact Or.inr ⟨(accepts_of_find? hNone).needs, rfl⟩

------------------------------------------------------------
-- Runs of Loads
------------------------------------------------------------

/- Modules are loaded after all that they need. -/
def IsOrdered (loads : List (Loadable × Tables)) : Prop :=
  ∀ before x after, loads = before ++ x :: after →
    ∀ needed ∈ x.1.needs, needed ∈ before.map (·.1.name)

/-
  The session that loads lead to from a rulebook and a library
  without modules.  All of them are in the library, the last
  one of a name exports its tables, and the last entry of a
  choice is registered.
-/
structure IsAfter
    (s : Session)
    (book : Rulebook)
    (loads : List (Loadable × Tables)) : Prop where
  loaded : s.library.loaded = loads.map (·.1.name)
  ordered : IsOrdered loads
  exports : ∀ name,
    s.library.exports[name]? =
      (loads.filter (·.1.name = name)).getLast?.map (·.2)
  choices : ∀ kind name,
    s.book.choice? kind name =
      (latest? (loads.flatMap (loadingEntries ·.2)) kind
        name).or (book.choice? kind name)

variable {book : Rulebook}
variable {loads : List (Loadable × Tables)}

/- Before the first load nothing is exported. -/
theorem isAfter_nil (book : Rulebook) :
    IsAfter ⟨.empty, book⟩ book [] where
  loaded := rfl
  ordered := by
    intro before x after hSplit
    cases before with
    | nil => cases hSplit
    | cons _ _ => cases hSplit
  exports := fun _ => Std.ExtTreeMap.getElem?_empty
  choices := fun _ _ => rfl

/- A module whose needs are loaded may come next. -/
theorem IsOrdered.concat
    {x : Loadable × Tables}
    (h : IsOrdered loads)
    (hNeeds : ∀ needed ∈ x.1.needs,
      needed ∈ loads.map (·.1.name)) :
    IsOrdered (loads ++ [x]) := by
  intro before y after hSplit
  rcases List.eq_nil_or_concat' after with rfl | ⟨rest, z, rfl⟩
  · have hBoth := List.append_inj' hSplit rfl
    cases hBoth.2
    rw [← hBoth.1]
    exact hNeeds
  · rw [← List.cons_append, ← List.append_assoc] at hSplit
    exact h before y rest (List.append_inj' hSplit rfl).1

/- A load that succeeds comes after all others. -/
theorem IsAfter.takeIn
    (h : s.IsAfter book loads)
    (hNeeds : ∀ needed ∈ m.needs, needed ∈ s.library.loaded) :
    (s.takeIn m).1.IsAfter book
      (loads ++ [(m, m.tables s.library.exports)]) where
  loaded := by
    rw [List.map_append, ← h.loaded]
    rfl
  ordered := by
    apply h.ordered.concat
    rwa [← h.loaded]
  exports := by
    intro name
    rw [List.filter_append, List.getLast?_append, Option.map_or,
      ← h.exports, List.filter_singleton]
    dsimp only [Session.takeIn]
    rw [Std.ExtTreeMap.getElem?_insert]
    by_cases hName : m.name = name
    · simp [hName]
    · simp [hName]
  choices := by
    intro kind name
    refine (m.choice?_register ..).trans ?_
    rw [h.choices, List.flatMap_append, latest?_append,
      List.flatMap_singleton, Option.or_assoc]

/- So it is in every run. -/
theorem IsAfter.run
    (h : s.IsAfter book loads)
    (ms : List Loadable) :
    (s.run ms).IsAfter book (loads ++ s.loads ms) := by
  induction ms generalizing s loads with
  | nil =>
      rw [Session.loads, List.append_nil]
      exact h
  | cons m ms ih =>
      unfold Session.run Session.loads
      rw [List.foldl_cons]
      rcases load_cases s m with ⟨e, hLoad⟩ | ⟨hNeeds, hLoad⟩
      · rw [hLoad]
        exact ih h
      · rw [hLoad]
        have hNext := ih (h.takeIn hNeeds)
        rwa [List.append_assoc] at hNext

/-
  After any run of loads, modules are loaded after what they
  need, and the latest exports and choices are found.  A load
  that comes next either leaves the session as it is or does
  all that is expected.  Modules of content are loaded as in a
  library.
-/
theorem outcome_of_run
    (book : Rulebook)
    (ms : List Loadable) :
    let start : Session := ⟨.empty, book⟩
    (start.run ms).IsAfter book (start.loads ms) ∧
      (∀ m, (start.run ms).Tells m ((start.run ms).load m)) ∧
      ∀ (l : Library) (book : Rulebook) (m : ContentModule),
        load ⟨l, book⟩ m.loadable =
          match l.load book m with
          | .error e => (⟨l, book⟩, .error e)
          | .ok (l', book', n) => (⟨l', book'⟩, .ok n) :=
  ⟨by simpa using (isAfter_nil book).run ms,
    fun m => tells_load _ m, load_loadable⟩

/-
  A module that comes too early is loaded after what it needs,
  which is then loaded again with another table.
-/
theorem outcome_of_run_too_early :
    let hook := Hook.ofDeclarations [] (.ok ())
    let feats (text : String) : Tables := fun kind =>
      if kind = .feat then some ⟨[("Alert", text)]⟩ else none
    let base (text : String) : Loadable :=
      ⟨"Base", [], fun _ => feats text, hook, fun _ _ => hook⟩
    let above : Loadable :=
      ⟨"Above", ["Base"], fun _ _ => none, hook,
        fun _ _ => hook⟩
    let start : Session := ⟨.empty, .empty .standard⟩
    let s := start.run
      [above, base "Type=General", above, base "Type=Origin"]
    (start.load above).2 =
        .error (.missingModule "Above" "Base") ∧
      s.library.loaded = ["Base", "Above", "Base"] ∧
      s.library.exports["Base"]? = some (feats "Type=Origin") ∧
      s.book.choice? .feat "Alert" =
        some ⟨.feat, "Alert", ⟨[("Type", ["Origin"])]⟩⟩ := by
  intro hook feats base above start s
  have hAfter := (outcome_of_run (.empty .standard)
    [above, base "Type=General", above,
      base "Type=Origin"]).1
  refine ⟨rfl, hAfter.loaded.trans rfl,
    (hAfter.exports "Base").trans rfl, ?_⟩
  exact (hAfter.choices .feat "Alert").trans (by decide +kernel)

end Session

end CharSheet
