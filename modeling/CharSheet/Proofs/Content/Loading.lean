import CharSheet.Content.Module
import CharSheet.Proofs.Choice.Tagged
import CharSheet.Proofs.Content.Layers
import Mathlib.Data.List.DropRight

/-
  Rules of the entries that a module registers.

  A module registers one entry after another, and each of them
  changes the rules of its own origin only.  So the rules of an
  entry are what it declares when it is registered the last
  time, followed by the rules that the module adds to it.

  Main declarations:
    * `ContentModule.registerEntries`
    * `ContentModule.bookFor`
    * `ContentModule.declaredRules`, `ContentModule.foundFor`
    * `ContentModule.extraRules`
    * `ContentModule.taggedRules_register`
    * `Library.load_of_isLoaded`, `Library.eq_of_load`
    * `Library.taggedRules_load`
-/

namespace CharSheet

/- A list ends with what follows the last that is looked for. -/
theorem eq_append_of_getLast?_filter
    {α : Type}
    {p : α → Bool}
    {l : List α}
    {a : α}
    (h : (l.filter p).getLast? = some a) :
    l = (l.rdropWhile (!p ·)).dropLast ++
      a :: l.rtakeWhile (!p ·) := by
  induction l using List.reverseRecOn with
  | nil => cases h
  | append_singleton l b ih =>
      cases hFound : p b with
      | true =>
          rw [List.filter_append, List.filter_singleton, hFound,
            cond_true, List.getLast?_concat] at h
          cases h
          simp [hFound]
      | false =>
          rw [List.filter_append, List.filter_singleton, hFound,
            cond_false, List.append_nil] at h
          rw [List.rdropWhile_concat, List.rtakeWhile_concat]
          simp only [hFound, Bool.not_false, if_true]
          rw [← List.cons_append, ← List.append_assoc, ← ih h]

namespace ContentModule

open Rulebook

variable {m : ContentModule}
variable {book : Rulebook}
variable {tables : Tables}
variable {kind : ChoiceKind}
variable {name text : String}
variable {origin : Origin}

/- The origin of what an entry declares. -/
def originOf (e : ChoiceKind × String × String) : Origin :=
  Choice.originOf e.1 e.2.1

/- The choice that an entry spells. -/
def choiceOf (e : ChoiceKind × String × String) : Choice :=
  ⟨e.1, e.2.1, (AttrTable.ofTextLossy e.2.2).1⟩

------------------------------------------------------------
-- Extra Rules
------------------------------------------------------------

/- A text that can be read declares a rule. -/
theorem isRule_of_declaration
    {r : RuleText}
    {d : Declaration}
    (h : r.declaration = .ok d) :
    d.IsRule := by
  unfold RuleText.declaration Declaration.ofTexts at h
  cases hOp : Operator.ofText r.op with
  | error _ =>
      rw [hOp] at h
      cases h
  | ok op =>
      rw [hOp] at h
      cases hFormula : r.formula.mapM Formula.ofText with
      | error _ =>
          simp only [hFormula, bind, Except.bind] at h
          cases h
      | ok formula =>
          simp only [hFormula, bind, Except.bind] at h
          cases h
          exact ⟨_, _, _, _, rfl⟩

/- So nothing but rules is added to choices. -/
theorem isRule_of_mem_readable
    {rs : List RuleText}
    {d : Declaration}
    (h : d ∈ readable rs) :
    d.IsRule := by
  induction rs with
  | nil => cases h
  | cons r rs ih =>
      unfold readable at h
      cases hRead : r.declaration with
      | error _ =>
          rw [hRead] at h
          cases h
      | ok first =>
          rw [hRead] at h
          rcases List.mem_cons.mp h with rfl | hRest
          · exact isRule_of_declaration hRead
          · exact ih hRest

/- The rules that a module adds to an entry. -/
def extraRules
    (m : ContentModule)
    (kind : ChoiceKind)
    (name : String) : List Rule :=
  addedRules (some (Choice.originOf kind name))
    (Rulebook.empty .standard) (m.extraDeclarations kind name)

/- They are the same in all rulebooks. -/
theorem addedRules_extraDeclarations
    (m : ContentModule)
    (book : Rulebook)
    (kind : ChoiceKind)
    (name : String) :
    addedRules (some (Choice.originOf kind name)) book
        (m.extraDeclarations kind name) =
      m.extraRules kind name := by
  apply addedRules_congr
  have hRules : ∀ d ∈ m.extraDeclarations kind name,
      d.IsRule :=
    fun _ => isRule_of_mem_readable
  rw [foundKeys_of_rules hRules, foundKeys_of_rules hRules]

/- They tell what was declared. -/
theorem extraRules_eq_iff
    {other : ContentModule} :
    m.extraRules kind name = other.extraRules kind name ↔
      m.extraDeclarations kind name =
        other.extraDeclarations kind name := by
  constructor
  · exact addedRules_inj (fun _ => isRule_of_mem_readable)
      fun _ => isRule_of_mem_readable
  · intro hSame
    unfold extraRules
    rw [hSame]

------------------------------------------------------------
-- Entries
------------------------------------------------------------

section Entry

variable (h : book.IsConsistent)
variable (m : ContentModule)
variable (e : ChoiceKind × String × String)

include h

/- An entry keeps a rulebook consistent. -/
theorem isConsistent_registerEntry :
    (m.registerEntry e.1 book e.2).IsConsistent :=
  (h.registerChoice (choiceOf e)).declareAll _ _

/- Its choice is registered, and all others stay. -/
theorem mem_origins_registerEntry_iff :
    origin ∈ (m.registerEntry e.1 book e.2).origins ↔
      origin = originOf e ∨ origin ∈ book.origins := by
  have hChoices :
      (m.registerEntry e.1 book e.2).choices =
        (book.registerChoice (choiceOf e)).choices :=
    choices_declareAll (h.registerChoice (choiceOf e)) _ _
  rw [origins, hChoices]
  exact mem_origins_registerChoice_iff h

/- The rules of others stay. -/
theorem taggedRules_registerEntry_of_ne
    (hOther : originOf e ≠ origin) :
    (m.registerEntry e.1 book e.2).taggedRules origin =
      book.taggedRules origin := by
  have hOwner : some (originOf e) ≠ some origin :=
    fun hSame => hOther (Option.some.inj hSame)
  exact (taggedRules_declareAll_of_ne
    (h.registerChoice (choiceOf e)) hOwner _).trans
      (taggedRules_registerChoice_of_ne h hOther)

/- Its own are declared anew, and the module adds more. -/
theorem taggedRules_registerEntry
    (hTracked : book.IsTracked (originOf e)) :
    (m.registerEntry e.1 book e.2).taggedRules (originOf e) =
      addedRules (some (originOf e))
          (book.removeChoice e.1 e.2.1)
          (choiceOf e).declarations ++
        m.extraRules e.1 e.2.1 := by
  have hRegistered :=
    IsTracked.taggedRules_registerChoice (c := choiceOf e) h
      hTracked
  refine (taggedRules_declareAll
    (h.registerChoice (choiceOf e)) (originOf e) _).trans ?_
  exact congrArg₂ (· ++ ·) hRegistered
    (addedRules_extraDeclarations m _ _ _)

/- So all origins are tracked as before. -/
theorem isTracked_registerEntry
    (hTracked : book.IsTracked origin) :
    (m.registerEntry e.1 book e.2).IsTracked origin := by
  by_cases hSame : originOf e = origin
  · exact Or.inr ((mem_origins_registerEntry_iff h m e).mpr
      (Or.inl hSame.symm))
  · rcases hTracked with hNone | hThere
    · left
      rw [taggedRules_registerEntry_of_ne h m e hSame, hNone]
    · exact Or.inr ((mem_origins_registerEntry_iff h m e).mpr
        (Or.inr hThere))

end Entry

------------------------------------------------------------
-- Runs of Entries
------------------------------------------------------------

/- Register entries, one after another. -/
def registerEntries
    (m : ContentModule)
    (book : Rulebook)
    (es : List (ChoiceKind × String × String)) : Rulebook :=
  es.foldl (fun book e => m.registerEntry e.1 book e.2) book

section Entries

variable {es : List (ChoiceKind × String × String)}

theorem isConsistent_registerEntries
    (h : book.IsConsistent)
    (m : ContentModule)
    (es : List (ChoiceKind × String × String)) :
    (m.registerEntries book es).IsConsistent := by
  induction es generalizing book with
  | nil => exact h
  | cons e es ih => exact ih (isConsistent_registerEntry h m e)

theorem isTracked_registerEntries
    (h : book.IsConsistent)
    (hTracked : book.IsTracked origin)
    (m : ContentModule)
    (es : List (ChoiceKind × String × String)) :
    (m.registerEntries book es).IsTracked origin := by
  induction es generalizing book with
  | nil => exact hTracked
  | cons e es ih =>
      exact ih (isConsistent_registerEntry h m e)
        (isTracked_registerEntry h m e hTracked)

/- Entries of other origins leave the rules of one alone. -/
theorem taggedRules_registerEntries
    (h : book.IsConsistent)
    (m : ContentModule)
    (hOther : ∀ e ∈ es, originOf e ≠ origin) :
    (m.registerEntries book es).taggedRules origin =
      book.taggedRules origin := by
  induction es generalizing book with
  | nil => rfl
  | cons e es ih =>
      have hRest := fun d hd =>
        hOther d (List.mem_cons_of_mem e hd)
      exact (ih (isConsistent_registerEntry h m e) hRest).trans
        (taggedRules_registerEntry_of_ne h m e
          (hOther e List.mem_cons_self))

/- An entry is registered after a part and before the rest. -/
theorem registerEntries_append_cons
    (m : ContentModule)
    (book : Rulebook)
    (before after : List (ChoiceKind × String × String))
    (e : ChoiceKind × String × String) :
    m.registerEntries book (before ++ e :: after) =
      m.registerEntries
        (m.registerEntry e.1
          (m.registerEntries book before) e.2) after :=
  List.foldl_append

/- The last entry that is registered decides on the rules. -/
theorem taggedRules_registerEntries_append_cons
    (h : book.IsConsistent)
    (m : ContentModule)
    (before : List (ChoiceKind × String × String))
    {after : List (ChoiceKind × String × String)}
    (e : ChoiceKind × String × String)
    (hTracked : book.IsTracked (originOf e))
    (hLast : ∀ d ∈ after, originOf d ≠ originOf e) :
    (m.registerEntries book (before ++ e :: after)).taggedRules
        (originOf e) =
      addedRules (some (originOf e))
          ((m.registerEntries book before).removeChoice e.1
            e.2.1)
          (choiceOf e).declarations ++
        m.extraRules e.1 e.2.1 := by
  have hBefore := isConsistent_registerEntries h m before
  rw [registerEntries_append_cons,
    taggedRules_registerEntries
      (isConsistent_registerEntry hBefore m e) m hLast]
  exact taggedRules_registerEntry hBefore m e
    (isTracked_registerEntries h hTracked m before)

end Entries

------------------------------------------------------------
-- Modules
------------------------------------------------------------

/- The entry is that of a kind and a name. -/
def isEntryOf
    (kind : ChoiceKind)
    (name : String)
    (e : ChoiceKind × String × String) : Bool :=
  e.1 = kind && e.2.1 = name

/- It is so exactly if it has the origin. -/
theorem isEntryOf_iff
    {e : ChoiceKind × String × String} :
    isEntryOf kind name e = true ↔
      originOf e = Choice.originOf kind name :=
  Choice.isNamed_iff (c := ⟨kind, name, .empty⟩)
    (d := choiceOf e)

/- The entries of one kind, in the order of loading. -/
def entriesOfKind
    (tables : Tables)
    (kind : ChoiceKind) : List (ChoiceKind × String × String) :=
  match tables kind with
  | none => []
  | some table => table.entries.map (kind, ·)

theorem loadingEntries_eq
    (tables : Tables) :
    loadingEntries tables =
      ChoiceKind.loadOrder.flatMap (entriesOfKind tables) := rfl

/- An entry is not found among those of another kind. -/
theorem filter_entriesOfKind_of_ne
    {other : ChoiceKind}
    (hOther : other ≠ kind) :
    (entriesOfKind tables other).filter (isEntryOf kind name) =
      [] := by
  apply List.filter_eq_nil_iff.mpr
  intro e he
  unfold entriesOfKind at he
  split at he
  · cases he
  · rcases List.mem_map.mp he with ⟨_, _, rfl⟩
    simp [isEntryOf, hOther]

/- Among those of its own, it is found by its name. -/
theorem filter_entriesOfKind
    {table : ContentTable}
    (hTable : tables kind = some table) :
    (entriesOfKind tables kind).filter (isEntryOf kind name) =
      (table.entriesOf name).map (kind, ·) := by
  rw [entriesOfKind, hTable, List.filter_map]
  congr 1
  apply List.filter_congr
  intro e _
  simp [isEntryOf]

/- So all entries of a name are those in the table. -/
theorem filter_loadingEntries
    {table : ContentTable}
    (hTable : tables kind = some table) :
    (loadingEntries tables).filter (isEntryOf kind name) =
      (table.entriesOf name).map (kind, ·) := by
  have hIn : kind ∈ ChoiceKind.loadOrder := by
    cases kind <;> decide
  have hNodup : ChoiceKind.loadOrder.Nodup := by decide
  rcases List.append_of_mem hIn with ⟨before, after, hOrder⟩
  rw [hOrder, List.nodup_middle, List.nodup_cons] at hNodup
  have hNothing : ∀ other ∈ before ++ after,
      (entriesOfKind tables other).filter (isEntryOf kind name) =
        [] := by
    intro other hOther
    apply filter_entriesOfKind_of_ne
    rintro rfl
    exact hNodup.1 hOther
  have hBefore := List.flatMap_eq_nil_iff.mpr fun other ho =>
    hNothing other (List.mem_append_left after ho)
  have hAfter := List.flatMap_eq_nil_iff.mpr fun other ho =>
    hNothing other (List.mem_append_right before ho)
  rw [loadingEntries_eq, hOrder, List.filter_flatMap,
    List.flatMap_append, List.flatMap_cons, hBefore, hAfter,
    filter_entriesOfKind hTable, List.nil_append,
    List.append_nil]

/- The entries that are loaded before the last of a name. -/
def entriesBefore
    (tables : Tables)
    (kind : ChoiceKind)
    (name : String) : List (ChoiceKind × String × String) :=
  ((loadingEntries tables).rdropWhile
    (!isEntryOf kind name ·)).dropLast

/-
  The rulebook in which a module declares an entry, after the
  entries before it are registered and what was declared for
  it so far is taken back.
-/
def bookFor
    (m : ContentModule)
    (tables : Tables)
    (book : Rulebook)
    (kind : ChoiceKind)
    (name : String) : Rulebook :=
  (m.registerEntries (book.declareAll none m.opening)
    (entriesBefore tables kind name)).removeChoice kind name

/- The rules that an entry declares itself. -/
def declaredRules
    (m : ContentModule)
    (tables : Tables)
    (book : Rulebook)
    (e : ChoiceKind × String × String) : List Rule :=
  addedRules (some (originOf e))
    (m.bookFor tables book e.1 e.2.1) (choiceOf e).declarations

/- What the adjustments of an entry find there. -/
def foundFor
    (m : ContentModule)
    (tables : Tables)
    (book : Rulebook)
    (e : ChoiceKind × String × String) : List (Option Key) :=
  foundKeys (some (originOf e))
    (m.bookFor tables book e.1 e.2.1) (choiceOf e).declarations

/-
  An entry has the rules that it declares itself, and those
  that the module adds.
-/
theorem taggedRules_register
    (h : book.IsConsistent)
    (m : ContentModule)
    (hTracked : book.IsTracked (Choice.originOf kind name))
    {table : ContentTable}
    (hTable : tables kind = some table)
    (hEntry :
      (table.entriesOf name).getLast? = some (name, text)) :
    (m.register tables book).taggedRules
        (Choice.originOf kind name) =
      m.declaredRules tables book (kind, name, text) ++
        m.extraRules kind name := by
  have hLast :
      ((loadingEntries tables).filter
        (isEntryOf kind name)).getLast? =
          some (kind, name, text) := by
    rw [filter_loadingEntries hTable, List.getLast?_map, hEntry]
    rfl
  have hSplit := eq_append_of_getLast?_filter hLast
  have hAfter : ∀ d ∈ (loadingEntries tables).rtakeWhile
      (!isEntryOf kind name ·),
        originOf d ≠ originOf (kind, name, text) := by
    intro d hd hSame
    have hNot := List.mem_rtakeWhile_imp hd
    rw [isEntryOf_iff.mpr hSame] at hNot
    cases hNot
  have hRun := taggedRules_registerEntries_append_cons
    (h.declareAll none m.opening) m
    (entriesBefore tables kind name) (kind, name, text)
    (hTracked.declareAll h m.opening) hAfter
  rw [entriesBefore, ← hSplit] at hRun
  exact hRun

end ContentModule

------------------------------------------------------------
-- Libraries
------------------------------------------------------------

namespace Library

variable {l l' : Library}
variable {book book' : Rulebook}
variable {m : ContentModule}
variable {n : Nat}

/- A module is loaded where all that it needs is. -/
theorem load_of_isLoaded
    (h : ∀ needed ∈ m.needs, l.isLoaded needed = true)
    (book : Rulebook) :
    l.load book m =
      .ok
        (⟨l.loaded ++ [m.name],
            l.exports.insert m.name (m.tables l.exports)⟩,
          m.register (m.tables l.exports) book,
          (ContentModule.loadingEntries
            (m.tables l.exports)).length) := by
  have hNone :
      (m.needs.find? fun name => !l.isLoaded name) = none := by
    apply List.find?_eq_none.mpr
    intro needed hNeeded
    simp [h needed hNeeded]
  rw [load, hNone]

/- A module that is loaded exports its tables. -/
theorem eq_of_load
    (h : l.load book m = .ok (l', book', n)) :
    l'.exports = l.exports.insert m.name (m.tables l.exports) ∧
      book' = m.register (m.tables l.exports) book := by
  unfold load at h
  split at h
  · cases h
  · cases h
    exact ⟨rfl, rfl⟩

section Loaded

open ContentModule

variable (h : book.IsConsistent)
variable (hLoad : l.load book m = .ok (l', book', n))

include h hLoad

/- A module that is loaded keeps a rulebook consistent. -/
theorem isConsistent_load : book'.IsConsistent := by
  rw [(eq_of_load hLoad).2]
  exact isConsistent_registerEntries
    (h.declareAll none m.opening) m _

/- All origins are tracked as before. -/
theorem isTracked_load
    {origin : Origin}
    (hTracked : book.IsTracked origin) :
    book'.IsTracked origin := by
  rw [(eq_of_load hLoad).2]
  exact isTracked_registerEntries
    (h.declareAll none m.opening)
    (hTracked.declareAll h m.opening) m _

/- An entry has its own rules and those of the module. -/
theorem taggedRules_load
    {kind : ChoiceKind}
    {name text : String}
    {table : ContentTable}
    (hTracked : book.IsTracked (Choice.originOf kind name))
    (hTable : m.tables l.exports kind = some table)
    (hEntry :
      (table.entriesOf name).getLast? = some (name, text)) :
    book'.taggedRules (Choice.originOf kind name) =
      m.declaredRules (m.tables l.exports) book
          (kind, name, text) ++
        m.extraRules kind name := by
  rw [(eq_of_load hLoad).2]
  exact taggedRules_register h m hTracked hTable hEntry

end Loaded

end Library

end CharSheet
