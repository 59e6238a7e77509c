import CharSheet.Random.Source
import CharSheet.Rulebook.Choices
import CharSheet.Rulebook.Sheet
import CharSheet.Violations

/-
  A random identity and random class levels.

  Key definitions include:
    * `Random.identity`
    * `qualifyingClass?`
    * `Random.levels`
-/

namespace CharSheet

------------------------------------------------------------
-- Identity
------------------------------------------------------------

/- The number of reported notes that stand for requirements. -/
def brokenRequirements
    (book : Rulebook)
    (sheet : Store) : Nat :=
  (violations sheet).countP book.requirements.contains

/-
  Select a random choice of a kind.  One that breaks no more
  requirements than before is preferred, among as many as may
  be tried.
-/
def Random.identity
    (book : Rulebook)
    (plan : Plan)
    (kind : ChoiceKind)
    (store : Store) : Random Store := do
  let some key := kind.selector? | return store
  let names ← shuffle (book.choiceNames kind)
  let broken := fun (store : Store) =>
    brokenRequirements book (plan.sheet store)
  let before := broken store
  let legal :=
    (names.take book.settings.randomRetries).find? fun name =>
      broken (store.insert key (.text name)) ≤ before
  match legal <|> names.head? with
  | none => return store
  | some name => return store.insert key (.text name)

------------------------------------------------------------
-- Levels
------------------------------------------------------------

/- The attribute of the levels in a class. -/
def classKey (name : String) : Key :=
  .under "levels" name

/- The note that reports the requirement of a class. -/
def classNote (name : String) : Key :=
  .under "validationNotes" (camelCase name ++ "Class")

/-
  The first class of which a level may be added, among as many
  as may be tried.
-/
def qualifyingClass?
    (book : Rulebook)
    (plan : Plan)
    (store : Store)
    (classes : List String) : Option String :=
  (classes.take book.settings.randomRetries).find? fun name =>
    let tried := store.insert (classKey name) (.ofNat 1)
    !(plan.sheet tried).truthy (classNote name)

/- The highest level that is given at random. -/
def highestLevel (book : Rulebook) : Nat :=
  max 1 book.settings.maxRandomLevel

/- The inputs without levels of any kind. -/
def withoutLevels (store : Store) : Store :=
  (store.erase "level").filter fun key _ =>
    !Key.isUnder key "levels"

namespace Random

/-
  The total of the levels: the level that was set, or else a
  random one.
-/
def totalLevel
    (book : Rulebook)
    (store : Store) : Random Nat :=
  let highest := highestLevel book
  match store.number? "level" with
  | some n =>
      if Number.le 1 n then return n.clampToNat highest
      else between 1 highest
  | none => between 1 highest

/-
  Give levels in a second class, if there is one that takes
  them.
-/
def addSecondClass
    (book : Rulebook)
    (plan : Plan)
    (first : String)
    (others : List String)
    (total : Nat)
    (store : Store) : Random Store := do
  let reduced :=
    store.insert (classKey first) (.ofNat (total - 1))
  match qualifyingClass? book plan reduced others with
  | none =>
      return reduced.insert (classKey first) (.ofNat total)
  | some second =>
      let levels ← between 1 (total - 1)
      return (reduced.insert (classKey first) (.ofNat levels))
        |>.insert (classKey second) (.ofNat (total - levels))

/- Divide a total of levels among random classes. -/
def divideLevels
    (book : Rulebook)
    (plan : Plan)
    (classes : List String)
    (total : Nat)
    (store : Store) : Random Store := do
  let classes ← shuffle classes
  let first :=
    (qualifyingClass? book plan store classes).getD
      (classes.headD "")
  let store := store.insert (classKey first) (.ofNat total)
  if total < 2 then return store
  if ← chance book.settings.multiclassChance then
    addSecondClass book plan first (classes.filter (· ≠ first))
      total store
  else return store

/-
  Give all levels to one class or two of them.  Nothing is
  changed where there are no classes.
-/
def levels
    (book : Rulebook)
    (plan : Plan)
    (store : Store) : Random Store := do
  let classes := book.choiceNames .characterClass
  if classes.isEmpty then return store
  let total ← totalLevel book store
  divideLevels book plan classes total (withoutLevels store)

end Random

end CharSheet
