import CharSheet.Random.Source
import CharSheet.Rulebook.Choices
import CharSheet.Rulebook.Sheet
import CharSheet.Violations
import Std.Data.ExtTreeSet

/-
  Repairing a character.

  In each pass the notes that report broken constraints are
  taken in order.  For each one some inputs are changed, none
  of them twice in one pass.  Passes go on until no note is
  left, nothing can be changed, or their number is used up.

  Key definitions include:
    * `Fix`
    * `Repair`
    * `Repair.mendAllocation`
    * `Repair.mendRequirement`
    * `Repair.mendNote`
    * `RepairReport`
    * `Rulebook.repair`
-/

namespace CharSheet

------------------------------------------------------------
-- Changes
------------------------------------------------------------

/-
  A change of an input for a note.  Without a value the input
  was removed.
-/
structure Fix where
  note : Key
  attr : Key
  value : Option Value
deriving DecidableEq

/-
  The inputs in a pass, the attributes that have been changed,
  and the changes that were made, which are of no others.
-/
structure Repair where
  store : Store
  changed : Std.ExtTreeSet Key
  fixes : List Fix
  mem_changed_iff : ∀ key,
    key ∈ changed ↔ key ∈ fixes.map (·.attr)

namespace Repair

/- A pass starts without changes. -/
def start (store : Store) : Repair where
  store := store
  changed := ∅
  fixes := []
  mem_changed_iff := by simp

/- The attribute was changed in this pass. -/
def hasChanged (p : Repair) (key : Key) : Bool :=
  p.changed.contains key

/- Change an input for a note. -/
def write
    (p : Repair)
    (note key : Key)
    (value : Option Value) : Repair where
  store := p.store.put key value
  changed := p.changed.insert key
  fixes := p.fixes ++ [⟨note, key, value⟩]
  mem_changed_iff := fun other => by
    simp [p.mem_changed_iff, or_comm, @eq_comm _ key other]

/- What counts as changed are the attributes of the fixes. -/
theorem hasChanged_iff
    {p : Repair}
    {key : Key} :
    p.hasChanged key = true ↔ key ∈ p.fixes.map (·.attr) :=
  p.mem_changed_iff key

@[simp]
theorem hasChanged_start (store : Store) (key : Key) :
    (start store).hasChanged key = false := by
  simp [start, hasChanged]

theorem hasChanged_write
    (p : Repair)
    (note key : Key)
    (value : Option Value)
    (other : Key) :
    (p.write note key value).hasChanged other =
      (p.hasChanged other || decide (key = other)) := by
  rw [Bool.eq_iff_iff]
  simp [hasChanged_iff, write, @eq_comm _ key other]

------------------------------------------------------------
-- Allocations
------------------------------------------------------------

/- Lower members one after another by what is too much. -/
def lower
    (note : Key) : Number → List Key → Repair → Repair
  | _, [], p => p
  | excess, key :: keys, p =>
      if excess.le 0 then p
      else
        let current := (p.store.number? key).getD 1
        let left :=
          if excess.lt current then
            some (Value.number (current.sub excess))
          else none
        lower note (excess.sub current) keys
          (p.write note key left)

/- Set members one after another while some are missing. -/
def raise
    (note : Key) : Number → List Key → Repair → Repair
  | _, [], p => p
  | excess, key :: keys, p =>
      if (Number.neg 1).lt excess then p
      else
        raise note (excess.add 1) keys
          (p.write note key (some (.ofNat 1)))

/- The requirements of selecting an attribute are met. -/
def meetsRequirements
    (book : Rulebook)
    (sheet : Store)
    (selector : Key) : Bool :=
  book.requirements.toList.all fun (_, r) =>
    r.selector ≠ selector || r.requirement.isMet sheet

/-
  Change members of an allocation, in a random order, until
  they agree with the budget.
-/
def mendAllocation
    (book : Rulebook)
    (sheet : Store)
    (note : Key)
    (allocation : Allocation)
    (p : Repair) : Random Repair := do
  let excess := (sheet.number? note).getD 0
  let unchanged :=
    allocation.keys.filter fun key => !p.hasChanged key
  if Number.lt 0 excess then
    let keys ← Random.shuffle (unchanged.filter p.store.truthy)
    return lower note excess keys p
  else
    let keys ← Random.shuffle
      (unchanged.filter fun key =>
        !p.store.truthy key && meetsRequirements book sheet key)
    return raise note excess keys p

------------------------------------------------------------
-- Requirements
------------------------------------------------------------

/-
  An input may be changed once in a pass, and only if it is
  set already or no rule computes it.
-/
def maySet
    (p : Repair)
    (book : Rulebook)
    (key : Key) : Bool :=
  !p.hasChanged key &&
    (p.store.contains key || !book.isDerived key)

/- The kind of choices that an attribute selects. -/
def selectedKind? (key : Key) : Option ChoiceKind :=
  ChoiceKind.all.find? fun kind => kind.selector? = some key

/-
  The number that fulfils a relation to a number and is next
  to it.
-/
def nearestFulfilling : Relation → Number → Number
  | .atLeast, n => n
  | .atMost, n => n
  | .equal, n => n
  | .greater, n => n.add 1
  | .notEqual, n => n.add 1
  | .less, n => n.sub 1

/-
  The input with which an attribute fulfils a comparison.  The
  sheet may add to the input, so it is moved by what the sheet
  lacks.
-/
def fulfilling?
    (p : Repair)
    (sheet : Store)
    (key : Key) : Comparison → Option (Option Value)
  | .match _ _ _ => none
  | .relation r v =>
      match v.number? with
      | some n =>
          let wanted := nearestFulfilling r n
          let current := (sheet.number? key).getD 0
          let input := (p.store.number? key).getD 0
          some (some (.number
            ((input.add wanted).sub current)))
      | none =>
          match r with
          | .equal => some (some v)
          | .notEqual => some none
          | _ => none

/- The choices of a kind that fulfil a test of a selector. -/
def fulfillingNames
    (book : Rulebook)
    (kind : ChoiceKind)
    (key : Key)
    (test : Test) : List String :=
  (book.choiceNames kind).filter fun name =>
    test.holds ((∅ : Store).insert key (.text name))

/- The change of an input that fulfils a test, if any. -/
def fulfil?
    (book : Rulebook)
    (sheet : Store)
    (p : Repair)
    (test : Test) : Random (Option (Key × Option Value)) := do
  let some key := test.attr? | return none
  if !p.maySet book key then return none
  match test.comparison, selectedKind? key with
  | none, _ =>
      if book.isDerived key then return none
      else return some (key, some (.ofNat 1))
  | some _, some kind =>
      let name ← Random.pick
        (fulfillingNames book kind key test)
      return name.map fun name => (key, some (.text name))
  | some comparison, none =>
      return (p.fulfilling? sheet key comparison).map (key, ·)

/- The change that fulfils the first possible test. -/
def fulfilFirst?
    (book : Rulebook)
    (sheet : Store)
    (p : Repair) :
    List Test → Random (Option (Key × Option Value))
  | [] => return none
  | test :: tests => do
      match ← fulfil? book sheet p test with
      | some change => return some change
      | none => fulfilFirst? book sheet p tests

/-
  Change the identity that has a requirement to another one of
  its kind, or remove it if there is no other one.
-/
def replaceIdentity
    (book : Rulebook)
    (note : Key)
    (origin : Origin)
    (p : Repair) : Random Repair := do
  let some kind := (ChoiceKind.ofText origin.kind).toOption
    | return p
  let some key := kind.selector? | return p
  if p.hasChanged key then return p
  let others :=
    (book.choiceNames kind).filter (· ≠ origin.name)
  let other ← Random.pick others
  return p.write note key (other.map .text)

/- Undo what makes a requirement apply. -/
def deselect
    (book : Rulebook)
    (note : Key)
    (r : NotedRequirement)
    (p : Repair) : Random Repair := do
  if p.store.contains r.selector && !p.hasChanged r.selector then
    return p.write note r.selector none
  match r.owner with
  | none => return p
  | some origin => replaceIdentity book note origin p

/-
  Fulfil a test of an unmet clause, both of them drawn at
  random.  If none can be fulfilled, undo the selection.
-/
def mendRequirement
    (book : Rulebook)
    (sheet : Store)
    (note : Key)
    (r : NotedRequirement)
    (p : Repair) : Random Repair := do
  match ← Random.pick (r.requirement.unmet sheet) with
  | none => deselect book note r p
  | some clause =>
      let tests ← Random.shuffle clause.alternatives
      match ← fulfilFirst? book sheet p tests with
      | some (key, value) => return p.write note key value
      | none => deselect book note r p

------------------------------------------------------------
-- Passes
------------------------------------------------------------

/- Change what a note reports, if it is known how. -/
def mendNote
    (book : Rulebook)
    (sheet : Store)
    (p : Repair)
    (note : Key) : Random Repair :=
  match book.allocations[note]?, book.requirements[note]? with
  | some allocation, _ =>
      mendAllocation book sheet note allocation p
  | none, some r => mendRequirement book sheet note r p
  | none, none => return p

/- One pass over the notes that a sheet reports. -/
def pass
    (book : Rulebook)
    (sheet store : Store) : Random Repair :=
  (violations sheet).foldlM (mendNote book sheet)
    (.start store)

end Repair

/- The passes, the changes, and the notes that remain. -/
structure RepairReport where
  passes : Nat
  fixes : List Fix
  remaining : List Key
deriving DecidableEq

namespace RepairReport

/- Nothing is left to be repaired. -/
def isValid (r : RepairReport) : Bool :=
  r.remaining.isEmpty

/- The report of a pass before the reported ones. -/
def after
    (r : RepairReport)
    (fixes : List Fix) : RepairReport where
  passes := r.passes + 1
  fixes := fixes ++ r.fixes
  remaining := r.remaining

end RepairReport

/-
  Repair by at most a number of passes.  A pass that changes
  nothing is the last one.
-/
def Repair.run
    (book : Rulebook)
    (plan : Plan) :
    Nat → Store → Random (Store × RepairReport)
  | 0, store =>
      return (store, ⟨0, [], violations (plan.sheet store)⟩)
  | passes + 1, store => do
      let sheet := plan.sheet store
      let notes := violations sheet
      if notes.isEmpty then return (store, ⟨0, [], []⟩)
      let p ← pass book sheet store
      if p.fixes.isEmpty then
        return (p.store,
          ⟨1, [], violations (plan.sheet p.store)⟩)
      let (store, report) ← run book plan passes p.store
      return (store, report.after p.fixes)

/- Repair the inputs of a character. -/
def Rulebook.repair
    (book : Rulebook)
    (store : Store) : Random (Store × RepairReport) :=
  Repair.run book book.plan book.settings.repairPasses store

end CharSheet
