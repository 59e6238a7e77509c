import CharSheet.Choice.Basic
import CharSheet.Declaration
import CharSheet.Settings

/-
  Rulebooks: all that content has declared.

  Most declarations belong to one owner and are taken back
  with it.  The rules of allocations and of options are shared
  by all owners that declare them, and stay until the last of
  these is gone.  A declaration without an owner stays for
  good.

  A rulebook holds what is declared and nothing that is told
  from it.  A plan of its rules that was kept would have to be
  dropped with every rule that is added or taken back, so it
  is told anew from the rules.

  Key definitions include:
    * `SharedRule`, `Allocation`, `Pool`, `Note`
    * `Rulebook`
    * `Rulebook.share`
    * `Rulebook.declareAllocation`
    * `Rulebook.declareMember`
    * `Rulebook.declare`
    * `Rulebook.declareAll`
    * `Rulebook.sweep`
    * `Rulebook.withdraw`
-/

namespace CharSheet

------------------------------------------------------------
-- Records
------------------------------------------------------------

/-
  A rule that several owners declare, known by its parts and
  the text of its formula, with its number.
-/
structure SharedRule where
  target : Key
  source : Key
  op : Operator
  formula : Option String
  seq : Nat
  owners : List Owner
deriving DecidableEq, Inhabited

/- The shared rule is made of the given parts. -/
def SharedRule.isMadeOf
    (s : SharedRule)
    (target source : Key)
    (op : Operator)
    (formula : Option String) : Bool :=
  s.target = target && s.source = source && s.op = op &&
    s.formula = formula

/- Add an owner of a shared rule. -/
def SharedRule.addOwner
    (s : SharedRule)
    (owner : Owner) : SharedRule :=
  if s.owners.contains owner then s
  else { s with owners := s.owners ++ [owner] }

/-
  A note, the budget that it compares with members, and the
  numbers of the rules that do so.
-/
structure Allocation where
  note : Key
  budget : Key
  budgetRule : Nat
  members : List (Key × Nat)
deriving DecidableEq, Inhabited

/- The attributes that count as members. -/
def Allocation.keys (a : Allocation) : List Key :=
  a.members.map (·.1)

/-
  A number of choices among options, or among all if none are
  listed, while the gate is truthy.
-/
structure Pool where
  kind : PoolKind
  count : Nat
  gate : Key
  options : Option (List String)
  owner : Owner
deriving DecidableEq

/- The text that a note is shown with. -/
structure Note where
  format : String
  owner : Owner
deriving DecidableEq, Inhabited

/- The requirement that a note reports for a selector. -/
structure NotedRequirement where
  selector : Key
  requirement : Requirement
  owner : Owner
deriving DecidableEq

/-
  All that has been declared.  Rules are in the order of their
  declaration, and no number is given twice.
-/
structure Rulebook where
  settings : Settings
  rules : List Rule
  nextSeq : Nat
  shared : List SharedRule
  allocations : Std.ExtTreeMap Key Allocation
  pools : List Pool
  notes : Std.ExtTreeMap Key Note
  requirements : Std.ExtTreeMap Key NotedRequirement
  choices : List Choice

namespace Rulebook

/- The rulebook in which nothing is declared. -/
def empty (settings : Settings) : Rulebook where
  settings := settings
  rules := []
  nextSeq := 0
  shared := []
  allocations := ∅
  pools := []
  notes := ∅
  requirements := ∅
  choices := []

/- Some rule has the attribute as its target. -/
def isDerived (book : Rulebook) (key : Key) : Bool :=
  book.rules.any (·.target = key)

------------------------------------------------------------
-- Rules
------------------------------------------------------------

/- Add a rule. -/
def addRule
    (book : Rulebook)
    (owner : Owner)
    (target source : Key)
    (op : Operator)
    (formula : Option Formula) : Rulebook :=
  { book with
    rules := book.rules ++
      [⟨target, source, op, formula, owner, book.nextSeq⟩]
    nextSeq := book.nextSeq + 1 }

/-
  Declare a shared rule.  It is added the first time, when its
  number is given back, and later it only gains an owner.
-/
def share
    (book : Rulebook)
    (owner : Owner)
    (target source : Key)
    (op : Operator)
    (formula : Option Formula) : Rulebook × Option Nat :=
  let text := formula.map (·.text)
  let isSame := fun (s : SharedRule) =>
    s.isMadeOf target source op text
  if book.shared.any isSame then
    ({ book with
      shared := book.shared.map fun s =>
        if isSame s then s.addOwner owner else s }, none)
  else
    let seq := book.nextSeq
    let added := book.addRule none target source op formula
    ({ added with
      shared := added.shared ++
        [⟨target, source, op, text, seq, [owner]⟩] },
      some seq)

------------------------------------------------------------
-- Allocations
------------------------------------------------------------

/-
  Declare an allocation.  A note that compares members with
  another budget already is left alone.
-/
def declareAllocation
    (book : Rulebook)
    (owner : Owner)
    (note budget : Key) : Rulebook :=
  if book.allocations[note]?.any (·.budget ≠ budget) then book
  else
    match book.share owner note budget .add
        (some .negated) with
    | (book, none) => book
    | (book, some seq) =>
        { book with
          allocations :=
            book.allocations.insert note
              ⟨note, budget, seq, []⟩ }

/- Add a member to an allocation that is declared. -/
def declareMember
    (book : Rulebook)
    (owner : Owner)
    (note key : Key) : Rulebook :=
  if book.allocations.contains note then
    match book.share owner note key .add none with
    | (book, none) => book
    | (book, some seq) =>
        { book with
          allocations :=
            book.allocations.modify note fun a =>
              { a with members := a.members ++ [(key, seq)] } }
  else book

/-
  Declare something that may be chosen: it counts against the
  budget of its kind and, unless it is a boost, is granted.
-/
def declareOption
    (book : Rulebook)
    (owner : Owner)
    (kind : PoolKind)
    (name : String) : Rulebook :=
  let chosen := Key.under kind.chosenScope name
  if book.allocations.contains kind.allocation then
    let counted :=
      book.declareMember owner kind.allocation chosen
    match kind with
    | .abilityBoost => counted
    | kind =>
        (counted.share owner (.under kind.grantScope name)
          chosen .max none).1
  else book

------------------------------------------------------------
-- Adjustments
------------------------------------------------------------

/-
  The attribute that the longest possible beginning of a list
  of words names, if there is one.
-/
def adjusted?
    (book : Rulebook)
    (words : List String) : Option Key :=
  let names :=
    (List.range words.length).reverse.map fun n =>
      camelCase (Text.join " " (words.take (n + 1)))
  names.find? fun key =>
    book.settings.adjustable.contains key ||
      book.isDerived key

/- The source and the formula of an adjustment. -/
def adjustmentParts
    (gate : Key)
    (op : Adjustment)
    (amount : Amount) : Key × Option Formula :=
  let turned :=
    if op = .subtract then some Formula.negated else none
  match amount with
  | .number n =>
      (gate, some (.gated (if op = .subtract then n.neg else n)))
  | .value => (gate, turned)
  | .part index => (.under gate (toString index), turned)

/- Declare an adjustment of an attribute that is known. -/
def declareAdjustment
    (book : Rulebook)
    (owner : Owner)
    (gate : Key)
    (op : Adjustment)
    (amount : Amount)
    (words : List String) : Rulebook :=
  match book.adjusted? words with
  | none => book
  | some target =>
      let (source, formula) := adjustmentParts gate op amount
      book.addRule owner target source
        (if op = .multiply then .multiply else .add) formula

------------------------------------------------------------
-- Declarations
------------------------------------------------------------

/- Take a declaration into a rulebook. -/
def declare
    (book : Rulebook)
    (owner : Owner) : Declaration → Rulebook
  | .rule target source op formula =>
      book.addRule owner target source op formula
  | .allocation note budget =>
      book.declareAllocation owner note budget
  | .member note key => book.declareMember owner note key
  | .option kind name => book.declareOption owner kind name
  | .adjustment gate op amount words =>
      book.declareAdjustment owner gate op amount words
  | .pool kind count gate options =>
      { book with
        pools := book.pools ++
          [⟨kind, count, gate, options, owner⟩] }
  | .note key format =>
      { book with
        notes := book.notes.insert key ⟨format, owner⟩ }
  | .requirement note selector requirement =>
      { book with
        requirements := book.requirements.insert note
          ⟨selector, requirement, owner⟩ }

/- Take a list of declarations into a rulebook. -/
def declareAll
    (book : Rulebook)
    (owner : Owner)
    (ds : List Declaration) : Rulebook :=
  ds.foldl (·.declare owner) book

------------------------------------------------------------
-- Withdrawal
------------------------------------------------------------

/- The shared rules without an owner among them. -/
def disowned
    (shared : List SharedRule)
    (origin : Origin) : List SharedRule :=
  shared.map fun s =>
    { s with owners := s.owners.filter (· ≠ some origin) }

/-
  Pass over an allocation in a withdrawal, with the numbers
  of the rules that are dropped so far.  An allocation goes
  with its budget rule and drops the rules of its members as
  well; one that stays loses the members that are dropped.
-/
def sweep :
    List Nat × Std.ExtTreeMap Key Allocation →
      Key × Allocation →
        List Nat × Std.ExtTreeMap Key Allocation
  | (dropped, kept), (note, a) =>
      if dropped.contains a.budgetRule then
        (dropped ++ a.members.map (·.2), kept)
      else
        (dropped,
          kept.insert note
            { a with
              members := a.members.filter fun (_, seq) =>
                !dropped.contains seq })

/-
  Take back all that an origin has declared.  With the budget
  rule of an allocation, all of its members go as well.
-/
def withdraw (book : Rulebook) (origin : Origin) : Rulebook :=
  let shared := disowned book.shared origin
  let left :=
    (shared.filter (·.owners.isEmpty)).map (·.seq)
  let (dropped, allocations) :=
    book.allocations.toList.foldl sweep (left, ∅)
  let keeps := fun (owner : Owner) => owner ≠ some origin
  { book with
    rules := book.rules.filter fun r =>
      keeps r.owner && !dropped.contains r.seq
    shared := shared.filter fun s => !dropped.contains s.seq
    allocations := allocations
    pools := book.pools.filter (keeps ·.owner)
    notes := book.notes.filter fun _ n => keeps n.owner
    requirements :=
      book.requirements.filter fun _ r => keeps r.owner }

end Rulebook

end CharSheet
