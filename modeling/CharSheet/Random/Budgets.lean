import CharSheet.Random.Source
import CharSheet.Rulebook.Sheet

/-
  Random choices within budgets.

  The members of an allocation are tried in a random order
  until the budget is spent.  One whose requirements fail is
  taken back.

  Key definitions include:
    * `isValidMember`
    * `Selection`
    * `tryMembers`
    * `Random.fillAllocation`
    * `Random.fillBudgets`
    * `isAllowed`
    * `Random.fillPool`
-/

namespace CharSheet

------------------------------------------------------------
-- Members
------------------------------------------------------------

/-
  No validation note of a requirement of selecting the member
  counts an unmet clause.
-/
def isValidMember
    (book : Rulebook)
    (sheet : Store)
    (member : Key) : Bool :=
  book.requirements.toList.all fun (note, r) =>
    r.selector ≠ member ||
      !Key.isUnder note "validationNotes" ||
      (sheet.number? note).all (·.isZero)

/- The members that were kept, and the store with them. -/
structure Selection where
  kept : List Key
  store : Store

/- A member was kept before the others. -/
def Selection.after (s : Selection) (key : Key) : Selection :=
  { s with kept := key :: s.kept }

/-
  Try members one after another while something is left of the
  budget and not too many of them have failed.
-/
def tryMembers
    (book : Rulebook)
    (plan : Plan) :
    List Key → Number → Nat → Store → Selection
  | [], _, _, store => ⟨[], store⟩
  | key :: keys, left, failures, store =>
      if left.lt 1 || book.settings.randomRetries ≤ failures then
        ⟨[], store⟩
      else
        let tried := store.insert key (.ofNat 1)
        if isValidMember book (plan.sheet tried) key then
          (tryMembers book plan keys (left.sub 1) failures
            tried).after key
        else
          tryMembers book plan keys left (failures + 1)
            (tried.erase key)

namespace Random

/-
  Select random members of an allocation, of those that are
  allowed and not selected yet, as far as the budget goes.
-/
def fillAllocation
    (book : Rulebook)
    (plan : Plan)
    (allowed : Key → Bool)
    (store : Store)
    (note : Key)
    (allocation : Allocation) : Random Selection := do
  let sheet := plan.sheet store
  let some excess := sheet.number? note
    | return ⟨[], store⟩
  let keys ← shuffle
    (allocation.keys.filter fun key =>
      !store.truthy key && allowed key)
  return tryMembers book plan keys excess.neg 0 store

/- Spend all budgets under a scope. -/
def fillBudgets
    (book : Rulebook)
    (plan : Plan)
    (scope : String)
    (store : Store) : Random Store :=
  (book.allocations.toList.filter fun (_, a) =>
    Key.isUnder a.budget scope).foldlM
      (fun store (note, a) => do
        let selection ←
          fillAllocation book plan (fun _ => true) store note a
        return selection.store)
      store

end Random

------------------------------------------------------------
-- Pools
------------------------------------------------------------

/- A pool allows anything. -/
def Pool.allowsAny (p : Pool) : Bool :=
  match p.options with
  | none => true
  | some options => options.any (equalIgnoringCase · "any")

/- A pool names the option of a member. -/
def Pool.names (p : Pool) (member : Key) : Bool :=
  (p.options.getD []).any fun option =>
    Key.under p.kind.chosenScope option = member

/-
  A member may be chosen from the open pools of a kind: it is
  not granted, and some pool allows it.
-/
def isAllowed
    (pools : List Pool)
    (kind : PoolKind)
    (sheet : Store)
    (member : Key) : Bool :=
  let active :=
    pools.filter fun p =>
      p.kind = kind && sheet.truthy p.gate
  !sheet.truthy (.under kind.grantScope member.name) &&
    active.any fun p => p.allowsAny || p.names member

/- Spend the budget of a kind on what its pools allow. -/
def Random.fillPool
    (book : Rulebook)
    (plan : Plan)
    (kind : PoolKind)
    (store : Store) : Random Store := do
  match book.allocations[kind.allocation]? with
  | none => return store
  | some a =>
      let sheet := plan.sheet store
      let allowed := isAllowed book.pools kind sheet
      let selection ←
        fillAllocation book plan allowed store
          kind.allocation a
      return selection.store

end CharSheet
