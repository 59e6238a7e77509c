import CharSheet.Proofs.Random.Outcome
import CharSheet.Repair
import Mathlib.Data.List.Perm.Subperm
import Mathlib.Logic.Relation

/-
  What mending a note changes.

  Whatever is mended, and by whichever draws, the inputs are
  only changed by writing, and each write is put down as a
  fix.  A note of an allocation is mended by its members; one
  of a requirement by an input that fulfils a test of it, by
  removing its selector, or by another choice of its kind.

  Main declarations:
    * `Repair.Fulfils`
    * `Rulebook.Mends`
    * `Repair.Writes`, `Repair.WritesAll`
    * `Repair.WritesAll.exists_fixes`
    * `Repair.WritesFirst`, `Repair.ensures_writesFirst`
    * `Repair.ensures_mendNote`
    * `Repair.ensures_pass`
-/

namespace CharSheet

------------------------------------------------------------
-- Fixes
------------------------------------------------------------

/- Make changes one after another. -/
def Fix.replay (store : Store) (fixes : List Fix) : Store :=
  fixes.foldl (fun store fix => store.put fix.attr fix.value)
    store

theorem Fix.replay_append
    (store : Store)
    (fixes later : List Fix) :
    replay store (fixes ++ later) =
      replay (replay store fixes) later :=
  List.foldl_append

/-
  A change of an input by which a test is to be fulfilled.  A
  bare test is given the number one, whatever it reads; a
  comparison of a selector is given the name of a choice that
  fulfils it.
-/
structure Repair.Fulfils
    (book : Rulebook)
    (test : Test)
    (key : Key)
    (value : Option Value) : Prop where
  attr : test.attr? = some key
  bare :
    test.comparison = none →
      book.isDerived key = false ∧ value = some (.ofNat 1)
  selects :
    ∀ kind, selectedKind? key = some kind →
      test.comparison ≠ none →
        ∃ name ∈ fulfillingNames book kind key test,
          value = some (.text name)

/- The fixes by which a rulebook lets notes be mended. -/
inductive Rulebook.Mends (book : Rulebook) : Fix → Prop where
  | removal
      (note key : Key) :
      Mends book ⟨note, key, none⟩
  | member
      {note key : Key}
      {allocation : Allocation}
      (value : Option Value)
      (hNote : book.allocations[note]? = some allocation)
      (hKey : key ∈ allocation.keys) :
      Mends book ⟨note, key, value⟩
  | identity
      {kind : ChoiceKind}
      {key : Key}
      {name : String}
      (note : Key)
      (hKind : kind.selector? = some key)
      (hName : name ∈ book.choiceNames kind) :
      Mends book ⟨note, key, some (.text name)⟩
  | fulfilment
      {note key : Key}
      {r : NotedRequirement}
      {clause : Clause}
      {test : Test}
      {value : Option Value}
      (hNote : book.requirements[note]? = some r)
      (hClause : clause ∈ r.requirement.clauses)
      (hTest : test ∈ clause.alternatives)
      (hFulfils : Repair.Fulfils book test key value) :
      Mends book ⟨note, key, value⟩

namespace Repair

------------------------------------------------------------
-- Writes
------------------------------------------------------------

variable {book : Rulebook}
variable {sheet : Store}
variable {p q : Repair}
variable {note : Key}

/- A change that mends a note leads to another repair. -/
def Writes (book : Rulebook) (p q : Repair) : Prop :=
  ∃ fix, book.Mends fix ∧
    q = p.write fix.note fix.attr fix.value

/- Some changes lead from a repair to another one. -/
abbrev WritesAll (book : Rulebook) : Repair → Repair → Prop :=
  Relation.ReflTransGen (Writes book)

theorem writesAll_write
    {fix : Fix}
    (h : book.Mends fix)
    (p : Repair) :
    WritesAll book p (p.write fix.note fix.attr fix.value) :=
  Relation.ReflTransGen.single ⟨fix, h, rfl⟩

/- The changes are those that are put down as fixes. -/
theorem WritesAll.exists_fixes
    (h : WritesAll book p q) :
    ∃ fixes, q.fixes = p.fixes ++ fixes ∧
      (∀ fix ∈ fixes, book.Mends fix) ∧
      q.store = Fix.replay p.store fixes := by
  induction h with
  | refl =>
      exact ⟨[], (List.append_nil _).symm, nofun, rfl⟩
  | tail _ hStep ih =>
      rcases ih with ⟨fixes, hFixes, hMends, hStore⟩
      rcases hStep with ⟨fix, hFix, rfl⟩
      refine ⟨fixes ++ [fix], ?_, ?_, ?_⟩
      · simp only [write, hFixes, List.append_assoc]
      · exact List.forall_mem_append.mpr
          ⟨hMends, List.forall_mem_singleton.mpr hFix⟩
      · rw [Fix.replay_append, ← hStore]
        rfl

------------------------------------------------------------
-- Allocations
------------------------------------------------------------

variable {allocation : Allocation}

/-
  The first of some members are written for a note, one after
  another and each of them once.
-/
inductive WritesFirst (note : Key) :
    List Key → Repair → Repair → Prop where
  | stop (keys : List Key) (p : Repair) :
      WritesFirst note keys p p
  | write
      {key : Key}
      {keys : List Key}
      {p q : Repair}
      (value : Option Value)
      (h : WritesFirst note keys (p.write note key value) q) :
      WritesFirst note (key :: keys) p q

theorem writesFirst_lower
    (note : Key)
    (excess : Number)
    (keys : List Key)
    (p : Repair) :
    WritesFirst note keys p (lower note excess keys p) := by
  induction keys generalizing excess p with
  | nil => exact .stop [] p
  | cons key keys ih =>
      unfold lower
      split
      · exact .stop (key :: keys) p
      · exact .write _ (ih _ _)

theorem writesFirst_raise
    (note : Key)
    (excess : Number)
    (keys : List Key)
    (p : Repair) :
    WritesFirst note keys p (raise note excess keys p) := by
  induction keys generalizing excess p with
  | nil => exact .stop [] p
  | cons key keys ih =>
      unfold raise
      split
      · exact .stop (key :: keys) p
      · exact .write _ (ih _ _)

/-
  Whether members are lowered or raised, those that are
  written are some of the allocation's, in a random order, and
  have not been changed before.
-/
theorem ensures_writesFirst
    (sheet : Store)
    (note : Key)
    (allocation : Allocation)
    (p : Repair) :
    Random.Ensures (mendAllocation book sheet note allocation p)
      fun q => ∃ keys, keys.Subperm allocation.keys ∧
        (∀ key ∈ keys, p.hasChanged key = false) ∧
          WritesFirst note keys p q := by
  have hChosen
      {isChosen : Key → Bool}
      {keys : List Key}
      (hPerm :
        keys.Perm ((allocation.keys.filter
          fun key => !p.hasChanged key).filter isChosen)) :
      keys.Subperm allocation.keys ∧
        ∀ key ∈ keys, p.hasChanged key = false := by
    constructor
    · exact hPerm.subperm.trans (List.filter_sublist.trans
        List.filter_sublist).subperm
    · intro key hKey
      have hFiltered := hPerm.mem_iff.mp hKey
      exact (Bool.not_eq_true' _).mp (List.mem_filter.mp
        (List.mem_filter.mp hFiltered).1).2
  unfold mendAllocation
  dsimp only
  split
  · refine (Random.ensures_shuffle _).bind fun keys hPerm => ?_
    rcases hChosen hPerm with ⟨hSub, hUnchanged⟩
    exact Random.ensures_pure
      ⟨keys, hSub, hUnchanged, writesFirst_lower note _ keys p⟩
  · refine (Random.ensures_shuffle _).bind fun keys hPerm => ?_
    rcases hChosen hPerm with ⟨hSub, hUnchanged⟩
    exact Random.ensures_pure
      ⟨keys, hSub, hUnchanged, writesFirst_raise note _ keys p⟩

/- To write members of an allocation is to mend its note. -/
theorem WritesFirst.writesAll
    {keys : List Key}
    (h : WritesFirst note keys p q)
    (hNote : book.allocations[note]? = some allocation)
    (hKeys : ∀ key ∈ keys, key ∈ allocation.keys) :
    WritesAll book p q := by
  induction h with
  | stop => exact Relation.ReflTransGen.refl
  | write value _ ih =>
      rcases List.forall_mem_cons.mp hKeys with ⟨hKey, hRest⟩
      exact (writesAll_write (.member value hNote hKey) _).trans
        (ih hRest)

/- An allocation is mended by its members. -/
theorem ensures_mendAllocation
    (hNote : book.allocations[note]? = some allocation)
    (p : Repair) :
    Random.Ensures (mendAllocation book sheet note allocation p)
      (WritesAll book p) := by
  refine (ensures_writesFirst sheet note allocation p).mono ?_
  rintro q ⟨keys, hSub, -, hWrites⟩
  exact hWrites.writesAll hNote fun _ hKey => hSub.subset hKey

------------------------------------------------------------
-- Requirements
------------------------------------------------------------

theorem ensures_replaceIdentity
    (note : Key)
    (origin : Origin)
    (p : Repair) :
    Random.Ensures (replaceIdentity book note origin p)
      (WritesAll book p) := by
  have hStay : Random.Ensures (pure p) (WritesAll book p) :=
    Random.ensures_pure Relation.ReflTransGen.refl
  unfold replaceIdentity
  split
  · split
    · next hSelector =>
        split
        · exact hStay
        · refine (Random.ensures_pick _).bind ?_
          intro other hOther
          refine Random.ensures_pure ?_
          cases other with
          | none => exact writesAll_write (.removal note _) p
          | some name =>
              have hName :=
                (List.mem_filter.mp (hOther name rfl)).1
              exact writesAll_write
                (.identity note hSelector hName) p
    · exact hStay
  · exact hStay

theorem ensures_deselect
    (note : Key)
    (r : NotedRequirement)
    (p : Repair) :
    Random.Ensures (deselect book note r p)
      (WritesAll book p) := by
  unfold deselect
  split
  · exact Random.ensures_pure
      (writesAll_write (.removal note r.selector) p)
  · split
    · exact Random.ensures_pure Relation.ReflTransGen.refl
    · exact ensures_replaceIdentity note _ p

/- What is done for a test is to fulfil it. -/
theorem ensures_fulfil?
    (p : Repair)
    (test : Test) :
    Random.Ensures (fulfil? book sheet p test) fun change =>
      ∀ c ∈ change, Fulfils book test c.1 c.2 := by
  have hNone :
      Random.Ensures (pure none)
        fun change : Option (Key × Option Value) =>
          ∀ c ∈ change, Fulfils book test c.1 c.2 :=
    Random.ensures_pure fun c h => nomatch h
  unfold fulfil?
  split
  · next key hAttr =>
      split
      · exact hNone
      · split
        · next hBare =>
            split
            · exact hNone
            · next hInput =>
                refine Random.ensures_pure ?_
                rintro c ⟨⟩
                refine ⟨hAttr, fun _ => ⟨?_, rfl⟩, ?_⟩
                · exact eq_false_of_ne_true hInput
                · intro kind _ hCompared
                  exact absurd hBare hCompared
        · next comparison kind hComparison hKind =>
            refine (Random.ensures_pick _).bind ?_
            intro name hName
            refine Random.ensures_pure ?_
            intro c hChange
            rcases Option.map_eq_some_iff.mp hChange with
              ⟨picked, hPicked, rfl⟩
            refine ⟨hAttr, fun hBare => ?_, ?_⟩
            · exact nomatch hComparison.symm.trans hBare
            · intro other hOther _
              cases hKind.symm.trans hOther
              exact ⟨picked, hName picked hPicked, rfl⟩
        · next comparison hComparison hKind =>
            refine Random.ensures_pure ?_
            intro c hChange
            rcases Option.map_eq_some_iff.mp hChange with
              ⟨value, _, rfl⟩
            refine ⟨hAttr, fun hBare => ?_, ?_⟩
            · exact nomatch hComparison.symm.trans hBare
            · intro kind hSome _
              exact nomatch hKind.symm.trans hSome
  · exact hNone

/- The change that is made fulfils one of the tests. -/
theorem ensures_fulfilFirst?
    (p : Repair)
    (tests : List Test) :
    Random.Ensures (fulfilFirst? book sheet p tests)
      fun change =>
        ∀ c ∈ change, ∃ test ∈ tests,
          Fulfils book test c.1 c.2 := by
  induction tests with
  | nil => exact Random.ensures_pure fun c h => nomatch h
  | cons test tests ih =>
      refine (ensures_fulfil? p test).bind ?_
      intro change hChange
      cases change with
      | none =>
          refine ih.mono ?_
          intro change h c hMem
          rcases h c hMem with ⟨later, hLater, hFulfils⟩
          exact ⟨later, List.mem_cons_of_mem test hLater,
            hFulfils⟩
      | some change =>
          refine Random.ensures_pure ?_
          rintro c ⟨⟩
          exact ⟨test, List.mem_cons_self, hChange _ rfl⟩

/- A requirement is mended by one of its tests, if at all. -/
theorem ensures_mendRequirement
    {r : NotedRequirement}
    (hNote : book.requirements[note]? = some r)
    (p : Repair) :
    Random.Ensures (mendRequirement book sheet note r p)
      (WritesAll book p) := by
  unfold mendRequirement
  refine (Random.ensures_pick _).bind ?_
  intro clause hClause
  cases clause with
  | none => exact ensures_deselect note r p
  | some clause =>
      have hClause' :=
        (List.mem_filter.mp (hClause clause rfl)).1
      refine (Random.ensures_shuffle _).bind ?_
      intro tests hPerm
      refine (ensures_fulfilFirst? p tests).bind ?_
      intro change hChange
      cases change with
      | none => exact ensures_deselect note r p
      | some change =>
          rcases hChange change rfl with
            ⟨test, hTest, hFulfils⟩
          refine Random.ensures_pure (writesAll_write
            (.fulfilment hNote hClause' ?_ hFulfils) p)
          exact hPerm.mem_iff.mp hTest

------------------------------------------------------------
-- Passes
------------------------------------------------------------

/- Whatever a note reports, it is mended by writing. -/
theorem ensures_mendNote
    (p : Repair)
    (note : Key) :
    Random.Ensures (mendNote book sheet p note)
      (WritesAll book p) := by
  unfold mendNote
  split
  · next hNote => exact ensures_mendAllocation hNote p
  · next hNote => exact ensures_mendRequirement hNote p
  · exact Random.ensures_pure Relation.ReflTransGen.refl

/- The fixes of a pass mend notes, and are what it changes. -/
theorem ensures_pass (store : Store) :
    Random.Ensures (pass book sheet store) fun p =>
      (∀ fix ∈ p.fixes, book.Mends fix) ∧
        p.store = Fix.replay store p.fixes := by
  have hWrites :
      Random.Ensures (pass book sheet store)
        (WritesAll book (.start store)) := by
    refine Random.ensures_foldlM ?_ ?_
    · intro p note _ h
      exact (ensures_mendNote p note).mono fun _ => h.trans
    · exact Relation.ReflTransGen.refl
  refine hWrites.mono ?_
  intro p h
  rcases h.exists_fixes with ⟨fixes, hFixes, hMends, hStore⟩
  change p.fixes = [] ++ fixes at hFixes
  rw [hFixes]
  exact ⟨hMends, hStore⟩

end Repair

end CharSheet
