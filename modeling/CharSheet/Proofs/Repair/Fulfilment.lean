import CharSheet.Proofs.Random.Outcome
import CharSheet.Proofs.Rulebook.Command
import CharSheet.Proofs.Sheet.Tally
import CharSheet.Proofs.Value.Comparison
import CharSheet.Repair

/-
  Changes that fulfil their tests.

  A change is proposed from what a test says and from the
  sheet that was computed before.  It is judged on the sheet
  that is computed after it, by the expression of the test.
  Where no rule computes the attribute, the two agree: what is
  written is what the test reads.

  Main declarations:
    * `Test.IsExact`
    * `Repair.Proposes`
    * `Repair.ensures_proposes_fulfil?`
    * `Repair.Proposes.holds`
    * `Repair.holds_fulfilled`
-/

namespace CharSheet

------------------------------------------------------------
-- Comparisons
------------------------------------------------------------

namespace Value

variable {v w : Value}
variable {i j : Int}

/- Values that are integers are compared as integers. -/
theorem looseCmp?_of_integer?
    (hv : v.integer? = some i)
    (hw : w.integer? = some j) :
    v.looseCmp? w = some (compare i j) := by
  rcases Option.bind_eq_some_iff.mp hv with ⟨x, hx, hi⟩
  rcases Option.bind_eq_some_iff.mp hw with ⟨y, hy, hj⟩
  unfold looseCmp?
  rw [hx, hy]
  exact Number.cmp?_of_integer? hi hj

theorem looseEq_of_integer?
    (hv : v.integer? = some i)
    (hw : w.integer? = some j) :
    v.looseEq w = decide (i = j) := by
  rcases Option.bind_eq_some_iff.mp hv with ⟨x, hx, hi⟩
  rcases Option.bind_eq_some_iff.mp hw with ⟨y, hy, hj⟩
  unfold looseEq
  rw [hx, hy]
  change (x.cmp? y == some .eq) = decide (i = j)
  rw [Number.cmp?_of_integer? hi hj]
  by_cases hEq : i = j
  · simp [hEq]
  · simp [hEq]

/- An integer as a value is that integer. -/
theorem integer?_number
    {x : Number}
    (h : x.integer? = some i) :
    (Value.number x).integer? = some i := by
  rcases Number.exists_ofWhole_eq h with ⟨a, rfl, -⟩
  rw [integer?, number?, Number.isNaN_ofWhole]
  exact h

end Value

namespace Relation

/- The integer next to another one that is so related to it. -/
def nearest (r : Relation) (i : Int) : Int :=
  match r with
  | .atLeast | .atMost | .equal => i
  | .greater | .notEqual => i + 1
  | .less => i - 1

variable {i j : Int}

theorem natAbs_nearest_le (r : Relation) (i : Int) :
    (r.nearest i).natAbs ≤ i.natAbs + 1 := by
  cases r <;> simp only [nearest] <;> omega

/- The nearest number of an integer is the nearest integer. -/
theorem integer?_nearestFulfilling
    {x : Number}
    (r : Relation)
    (hx : x.integer? = some i)
    (hLimit : i.natAbs < Number.countLimit) :
    (Repair.nearestFulfilling r x).integer? =
      some (r.nearest i) := by
  have hOne : (1 : Number).integer? = some 1 := by decide
  cases r with
  | atLeast | atMost | equal => exact hx
  | greater | notEqual =>
      exact Number.integer?_add hx hOne (by omega)
  | less => exact Number.integer?_sub hx hOne (by omega)

/- It is related to the integer. -/
theorem holds_nearest
    {v w : Value}
    (r : Relation)
    (hv : v.integer? = some (r.nearest i))
    (hw : w.integer? = some i) :
    holds (r.operator.eval (some v) (some w)) = true := by
  have hCmp := Value.looseCmp?_of_integer? hv hw
  have hEq := Value.looseEq_of_integer? hv hw
  cases r with
  | equal =>
      change v.looseEq w = true
      rw [hEq]
      exact decide_eq_true rfl
  | notEqual =>
      change (!v.looseEq w) = true
      rw [hEq, decide_eq_false (by simp [nearest])]
      rfl
  | atLeast =>
      change (v.looseCmp? w).any _ = true
      rw [hCmp]
      simp [nearest]
  | atMost =>
      change (v.looseCmp? w).any _ = true
      rw [hCmp]
      simp [nearest]
  | greater =>
      change (v.looseCmp? w).any _ = true
      rw [hCmp]
      simp [nearest, Int.compare_eq_gt]
  | less =>
      change (v.looseCmp? w).any _ = true
      rw [hCmp]
      simp [nearest, Int.compare_eq_lt]

end Relation

------------------------------------------------------------
-- Tests
------------------------------------------------------------

namespace Test

/-
  If an attribute is compared with a number, that number is an
  integer, and so is the number that the attribute has in the
  store.  They are small enough for a sum of both to be exact.
-/
def IsExact (test : Test) (s : Store) : Prop :=
  ∀ key r v x,
    test = ⟨.attr key, some (.relation r v)⟩ →
      v.number? = some x →
        ∃ i j : Int, x.integer? = some i ∧
          ((s.number? key).getD 0).integer? = some j ∧
            i.natAbs + j.natAbs < Number.countLimit

/- A test of an attribute looks at nothing else. -/
theorem holds_congr
    {s t : Store}
    {key : Key}
    (h : s[key]? = t[key]?)
    (comparison : Option Comparison) :
    holds ⟨.attr key, comparison⟩ s =
      holds ⟨.attr key, comparison⟩ t := by
  have hSubject :
      (Subject.attr key).toExpr.eval none s =
        (Subject.attr key).toExpr.eval none t :=
    h
  unfold holds
  congr 1
  match comparison with
  | none => exact hSubject
  | some (.relation r v) =>
      simp only [toExpr, Expr.eval, hSubject]
  | some (.match true _ _) =>
      simp only [toExpr, Expr.eval, hSubject]
  | some (.match false _ _) =>
      simp only [toExpr, Expr.eval, hSubject]

/- A comparison is one of what the attribute is. -/
theorem holds_relation
    (s : Store)
    (key : Key)
    (r : Relation)
    (v : Value) :
    holds ⟨.attr key, some (.relation r v)⟩ s =
      CharSheet.holds (r.operator.eval s[key]? (some v)) :=
  rfl

end Test

namespace Repair

------------------------------------------------------------
-- Proposals
------------------------------------------------------------

/-
  What is proposed for a test of an attribute: the number one
  for a bare test, the name of a choice for a selector, and
  for another comparison the input that leads to the nearest
  number, the word itself, or the removal of the word.
-/
inductive Proposes
    (book : Rulebook)
    (sheet : Store)
    (p : Repair)
    (key : Key) : Test → Option Value → Prop where
  | one :
      Proposes book sheet p key ⟨.attr key, none⟩
        (some (.ofNat 1))
  | name
      {kind : ChoiceKind}
      {comparison : Comparison}
      {name : String}
      (hName : name ∈ fulfillingNames book kind key
        ⟨.attr key, some comparison⟩) :
      Proposes book sheet p key ⟨.attr key, some comparison⟩
        (some (.text name))
  | number
      (r : Relation)
      {v : Value}
      {x : Number}
      (hNumber : v.number? = some x) :
      Proposes book sheet p key
        ⟨.attr key, some (.relation r v)⟩
        (some (.number
          ((((p.store.number? key).getD 0).add
            (nearestFulfilling r x)).sub
              ((sheet.number? key).getD 0))))
  | word
      {v : Value}
      (hWord : v.number? = none) :
      Proposes book sheet p key
        ⟨.attr key, some (.relation .equal v)⟩ (some v)
  | removal
      {v : Value}
      (hWord : v.number? = none) :
      Proposes book sheet p key
        ⟨.attr key, some (.relation .notEqual v)⟩ none

variable {book : Rulebook}
variable {sheet : Store}
variable {p : Repair}
variable {key : Key}
variable {test : Test}
variable {value : Option Value}

/- What may be set has not been changed in the pass. -/
theorem hasChanged_of_maySet
    (h : p.maySet book key = true) :
    p.hasChanged key = false :=
  (Bool.not_eq_true' _).mp ((Bool.and_eq_true _ _).mp h).1

/- The comparison of an attribute leads to a proposal. -/
theorem proposes_fulfilling?
    {comparison : Comparison}
    (h : p.fulfilling? sheet key comparison = some value) :
    Proposes book sheet p key ⟨.attr key, some comparison⟩
      value := by
  cases comparison with
  | «match» wanted v pattern => cases h
  | relation r v =>
      unfold fulfilling? at h
      cases hNumber : v.number? with
      | some x =>
          simp only [hNumber, Option.some.injEq] at h
          subst h
          exact .number r hNumber
      | none =>
          simp only [hNumber] at h
          cases r with
          | equal =>
              cases h
              exact .word hNumber
          | notEqual =>
              cases h
              exact .removal hNumber
          | _ => cases h

/-
  Whatever is drawn, what is proposed for a test is a change
  of the attribute that it reads, which may be set.
-/
theorem ensures_proposes_fulfil?
    (book : Rulebook)
    (sheet : Store)
    (p : Repair)
    (test : Test) :
    Random.Ensures (fulfil? book sheet p test) fun change =>
      ∀ c ∈ change, p.maySet book c.1 = true ∧
        Proposes book sheet p c.1 test c.2 := by
  have hNone :
      Random.Ensures (pure none)
        fun change : Option (Key × Option Value) =>
          ∀ c ∈ change, p.maySet book c.1 = true ∧
            Proposes book sheet p c.1 test c.2 :=
    Random.ensures_pure nofun
  rcases test with ⟨subject, comparison⟩
  unfold fulfil?
  cases subject with
  | gather kind pattern => exact hNone
  | attr key =>
      change Random.Ensures
        (if !p.maySet book key then pure none else _) _
      cases hMay : p.maySet book key with
      | false => exact hNone
      | true =>
          cases comparison with
          | none =>
              change Random.Ensures
                (if book.isDerived key then pure none
                  else pure _) _
              split
              · exact hNone
              · refine Random.ensures_pure ?_
                rintro c ⟨⟩
                exact ⟨hMay, .one⟩
          | some comparison =>
              cases hKind : selectedKind? key with
              | some kind =>
                  refine (Random.ensures_pick _).bind ?_
                  intro picked hPicked
                  refine Random.ensures_pure ?_
                  intro c hChange
                  rcases Option.map_eq_some_iff.mp hChange with
                    ⟨name, hName, rfl⟩
                  exact ⟨hMay, .name (hPicked name hName)⟩
              | none =>
                  refine Random.ensures_pure ?_
                  intro c hChange
                  rcases Option.map_eq_some_iff.mp hChange with
                    ⟨value, hValue, rfl⟩
                  exact ⟨hMay, proposes_fulfilling? hValue⟩

/- A test holds where its attribute is what is proposed. -/
theorem Proposes.holds
    (h : Proposes book sheet p key test value)
    (hSame : sheet[key]? = p.store[key]?)
    (hExact : test.IsExact p.store)
    {after : Store}
    (hAfter : after[key]? = value) :
    test.holds after = true := by
  cases h with
  | one =>
      change CharSheet.holds after[key]? = true
      rw [hAfter]
      rfl
  | @name kind comparison name hName =>
      have hTried := (List.mem_filter.mp hName).2
      rw [← hTried]
      apply Test.holds_congr
      rw [hAfter, Key.getElem?_insert, if_pos rfl]
  | @number r v x hNumber =>
      rcases hExact key r v x rfl hNumber with
        ⟨i, j, hx, hInput, hLimit⟩
      have hSheet : sheet.number? key = p.store.number? key := by
        rw [Store.number?, Store.number?, hSame]
      have hNearest := Relation.natAbs_nearest_le r i
      -- What is added to the input is taken from it again.
      have hSum := Number.integer?_add hInput
        (r.integer?_nearestFulfilling hx (by omega)) (by omega)
      have hValue := Number.integer?_sub hSum hInput (by omega)
      rw [add_sub_cancel_left] at hValue
      rw [Test.holds_relation, hAfter, hSheet]
      apply r.holds_nearest (Value.integer?_number hValue)
      rw [Value.integer?, hNumber]
      exact hx
  | word hWord =>
      rw [Test.holds_relation, hAfter]
      exact Value.looseEq_self_of_word hWord
  | removal hWord =>
      rw [Test.holds_relation, hAfter]
      rfl

/-
  During a pass that began with some inputs and their sheet,
  and whatever is drawn: if a change of an attribute that no
  rule computes is proposed for a test, the test holds on the
  sheet of the changed inputs.
-/
theorem holds_fulfilled
    (book : Rulebook)
    (store : Store)
    (p : Repair)
    (test : Test)
    (hKept : ∀ key, p.hasChanged key = false →
      p.store[key]? = store[key]?)
    (hExact : test.IsExact p.store) :
    Random.Ensures (fulfil? book (book.sheet store) p test)
      fun change =>
        ∀ key value, change = some (key, value) →
          ¬ book.IsTarget key →
            test.holds
              (book.sheet (p.store.put key value)) = true := by
  refine (ensures_proposes_fulfil? book _ p test).mono ?_
  intro change hChange key value hSome hInput
  rcases hChange (key, value) hSome with ⟨hMay, hProposes⟩
  have hUnchanged := hasChanged_of_maySet hMay
  apply hProposes.holds
  · rw [Rulebook.getElem?_sheet_of_not_isTarget hInput,
      hKept key hUnchanged]
  · exact hExact
  · rw [Rulebook.getElem?_sheet_of_not_isTarget hInput,
      Store.getElem?_put, if_pos rfl]

/-
  A feat asks for more than 13 of an ability that is 10, after
  another ability has been changed: 14 is proposed, which is
  enough on the sheet.
-/
theorem holds_fulfilled_strength :
    let book :=
      Command.runAll none (Rulebook.empty .standard)
        [.register .feat "Grappler" "Require=\"strength > 13\""]
    let store : Store :=
      .ofList [("feats.Grappler", Value.ofNat 1),
        ("strength", .ofNat 10)]
    let p := (Repair.start store).write
      "validationNotes.quick" "dexterity" (some (.ofNat 13))
    let test : Test :=
      ⟨.attr "strength", some (.relation .greater (.ofNat 13))⟩
    (∀ key, p.hasChanged key = false →
        p.store[key]? = store[key]?) ∧
      test.IsExact p.store ∧
        ¬ book.IsTarget "strength" ∧
          test.holds (book.sheet p.store) = false ∧
            test.holds (book.sheet
              (p.store.put "strength" (some (.ofNat 14)))) =
                true := by
  intro book store p test
  have hKept : ∀ key, p.hasChanged key = false →
      p.store[key]? = store[key]? := by
    intro key hUnchanged
    rw [hasChanged_write, hasChanged_start, Bool.false_or]
      at hUnchanged
    have hOther : "dexterity" ≠ key :=
      of_decide_eq_false hUnchanged
    exact (Store.getElem?_put store "dexterity" key _).trans
      (if_neg hOther)
  have hExact : test.IsExact p.store := by
    intro key r v x hTest hNumber
    change Test.mk (.attr "strength")
      (some (.relation .greater (.ofNat 13))) = _ at hTest
    cases hTest
    cases hNumber
    exact ⟨13, 10, by decide +kernel⟩
  have hInput : ¬ book.IsTarget "strength" := by
    unfold Rulebook.IsTarget
    decide +kernel
  have hSheet (s : Store) :
      (book.sheet s)["strength"]? = s["strength"]? :=
    Rulebook.getElem?_sheet_of_not_isTarget hInput s
  have hBefore : test.holds (book.sheet p.store) = false := by
    rw [Test.holds_relation, hSheet]
    decide +kernel
  have hMay : p.maySet book "strength" = true := by
    decide +kernel
  have hProposed :
      p.fulfilling? (book.sheet store) "strength"
          (.relation .greater (.ofNat 13)) =
        some (some (.ofNat 14)) := by
    simp only [fulfilling?, Store.number?, hSheet]
    decide +kernel
  have hChange :
      fulfil? book (book.sheet store) p test =
        pure (some ("strength", some (.ofNat 14))) := by
    change (if !p.maySet book "strength" then pure none
      else pure ((p.fulfilling? (book.sheet store) "strength"
        _).map _)) = _
    rw [hMay, hProposed]
    rfl
  have hHolds := holds_fulfilled book store p test hKept hExact
    (Source.ofSeed 0 #[])
  rw [hChange] at hHolds
  exact ⟨hKept, hExact, hInput, hBefore,
    hHolds "strength" (some (.ofNat 14)) rfl hInput⟩

end Repair

end CharSheet
