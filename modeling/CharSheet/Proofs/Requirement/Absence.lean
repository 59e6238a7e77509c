import CharSheet.Proofs.Requirement.Holding

/-
  Tests of an attribute that is absent.

  What comes of a comparison with an absent attribute depends
  neither on the value nor on the pattern.  A comparison that
  asks for an order, for the same value or for a match fails.
  One that asks for another value, or for no match, holds.

  Main declarations:
    * `Comparison.isNegative`
    * `Relation.eval_absent`
    * `Test.holds_of_absent`
    * `Clause.holds_iff_of_absent`
    * `Requirement.unmet_of_absent_iff`
    * `Requirement.not_forall_fails_of_absent`
-/

namespace CharSheet

/- The comparison asks for another value, or for no match. -/
def Comparison.isNegative : Comparison → Bool
  | .relation r _ => r = .notEqual
  | .match wanted _ _ => !wanted

/- Of all relations, only inequality takes an absent side. -/
theorem Relation.eval_absent
    (r : Relation)
    (v : Value) :
    r.operator.eval none (some v) =
      some (.bool (r = .notEqual)) := by
  cases r with
  | atLeast => rfl
  | atMost => rfl
  | greater => rfl
  | less => rfl
  | equal => rfl
  | notEqual => rfl

section Absent

variable {test : Test}
variable {comparison : Comparison}
variable {key : Key}
variable {sheet : Store}
variable (hSubject : test.attr? = some key)
variable (hComparison : test.comparison = some comparison)
variable (hAbsent : sheet[key]? = none)

include hSubject hComparison hAbsent

/-
  A test that compares an absent attribute holds if it is
  negative.  A pattern is not matched at all, so that there
  are no matches to be found.
-/
theorem Test.holds_of_absent :
    test.holds sheet = comparison.isNegative := by
  rcases test with ⟨subject, asked⟩
  cases subject with
  | gather kind p => cases hSubject
  | attr k =>
      cases hSubject
      cases hComparison
      unfold Test.holds Test.toExpr
      cases comparison with
      | relation r v =>
          simp [Subject.toExpr, Expr.eval, hAbsent,
            Relation.eval_absent, CharSheet.holds, Value.truthy,
            Comparison.isNegative]
      | «match» wanted v p =>
          cases wanted with
          | true =>
              simp [Subject.toExpr, Expr.eval, hAbsent,
                CharSheet.holds, Comparison.isNegative]
          | false =>
              simp [Subject.toExpr, Expr.eval, hAbsent,
                UnaryOp.eval, CharSheet.holds, Value.truthy,
                Comparison.isNegative]

/- A clause with such a test holds by it, or by another one. -/
theorem Clause.holds_iff_of_absent
    {c : Clause}
    (hTest : test ∈ c.alternatives) :
    c.holds sheet = true ↔
      comparison.isNegative = true ∨
        ∃ other ∈ c.alternatives, other ≠ test ∧
          other.holds sheet = true := by
  have hOwn :=
    Test.holds_of_absent hSubject hComparison hAbsent
  rw [Clause.holds, List.any_eq_true]
  constructor
  · rintro ⟨other, hOther, hHolds⟩
    by_cases hSame : other = test
    · rw [hSame, hOwn] at hHolds
      exact .inl hHolds
    · exact .inr ⟨other, hOther, hSame, hHolds⟩
  · rintro (hNegative | ⟨other, hOther, -, hHolds⟩)
    · exact ⟨test, hTest, hOwn.trans hNegative⟩
    · exact ⟨other, hOther, hHolds⟩

/-
  Any test of any requirement that compares an attribute, and
  any sheet without the attribute: the test fails exactly if
  it is not negative, and then each clause that has it is
  unmet unless another alternative holds.
-/
theorem Requirement.unmet_of_absent_iff :
    (test.holds sheet = false ↔
      comparison.isNegative = false) ∧
      ∀ (r : Requirement), ∀ c ∈ r.clauses,
        test ∈ c.alternatives →
          (c ∈ r.unmet sheet ↔
            comparison.isNegative = false ∧
              ∀ other ∈ c.alternatives, other ≠ test →
                other.holds sheet = false) := by
  constructor
  · rw [Test.holds_of_absent hSubject hComparison hAbsent]
  · intro r c hClause hTest
    have hHolds := Clause.holds_iff_of_absent hSubject
      hComparison hAbsent hTest
    rw [Requirement.unmet, List.mem_filter, Bool.not_eq_true',
      Bool.eq_false_iff, Ne, hHolds]
    simp [hClause]

end Absent

/-
  Without a race and below the third level, a clause that asks
  for a race or for the level is unmet.
-/
theorem Requirement.unmet_of_absent_race :
    let p : Pattern :=
      ⟨"Elf", .sequence (.set (.single 'E'))
        (.sequence (.set (.single 'l')) (.set (.single 'f')))⟩
    let race : Test :=
      ⟨.attr "race", some (.match true (.text "Elf") p)⟩
    let level : Test :=
      ⟨.attr "level", some (.relation .atLeast (.number 3))⟩
    let c : Clause :=
      ⟨"race =~ 'Elf' || level >= 3", [race, level]⟩
    let r : Requirement := ⟨c.text, [c]⟩
    let sheet : Store := .ofList [("level", Value.ofNat 2)]
    Requirement.ofText r.text = .ok r ∧
      race.attr? = some "race" ∧ sheet["race"]? = none ∧
        race.holds sheet = false ∧ r.unmet sheet = [c] := by
  intro p race level c r sheet
  have hText : Requirement.ofText r.text = .ok r := by
    decide +kernel
  have hAbsent : sheet["race"]? = none := by decide +kernel
  have hSubject : race.attr? = some "race" := rfl
  have hFails := unmet_of_absent_iff hSubject rfl hAbsent
  have hOthers : ∀ other ∈ c.alternatives, other ≠ race →
      other.holds sheet = false := by
    decide +kernel
  have hUnmet : c ∈ r.unmet sheet :=
    (hFails.2 r c (by decide) (by decide)).mpr ⟨rfl, hOthers⟩
  refine ⟨hText, hSubject, hAbsent, hFails.1.mpr rfl, ?_⟩
  rw [Requirement.unmet, List.mem_filter] at hUnmet
  exact List.filter_eq_self.mpr
    (List.forall_mem_singleton.mpr hUnmet.2)

/- A character without a race is said to be no elf. -/
theorem Requirement.not_forall_fails_of_absent :
    ¬ ∀ (text : String) (r : Requirement) (c : Clause)
      (test : Test) (comparison : Comparison) (key : Key)
      (sheet : Store),
        Requirement.ofText text = .ok r → c ∈ r.clauses →
          test ∈ c.alternatives → test.attr? = some key →
            test.comparison = some comparison →
              sheet[key]? = none → test.holds sheet = false := by
  intro h
  let asked : Comparison := .relation .notEqual (.text "Elf")
  let test : Test := ⟨.attr "race", some asked⟩
  let c : Clause := ⟨"race != 'Elf'", [test]⟩
  have hRead :
      Requirement.ofText c.text = .ok ⟨c.text, [c]⟩ := by
    decide +kernel
  have hFails := h c.text ⟨c.text, [c]⟩ c test asked "race" ∅
    hRead List.mem_cons_self List.mem_cons_self rfl rfl rfl
  revert hFails
  decide +kernel

end CharSheet
