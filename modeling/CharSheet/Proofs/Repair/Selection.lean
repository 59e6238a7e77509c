import CharSheet.Proofs.Repair.Mending
import CharSheet.Proofs.Sheet.Tally

/-
  What a repair selects.

  The attributes of which a character has exactly one choice
  are changed to a choice that is registered, or removed.  The
  one way around is a requirement that only asks for such an
  attribute, without a comparison: it is fulfilled like any
  bare test, by the number one.

  Main declarations:
    * `Rulebook.IsMember`
    * `Fix.Selects`
    * `Rulebook.AsksFor`
    * `Rulebook.Mends.selects`
    * `Rulebook.selects_repair`
    * `BareRace.not_forall_selects_repair`
-/

namespace CharSheet

------------------------------------------------------------
-- Selections
------------------------------------------------------------

/- Some allocation has the attribute as a member. -/
def Rulebook.IsMember (book : Rulebook) (key : Key) : Prop :=
  ∃ (note : Key) (a : Allocation),
    book.allocations[note]? = some a ∧ key ∈ a.keys

/- A change removes, or sets the name of a registered choice. -/
def Fix.Selects
    (fix : Fix)
    (book : Rulebook)
    (kind : ChoiceKind) : Prop :=
  fix.value = none ∨
    ∃ name ∈ book.choiceNames kind,
      fix.value = some (.text name)

/- The requirement of a note has a bare test of an attribute. -/
def Rulebook.AsksFor
    (book : Rulebook)
    (note key : Key) : Prop :=
  ∃ (r : NotedRequirement) (clause : Clause),
    book.requirements[note]? = some r ∧
      clause ∈ r.requirement.clauses ∧
        ⟨.attr key, none⟩ ∈ clause.alternatives

/- No two kinds have the same selector. -/
theorem selectedKind?_of_selector?
    {kind : ChoiceKind}
    {key : Key}
    (h : kind.selector? = some key) :
    Repair.selectedKind? key = some kind := by
  cases kind <;> cases h <;> rfl

/- A test of one attribute without a comparison is bare. -/
theorem Test.eq_of_attr?
    {test : Test}
    {key : Key}
    (hAttr : test.attr? = some key)
    (hBare : test.comparison = none) :
    test = ⟨.attr key, none⟩ := by
  rcases test with ⟨subject, comparison⟩
  cases subject with
  | attr other =>
      cases hAttr
      cases hBare
      rfl
  | gather => cases hAttr

------------------------------------------------------------
-- Fixes
------------------------------------------------------------

namespace Rulebook

variable {book : Rulebook}
variable {kind : ChoiceKind}
variable {fix : Fix}

/-
  A fix of a selector selects, unless it is the number one for
  a requirement that merely asks for the selector.
-/
theorem Mends.selects
    (h : book.Mends fix)
    (hKind : kind.selector? = some fix.attr)
    (hMember : ¬ book.IsMember fix.attr) :
    fix.Selects book kind ∨
      fix.value = some (.ofNat 1) ∧
        book.isDerived fix.attr = false ∧
          book.AsksFor fix.note fix.attr := by
  have hFound := selectedKind?_of_selector? hKind
  cases h with
  | removal note key => exact .inl (.inl rfl)
  | member value hNote hKey =>
      exact absurd ⟨_, _, hNote, hKey⟩ hMember
  | identity note hOther hName =>
      cases (selectedKind?_of_selector? hOther).symm.trans hFound
      exact .inl (.inr ⟨_, hName, rfl⟩)
  | @fulfilment note key r clause test value hNote hClause
      hTest hFulfils =>
      by_cases hBare : test.comparison = none
      · rcases hFulfils.bare hBare with ⟨hInput, hOne⟩
        rw [Test.eq_of_attr? hFulfils.attr hBare] at hTest
        exact .inr ⟨hOne, hInput, _, _, hNote, hClause, hTest⟩
      · rcases hFulfils.selects kind hFound hBare with
          ⟨name, hName, hValue⟩
        exact .inl
          (.inr ⟨name, (List.mem_filter.mp hName).1, hValue⟩)

/- Each fix of a report mends a note. -/
theorem mends_of_mem_fixes_run
    (book : Rulebook)
    (plan : Plan)
    (passes : Nat)
    (store : Store) :
    Random.Ensures (Repair.run book plan passes store)
      fun (_, report) =>
        ∀ fix ∈ report.fixes, book.Mends fix := by
  induction passes generalizing store with
  | zero => exact Random.ensures_pure nofun
  | succ passes ih =>
      unfold Repair.run
      dsimp only
      split
      · exact Random.ensures_pure nofun
      · refine (Repair.ensures_pass store).bind ?_
        intro p hPass
        split
        · exact Random.ensures_pure nofun
        · refine (ih p.store).bind ?_
          rintro ⟨final, report⟩ hRest
          refine Random.ensures_pure ?_
          exact List.forall_mem_append.mpr ⟨hPass.1, hRest⟩

/-
  Whatever is drawn, a repair changes a selector that is no
  member of an allocation to a registered choice or removes
  it, unless a requirement merely asks for the selector: then
  it may also become the number one.
-/
theorem selects_repair
    (book : Rulebook)
    (store : Store)
    (source : Source)
    (hFix :
      fix ∈ ((book.repair store).run source).1.2.fixes)
    (hKind : kind.selector? = some fix.attr)
    (hMember : ¬ book.IsMember fix.attr) :
    fix.Selects book kind ∨
      fix.value = some (.ofNat 1) ∧
        book.isDerived fix.attr = false ∧
          book.AsksFor fix.note fix.attr :=
  have hMends :=
    mends_of_mem_fixes_run book book.plan
      book.settings.repairPasses store source
  (hMends fix hFix).selects hKind hMember

end Rulebook

------------------------------------------------------------
-- Violations
------------------------------------------------------------

theorem mem_violations_iff
    {sheet : Store}
    {key : Key} :
    key ∈ violations sheet ↔
      key.isConstraint = true ∧
        ∃ v, sheet[key]? = some v ∧ v.reports = true := by
  unfold violations
  rw [List.mem_map]
  constructor
  · rintro ⟨⟨k, v⟩, hMem, rfl⟩
    rcases List.mem_filter.mp hMem with ⟨hIn, hReports⟩
    rcases Bool.and_eq_true_iff.mp hReports with ⟨hNote, hValue⟩
    exact ⟨hNote, v,
      Std.ExtTreeMap.mem_toList_iff_getElem?_eq_some.mp hIn,
      hValue⟩
  · rintro ⟨hNote, v, hIn, hValue⟩
    refine ⟨(key, v), List.mem_filter.mpr ⟨?_, ?_⟩, rfl⟩
    · exact Std.ExtTreeMap.mem_toList_iff_getElem?_eq_some.mpr hIn
    · exact Bool.and_eq_true_iff.mpr ⟨hNote, hValue⟩

theorem nodup_violations (sheet : Store) :
    (violations sheet).Nodup := by
  have hSub :
      (violations sheet).Sublist
        (sheet.toList.map Prod.fst) :=
    List.filter_sublist.map _
  rw [Std.ExtTreeMap.map_fst_toList_eq_keys] at hSub
  exact hSub.nodup Std.ExtTreeMap.nodup_keys

------------------------------------------------------------
-- A Bare Requirement
------------------------------------------------------------

namespace BareRace

open Rulebook

/- A class that requires a race, whichever it is. -/
def commands : List Command :=
  [.register .characterClass "Knight" "Require=race"]

def book : Rulebook :=
  Command.runAll none (Rulebook.empty .standard) commands

/- A knight who has none. -/
def store : Store :=
  .ofList [("levels.Knight", Value.ofNat 1)]

def note : Key := "validationNotes.knightClass"

def clause : Clause := ⟨"race", [⟨.attr "race", none⟩]⟩

def fix : Fix := ⟨note, "race", some (.ofNat 1)⟩

/- What is computed can be told from the input. -/
theorem getElem?_sheet
    {key : Key}
    (hTarget : book.IsTarget key) :
    (book.sheet store)[key]? =
      Rule.joinAll store
        (Operator.inOrder.flatMap (book.rulesOf key))
        store[key]? := by
  have hFlat : book.IsFlat := by
    unfold IsFlat IsTarget
    decide +kernel
  have hOrdered :=
    (Command.isConsistent_runAll .standard commands).ordered
  exact hFlat.getElem?_sheet hOrdered hTarget store

theorem sheet_note :
    (book.sheet store)[note]? = some (.ofNat 1) := by
  rw [getElem?_sheet]
  · decide +kernel
  · unfold IsTarget
    decide +kernel

/- The requirement is all that is broken. -/
theorem violations_sheet :
    violations (book.sheet store) = [note] := by
  refine List.perm_singleton.mp
    ((List.perm_ext_iff_of_nodup (nodup_violations _)
      (List.nodup_singleton note)).mpr ?_)
  intro key
  rw [mem_violations_iff, List.mem_singleton]
  constructor
  · rintro ⟨hNote, v, hSome, _⟩
    by_cases hTarget : book.IsTarget key
    · have hTargets :
          ∀ r ∈ book.rules, r.target.isConstraint = true →
            r.target = note := by
        decide +kernel
      rcases hTarget with ⟨r, hRule, rfl⟩
      exact hTargets r hRule hNote
    · have hInputs :
          ∀ e ∈ store.toList, e.1.isConstraint = false := by
        decide +kernel
      rw [getElem?_sheet_of_not_isTarget hTarget] at hSome
      have hInput := hInputs (key, v)
        (Std.ExtTreeMap.mem_toList_iff_getElem?_eq_some.mpr hSome)
      exact absurd hNote (Bool.eq_false_iff.mp hInput)
  · rintro rfl
    exact ⟨by decide, _, sheet_note, by decide⟩

/- The requirement is not met. -/
theorem unmet_sheet :
    Requirement.unmet ⟨"race", [clause]⟩ (book.sheet store) =
      [clause] := by
  have hInput : ¬ book.IsTarget "race" := by
    unfold IsTarget
    decide +kernel
  have hNone : (book.sheet store)["race"]? = none := by
    rw [getElem?_sheet_of_not_isTarget hInput]
    decide +kernel
  have hUnmet : clause.holds (book.sheet store) = false := by
    change (holds (book.sheet store)["race"]? || false) = false
    rw [hNone]
    rfl
  rw [Requirement.unmet, List.filter_singleton, hUnmet]
  rfl

/- Its only test is fulfilled by the number one. -/
theorem fulfilFirst?_race :
    Repair.fulfilFirst? book (book.sheet store) (.start store)
        clause.alternatives =
      pure (some ("race", some (.ofNat 1))) := by
  have hMay :
      Repair.maySet (.start store) book "race" = true := by
    decide +kernel
  have hInput : book.isDerived "race" = false := by
    decide +kernel
  simp [clause, Repair.fulfilFirst?, Repair.fulfil?, Test.attr?,
    hMay, hInput]

/- Whatever is drawn, the first pass gives the number one. -/
theorem ensures_pass :
    Random.Ensures (Repair.pass book (book.sheet store) store)
      fun p => p.fixes = [fix] := by
  have hAllocation : book.allocations[note]? = none := by
    decide +kernel
  have hRequirement :
      book.requirements[note]? =
        some ⟨"levels.Knight", ⟨"race", [clause]⟩,
          some ⟨"Class", "Knight"⟩⟩ := by
    decide +kernel
  simp only [Repair.pass, violations_sheet, List.foldlM_cons,
    List.foldlM_nil, bind_pure, Repair.mendNote, hAllocation,
    hRequirement, Repair.mendRequirement, unmet_sheet]
  refine (Random.ensures_pick_singleton clause).bind ?_
  rintro _ rfl
  refine (Random.ensures_shuffle _).bind ?_
  intro tests hPerm
  have hTests : tests = clause.alternatives :=
    List.perm_singleton.mp hPerm
  rw [hTests, fulfilFirst?_race]
  exact Random.ensures_pure rfl

/- So it is reported, whatever the later passes do. -/
theorem ensures_repair :
    Random.Ensures (book.repair store) fun (_, report) =>
      fix ∈ report.fixes := by
  have hPasses : book.settings.repairPasses = 7 + 1 := by
    decide +kernel
  have hSheet : book.plan.sheet store = book.sheet store := rfl
  rw [Rulebook.repair, hPasses, Repair.run]
  simp only [hSheet, violations_sheet, List.isEmpty_cons,
    Bool.false_eq_true, if_false]
  refine ensures_pass.bind ?_
  intro p hFixes
  simp only [hFixes, List.isEmpty_cons, Bool.false_eq_true,
    if_false]
  refine (Random.ensures_true _).bind ?_
  rintro ⟨final, report⟩ _
  exact Random.ensures_pure
    (List.mem_append_left _ List.mem_cons_self)

theorem not_isMember : ¬ book.IsMember fix.attr := by
  have hNone : book.allocations.toList = [] := by
    decide +kernel
  rintro ⟨key, a, hSome, _⟩
  have hMem :=
    Std.ExtTreeMap.mem_toList_iff_getElem?_eq_some.mpr hSome
  rw [hNone] at hMem
  cases hMem

/- The race that is asked for is mended for the asking note. -/
theorem selects_repair_knight :
    let source := Source.ofSeed 0 #[]
    fix ∈ ((book.repair store).run source).1.2.fixes ∧
      ¬ book.IsMember fix.attr ∧
        (fix.Selects book .race ∨
          fix.value = some (.ofNat 1) ∧
            book.isDerived fix.attr = false ∧
              book.AsksFor fix.note fix.attr) := by
  intro source
  have hFix := ensures_repair source
  exact ⟨hFix, not_isMember,
    selects_repair book store source hFix rfl not_isMember⟩

/-
  A requirement that merely asks for a race is mended by the
  number one, which is the name of no race.
-/
theorem not_forall_selects_repair :
    ¬ ∀ (settings : Settings) (commands : List Command)
      (store : Store) (source : Source) (kind : ChoiceKind)
      (fix : Fix),
        let book :=
          Command.runAll none (Rulebook.empty settings) commands
        fix ∈ ((book.repair store).run source).1.2.fixes →
          kind.selector? = some fix.attr →
            ¬ book.IsMember fix.attr →
              fix.Selects book kind := by
  intro h
  rcases h .standard commands store (.ofSeed 0 #[]) .race fix
      (ensures_repair _) rfl not_isMember with
    hNone | ⟨name, _, hName⟩
  · cases hNone
  · cases hName

end BareRace

end CharSheet
