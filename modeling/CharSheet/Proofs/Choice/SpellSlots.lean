import CharSheet.Choice.Declarations
import CharSheet.Proofs.Number.Order
import CharSheet.Proofs.Requirement.Holding

/-
  Tables of spell slots as step functions of the level.

  The steps of a table are those of its text in the order of
  their levels.  Its formula asks for the highest step first,
  so that a level gets the count of the last step that it has
  reached, in whatever order the steps were written.

  Main declarations:
    * `Value.CountsAs`
    * `SlotTable.Lists`, `SlotTable.AreInOrder`
    * `SlotTable.IsLastReached`
    * `SlotTable.eval_stepsExpr_append`
    * `SlotTable.areInOrder_mergeSort`
    * `SlotTable.eval_formula_iff`
-/

namespace CharSheet

------------------------------------------------------------
-- Levels
------------------------------------------------------------

/- The value is a number, or has one as its numeric view. -/
def Value.CountsAs (v : Value) (x : Number) : Prop :=
  v = .number x ∨ v.number? = some x

/- Such a value is compared as the number is. -/
theorem Value.CountsAs.looseCmp?_number
    {v : Value}
    {x : Number}
    (h : v.CountsAs x)
    (y : Number) :
    v.looseCmp? (.number y) = x.cmp? y := by
  have hNumber (z : Number) :
      (Value.number z).number? =
        if z.isNaN then none else some z := rfl
  unfold looseCmp?
  by_cases hy : y.isNaN = true
  · rw [hNumber, if_pos hy]
    cases y with
    | nan t =>
        have hNone : x.cmp? (.nan t) = none := by
          cases x <;> rfl
        rw [hNone]
        generalize v.number? = view
        cases view <;> cases v <;> rfl
    | _ => cases hy
  · rw [hNumber y, if_neg hy]
    rcases h with rfl | hView
    · rw [hNumber]
      cases x with
      | nan s => rfl
      | _ => rfl
    · rw [hView]

namespace SlotTable

variable {steps written before after : List (Number × Number)}
variable {s : Number × Number}
variable {v : Value}
variable {x : Number}

/-
  The steps are those that a text has between its semicolons,
  in the order in which they are written.
-/
def Lists
    (text : String)
    (written : List (Number × Number)) : Prop :=
  ∃ slot table,
    Text.cutAt? [':'] text.toList = some (slot, table) ∧
      (stepTexts table).map readStep = written.map .ok

/-
  The steps are the written ones in the order of their levels.
  Steps of one level stay in the order in which they were.
-/
structure AreInOrder
    (steps written : List (Number × Number)) : Prop where
  perm : steps.Perm written
  sorted : steps.Pairwise fun r s => r.1.totalLe s.1 = true
  stable : ∀ level : Number,
    steps.filter (·.1 = level) = written.filter (·.1 = level)

/- The step is the last one whose level is at most a number. -/
def IsLastReached
    (x : Number)
    (steps : List (Number × Number))
    (s : Number × Number) : Prop :=
  ∃ before after, steps = before ++ s :: after ∧
    s.1.le x = true ∧ ∀ r ∈ after, r.1.le x = false

------------------------------------------------------------
-- Steps in Order
------------------------------------------------------------

/- A table that is read has the steps of its text, sorted. -/
theorem exists_lists_of_ofText
    {text : String}
    {t : SlotTable}
    (h : ofText text = .ok t) :
    ∃ written, Lists text written ∧
      t.steps = written.mergeSort fun a b => a.1.totalLe b.1 := by
  unfold ofText ofChars at h
  cases hCut : Text.cutAt? [':'] text.toList with
  | none =>
      rw [hCut] at h
      cases h
  | some parts =>
      rcases parts with ⟨slot, table⟩
      cases hSteps : (stepTexts table).mapM readStep with
      | error fault =>
          simp only [hCut, hSteps, bind, Except.bind] at h
          cases h
      | ok written =>
          simp only [hCut, hSteps, bind, Except.bind] at h
          split at h
          · next t' hRead =>
            split at hRead
            · cases hRead
            · cases hRead
              cases h
              exact ⟨written, ⟨slot, table, hCut,
                map_eq_of_mapM_eq_ok hSteps⟩, rfl⟩
          · cases h

/- Sorted steps are in order. -/
theorem areInOrder_mergeSort
    (written : List (Number × Number)) :
    AreInOrder (written.mergeSort fun a b => a.1.totalLe b.1)
      written := by
  have hTrans (r s t : Number × Number)
      (hrs : r.1.totalLe s.1 = true)
      (hst : s.1.totalLe t.1 = true) :
      r.1.totalLe t.1 = true :=
    Number.totalLe_trans hrs hst
  have hTotal (r s : Number × Number) :
      (r.1.totalLe s.1 || s.1.totalLe r.1) = true :=
    Number.totalLe_total r.1 s.1
  have hPerm := List.mergeSort_perm written
    fun a b => a.1.totalLe b.1
  refine ⟨hPerm, List.pairwise_mergeSort hTrans hTotal _, ?_⟩
  intro level
  -- steps of one level are in order wherever they stand
  have hOne : (written.filter (·.1 = level)).Pairwise
      fun r s => r.1.totalLe s.1 = true := by
    apply List.pairwise_of_forall_mem_list
    intro r hr s hs
    rw [of_decide_eq_true (List.mem_filter.mp hr).2,
      of_decide_eq_true (List.mem_filter.mp hs).2]
    exact Number.totalLe_refl level
  have hKept := List.sublist_mergeSort hTrans hTotal hOne
    List.filter_sublist
  have hFiltered := hKept.filter (·.1 = level)
  rw [List.filter_filter] at hFiltered
  simp only [Bool.and_self] at hFiltered
  exact (hFiltered.eq_of_length
    (hPerm.filter _).length_eq.symm).symm

------------------------------------------------------------
-- The Last Step That Is Reached
------------------------------------------------------------

/- A further step is asked first. -/
theorem eval_stepsExpr_append
    (h : v.CountsAs x)
    (sheet : Store)
    (steps : List (Number × Number))
    (s : Number × Number) :
    (stepsExpr (steps ++ [s])).eval (some v) sheet =
      if s.1.le x = true then some (.number s.2)
      else (stepsExpr steps).eval (some v) sheet := by
  have hGuard :
      (Expr.binary .ge .source (.number s.1)).eval (some v)
          sheet = some (.bool (s.1.le x)) := by
    rw [Number.le_eq_any_cmp?, ← h.looseCmp?_number]
    rfl
  rw [stepsExpr, List.foldl_append, List.foldl_cons,
    List.foldl_nil, ← stepsExpr, Expr.eval, hGuard]
  rfl

/- The last step is the last one reached, or an earlier one is. -/
theorem isLastReached_append_iff {r : Number × Number} :
    IsLastReached x (steps ++ [s]) r ↔
      (s.1.le x = true ∧ r = s) ∨
        (s.1.le x = false ∧ IsLastReached x steps r) := by
  constructor
  · rintro ⟨before, after, hSteps, hReached, hAfter⟩
    rcases List.eq_nil_or_concat after with
      rfl | ⟨rest, last, rfl⟩
    · obtain ⟨rfl, rfl⟩ := List.append_singleton_inj.mp hSteps
      exact Or.inl ⟨hReached, rfl⟩
    · rw [List.concat_eq_append, ← List.cons_append,
        ← List.append_assoc] at hSteps
      obtain ⟨rfl, rfl⟩ := List.append_singleton_inj.mp hSteps
      refine Or.inr ⟨hAfter s (by simp), before, rest, rfl,
        hReached, fun q hq => hAfter q (by simp [hq])⟩
  · rintro (⟨hReached, rfl⟩ |
      ⟨hNot, before, after, rfl, hReached, hAfter⟩)
    · exact ⟨steps, [], rfl, hReached, by simp⟩
    · refine ⟨before, after ++ [s], by simp, hReached, ?_⟩
      intro q hq
      rcases List.mem_append.mp hq with hOld | hNew
      · exact hAfter q hOld
      · rw [List.mem_singleton.mp hNew]
        exact hNot

/- So the formula has the count of the last step reached. -/
theorem eval_stepsExpr_iff
    (h : v.CountsAs x)
    (sheet : Store)
    (steps : List (Number × Number))
    (w : Value) :
    (stepsExpr steps).eval (some v) sheet = some w ↔
      ∃ s, IsLastReached x steps s ∧ w = .number s.2 := by
  induction steps using List.reverseRecOn with
  | nil => simp [stepsExpr, Expr.eval, IsLastReached]
  | append_singleton steps s ih =>
      rw [eval_stepsExpr_append h]
      simp only [isLastReached_append_iff]
      by_cases hReached : s.1.le x = true
      · simp [hReached, eq_comm]
      · rw [if_neg hReached, ih]
        simp [hReached]

/- No step that is reached is above the last one. -/
theorem AreInOrder.le_of_isLastReached
    (h : AreInOrder steps written)
    (hLast : IsLastReached x steps s)
    {r : Number × Number}
    (hr : r ∈ steps)
    (hReached : r.1.le x = true) :
    r.1.le s.1 = true := by
  rcases hLast with ⟨before, after, rfl, hLe, hAfter⟩
  have hOrder : r.1.totalLe s.1 = true := by
    rcases List.mem_append.mp hr with hBefore | hRest
    · exact (List.pairwise_append.mp h.sorted).2.2 r hBefore s
        List.mem_cons_self
    · rcases List.mem_cons.mp hRest with rfl | hIn
      · exact Number.totalLe_refl r.1
      · rw [hAfter r hIn] at hReached
        cases hReached
  exact Number.le_of_totalLe hOrder
    (Number.isNaN_of_le hReached) (Number.isNaN_of_le hLe)

/- If any step is reached, there is a last one. -/
theorem exists_isLastReached
    (h : ∃ r ∈ steps, r.1.le x = true) :
    ∃ s, IsLastReached x steps s := by
  induction steps using List.reverseRecOn with
  | nil => simp at h
  | append_singleton steps s ih =>
      simp only [isLastReached_append_iff]
      cases hReached : s.1.le x with
      | true => exact ⟨s, Or.inl ⟨rfl, rfl⟩⟩
      | false =>
          rcases h with ⟨r, hr, hLe⟩
          rcases List.mem_append.mp hr with hOld | hNew
          · rcases ih ⟨r, hOld, hLe⟩ with ⟨last, hLast⟩
            exact ⟨last, Or.inr ⟨rfl, hLast⟩⟩
          · rw [List.mem_singleton.mp hNew, hReached] at hLe
            cases hLe

------------------------------------------------------------
-- Tables
------------------------------------------------------------

/- A table that is read declares a rule with its formula. -/
theorem mem_slotDeclarations
    {text : String}
    {t : SlotTable}
    (h : ofText text = .ok t)
    {tables : List String}
    (hText : text ∈ tables)
    (level : Key) :
    .rule (.under "spellSlots" t.slot) level .add
        (some (t.formula text)) ∈
      slotDeclarations level tables := by
  refine List.mem_flatMap.mpr ⟨text, hText, ?_⟩
  rw [h]
  exact List.mem_singleton_self _

/-
  A table of spell slots is a step function.  Its steps are
  those of its text in the order of their levels.  The formula
  of its rule has the count of the last step whose level is at
  most the source, which is none of a lower level than another
  such step.  Below all levels there is no value.
-/
theorem eval_formula_iff
    {text : String}
    {t : SlotTable}
    (h : ofText text = .ok t)
    (hValue : v.CountsAs x)
    (sheet : Store) :
    (∃ written, Lists text written ∧
        AreInOrder t.steps written) ∧
      (∀ level tables, text ∈ tables →
        .rule (.under "spellSlots" t.slot) level .add
            (some (t.formula text)) ∈
          slotDeclarations level tables) ∧
      (∀ w, (t.formula text).eval (some v) sheet = some w ↔
        ∃ s, IsLastReached x t.steps s ∧ w = .number s.2) ∧
      (∀ r ∈ t.steps, r.1.le x = true →
        ∃ s, IsLastReached x t.steps s ∧
          r.1.le s.1 = true) ∧
      ((∀ s ∈ t.steps, x.lt s.1 = true) →
        (t.formula text).eval (some v) sheet = none) := by
  rcases exists_lists_of_ofText h with
    ⟨written, hLists, hSteps⟩
  have hOrder : AreInOrder t.steps written :=
    hSteps ▸ areInOrder_mergeSort written
  have hEval :=
    eval_stepsExpr_iff hValue sheet t.steps
  refine ⟨⟨written, hLists, hOrder⟩,
    fun level _ hText => mem_slotDeclarations h hText level,
    hEval, ?_, ?_⟩
  · intro r hr hReached
    rcases exists_isLastReached ⟨r, hr, hReached⟩ with
      ⟨s, hLast⟩
    exact ⟨s, hLast,
      hOrder.le_of_isLastReached hLast hr hReached⟩
  · intro hAbove
    apply Option.eq_none_iff_forall_ne_some.mpr
    intro w hw
    rcases (hEval w).mp hw with
      ⟨s, ⟨before, after, hSplit, hReached, _⟩, _⟩
    have hIn : s ∈ t.steps := by simp [hSplit]
    rw [Number.le_eq_false_of_lt (hAbove s hIn)] at hReached
    cases hReached

/-
  Steps out of order, two of them for level two, and a level
  between two steps that is spelled by a text.
-/
theorem eval_formula_wizard :
    let text := "W1: 3=4; 2=3;1=2;2=5"
    let t : SlotTable :=
      ⟨"W1", [(1, 2), (2, 3), (2, 5), (3, 4)]⟩
    let level := Value.text "2.5"
    ofText text = .ok t ∧
      level.CountsAs (.finite (.ofOdd 5 1 rfl)) ∧
      (t.formula text).eval (some level) ∅ =
        some (.number 5) := by
  intro text t level
  let written : List (Number × Number) :=
    [(3, 4), (2, 3), (1, 2), (2, 5)]
  have hCut :
      Text.cutAt? [':'] "W1: 3=4; 2=3;1=2;2=5".toList =
        some ("W1".toList, " 3=4; 2=3;1=2;2=5".toList) := by
    decide +kernel
  have hSteps :
      (stepTexts " 3=4; 2=3;1=2;2=5".toList).mapM readStep =
        .ok written := by decide +kernel
  have hSorted :
      (written.mergeSort fun a b => a.1.totalLe b.1) =
        t.steps := by
    simp +decide [written, t, List.mergeSort,
      List.MergeSort.Internal.splitInTwo]
  have hRead : ofText text = .ok t := by
    simp only [text, ofText, ofChars, hCut, hSteps, hSorted,
      bind, Except.bind]
    decide +kernel
  have hLevel : level.CountsAs (.finite (.ofOdd 5 1 rfl)) :=
    Or.inr (by decide +kernel)
  have hLast :
      IsLastReached (.finite (.ofOdd 5 1 rfl)) t.steps (2, 5) :=
    ⟨[(1, 2), (2, 3)], [(3, 4)], rfl, by decide, by decide⟩
  exact ⟨hRead, hLevel,
    ((eval_formula_iff hRead hLevel ∅).2.2.1 _).mpr
      ⟨(2, 5), hLast, rfl⟩⟩

end SlotTable

end CharSheet
