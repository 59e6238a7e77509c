import CharSheet.Proofs.Requirement.Note
import CharSheet.Proofs.Sheet.Locality

/-
  Attributes on no cycle.

  An attribute that does not depend on itself has the value
  that its rules join on the sheet itself.  No attribute does
  if all rules read targets of a lower rank than their own.

  Main declarations:
    * `Rulebook.getElem?_sheet_of_input`
    * `Rulebook.getElem?_sheet_of_not_reaches`
    * `Rulebook.not_reaches_of_reads`
    * `Rulebook.not_reaches_of_rank`
    * `Rulebook.getElem?_sheet_of_rank`
-/

namespace CharSheet

namespace Rulebook

variable {book : Rulebook}
variable {key : Key}

instance (book : Rulebook) (key : Key) :
    Decidable (book.IsTarget key) :=
  inferInstanceAs (Decidable (∃ r ∈ book.rules, r.target = key))

/- What has no rules has its input. -/
theorem getElem?_sheet_of_input
    {input : Store}
    {v : Option Value}
    (hNot : ¬ book.IsTarget key)
    (hInput : input[key]? = v) :
    (book.sheet input)[key]? = v :=
  (getElem?_sheet_of_not_isTarget hNot input).trans hInput

/-
  On no cycle, the rules of an attribute are joined on the
  sheet, unless one of them gathers the attribute itself.
-/
theorem getElem?_sheet_of_not_reaches
    (hAlone : ¬ book.graph.Reaches key key)
    (hPatterns : ∀ r ∈ book.rules, r.target = key →
      ∀ f ∈ r.formula, ∀ p ∈ f.patterns,
        p.matchesIn key = false)
    (input : Store) :
    (book.sheet input)[key]? =
      Rule.joinAll (book.sheet input) (book.rulesFor key)
        input[key]? := by
  by_cases hTarget : book.IsTarget key
  · rcases (isSnapshot_sheet book input).computed key hTarget with
      ⟨dict, hDict, hValue⟩
    rw [hValue]
    apply Rule.joinAll_congr
    intro r hr other hReads
    rcases mem_rulesFor_iff.mp hr with ⟨hRule, rfl⟩
    apply hDict.getElem?_eq hAlone
    rintro rfl
    have hDepends
        (hIn : r.target ∈ dependencies book.targets r) :
        False :=
      hAlone (Relation.TransGen.single
        (dependsOn_graph_iff.mpr ⟨r, hRule, rfl, hIn⟩))
    rcases hReads with hSource | ⟨f, hSome, hNamed | hFound⟩
    · apply hDepends
      rw [hSource]
      exact List.mem_cons_self
    · apply hDepends
      unfold dependencies
      rw [hSome]
      exact List.mem_cons_of_mem _
        (List.mem_append_left _ hNamed)
    · rcases hFound with ⟨p, hp, hMatches⟩
      rw [hPatterns r hRule rfl f hSome p hp] at hMatches
      cases hMatches
  · have hNone : book.rulesFor key = [] := by
      apply List.eq_nil_iff_forall_not_mem.mpr
      intro r hr
      rcases mem_rulesFor_iff.mp hr with ⟨hRule, hSame⟩
      exact hTarget ⟨r, hRule, hSame⟩
    rw [hNone, getElem?_sheet_of_not_isTarget hTarget]
    rfl

/- What a rule depends on, it reads. -/
theorem reads_of_mem_dependencies
    {targets : List Key}
    {r : Rule}
    {other : Key}
    (h : other ∈ dependencies targets r) :
    r.Reads other := by
  rcases List.mem_cons.mp h with hSource | hFormula
  · exact .inl hSource
  · cases hSome : r.formula with
    | none => simp [hSome] at hFormula
    | some f =>
        rw [hSome] at hFormula
        refine .inr ⟨f, hSome, ?_⟩
        rcases List.mem_append.mp hFormula with hNamed | hFound
        · exact .inl hNamed
        · rcases List.mem_flatMap.mp hFound with ⟨p, hp, hIn⟩
          have hMatches := (List.mem_filter.mp hIn).2
          exact .inr
            ⟨p, hp, (Bool.and_eq_true_iff.mp hMatches).1⟩

/-
  Nothing is on a cycle if rules read targets of a lower rank
  than their own.
-/
theorem not_reaches_of_reads
    (rank : Key → Nat)
    (h : ∀ r ∈ book.rules, ∀ other, r.Reads other →
      book.IsTarget other → rank other < rank r.target)
    (key : Key) :
    ¬ book.graph.Reaches key key := by
  have hStep {a b : Key}
      (hDepends : book.graph.DependsOn a b)
      (hTarget : book.IsTarget b) :
      rank b < rank a := by
    rcases dependsOn_graph_iff.mp hDepends with
      ⟨r, hRule, rfl, hIn⟩
    exact h r hRule b (reads_of_mem_dependencies hIn) hTarget
  have hPath {a b : Key}
      (hReaches : book.graph.Reaches a b)
      (hTarget : book.IsTarget b) :
      rank b < rank a := by
    induction hReaches using Relation.TransGen.head_induction_on
      with
    | single hDepends => exact hStep hDepends hTarget
    | head hFirst hRest ih =>
        refine Nat.lt_trans ih (hStep hFirst ?_)
        rcases Relation.TransGen.head'_iff.mp hRest with
          ⟨_, hNext, _⟩
        rcases dependsOn_graph_iff.mp hNext with
          ⟨r, hRule, hSame, _⟩
        exact ⟨r, hRule, hSame⟩
  intro hReaches
  rcases Relation.TransGen.head'_iff.mp hReaches with
    ⟨_, hFirst, _⟩
  rcases dependsOn_graph_iff.mp hFirst with
    ⟨r, hRule, hSame, _⟩
  exact Nat.lt_irrefl _ (hPath hReaches ⟨r, hRule, hSame⟩)

/- So it is if rules read each target by its name. -/
theorem not_reaches_of_rank
    (rank : Key → Nat)
    (h : ∀ r ∈ book.rules,
      (∀ f ∈ r.formula, f.patterns = []) ∧
        ∀ other ∈ r.source ::
          (r.formula.elim [] Formula.dependencies),
            (∃ s ∈ book.rules, s.target = other) →
              rank other < rank r.target)
    (key : Key) :
    ¬ book.graph.Reaches key key := by
  refine not_reaches_of_reads rank ?_ key
  intro r hRule other hReads hTarget
  rcases h r hRule with ⟨hPatterns, hLower⟩
  refine hLower other ?_ hTarget
  rcases hReads with rfl | ⟨f, hSome, hNamed | ⟨p, hp, _⟩⟩
  · exact List.mem_cons_self
  · rw [hSome]
    exact List.mem_cons_of_mem _ hNamed
  · rw [hPatterns f hSome] at hp
    cases hp

/- On such sheets all rules are joined on the sheet itself. -/
theorem getElem?_sheet_of_rank
    (rank : Key → Nat)
    (h : ∀ r ∈ book.rules,
      (∀ f ∈ r.formula, f.patterns = []) ∧
        ∀ other ∈ r.source ::
          (r.formula.elim [] Formula.dependencies),
            (∃ s ∈ book.rules, s.target = other) →
              rank other < rank r.target)
    (hOrdered : book.rules.Pairwise fun r s => r.seq < s.seq)
    (input : Store)
    (key : Key) :
    (book.sheet input)[key]? =
      Rule.joinAll (book.sheet input)
        (Operator.inOrder.flatMap (book.rulesOf key))
        input[key]? := by
  rw [← rulesFor_eq_flatMap hOrdered]
  apply getElem?_sheet_of_not_reaches
  · exact not_reaches_of_rank rank h key
  · intro r hRule _ f hFormula p hp
    rw [(h r hRule).1 f hFormula] at hp
    cases hp

end Rulebook

end CharSheet
