import CharSheet.Proofs.Number.Whole
import CharSheet.Proofs.Requirement.Holding
import CharSheet.Proofs.Sheet.Rearrangement

/-
  Notes of requirements.

  Where nothing but a requirement has rules for its note, the
  note counts the clauses that are unmet on the very sheet
  that it stands on: its rules read nothing that is pending.

  Main declarations:
    * `Declaration.bareRule?`
    * `Rulebook.IsOnlySource`
    * `Rulebook.isOnlySource_declareAll`
    * `Requirement.joinAll_noteRules`
    * `Requirement.note_counts_unmet`
-/

namespace CharSheet

------------------------------------------------------------
-- Rules of One Source
------------------------------------------------------------

/- The rule that a declaration adds by itself, if it does. -/
def Declaration.bareRule? : Declaration → Option Rule
  | .rule target source op formula =>
      some ⟨target, source, op, formula, none, 0⟩
  | _ => none

namespace Rulebook

variable {book : Rulebook}
variable {key other : Key}

/-
  The rules of an attribute are those that the declarations
  add, for whomever they do, and there are no others.
-/
def IsOnlySource
    (book : Rulebook)
    (key : Key)
    (ds : List Declaration) : Prop :=
  (book.rules.filter (·.target = key)).map Rule.bare =
    ds.filterMap Declaration.bareRule?

/- Rules that are declared come after those that there are. -/
theorem map_bare_declareAll
    {ds : List Declaration}
    (h :
      ∀ d ∈ ds, ∃ source op formula,
        d = .rule key source op formula)
    (book : Rulebook)
    (owner : Owner) :
    ((book.declareAll owner ds).rules.filter
        (·.target = key)).map Rule.bare =
      (book.rules.filter (·.target = key)).map Rule.bare ++
        ds.filterMap Declaration.bareRule? := by
  induction ds generalizing book with
  | nil => simp [declareAll]
  | cons d ds ih =>
      rcases h d List.mem_cons_self with
        ⟨source, op, formula, rfl⟩
      have hRest := fun other hOther =>
        h other (List.mem_cons_of_mem _ hOther)
      have hStep :
          book.declareAll owner
              (.rule key source op formula :: ds) =
            (book.addRule owner key source op
              formula).declareAll owner ds := rfl
      rw [hStep, ih hRest]
      simp [addRule, Rule.bare, Declaration.bareRule?]

/- The rules are applied one operator after another. -/
theorem IsOnlySource.map_bare_rulesFor
    {ds : List Declaration}
    (h : book.IsOnlySource key ds)
    (hOrdered : book.rules.Pairwise fun r s => r.seq < s.seq) :
    (book.rulesFor key).map Rule.bare =
      Operator.inOrder.flatMap fun op =>
        (ds.filterMap Declaration.bareRule?).filter
          (·.op = op) := by
  rw [rulesFor_eq_flatMap hOrdered, List.map_flatMap]
  congr 1
  funext op
  have hClass :
      book.rulesOf key op =
        (book.rules.filter (·.target = key)).filter
          (·.op = op) := by
    rw [List.filter_filter]
    unfold rulesOf
    congr 1
    funext r
    exact Bool.and_comm _ _
  rw [hClass, ← h, List.filter_map]
  rfl

/- Each rule of the source is a rule of the attribute. -/
theorem IsOnlySource.exists_rule
    {ds : List Declaration}
    (h : book.IsOnlySource key ds)
    {r : Rule}
    (hr : r ∈ ds.filterMap Declaration.bareRule?) :
    ∃ r' ∈ book.rules, r'.target = key ∧ r'.bare = r := by
  rw [← h] at hr
  rcases List.mem_map.mp hr with ⟨r', hIn, hBare⟩
  rcases List.mem_filter.mp hIn with ⟨hRule, hTarget⟩
  exact ⟨r', hRule, of_decide_eq_true hTarget, hBare⟩

/-
  If the attribute is on no cycle, none of these rules depends
  on it.
-/
theorem IsOnlySource.ne_of_mem_dependencies
    {ds : List Declaration}
    (h : book.IsOnlySource key ds)
    (hAlone : ¬ book.graph.Reaches key key)
    {r : Rule}
    (hr : r ∈ ds.filterMap Declaration.bareRule?)
    (hIn : other ∈ dependencies book.targets r) :
    other ≠ key := by
  rintro rfl
  rcases h.exists_rule hr with ⟨r', hRule, hTarget, rfl⟩
  have hDepends : book.graph.DependsOn other other :=
    dependsOn_graph_iff.mpr ⟨r', hRule, hTarget, hIn⟩
  exact hAlone (Relation.TransGen.single hDepends)

/- No rule finds its own target by a pattern. -/
theorem notMem_dependencies
    {r : Rule}
    (hSource : r.source ≠ r.target)
    (hFormula : ∀ f ∈ r.formula, r.target ∉ f.dependencies)
    (targets : List Key) :
    r.target ∉ dependencies targets r := by
  intro hIn
  rcases List.mem_cons.mp hIn with hEq | hIn
  · exact hSource hEq.symm
  · cases hSome : r.formula with
    | none =>
        rw [hSome] at hIn
        cases hIn
    | some f =>
        rw [hSome] at hIn
        rcases List.mem_append.mp hIn with hNamed | hFound
        · exact hFormula f hSome hNamed
        · rcases List.mem_flatMap.mp hFound with ⟨p, _, hFound⟩
          have hNot := (List.mem_filter.mp hFound).2
          simp at hNot

/- What no rule depends on is on no cycle. -/
theorem not_reaches_of_forall
    (h :
      ∀ r ∈ book.rules, key ∉ dependencies book.targets r) :
    ¬ book.graph.Reaches other key := by
  have hLast (a : Key) : ¬ book.graph.DependsOn a key := by
    intro hDepends
    rcases dependsOn_graph_iff.mp hDepends with ⟨r, hr, _, hIn⟩
    exact h r hr hIn
  intro hReaches
  cases hReaches with
  | single hDepends => exact hLast _ hDepends
  | tail _ hDepends => exact hLast _ hDepends

/- What is on no cycle is pending alone. -/
theorem isPending_iff_eq
    (h : ¬ book.graph.Reaches key key) :
    book.IsPending key other ↔ other = key := by
  constructor
  · intro hPending
    rcases hPending with hEq | ⟨_, hSame, hLt⟩
    · exact hEq
    · rcases hSame with hEq | ⟨hOut, hBack⟩
      · exact hEq.symm
      · exact absurd (hOut.trans hBack) h
  · exact Or.inl

/-
  So on a snapshot its rules read what they find there, if
  they do not read the attribute itself.
-/
theorem IsDictionary.getElem?_eq
    {input snapshot dict : Store}
    (hDict : book.IsDictionary input snapshot key dict)
    (hAlone : ¬ book.graph.Reaches key key)
    (hOther : other ≠ key) :
    dict[other]? = snapshot[other]? :=
  hDict.settled other
    fun hPending =>
      hOther ((isPending_iff_eq hAlone).mp hPending)

end Rulebook

------------------------------------------------------------
-- Joining One Rule
------------------------------------------------------------

namespace Rule

variable {r : Rule}
variable {sheet : Store}

/- A gate lets the others through where it holds. -/
theorem joinAll_cons_gate
    (h : r.op = .gate)
    (rules : List Rule)
    (v : Option Value) :
    joinAll sheet (r :: rules) v =
      if holds (r.contribution sheet) then joinAll sheet rules v
      else none := by
  rw [joinAll, if_pos h]

/- Another rule joins what it contributes. -/
theorem joinAll_cons_of_ne
    (h : r.op ≠ .gate)
    {c : Value}
    (hContribution : r.contribution sheet = some c)
    (rules : List Rule)
    (v : Option Value) :
    joinAll sheet (r :: rules) v =
      joinAll sheet rules (r.op.combine v c) := by
  rw [joinAll, if_neg h, hContribution]

end Rule

------------------------------------------------------------
-- The Rules of a Note
------------------------------------------------------------

/- The rule that adds one where a clause does not hold. -/
def Clause.unmetRule
    (c : Clause)
    (note selector : Key) : Rule :=
  ⟨note, selector, .add, some c.unmetFormula, none, 0⟩

namespace Requirement

variable {r : Requirement}
variable {note selector : Key}
variable {dict : Store}

/-
  The rules of a requirement's note: a gate, a zero to start
  from, and a rule for each clause.
-/
def noteRules
    (r : Requirement)
    (note selector : Key) : List Rule :=
  ⟨note, selector, .gate, none, none, 0⟩ ::
    ⟨note, selector, .set, some (.constant (.number 0)), none,
      0⟩ ::
    r.clauses.map (·.unmetRule note selector)

/- They are what the requirement declares. -/
theorem filterMap_requirementDeclarations
    (heading name : String)
    (selector : Key)
    (r : Requirement) :
    (requirementDeclarations heading name selector r).filterMap
        Declaration.bareRule? =
      r.noteRules (Key.under (heading ++ "Notes") name)
        selector := by
  simp [requirementDeclarations, noteRules,
    Declaration.bareRule?, Clause.unmetRule,
    List.filterMap_append, List.filterMap_map,
    Function.comp_def]

/- They stand in the order of their operators already. -/
theorem flatMap_filter_noteRules :
    (Operator.inOrder.flatMap fun op =>
      (r.noteRules note selector).filter (·.op = op)) =
        r.noteRules note selector := by
  have hAdd :
      (r.clauses.map (·.unmetRule note selector)).filter
          (·.op = .add) =
        r.clauses.map (·.unmetRule note selector) := by
    rw [List.filter_eq_self]
    simp [Clause.unmetRule]
  have hElse (op : Operator) (hOp : op ≠ .add) :
      (r.clauses.map (·.unmetRule note selector)).filter
          (·.op = op) = [] := by
    rw [List.filter_eq_nil_iff]
    simp [Clause.unmetRule, hOp.symm]
  simp [Operator.inOrder, noteRules, hAdd, hElse]

/- A clause adds one where it does not hold. -/
theorem contribution_unmetRule
    {c : Clause}
    (hTests : c.alternatives ≠ [])
    (note : Key)
    (hSelector : dict[selector]?.isSome) :
    (c.unmetRule note selector).contribution dict =
      some (.ofNat (if c.holds dict then 0 else 1)) := by
  rcases Option.isSome_iff_exists.mp hSelector with ⟨v, hValue⟩
  simp only [Rule.contribution, Clause.unmetRule, hValue,
    Formula.eval, Clause.unmetFormula, Expr.eval,
    c.holds_toExpr hTests]
  cases c.holds dict with
  | true => rfl
  | false => rfl

/- Counting on is exact up to the limit, and stops there. -/
theorem combine_add_ofNat
    {n k : Nat}
    (hn : n ≤ Number.countLimit)
    (hk : k ≤ 1) :
    Operator.add.combine (some (.ofNat n)) (.ofNat k) =
      some (.ofNat (min (n + k) Number.countLimit)) := by
  have hAdd :
      (Number.ofNat n).add (.ofNat k) =
        .ofNat (min (n + k) Number.countLimit) := by
    rcases Nat.le_one_iff_eq_zero_or_eq_one.mp hk with rfl | rfl
    · rw [Nat.add_zero, Nat.min_eq_left hn]
      exact Number.add_ofInt (i := n) (j := 0) (by omega)
    · exact Number.add_ofNat_one hn
  exact congrArg (fun x => some (Value.number x)) hAdd

/- The rules of clauses count those that do not hold. -/
theorem joinAll_unmetRules
    (clauses : List Clause)
    (hTests : ∀ c ∈ clauses, c.alternatives ≠ [])
    (note : Key)
    (hSelector : dict[selector]?.isSome)
    {n : Nat}
    (hn : n ≤ Number.countLimit) :
    Rule.joinAll dict
        (clauses.map (·.unmetRule note selector))
        (some (.ofNat n)) =
      some (.ofNat
        (min (n + clauses.countP (!·.holds dict))
          Number.countLimit)) := by
  induction clauses generalizing n with
  | nil =>
      simp [Rule.joinAll, Nat.min_eq_left hn]
  | cons c clauses ih =>
      have hRest := fun other hOther =>
        hTests other (List.mem_cons_of_mem c hOther)
      have hStep :=
        contribution_unmetRule (hTests c List.mem_cons_self) note
          hSelector
      have hOne : (if c.holds dict then 0 else 1) ≤ 1 := by
        split
        · exact Nat.zero_le 1
        · exact Nat.le_refl 1
      have hAdd : (c.unmetRule note selector).op = .add := rfl
      have hNe : (c.unmetRule note selector).op ≠ .gate :=
        Operator.noConfusion
      rw [List.map_cons, Rule.joinAll_cons_of_ne hNe hStep, hAdd,
        combine_add_ofNat hn hOne,
        ih hRest (Nat.min_le_right _ _), List.countP_cons]
      congr 2
      cases c.holds dict with
      | true =>
          simp only [if_true, Bool.not_true, Bool.false_eq_true,
            if_false]
          omega
      | false =>
          simp only [if_true, Bool.not_false, Bool.false_eq_true,
            if_false]
          omega

/-
  The rules of a note leave it absent while the selector does
  not hold, and count the unmet clauses otherwise.
-/
theorem joinAll_noteRules
    (hTests : ∀ c ∈ r.clauses, c.alternatives ≠ [])
    (note : Key)
    (v : Option Value) :
    Rule.joinAll dict (r.noteRules note selector) v =
      if holds dict[selector]? then
        some (.ofNat
          (min (r.unmet dict).length Number.countLimit))
      else none := by
  have hGate :
      Rule.contribution
          ⟨note, selector, .gate, none, none, 0⟩ dict =
        dict[selector]? := by
    unfold Rule.contribution
    cases dict[selector]? with
    | none => rfl
    | some v => rfl
  rw [noteRules, Rule.joinAll_cons_gate rfl, hGate]
  cases hSelector : dict[selector]? with
  | none => rfl
  | some w =>
      have hSome : dict[selector]?.isSome := by
        rw [hSelector]
        rfl
      have hZero :
          Rule.contribution
              ⟨note, selector, .set,
                some (.constant (.number 0)), none, 0⟩ dict =
            some (.ofNat 0) := by
        unfold Rule.contribution
        rw [hSelector]
        rfl
      have hStart (u : Option Value) :
          Operator.set.combine u (.ofNat 0) =
            some (.ofNat 0) := by
        cases u with
        | none => rfl
        | some u => rfl
      rw [Rule.joinAll_cons_of_ne Operator.noConfusion hZero,
        hStart, joinAll_unmetRules r.clauses hTests note hSome
          (Nat.zero_le _), Nat.zero_add,
        List.countP_eq_length_filter]
      rfl

/- The unmet clauses are those that are unmet elsewhere. -/
theorem unmet_congr
    (hTests : ∀ c ∈ r.clauses, c.alternatives ≠ [])
    {s t : Store}
    (h :
      ∀ c ∈ r.clauses,
        Store.AgreeOn s t c.toExpr.keys c.toExpr.patterns) :
    r.unmet s = r.unmet t := by
  apply List.filter_congr
  intro c hc
  rw [← c.holds_toExpr (hTests c hc) none s,
    ← c.holds_toExpr (hTests c hc) none t,
    Expr.eval_congr c.toExpr (h c hc)]

------------------------------------------------------------
-- The Note on the Sheet
------------------------------------------------------------

section Sheet

variable {book : Rulebook}
variable {heading name : String}

section Alone

variable
  (hOnly :
    book.IsOnlySource (Key.under (heading ++ "Notes") name)
      (requirementDeclarations heading name selector r))
variable
  (hAlone :
    ¬ book.graph.Reaches (Key.under (heading ++ "Notes") name)
      (Key.under (heading ++ "Notes") name))

include hOnly

/- The rules of the note are those of the requirement. -/
theorem map_bare_rulesFor_note
    (hOrdered : book.rules.Pairwise fun r s => r.seq < s.seq) :
    (book.rulesFor (Key.under (heading ++ "Notes") name)).map
        Rule.bare =
      r.noteRules (Key.under (heading ++ "Notes") name)
        selector := by
  rw [hOnly.map_bare_rulesFor hOrdered,
    filterMap_requirementDeclarations]
  exact flatMap_filter_noteRules

/- Each of them is declared. -/
theorem exists_rule_of_mem_noteRules
    {rule : Rule}
    (h : rule ∈
      r.noteRules (Key.under (heading ++ "Notes") name)
        selector) :
    ∃ rule' ∈ book.rules,
      rule'.target = Key.under (heading ++ "Notes") name ∧
        rule'.bare = rule := by
  rw [← filterMap_requirementDeclarations] at h
  exact hOnly.exists_rule h

include hAlone

/- None of them depends on the note if it is on no cycle. -/
theorem ne_of_mem_dependencies_note
    {rule : Rule}
    (h : rule ∈
      r.noteRules (Key.under (heading ++ "Notes") name)
        selector)
    {other : Key}
    (hIn : other ∈ Rulebook.dependencies book.targets rule) :
    other ≠ Key.under (heading ++ "Notes") name := by
  rw [← filterMap_requirementDeclarations] at h
  exact hOnly.ne_of_mem_dependencies hAlone h hIn

variable
  (hPatterns :
    ∀ p ∈ r.toExpr.patterns,
      p.matchesIn (Key.under (heading ++ "Notes") name) = false)

include hPatterns

/- So the clauses read what is final when it is computed. -/
theorem agreeOn_of_isDictionary
    {input snapshot dict : Store}
    (hDict :
      book.IsDictionary input snapshot
        (Key.under (heading ++ "Notes") name) dict)
    {c : Clause}
    (hc : c ∈ r.clauses) :
    Store.AgreeOn dict snapshot c.toExpr.keys
      c.toExpr.patterns := by
  have hUnmet :
      c.unmetRule (Key.under (heading ++ "Notes") name)
          selector ∈
        r.noteRules (Key.under (heading ++ "Notes") name)
          selector :=
    List.mem_cons_of_mem _
      (List.mem_cons_of_mem _ (List.mem_map_of_mem hc))
  refine ⟨?_, ?_⟩
  · intro key hKey
    refine hDict.getElem?_eq hAlone
      (ne_of_mem_dependencies_note hOnly hAlone hUnmet ?_)
    refine List.mem_cons_of_mem _
      (List.mem_append_left _ (List.mem_eraseDups.mpr ?_))
    exact List.mem_append_left _ (List.mem_append_left _ hKey)
  · intro p hp key hMatches
    refine hDict.getElem?_eq hAlone ?_
    rintro rfl
    have hNot := hPatterns p (mem_patterns_toExpr hc hp)
    rw [hNot] at hMatches
    cases hMatches

/-
  A note that nothing else has rules for, that is on no cycle
  and that the requirement does not gather counts the clauses
  that are unmet on the sheet.
-/
theorem getElem?_sheet_note
    (hOrdered : book.rules.Pairwise fun r s => r.seq < s.seq)
    (hTests : ∀ c ∈ r.clauses, c.alternatives ≠ [])
    (input : Store) :
    (book.sheet input)[Key.under (heading ++ "Notes") name]? =
      if holds (book.sheet input)[selector]? then
        some (.ofNat
          (min (r.unmet (book.sheet input)).length
            Number.countLimit))
      else none := by
  have hGate :
      (⟨Key.under (heading ++ "Notes") name, selector, .gate,
          none, none, 0⟩ : Rule) ∈
        r.noteRules (Key.under (heading ++ "Notes") name)
          selector :=
    List.mem_cons_self
  have hTarget :
      book.IsTarget (Key.under (heading ++ "Notes") name) := by
    rcases exists_rule_of_mem_noteRules hOnly hGate with
      ⟨rule, hRule, hThere, _⟩
    exact ⟨rule, hRule, hThere⟩
  rcases (Rulebook.isSnapshot_sheet book input).computed _
      hTarget with
    ⟨dict, hDict, hValue⟩
  have hSelector :
      dict[selector]? = (book.sheet input)[selector]? :=
    hDict.getElem?_eq hAlone
      (ne_of_mem_dependencies_note hOnly hAlone hGate
        List.mem_cons_self)
  rw [hValue, ← Rule.joinAll_map_bare,
    map_bare_rulesFor_note hOnly hOrdered,
    joinAll_noteRules hTests, hSelector,
    unmet_congr hTests fun _ =>
      agreeOn_of_isDictionary hOnly hAlone hPatterns hDict]

end Alone

/-
  A requirement that is declared where its note has no rules
  is the only source of rules for it.
-/
theorem isOnlySource_declareAll
    (hNot :
      ¬ book.IsTarget (Key.under (heading ++ "Notes") name))
    (owner : Owner)
    (selector : Key)
    (r : Requirement) :
    (book.declareAll owner
      (requirementDeclarations heading name selector
        r)).IsOnlySource (Key.under (heading ++ "Notes") name)
          (requirementDeclarations heading name selector r) := by
  let note := Key.under (heading ++ "Notes") name
  let rules : List Declaration :=
    .rule note selector .gate none ::
      .rule note selector .set (some (.constant (.number 0))) ::
        r.clauses.map fun c =>
          .rule note selector .add (some c.unmetFormula)
  have hSplit :
      requirementDeclarations heading name selector r =
        rules ++ [.requirement note selector r] := rfl
  have hRules :
      ∀ d ∈ rules, ∃ source op formula,
        d = .rule note source op formula := by
    intro d hd
    simp only [rules, List.mem_cons, List.mem_map] at hd
    rcases hd with rfl | rfl | ⟨c, _, rfl⟩
    · exact ⟨_, _, _, rfl⟩
    · exact ⟨_, _, _, rfl⟩
    · exact ⟨_, _, _, rfl⟩
  have hNone : book.rules.filter (·.target = note) = [] := by
    rw [List.filter_eq_nil_iff]
    intro rule hRule hTarget
    exact hNot ⟨rule, hRule, of_decide_eq_true hTarget⟩
  have hDeclared :=
    Rulebook.map_bare_declareAll hRules book owner
  rw [hNone, List.map_nil, List.nil_append] at hDeclared
  unfold Rulebook.IsOnlySource
  rw [hSplit, List.filterMap_append, Rulebook.declareAll,
    List.foldl_append]
  exact hDeclared.trans (List.append_nil _).symm

end Sheet

/-
  A requirement that is read is judged alike in three ways,
  and its note tells how many of its clauses are unmet on the
  sheet while the selector holds there.  A note is a binary64,
  so that its count ends at two to the power of 53.
-/
theorem note_counts_unmet
    {text : String}
    {r : Requirement}
    (hText : Requirement.ofText text = .ok r) :
    (∀ sheet : Store,
      (holds (r.toExpr.eval none sheet) = true ↔
          r.isMet sheet = true) ∧
        (r.isMet sheet = true ↔ r.unmet sheet = [])) ∧
      ∀ settings commands heading name selector,
        let book :=
          Command.runAll none (Rulebook.empty settings) commands
        let note := Key.under (heading ++ "Notes") name
        book.IsOnlySource note
            (requirementDeclarations heading name selector r) →
          ¬ book.graph.Reaches note note →
          (∀ p ∈ r.toExpr.patterns, p.matchesIn note = false) →
          ∀ input,
            let sheet := book.sheet input
            (holds sheet[selector]? = false →
                sheet[note]? = none) ∧
              (holds sheet[selector]? = true →
                sheet[note]? =
                  some (.ofNat
                    (min (r.unmet sheet).length
                      Number.countLimit))) := by
  have hTests := alternatives_ne_nil_of_ofText hText
  refine ⟨?_, ?_⟩
  · intro sheet
    rw [holds_toExpr hTests, unmet_eq_nil_iff]
    exact ⟨Iff.rfl, Iff.rfl⟩
  · intro settings commands heading name selector book note
      hOnly hAlone hPatterns input sheet
    have hConsistent :=
      Command.isConsistent_runAll_of
        (Rulebook.isConsistent_empty settings) none commands
    have hNote :=
      getElem?_sheet_note hOnly hAlone hPatterns
        hConsistent.ordered hTests input
    refine ⟨?_, ?_⟩
    · intro hClosed
      exact hNote.trans (if_neg (Bool.eq_false_iff.mp hClosed))
    · intro hOpen
      exact hNote.trans (if_pos hOpen)

/- A feat that requires a strength and some levels. -/
theorem note_counts_unmet_brawny :
    let p : Pattern :=
      ⟨"ls", .sequence (.set (.single 'l')) (.set (.single 's'))⟩
    let r : Requirement :=
      ⟨"strength >= 13/Sum 'ls' > 4",
        [⟨"strength >= 13",
            [⟨.attr "strength",
              some (.relation .atLeast (.number 13))⟩]⟩,
          ⟨"Sum 'ls' > 4",
            [⟨.gather .sum p,
              some (.relation .greater (.number 4))⟩]⟩]⟩
    let declarations :=
      requirementDeclarations "validation" "brawny"
        "feats.Brawny" r
    let note := Key.under ("validation" ++ "Notes") "brawny"
    let commands := declarations.map Command.declare
    let book :=
      Command.runAll none (Rulebook.empty .standard) commands
    Requirement.ofText r.text = .ok r ∧
      book.IsOnlySource note declarations ∧
      ¬ book.graph.Reaches note note ∧
      (∀ q ∈ r.toExpr.patterns, q.matchesIn note = false) ∧
      (∀ sheet, r.isMet sheet = true ↔ r.unmet sheet = []) ∧
      ∀ input,
        let sheet := book.sheet input
        holds sheet["feats.Brawny"]? = true →
          sheet[note]? =
            some (.ofNat
              (min (r.unmet sheet).length
                Number.countLimit)) := by
  intro p r declarations note commands book
  have hText : Requirement.ofText r.text = .ok r := by
    have hSome : (Requirement.ofText r.text).toOption = some r := by
      decide +kernel
    cases hRead : Requirement.ofText r.text with
    | error e =>
        rw [hRead] at hSome
        cases hSome
    | ok r' =>
        rw [hRead] at hSome
        rw [Option.some.inj hSome]
  have hOnly : book.IsOnlySource note declarations :=
    isOnlySource_declareAll (fun hSome => by
      rcases hSome with ⟨rule, hRule, _⟩
      cases hRule) none "feats.Brawny" r
  have hAlone : ¬ book.graph.Reaches note note := by
    have hRules :
        ∀ rule ∈ book.rules,
          rule.target = note ∧ rule.source ≠ note ∧
            ∀ f ∈ rule.formula, note ∉ f.dependencies := by
      decide +kernel
    apply Rulebook.not_reaches_of_forall
    intro rule hRule
    rcases hRules rule hRule with ⟨hTarget, hSource, hFormula⟩
    rw [← hTarget] at hSource hFormula ⊢
    exact Rulebook.notMem_dependencies hSource hFormula _
  have hPatterns :
      ∀ q ∈ r.toExpr.patterns, q.matchesIn note = false := by
    decide
  have hBoth := note_counts_unmet hText
  refine ⟨hText, hOnly, hAlone, hPatterns, ?_, ?_⟩
  · intro sheet
    exact (hBoth.1 sheet).2
  · intro input sheet
    exact (hBoth.2 .standard commands "validation" "brawny"
      "feats.Brawny" hOnly hAlone hPatterns input).2

end Requirement

end CharSheet
