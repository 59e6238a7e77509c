import CharSheet.Proofs.Sheet.Acyclic

/-
  Breakdowns that account for the sheet.

  A breakdown looks at the finished sheet, while the sheet is
  computed step by step.  Where nothing is on a cycle both
  come to the same: what a breakdown lists, joined to the
  input, is the value on the sheet.

  Main declarations:
    * `Rule.isClosed`, `Rule.shown`
    * `Rule.traceAll_eq_map`
    * `Breakdown.replay`
    * `Graph.cyclic_eq_false_iff`
    * `Rulebook.replay_explain`
-/

namespace CharSheet

------------------------------------------------------------
-- Contributions
------------------------------------------------------------

namespace Rule

instance (r : Rule) (key : Key) : Decidable (r.Reads key) :=
  inferInstanceAs (Decidable (key = r.source ∨
    ∃ f ∈ r.formula, (key ∈ f.dependencies ∨
      ∃ p ∈ f.patterns, p.matchesIn key = true)))

/- The rule is a gate that does not hold on the sheet. -/
def isClosed (sheet : Store) (r : Rule) : Bool :=
  r.op = .gate && !holds (r.contribution sheet)

/-
  What is shown of a rule: of a gate whether it holds, and of
  any other rule what it contributes.
-/
def shown (sheet : Store) (r : Rule) : Option Value :=
  if r.op = .gate then
    some (.bool (holds (r.contribution sheet)))
  else r.contribution sheet

/-
  All rules are shown in order up to the first closed gate,
  which is the last one.
-/
theorem traceAll_eq_map
    (sheet : Store)
    (rules : List Rule) :
    traceAll sheet rules =
      (rules.take (rules.findIdx (isClosed sheet) + 1)).map
        fun r => (r, r.shown sheet) := by
  induction rules with
  | nil => rfl
  | cons r rules ih =>
      rw [List.findIdx_cons, traceAll]
      by_cases hGate : r.op = .gate
      · rw [if_pos hGate]
        cases hOpen : holds (r.contribution sheet) with
        | true => simp [isClosed, shown, hGate, hOpen, ih]
        | false => simp [isClosed, shown, hGate, hOpen]
      · simp [isClosed, shown, hGate, ih]

end Rule

------------------------------------------------------------
-- Replaying
------------------------------------------------------------

/-
  Join what is shown of rules to a value.  A closed gate ends
  this without a value, an open one and a rule that shows
  nothing change nothing, and the others are combined by their
  operators.
-/
def Breakdown.replay :
    List (Operator × Option Value) → Option Value → Option Value
  | [], v => v
  | (op, shown) :: entries, v =>
      if op = .gate then
        if shown = some (.bool false) then none
        else replay entries v
      else
        match shown with
        | none => replay entries v
        | some c => replay entries (op.combine v c)

/- So rules are joined as they are shown. -/
theorem Rule.joinAll_eq_replay
    (sheet : Store)
    (rules : List Rule)
    (v : Option Value) :
    joinAll sheet rules v =
      Breakdown.replay
        ((rules.map (·.op)).zip
          ((traceAll sheet rules).map (·.2)))
        v := by
  induction rules generalizing v with
  | nil => rfl
  | cons r rules ih =>
      rw [joinAll, traceAll]
      by_cases hGate : r.op = .gate
      · rw [if_pos hGate, if_pos hGate]
        cases hOpen : holds (r.contribution sheet) with
        | true => simp [Breakdown.replay, hGate, ih]
        | false => simp [Breakdown.replay, hGate]
      · rw [if_neg hGate, if_neg hGate]
        cases hShown : r.contribution sheet with
        | none => simp [Breakdown.replay, hGate, ih]
        | some c => simp [Breakdown.replay, hGate, ih]

------------------------------------------------------------
-- Graphs Without Cycles
------------------------------------------------------------

/- No component is cyclic if nothing reaches itself. -/
theorem Graph.cyclic_eq_false_iff
    {g : Graph} :
    (∀ c ∈ g.components, c.cyclic = false) ↔
      ∀ key, ¬ g.Reaches key key := by
  have hOrder := isEvaluationOrder_components g
  constructor
  · intro hNone key hReaches
    have hIn := hOrder.partition.mem_iff.mpr hReaches.mem.1
    rcases List.mem_flatMap.mp hIn with ⟨c, hc, hMember⟩
    have hCyclic :=
      (hOrder.cyclic_iff c hc).mpr ⟨key, hMember, hReaches⟩
    rw [hNone c hc] at hCyclic
    cases hCyclic
  · intro hNone c hc
    apply eq_false_of_ne_true
    intro hCyclic
    rcases (hOrder.cyclic_iff c hc).mp hCyclic with
      ⟨key, _, hReaches⟩
    exact hNone key hReaches

------------------------------------------------------------
-- Breakdowns
------------------------------------------------------------

namespace Rulebook

/-
  Where nothing is on a cycle, and no rule gathers its own
  target, the rules of an attribute are joined on the finished
  sheet to the value there.  So is what a breakdown shows of
  them, and it shows all of them in order, up to the first
  closed gate.
-/
theorem replay_explain
    (book : Rulebook)
    (hAcyclic :
      ∀ c ∈ book.graph.components, c.cyclic = false)
    (hPatterns : ∀ r ∈ book.rules, ∀ f ∈ r.formula,
      ∀ p ∈ f.patterns, p.matchesIn r.target = false)
    (input : Store)
    (key : Key) :
    let sheet := book.sheet input
    let rules := book.rulesFor key
    let b := book.explain input key
    Rule.joinAll sheet rules input[key]? = sheet[key]? ∧
      b.value = sheet[key]? ∧
      Breakdown.replay
          ((rules.map (·.op)).zip (b.contributions.map (·.2)))
          b.input =
        b.value ∧
      b.contributions =
        (rules.take (rules.findIdx (Rule.isClosed sheet) + 1)).map
          fun r => (r.description, r.shown sheet) := by
  intro sheet rules b
  have hAlone : ¬ book.graph.Reaches key key :=
    Graph.cyclic_eq_false_iff.mp hAcyclic key
  have hJoined :
      sheet[key]? = Rule.joinAll sheet rules input[key]? := by
    apply getElem?_sheet_of_not_reaches hAlone
    rintro r hRule rfl
    exact hPatterns r hRule
  have hShown :
      b.contributions.map (·.2) =
        (Rule.traceAll sheet rules).map (·.2) := by
    change ((Rule.traceAll sheet rules).map
      fun e => (e.1.description, e.2)).map (·.2) = _
    rw [List.map_map]
    rfl
  refine ⟨hJoined.symm, rfl, ?_, ?_⟩
  · rw [hShown, ← Rule.joinAll_eq_replay]
    exact hJoined.symm
  · change (Rule.traceAll sheet rules).map
      (fun e => (e.1.description, e.2)) = _
    rw [Rule.traceAll_eq_map, List.map_map]
    rfl

/-
  A gated note that is set to a level is accounted for, where
  the level is a sum over attributes that a pattern finds.
-/
theorem replay_explain_rage :
    let p : Pattern :=
      ⟨"ls", .sequence (.set (.single 'l')) (.set (.single 's'))⟩
    let book :=
      (Rulebook.empty .standard).declareAll none
        [.rule "combatNotes.rage" "bonus" .add none,
          .rule "combatNotes.rage" "level" .set none,
          .rule "combatNotes.rage" "features.Rage" .gate none,
          .rule "level" "always" .set
            (some ⟨"sum('ls')", .gather .sum p⟩)]
    let input : Store :=
      .ofList
        [("always", Value.number 1), ("features.Rage", .number 1),
          ("levels.Barbarian", .number 9)]
    let sheet := book.sheet input
    let rules := book.rulesFor "combatNotes.rage"
    let b := book.explain input "combatNotes.rage"
    (∀ c ∈ book.graph.components, c.cyclic = false) ∧
      (∀ r ∈ book.rules, ∀ f ∈ r.formula, ∀ p ∈ f.patterns,
        p.matchesIn r.target = false) ∧
      Rule.joinAll sheet rules input["combatNotes.rage"]? =
        sheet["combatNotes.rage"]? ∧
      b.value = sheet["combatNotes.rage"]? ∧
      Breakdown.replay
          ((rules.map (·.op)).zip (b.contributions.map (·.2)))
          b.input =
        b.value ∧
      b.contributions =
        (rules.take (rules.findIdx (Rule.isClosed sheet) + 1)).map
          fun r => (r.description, r.shown sheet) := by
  intro p book input sheet rules b
  -- The note reads the level, which reads no target.
  let rank : Key → Nat := fun key =>
    if key = "combatNotes.rage" then 1 else 0
  have hLower : ∀ r ∈ book.rules, ∀ t ∈ book.rules,
      r.Reads t.target → rank t.target < rank r.target := by
    decide
  have hReads : ∀ r ∈ book.rules, ∀ other, r.Reads other →
      book.IsTarget other → rank other < rank r.target := by
    rintro r hRule _ hReads ⟨t, ht, rfl⟩
    exact hLower r hRule t ht hReads
  have hAcyclic : ∀ c ∈ book.graph.components, c.cyclic = false :=
    Graph.cyclic_eq_false_iff.mpr (not_reaches_of_reads rank hReads)
  have hPatterns : ∀ r ∈ book.rules, ∀ f ∈ r.formula,
      ∀ p ∈ f.patterns, p.matchesIn r.target = false := by
    decide
  exact ⟨hAcyclic, hPatterns,
    replay_explain book hAcyclic hPatterns input
      "combatNotes.rage"⟩

end Rulebook

end CharSheet
