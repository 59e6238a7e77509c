import CharSheet.Proofs.Choice.Pools
import CharSheet.Proofs.Choice.Removal
import CharSheet.Proofs.Formula.Equality
import CharSheet.Proofs.Requirement.Note

/-
  Budgets and the pools that are open.

  A budget that only grants add to has one rule for each pool
  of its kind.  On a sheet it is its input with the counts of
  the open pools added, and this sum is exact as long as it
  can be counted.

  Main declarations:
    * `Rulebook.openPools`
    * `Rulebook.OnlyGrants`
    * `Rulebook.IsMatched`
    * `Rulebook.IsMatched.getElem?_sheet`
    * `Rulebook.budget_eq_openPools`
-/

namespace CharSheet

------------------------------------------------------------
-- Counts
------------------------------------------------------------

namespace Value

@[simp] theorem integer?_ofNat (n : Nat) :
    (ofNat n).integer? = some (n : Int) :=
  Number.integer?_ofWhole (some n)

theorem count_ofNat (n : Nat) : (ofNat n).count = n := by
  simp [count]

theorem total_map_ofNat (counts : List Nat) :
    total (counts.map ofNat) = (counts.sum : Nat) := by
  induction counts with
  | nil => rfl
  | cons n counts ih =>
      unfold total at ih ⊢
      rw [List.map_cons, List.map_cons, List.sum_cons, ih,
        count_ofNat, List.sum_cons, Int.natCast_add]

theorem extent_map_ofNat (counts : List Nat) :
    extent (counts.map ofNat) = counts.sum := by
  simp [extent, count_ofNat, Function.comp_def]

/- Counts are added exactly to an integer. -/
theorem exists_combineAll_counts
    {v : Value}
    {i : Int}
    (hv : v.integer? = some i)
    {counts : List Nat}
    (h : i.natAbs + counts.sum ≤ Number.countLimit) :
    ∃ u,
      Operator.add.combineAll (some v) (counts.map ofNat) =
          some u ∧
        u.integer? = some (i + (counts.sum : Nat)) := by
  rw [← total_map_ofNat]
  rw [← extent_map_ofNat] at h
  refine exists_combineAll_add hv ?_ h
  intro w hw
  rcases List.mem_map.mp hw with ⟨n, _, rfl⟩
  rw [integer?_ofNat]
  rfl

/- Counts alone are added to their sum. -/
theorem combineAll_counts
    {n : Nat}
    {counts : List Nat}
    (h : n + counts.sum ≤ Number.countLimit) :
    Operator.add.combineAll (some (ofNat n))
        (counts.map ofNat) =
      some (ofNat (n + counts.sum)) := by
  induction counts generalizing n with
  | nil => rfl
  | cons k counts ih =>
      rw [List.sum_cons] at h ⊢
      have hFirst :
          Operator.add.combine (some (ofNat n)) (ofNat k) =
            some (ofNat (n + k)) := by
        have hSum : (n + k : Int).natAbs ≤ Number.countLimit := by
          omega
        exact congrArg (fun x => some (Value.number x))
          (Number.add_ofInt hSum)
      rw [List.map_cons, Operator.combineAll, List.foldl_cons,
        hFirst, ← Nat.add_assoc]
      exact ih (by omega)

end Value

/- A pool adds its count while it is open. -/
theorem Pool.contribution_rule
    (p : Pool)
    (sheet : Store) :
    p.rule.contribution sheet =
      if sheet.truthy p.gate then some (.ofNat p.count)
      else none := by
  cases hGate : sheet[p.gate]? with
  | none =>
      simp [Rule.contribution, Pool.rule, Store.truthy, hGate]
  | some v =>
      simp only [Rule.contribution, Pool.rule, Store.truthy,
        hGate]
      rfl

namespace Rulebook

variable {book : Rulebook}
variable {kind : PoolKind}
variable {input dict : Store}

------------------------------------------------------------
-- Matched Budgets
------------------------------------------------------------

/- The pools of a kind that are open on a sheet. -/
def openPools
    (book : Rulebook)
    (kind : PoolKind)
    (sheet : Store) : List Pool :=
  (book.pools.filter (·.kind = kind)).filter fun p =>
    sheet.truthy p.gate

/-
  The rules of a budget are those by which the pools of its
  kind add to it, in the same order.
-/
def IsMatched (book : Rulebook) (kind : PoolKind) : Prop :=
  (book.rules.filter (·.target = kind.budget)).map
      Rule.unnumbered =
    (book.pools.filter (·.kind = kind)).map Pool.rule

/- Each of these rules is that of a pool. -/
theorem IsMatched.exists_pool
    (h : book.IsMatched kind)
    {r : Rule}
    (hRule : r ∈ book.rules)
    (hTarget : r.target = kind.budget) :
    ∃ p ∈ book.pools, p.kind = kind ∧
      r.unnumbered = p.rule := by
  have hMem :
      r.unnumbered ∈
        (book.rules.filter (·.target = kind.budget)).map
          Rule.unnumbered :=
    List.mem_map_of_mem
      (List.mem_filter.mpr ⟨hRule, decide_eq_true hTarget⟩)
  rw [h] at hMem
  rcases List.mem_map.mp hMem with ⟨p, hp, hEq⟩
  rcases List.mem_filter.mp hp with ⟨hPool, hKind⟩
  exact ⟨p, hPool, of_decide_eq_true hKind, hEq.symm⟩

/- All of these rules add. -/
theorem IsMatched.rulesFor_eq
    (h : book.IsMatched kind)
    (hOrdered : book.rules.Pairwise fun r s => r.seq < s.seq) :
    book.rulesFor kind.budget =
      book.rulesOf kind.budget .add := by
  have hAdds :
      ∀ r ∈ book.rules, r.target = kind.budget →
        r.op = .add := by
    intro r hRule hTarget
    rcases h.exists_pool hRule hTarget with ⟨p, _, _, hEq⟩
    exact congrArg Rule.op hEq
  have hNone (op : Operator) (hOp : op ≠ .add) :
      book.rulesOf kind.budget op = [] := by
    apply List.eq_nil_iff_forall_not_mem.mpr
    intro r hr
    rcases mem_rulesOf_iff.mp hr with ⟨hRule, hTarget, rfl⟩
    exact hOp (hAdds r hRule hTarget)
  rw [rulesFor_of_onlyAdds hOrdered
      fun r hRule hTarget => .inr (.inr (hAdds r hRule hTarget)),
    hNone .gate nofun, hNone .set nofun]
  rfl

/- They contribute the counts of the open pools. -/
theorem IsMatched.contributions_eq
    (h : book.IsMatched kind)
    (sheet : Store) :
    Rule.contributions sheet (book.rulesOf kind.budget .add) =
      (book.openPools kind sheet).map fun p =>
        .ofNat p.count := by
  have hAll :
      book.rulesOf kind.budget .add =
        book.rules.filter (·.target = kind.budget) := by
    apply List.filter_congr
    intro r hRule
    by_cases hTarget : r.target = kind.budget
    · rcases h.exists_pool hRule hTarget with ⟨p, _, _, hEq⟩
      have hAdd : r.op = .add := congrArg Rule.op hEq
      simp [hTarget, hAdd]
    · simp [hTarget]
  have hUnnumbered (rules : List Rule) :
      Rule.contributions sheet (rules.map Rule.unnumbered) =
        Rule.contributions sheet rules := by
    rw [Rule.contributions, List.filterMap_map]
    rfl
  rw [hAll, ← hUnnumbered, h, openPools,
    Rule.contributions, List.filterMap_map]
  induction book.pools.filter (·.kind = kind) with
  | nil => rfl
  | cons p pools ih =>
      rw [List.filterMap_cons, ih, Function.comp_apply,
        p.contribution_rule]
      by_cases hOpen : sheet.truthy p.gate = true
      · simp [hOpen]
      · simp [hOpen]

/- What is on no cycle reads the gates from the sheet. -/
theorem IsMatched.openPools_eq
    (h : book.IsMatched kind)
    (hAlone : ¬ book.graph.Reaches kind.budget kind.budget)
    (hDict : book.IsDictionary input (book.sheet input)
      kind.budget dict) :
    book.openPools kind dict =
      book.openPools kind (book.sheet input) := by
  apply List.filter_congr
  intro p hp
  have hMem :
      p.rule ∈
        (book.pools.filter (·.kind = kind)).map Pool.rule :=
    List.mem_map_of_mem hp
  rw [← h] at hMem
  rcases List.mem_map.mp hMem with ⟨r, hr, hEq⟩
  rcases List.mem_filter.mp hr with ⟨hRule, hTarget⟩
  have hDepends : book.graph.DependsOn kind.budget p.gate := by
    refine dependsOn_graph_iff.mpr
      ⟨r, hRule, of_decide_eq_true hTarget, ?_⟩
    have hSource : r.source = p.gate := congrArg Rule.source hEq
    rw [← hSource]
    exact List.mem_cons_self
  have hOther : p.gate ≠ kind.budget := by
    intro hSame
    rw [hSame] at hDepends
    exact hAlone (Relation.TransGen.single hDepends)
  rw [Store.truthy, Store.truthy,
    hDict.getElem?_eq hAlone hOther]

/-
  A budget is its input, to which the counts of the open pools
  are added one after another.
-/
theorem IsMatched.getElem?_sheet
    (h : book.IsMatched kind)
    (hOrdered : book.rules.Pairwise fun r s => r.seq < s.seq)
    (hAlone : ¬ book.graph.Reaches kind.budget kind.budget)
    (input : Store) :
    (book.sheet input)[kind.budget]? =
      Operator.add.combineAll input[kind.budget]?
        ((book.openPools kind (book.sheet input)).map fun p =>
          .ofNat p.count) := by
  by_cases hTarget : book.IsTarget kind.budget
  · rcases (isSnapshot_sheet book input).computed kind.budget
        hTarget with
      ⟨dict, hDict, hValue⟩
    rw [hValue, h.rulesFor_eq hOrdered,
      joinAll_rulesOf Operator.noConfusion, h.contributions_eq,
      h.openPools_eq hAlone hDict]
  · have hNoRules :
        book.rules.filter (·.target = kind.budget) = [] := by
      apply List.filter_eq_nil_iff.mpr
      intro r hRule hEq
      exact hTarget ⟨r, hRule, of_decide_eq_true hEq⟩
    have hNoPools : book.pools.filter (·.kind = kind) = [] := by
      have hEq := h
      rw [IsMatched, hNoRules] at hEq
      exact List.map_eq_nil_iff.mp hEq.symm
    have hNoneOpen :
        book.openPools kind (book.sheet input) = [] := by
      rw [openPools, hNoPools, List.filter_nil]
    rw [getElem?_sheet_of_not_isTarget hTarget, hNoneOpen]
    rfl

/- A budget is on no cycle if its gates are inputs. -/
theorem IsMatched.not_reaches
    (h : book.IsMatched kind)
    (hGates :
      ∀ p ∈ book.pools, p.kind = kind → ¬ book.IsTarget p.gate) :
    ¬ book.graph.Reaches kind.budget kind.budget := by
  have hInput {other : Key}
      (hDepends : book.graph.DependsOn kind.budget other) :
      ¬ book.IsTarget other := by
    rcases dependsOn_graph_iff.mp hDepends with
      ⟨r, hRule, hTarget, hIn⟩
    rcases h.exists_pool hRule hTarget with
      ⟨p, hPool, hKind, hEq⟩
    have hOnly :
        dependencies book.targets r = [p.gate] := by
      have hSame :
          dependencies book.targets r =
            dependencies book.targets r.unnumbered := rfl
      rw [hSame, hEq]
      rfl
    rw [hOnly, List.mem_singleton] at hIn
    exact hIn ▸ hGates p hPool hKind
  intro hReaches
  rcases Relation.TransGen.head'_iff.mp hReaches with
    ⟨other, hFirst, hRest⟩
  rcases Relation.ReflTransGen.cases_head hRest with
    hSame | ⟨next, hNext, _⟩
  · subst hSame
    rcases dependsOn_graph_iff.mp hFirst with
      ⟨r, hRule, hTarget, _⟩
    exact hInput hFirst ⟨r, hRule, hTarget⟩
  · rcases dependsOn_graph_iff.mp hNext with
      ⟨r, hRule, hTarget, _⟩
    exact hInput hFirst ⟨r, hRule, hTarget⟩

------------------------------------------------------------
-- Budgets of Choices
------------------------------------------------------------

/- All rules of an attribute were added by granted items. -/
def OnlyGrants
    (book : Rulebook)
    (log : List (Declaration × Rule))
    (key : Key) : Prop :=
  ∀ r ∈ book.rules, r.target = key →
    ∃ d, (d, r) ∈ log ∧ d.IsGranted

/- The core grants nothing. -/
theorem isPaired_core
    (settings : Settings)
    (kind : PoolKind) :
    (core settings).IsPaired kind [] := by
  have hPools : (core settings).pools = [] := by
    have hNone :
        coreDeclarations.filterMap (Declaration.pool? none) =
          [] := by
      decide +kernel
    rw [core, pools_declareAll, hNone]
    rfl
  unfold IsPaired
  rw [hPools]
  refine ⟨fun _ hn => absurd hn List.not_mem_nil,
    fun _ _ hn => absurd hn List.not_mem_nil, ?_⟩
  rw [List.filter_eq_nil_iff.mpr (by simp)]
  rfl

/- So a budget that only grants add to is matched. -/
theorem isMatched_callAll
    {settings : Settings}
    {calls : List ChoiceCall}
    (hGrants : OnlyGrants ((core settings).callAll calls)
      ((core settings).additionsAll calls) kind.budget) :
    ((core settings).callAll calls).IsMatched kind := by
  have hPaired :=
    (isPaired_core settings kind).callAll
      (isConsistent_core settings) calls
  rw [List.nil_append] at hPaired
  have hRules := hPaired.rules_eq
  rw [IsMatched, ← hRules]
  congr 1
  apply List.filter_congr
  intro r hRule
  apply decide_eq_decide.mpr
  constructor
  · intro hTarget
    rcases hGrants r hRule hTarget with ⟨d, hMem, hGranted⟩
    have hParts := eq_rule_of_mem_additionsAll hMem
    rw [hTarget] at hParts
    have hGrant := hGranted.isGrant ⟨_, _, _, hParts⟩
    exact List.mem_map.mpr
      ⟨(d, r), List.mem_filter.mpr ⟨hMem, hGrant⟩, rfl⟩
  · intro hNumber
    have hMem :
        r.unnumbered ∈
          (((core settings).callAll calls).pools.filter
            (·.kind = kind)).map Pool.rule := by
      rw [← hRules]
      exact List.mem_map_of_mem
        (List.mem_filter.mpr ⟨hRule, decide_eq_true hNumber⟩)
    rcases List.mem_map.mp hMem with ⟨p, hp, hEq⟩
    rw [← of_decide_eq_true (List.mem_filter.mp hp).2]
    exact (congrArg Rule.target hEq).symm

/-
  Whatever choices are registered, registered again and
  removed, the rules of a budget that only grants add to stand
  for the pools of its kind, one for one.  If the budget is on
  no cycle, it is its input with the counts of the open pools,
  one after another.  This is the exact sum as long as it can
  be counted, and nothing if there are neither.
-/
theorem budget_eq_openPools
    (settings : Settings)
    (calls : List ChoiceCall)
    (kind : PoolKind)
    (hGrants : OnlyGrants ((core settings).callAll calls)
      ((core settings).additionsAll calls) kind.budget) :
    let book := (core settings).callAll calls
    book.IsMatched kind ∧
      (¬ book.graph.Reaches kind.budget kind.budget →
        ∀ input,
          let sheet := book.sheet input
          let counts := (book.openPools kind sheet).map Pool.count
          sheet[kind.budget]? =
              Operator.add.combineAll input[kind.budget]?
                (counts.map .ofNat) ∧
            (∀ v i, input[kind.budget]? = some v →
              v.integer? = some i →
                i.natAbs + counts.sum ≤ Number.countLimit →
                  ∃ u, sheet[kind.budget]? = some u ∧
                    u.integer? = some (i + (counts.sum : Nat))) ∧
            (input[kind.budget]? = none →
              (counts = [] → sheet[kind.budget]? = none) ∧
                (counts ≠ [] → counts.sum ≤ Number.countLimit →
                  sheet[kind.budget]? =
                    some (.ofNat counts.sum)))) := by
  intro book
  have hMatched : book.IsMatched kind :=
    isMatched_callAll hGrants
  have hBook : book.IsConsistent :=
    (isConsistent_core settings).callAll calls
  refine ⟨hMatched, ?_⟩
  intro hAlone input sheet counts
  have hSheet :
      sheet[kind.budget]? =
        Operator.add.combineAll input[kind.budget]?
          (counts.map .ofNat) := by
    rw [List.map_map]
    exact hMatched.getElem?_sheet hBook.ordered hAlone input
  refine ⟨hSheet, ?_, ?_⟩
  · intro v i hInput hInteger hCounted
    rw [hSheet, hInput]
    exact Value.exists_combineAll_counts hInteger hCounted
  · intro hInput
    rw [hSheet, hInput]
    refine ⟨?_, ?_⟩
    · intro hNone
      rw [hNone]
      rfl
    · intro hSome hCounted
      cases hCounts : counts with
      | nil => exact absurd hCounts hSome
      | cons n rest =>
          rw [hCounts] at hCounted
          exact Value.combineAll_counts hCounted

end Rulebook

------------------------------------------------------------
-- Two Languages of One Class
------------------------------------------------------------

namespace Linguist

/- A class that knows any two languages. -/
def linguist : Choice :=
  ⟨.characterClass, "Linguist",
    ⟨[("Languages", ["any", "any"])]⟩⟩

/- The rulebook in which it is the only choice. -/
def book : Rulebook :=
  (Rulebook.core .standard).callAll [.register linguist]

/- The rules that it declares. -/
def log : List (Declaration × Rule) :=
  (Rulebook.core .standard).additionsAll [.register linguist]

/- The pool of one of its languages. -/
def pool : Pool :=
  ⟨.language, 1, "levels.Linguist", none,
    some ⟨"Class", "Linguist"⟩⟩

theorem pools_book : book.pools = [pool, pool] := by
  decide +kernel

/- Nothing else adds to the budget of languages. -/
theorem onlyGrants_book :
    Rulebook.OnlyGrants book log PoolKind.language.budget := by
  let declared : Declaration :=
    .rule PoolKind.language.budget pool.gate .add
      (some (.gated (.ofNat 1)))
  have hGranted : declared.IsGranted :=
    ⟨⟨_, _, _, _, rfl⟩, pool.gate, .language, .choose 1 none,
      List.mem_cons_self⟩
  have hLogged :
      ∀ r ∈ book.rules, r.target = PoolKind.language.budget →
        (declared, r) ∈ log := by
    decide +kernel
  intro r hRule hTarget
  exact ⟨declared, hLogged r hRule hTarget, hGranted⟩

theorem isMatched_book : book.IsMatched .language :=
  Rulebook.isMatched_callAll onlyGrants_book

theorem not_isTarget_gate : ¬ book.IsTarget pool.gate := by
  unfold Rulebook.IsTarget
  decide +kernel

/- The budget depends on the level of the class alone. -/
theorem not_reaches_budget :
    ¬ book.graph.Reaches PoolKind.language.budget
      PoolKind.language.budget := by
  apply isMatched_book.not_reaches
  intro p hp _
  have hPool : p ∈ [pool, pool] := pools_book ▸ hp
  have hSame : p = pool := by simpa using hPool
  rw [hSame]
  exact not_isTarget_gate

/- Both pools are open from the first level on. -/
theorem openPools_sheet
    {input : Store}
    (hLevel : input.truthy pool.gate = true) :
    book.openPools .language (book.sheet input) =
      [pool, pool] := by
  have hOpen :
      (book.sheet input).truthy pool.gate = true := by
    rw [Store.truthy,
      Rulebook.getElem?_sheet_of_not_isTarget not_isTarget_gate]
    exact hLevel
  have hKind :
      book.pools.filter (·.kind = .language) =
        [pool, pool] := by
    rw [pools_book]
    rfl
  rw [Rulebook.openPools, hKind]
  simp [hOpen]

/- At the first level, two languages may be chosen. -/
theorem budget_eq_openPools_linguist :
    let input : Store :=
      (∅ : Store).put "levels.Linguist" (some (.number 1))
    Rulebook.OnlyGrants book log PoolKind.language.budget ∧
      ¬ book.graph.Reaches PoolKind.language.budget
        PoolKind.language.budget ∧
      (book.sheet input)[PoolKind.language.budget]? =
        some (.ofNat 2) := by
  intro input
  have hNone : input[PoolKind.language.budget]? = none := by
    decide +kernel
  have hOpen :
      book.openPools .language (book.sheet input) =
        [pool, pool] :=
    openPools_sheet (by decide +kernel)
  have hBoth :=
    (Rulebook.budget_eq_openPools .standard
      [.register linguist] .language onlyGrants_book).2
        not_reaches_budget input
  have hSum :
      ((book.openPools .language (book.sheet input)).map
          Pool.count ≠ [] →
        ((book.openPools .language (book.sheet input)).map
          Pool.count).sum ≤ Number.countLimit →
        (book.sheet input)[PoolKind.language.budget]? =
          some (.ofNat ((book.openPools .language
            (book.sheet input)).map Pool.count).sum)) :=
    (hBoth.2.2 hNone).2
  rw [hOpen] at hSum
  exact ⟨onlyGrants_book, not_reaches_budget,
    hSum (by decide) (by decide)⟩

/- An input that is as large as numbers are exact. -/
def many : Store :=
  ((∅ : Store).put "levels.Linguist" (some (.number 1))).put
    PoolKind.language.budget
    (some (.ofNat Number.countLimit))

/- The counts are lost one after another. -/
theorem sheet_many :
    (book.sheet many)[PoolKind.language.budget]? =
      some (.ofNat Number.countLimit) := by
  have hLarge :
      many[PoolKind.language.budget]? =
        some (.ofNat Number.countLimit) := by
    decide +kernel
  have hSum :
      Operator.add.combineAll (some (.ofNat Number.countLimit))
          ([pool, pool].map fun p => .ofNat p.count) =
        some (.ofNat Number.countLimit) := by
    decide +kernel
  have hBook : book.IsConsistent :=
    (Rulebook.isConsistent_core .standard).callAll _
  rw [isMatched_book.getElem?_sheet hBook.ordered
    not_reaches_budget, openPools_sheet (by decide +kernel),
    hLarge, hSum]

/- So the sum is not that of the input and the counts. -/
theorem not_forall_budget_eq_openPools :
    ¬ ∀ (settings : Settings) (calls : List ChoiceCall)
      (kind : PoolKind),
        let book := (Rulebook.core settings).callAll calls
        Rulebook.OnlyGrants book
            ((Rulebook.core settings).additionsAll calls)
            kind.budget →
          ¬ book.graph.Reaches kind.budget kind.budget →
            ∀ (input : Store) (v : Value) (i : Int),
              input[kind.budget]? = some v →
                v.integer? = some i →
                  ∃ u,
                    (book.sheet input)[kind.budget]? = some u ∧
                      u.integer? = some (i +
                        (((book.openPools kind
                          (book.sheet input)).map
                            Pool.count).sum : Nat)) := by
  intro h
  have hSum :
      ∃ u,
        (book.sheet many)[PoolKind.language.budget]? =
            some u ∧
          u.integer? = some ((Number.countLimit : Int) +
            (((book.openPools .language
              (book.sheet many)).map Pool.count).sum : Nat)) :=
    h .standard [.register linguist] .language onlyGrants_book
      not_reaches_budget many (.ofNat Number.countLimit) _
      (by decide +kernel) (Value.integer?_ofNat _)
  rcases hSum with ⟨u, hSheet, hInteger⟩
  rw [sheet_many] at hSheet
  cases hSheet
  have hCounts : ([pool, pool].map Pool.count).sum = 2 := by
    decide
  rw [openPools_sheet (by decide +kernel), hCounts,
    Value.integer?_ofNat] at hInteger
  have hEq := Option.some.inj hInteger
  omega

end Linguist

end CharSheet
