import CharSheet.Proofs.Formula.Dependencies
import CharSheet.Proofs.Graph.Components
import CharSheet.Rulebook.Sheet
import Mathlib.Data.List.Induction

/-
  Plans along an order of evaluation.

  A plan computes each target once.  What the rules of a
  target read is computed before it, up to the target itself
  and later members of its component, which are pending.

  Main declarations:
    * `Rulebook.IsTarget`, `Rulebook.IsPending`
    * `Rulebook.dependsOn_of_reads`
    * `Plan.getElem?_sheet_of_notMem`
    * `Rulebook.planAlong_eq_map`
    * `Rulebook.mem_before_of_reads`
    * `Rulebook.notMem_before_of_isPending`
-/

namespace CharSheet

------------------------------------------------------------
-- Stores
------------------------------------------------------------

/- What an attribute is after another one is put. -/
theorem Store.getElem?_put
    (s : Store)
    (key other : Key)
    (v : Option Value) :
    (s.put key v)[other]? =
      if key = other then v else s[other]? := by
  cases v with
  | none => simp [Store.put, Std.ExtTreeMap.getElem?_erase]
  | some v => simp [Store.put, Std.ExtTreeMap.getElem?_insert]

------------------------------------------------------------
-- Targets
------------------------------------------------------------

/- Dropping repetitions keeps all that is listed. -/
theorem mem_eraseReps_iff
    (keys : List Key)
    (key : Key) :
    key ∈ keys.eraseReps ↔ key ∈ keys := by
  have hLoop (last : Key) (rest kept : List Key) :
      key ∈ List.eraseRepsBy.loop (· == ·) last rest kept ↔
        key = last ∨ key ∈ rest ∨ key ∈ kept := by
    induction rest generalizing last kept with
    | nil => simp [List.eraseRepsBy.loop, or_comm]
    | cons next rest ih =>
        unfold List.eraseRepsBy.loop
        split
        · next hSame =>
            obtain rfl : last = next := eq_of_beq hSame
            simp only [ih, List.mem_cons]
            tauto
        · simp only [ih, List.mem_cons]
          tauto
  cases keys with
  | nil => rfl
  | cons first rest =>
      simpa [List.eraseReps, List.eraseRepsBy] using
        hLoop first rest []

namespace Rulebook

/- Some rule has the attribute as its target. -/
def IsTarget (book : Rulebook) (key : Key) : Prop :=
  ∃ r ∈ book.rules, r.target = key

variable {book : Rulebook}
variable {key other : Key}

/- The targets are listed. -/
theorem mem_targets_iff :
    key ∈ book.targets ↔ book.IsTarget key := by
  simp [targets, IsTarget, mem_eraseReps_iff]

/- The rules of an attribute are those with it as target. -/
theorem mem_rulesFor_iff
    {r : Rule} :
    r ∈ book.rulesFor key ↔
      r ∈ book.rules ∧ r.target = key := by
  simp [rulesFor]

/- An attribute has rules if it is a target. -/
theorem rulesFor_ne_nil_iff :
    book.rulesFor key ≠ [] ↔ book.IsTarget key := by
  constructor
  · intro hSome
    rcases List.exists_mem_of_ne_nil _ hSome with ⟨r, hr⟩
    exact ⟨r, mem_rulesFor_iff.mp hr⟩
  · intro hSome
    rcases hSome with ⟨r, hr⟩
    exact List.ne_nil_of_mem (mem_rulesFor_iff.mpr hr)

------------------------------------------------------------
-- Dependencies
------------------------------------------------------------

/- Adding dependencies of an attribute adds no others. -/
theorem mem_edges_addEdges
    (g : Graph)
    (dependent : Key)
    (keys : List Key)
    (e : Key × Key) :
    e ∈ (keys.foldl
        (fun g key => g.addEdge dependent key) g).edges ↔
      e ∈ g.edges ∨ (e.1 = dependent ∧ e.2 ∈ keys) := by
  induction keys generalizing g with
  | nil => simp
  | cons key keys ih =>
      apply (ih (g.addEdge dependent key)).trans
      simp only [Graph.addEdge, Graph.edges_addNode, List.mem_cons,
        Prod.ext_iff]
      tauto

/- The graph has the dependencies of all rules. -/
theorem dependsOn_graph_iff :
    book.graph.DependsOn key other ↔
      ∃ r ∈ book.rules, r.target = key ∧
        other ∈ dependencies book.targets r := by
  have hFold (rules : List Rule) (g : Graph) :
      (key, other) ∈ (rules.foldl
          (fun g r =>
            (dependencies book.targets r).foldl
              (fun g key => g.addEdge r.target key) g)
          g).edges ↔
        (key, other) ∈ g.edges ∨
          ∃ r ∈ rules, r.target = key ∧
            other ∈ dependencies book.targets r := by
    induction rules generalizing g with
    | nil => simp
    | cons r rules ih =>
        rw [List.foldl_cons, ih, mem_edges_addEdges]
        simp only [List.mem_cons, exists_eq_or_imp]
        rw [or_assoc, eq_comm]
  simpa [Graph.DependsOn, graph, Graph.empty] using
    hFold book.rules Graph.empty

/- A target is an attribute of the graph. -/
theorem IsTarget.mem_nodes
    (h : book.IsTarget key) :
    key ∈ book.graph.nodes := by
  rcases h with ⟨r, hr, rfl⟩
  have hSource : book.graph.DependsOn r.target r.source :=
    dependsOn_graph_iff.mpr ⟨r, hr, rfl, List.mem_cons_self⟩
  exact hSource.mem.1

/-
  A target depends on every other target that one of its
  rules reads, also on those that a pattern finds.
-/
theorem dependsOn_of_reads
    {r : Rule}
    (hRule : r ∈ book.rules)
    (hReads : r.Reads other)
    (hTarget : book.IsTarget other)
    (hOther : other ≠ r.target) :
    book.graph.DependsOn r.target other := by
  refine dependsOn_graph_iff.mpr ⟨r, hRule, rfl, ?_⟩
  unfold dependencies
  rcases hReads with rfl | ⟨f, hFormula, hReads⟩
  · exact List.mem_cons_self
  · apply List.mem_cons_of_mem _
    rw [hFormula]
    apply List.mem_append.mpr
    rcases hReads with hNamed | ⟨p, hPattern, hMatches⟩
    · exact Or.inl hNamed
    · refine Or.inr (List.mem_flatMap.mpr ⟨p, hPattern, ?_⟩)
      refine List.mem_filter.mpr ⟨mem_targets_iff.mpr hTarget, ?_⟩
      simp [hMatches, hOther]

end Rulebook

------------------------------------------------------------
-- Steps
------------------------------------------------------------

namespace Plan

variable {plan rest : Plan}
variable {input : Store}
variable {key : Key}
variable {rules : List Rule}

/- The last step of a plan works on what came before it. -/
theorem sheet_concat
    (plan : Plan)
    (input : Store)
    (key : Key)
    (rules : List Rule) :
    Plan.sheet (plan ++ [(key, rules)]) input =
      step input (plan.sheet input) key rules := by
  simp [sheet]

/- What later steps do not compute stays as it is. -/
theorem getElem?_sheet_append
    (h : key ∉ rest.map (·.1)) :
    (Plan.sheet (plan ++ rest) input)[key]? =
      (plan.sheet input)[key]? := by
  induction rest using List.reverseRecOn with
  | nil => simp
  | append_singleton rest entry ih =>
      rw [List.map_append, List.mem_append, not_or] at h
      have hOther : entry.1 ≠ key := by
        simpa [eq_comm] using h.2
      rw [← List.append_assoc, sheet_concat, step,
        Store.getElem?_put, if_neg hOther]
      exact ih h.1

/- What a plan does not compute is as in the input. -/
theorem getElem?_sheet_of_notMem
    (h : key ∉ plan.map (·.1)) :
    (plan.sheet input)[key]? = input[key]? := by
  have hAll :
      (Plan.sheet ([] ++ plan) input)[key]? =
        (Plan.sheet [] input)[key]? :=
    getElem?_sheet_append h
  rwa [List.nil_append] at hAll

/- What a plan computes once is computed by its own step. -/
theorem getElem?_sheet_of_split
    (h : key ∉ rest.map (·.1)) :
    (Plan.sheet (plan ++ (key, rules) :: rest) input)[key]? =
      Rule.joinAll (plan.sheet input) rules input[key]? := by
  rw [List.append_cons, getElem?_sheet_append h,
    sheet_concat, step, Store.getElem?_put, if_pos rfl]

end Plan

------------------------------------------------------------
-- Plans Along Orders
------------------------------------------------------------

namespace Rulebook

variable {book : Rulebook}
variable {order : List Graph.Component}
variable {key other : Key}

/- The targets in the order of their computation. -/
def keysAlong
    (book : Rulebook)
    (order : List Graph.Component) : List Key :=
  (order.flatMap (·.members)).filter fun key =>
    !(book.rulesFor key).isEmpty

/- A plan computes targets by their own rules. -/
theorem planAlong_eq_map
    (book : Rulebook)
    (order : List Graph.Component) :
    book.planAlong order =
      (book.keysAlong order).map fun key =>
        (key, book.rulesFor key) := by
  induction order with
  | nil => rfl
  | cons c order ih =>
      have hRest :
          planAlong book (c :: order) =
            ((c.members.map fun key =>
              (key, book.rulesFor key)).filter
                fun entry => !entry.2.isEmpty) ++
              book.planAlong order := rfl
      rw [hRest, ih, keysAlong, keysAlong, List.flatMap_cons,
        List.filter_append, List.map_append, List.filter_map]
      rfl

/- Keys with their rules are the keys of a plan. -/
theorem map_fst_rulesFor
    (book : Rulebook)
    (keys : List Key) :
    (keys.map fun key => (key, book.rulesFor key)).map (·.1) =
      keys := by
  rw [List.map_map]
  exact List.map_id keys

/-
  While a target is computed, it is pending itself, and so
  are later members of its component.
-/
def IsPending
    (book : Rulebook)
    (key other : Key) : Prop :=
  other = key ∨
    (book.IsTarget other ∧
      book.graph.SameComponent key other ∧ key < other)

variable (hOrder : book.graph.IsEvaluationOrder order)

include hOrder

/- The targets are computed, and nothing else is. -/
theorem mem_keysAlong_iff :
    key ∈ book.keysAlong order ↔ book.IsTarget key := by
  unfold keysAlong
  rw [List.mem_filter, hOrder.partition.mem_iff,
    Bool.not_eq_true', List.isEmpty_eq_false_iff,
    rulesFor_ne_nil_iff]
  exact ⟨And.right, fun h => ⟨h.mem_nodes, h⟩⟩

/- No target is computed twice. -/
theorem nodup_keysAlong :
    (book.keysAlong order).Nodup :=
  (hOrder.partition.nodup_iff.mpr book.graph.nodup).filter _

/-
  Of two attributes of one component the one with the lesser
  name comes first, and none depends on one that comes later
  unless both are in one component.
-/
theorem pairwise_keysAlong :
    (book.keysAlong order).Pairwise fun a b =>
      (book.graph.SameComponent a b → a < b) ∧
        (book.graph.DependsOn a b →
          book.graph.SameComponent a b) := by
  apply List.Pairwise.filter _
  refine List.pairwise_flatMap.mpr ⟨?_, ?_⟩
  · intro c hc
    apply (hOrder.sorted c hc).imp_of_mem
    intro a b ha hb hLt
    have hIn : b ∈ book.graph.nodes :=
      hOrder.partition.mem_iff.mp
        (List.mem_flatMap.mpr ⟨c, hc, hb⟩)
    exact ⟨fun _ => hLt,
      fun _ => (hOrder.together c hc a ha b hIn).mp hb⟩
  · have hDisjoint :=
      (List.nodup_flatMap.mp
        (hOrder.partition.nodup_iff.mpr book.graph.nodup)).2
    apply (hOrder.ordered.and hDisjoint).imp_of_mem
    intro c d hc hd hSome a ha b hb
    rcases hSome with ⟨hLater, hApart⟩
    refine ⟨?_, ?_⟩
    · intro hSame
      have hIn : b ∈ book.graph.nodes :=
        hOrder.partition.mem_iff.mp
          (List.mem_flatMap.mpr ⟨d, hd, hb⟩)
      exact absurd hb
        (hApart ((hOrder.together c hc a ha b hIn).mpr hSame))
    · intro hDepends
      exact absurd hDepends (hLater a ha b hb)

variable {before after : List Key}
variable
    (hSplit : book.keysAlong order = before ++ key :: after)

include hSplit

/-
  What a rule of a target reads is either computed before the
  target or pending, where it is computed at all.
-/
theorem mem_before_of_reads
    {r : Rule}
    (hRule : r ∈ book.rulesFor key)
    (hReads : r.Reads other)
    (hTarget : book.IsTarget other)
    (hSettled : ¬ book.IsPending key other) :
    other ∈ before := by
  rcases mem_rulesFor_iff.mp hRule with ⟨hDeclared, rfl⟩
  have hOther : other ≠ r.target := fun h =>
    hSettled (Or.inl h)
  have hDepends :=
    dependsOn_of_reads hDeclared hReads hTarget hOther
  have hIn := (mem_keysAlong_iff hOrder).mpr hTarget
  rw [hSplit, List.mem_append, List.mem_cons] at hIn
  rcases hIn with hBefore | rfl | hAfter
  · exact hBefore
  · exact absurd rfl hOther
  · have hPairwise := pairwise_keysAlong hOrder
    rw [hSplit, List.pairwise_append,
      List.pairwise_cons] at hPairwise
    have hPair := hPairwise.2.1.1 other hAfter
    have hSame := hPair.2 hDepends
    exact absurd (Or.inr ⟨hTarget, hSame, hPair.1 hSame⟩)
      hSettled

/- What is pending is not computed before the target. -/
theorem notMem_before_of_isPending
    (hPending : book.IsPending key other) :
    other ∉ before := by
  intro hBefore
  rcases hPending with rfl | ⟨_, hSame, hLt⟩
  · have hNodup := nodup_keysAlong hOrder
    rw [hSplit, List.nodup_append] at hNodup
    exact hNodup.2.2 other hBefore other List.mem_cons_self rfl
  · have hPairwise := pairwise_keysAlong hOrder
    rw [hSplit, List.pairwise_append] at hPairwise
    have hPair :=
      hPairwise.2.2 other hBefore key List.mem_cons_self
    exact lt_asymm hLt (hPair.1 hSame.symm)

/-
  What a rule of a target reads is not computed afterwards,
  unless it is pending.
-/
theorem notMem_after_of_reads
    {r : Rule}
    (hRule : r ∈ book.rulesFor key)
    (hReads : r.Reads other)
    (hSettled : ¬ book.IsPending key other) :
    other ∉ key :: after := by
  intro hAfter
  have hTarget : book.IsTarget other := by
    rw [← mem_keysAlong_iff hOrder, hSplit]
    exact List.mem_append_right _ hAfter
  have hBefore :=
    mem_before_of_reads hOrder hSplit hRule hReads hTarget
      hSettled
  have hNodup := nodup_keysAlong hOrder
  rw [hSplit, List.nodup_append] at hNodup
  exact hNodup.2.2 other hBefore other hAfter rfl

end Rulebook

end CharSheet
