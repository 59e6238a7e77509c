import CharSheet.Proofs.Graph.Reachability
import Mathlib.Data.List.Sort
import Mathlib.Data.String.Basic

/-
  Components in the order of evaluation.

  An order of evaluation lists each attribute once, in a
  component with all those that it depends on both ways.  No
  component depends on one that comes after it.  The computed
  components are such an order.

  Main declarations:
    * `Graph.SameComponent`
    * `Graph.IsEvaluationOrder`
    * `Graph.componentAt`, `Graph.leaderOrder`
    * `Graph.components_eq_map`
    * `Graph.isEvaluationOrder_components`
-/

namespace CharSheet

namespace Graph

open Relation

------------------------------------------------------------
-- Orders Of Evaluation
------------------------------------------------------------

/- Two attributes are one, or each depends on the other. -/
def SameComponent (g : Graph) (a b : Key) : Prop :=
  a = b ∨ (g.Reaches a b ∧ g.Reaches b a)

/-
  The components of a graph in an order in which each comes
  after those that it depends on.
-/
structure IsEvaluationOrder
    (g : Graph)
    (order : List Component) : Prop where
  /- each attribute stands in one component -/
  partition : (order.flatMap (·.members)).Perm g.nodes
  nonempty : ∀ c ∈ order, c.members ≠ []
  /- the members are in the order of their names -/
  sorted : ∀ c ∈ order, c.members.Pairwise (· < ·)
  together :
    ∀ c ∈ order, ∀ a ∈ c.members, ∀ b ∈ g.nodes,
      b ∈ c.members ↔ g.SameComponent a b
  cyclic_iff :
    ∀ c ∈ order,
      c.cyclic = true ↔ ∃ a ∈ c.members, g.Reaches a a
  /- nothing depends on what comes later -/
  ordered :
    order.Pairwise fun earlier later =>
      ∀ a ∈ earlier.members, ∀ b ∈ later.members,
        ¬ g.DependsOn a b

variable {g : Graph}
variable {a b c : Key}
variable {i j : Nat}

namespace SameComponent

theorem refl (g : Graph) (a : Key) : g.SameComponent a a :=
  Or.inl rfl

theorem symm (h : g.SameComponent a b) :
    g.SameComponent b a := by
  rcases h with rfl | ⟨hTo, hBack⟩
  · exact Or.inl rfl
  · exact Or.inr ⟨hBack, hTo⟩

theorem trans
    (hFirst : g.SameComponent a b)
    (hSecond : g.SameComponent b c) :
    g.SameComponent a c := by
  rcases hFirst with rfl | ⟨hTo, hBack⟩
  · exact hSecond
  · rcases hSecond with rfl | ⟨hTo', hBack'⟩
    · exact Or.inr ⟨hTo, hBack⟩
    · exact Or.inr ⟨hTo.trans hTo', hBack'.trans hBack⟩

/- What one of them reaches is reached by the other one. -/
theorem reaches
    (h : g.SameComponent a b)
    (hReaches : g.Reaches b c) :
    g.Reaches a c := by
  rcases h with rfl | ⟨hTo, _⟩
  · exact hReaches
  · exact hTo.trans hReaches

/- What reaches one of them reaches the other one. -/
theorem reached
    (h : g.SameComponent b c)
    (hReaches : g.Reaches a b) :
    g.Reaches a c := by
  rcases h with rfl | ⟨hTo, _⟩
  · exact hReaches
  · exact hReaches.trans hTo

end SameComponent

------------------------------------------------------------
-- Leaders
------------------------------------------------------------

/- There is a set of positions for each attribute. -/
@[simp] theorem size_reach (g : Graph) :
    g.reach.size = g.nodes.length := by
  simp [reach, direct]

/- Positions belong together if their attributes do. -/
theorem together_iff
    (hFirst : g.nodes[i]? = some a)
    (hSecond : g.nodes[j]? = some b) :
    g.reach.together i j = true ↔ g.SameComponent a b := by
  have hSame : i = j ↔ a = b := by
    constructor
    · intro hEq
      subst hEq
      exact Option.some.inj (hFirst ▸ hSecond)
    · intro hEq
      subst hEq
      rw [← idxOf_of_getElem? hFirst,
        ← idxOf_of_getElem? hSecond]
  unfold Reach.together SameComponent
  rw [Bool.or_eq_true, Bool.and_eq_true, decide_eq_true_eq,
    has_reach_iff hFirst hSecond, has_reach_iff hSecond hFirst,
    hSame]

/- The positions that are the first of their components. -/
def leaders (g : Graph) : List Nat :=
  (List.range g.reach.size).filter g.reach.leads

/- A leader is the position of an attribute. -/
theorem exists_getElem?_of_mem_leaders
    (h : i ∈ g.leaders) :
    ∃ a, g.nodes[i]? = some a := by
  have hLt : i < g.nodes.length := by
    simpa using (List.mem_filter.mp h).1
  exact ⟨g.nodes[i], List.getElem?_eq_getElem hLt⟩

/- Two leaders belong to different components. -/
theorem eq_of_mem_leaders
    (hFirst : i ∈ g.leaders)
    (hSecond : j ∈ g.leaders)
    (hA : g.nodes[i]? = some a)
    (hB : g.nodes[j]? = some b)
    (hSame : g.SameComponent a b) :
    i = j := by
  have hLeads
      {i j : Nat}
      {a b : Key}
      (h : j ∈ g.leaders)
      (hA : g.nodes[i]? = some a)
      (hB : g.nodes[j]? = some b)
      (hSame : g.SameComponent a b) :
      ¬ i < j := by
    intro hLt
    have hAll := (List.mem_filter.mp h).2
    have hNot := List.all_eq_true.mp hAll i
      (List.mem_range.mpr hLt)
    rw [(together_iff hA hB).mpr hSame] at hNot
    exact Bool.noConfusion hNot
  have hNotLt := hLeads hSecond hA hB hSame
  have hNotGt := hLeads hFirst hB hA hSame.symm
  omega

/- Each attribute belongs together with that of a leader. -/
theorem exists_leader
    (h : a ∈ g.nodes) :
    ∃ i ∈ g.leaders, ∃ b,
      g.nodes[i]? = some b ∧ g.SameComponent b a := by
  classical
  have hExists :
      ∃ i b, g.nodes[i]? = some b ∧ g.SameComponent b a :=
    ⟨_, a, List.getElem?_idxOf h, SameComponent.refl g a⟩
  rcases Nat.find_spec hExists with ⟨b, hAt, hSame⟩
  refine ⟨Nat.find hExists, ?_, b, hAt, hSame⟩
  refine List.mem_filter.mpr ⟨?_, ?_⟩
  · rcases List.getElem?_eq_some_iff.mp hAt with ⟨hLt, _⟩
    simpa using hLt
  · apply List.all_eq_true.mpr
    intro j hj
    rw [Bool.not_eq_true', Bool.eq_false_iff]
    intro hTogether
    have hLt : j < Nat.find hExists := List.mem_range.mp hj
    rcases List.getElem?_eq_some_iff.mp hAt with ⟨hBound, _⟩
    have hIn : j < g.nodes.length := lt_trans hLt hBound
    have hThere : g.nodes[j]? = some g.nodes[j] :=
      List.getElem?_eq_getElem hIn
    have hEarlier := (together_iff hThere hAt).mp hTogether
    exact Nat.find_min hExists hLt
      ⟨_, hThere, hEarlier.trans hSame⟩

------------------------------------------------------------
-- Components Of Leaders
------------------------------------------------------------

/- The component of the attribute at a position. -/
def componentAt (g : Graph) (i : Nat) : Component :=
  ⟨((g.reach.group i).filterMap (g.nodes[·]?)).mergeSort
      (· ≤ ·),
    g.reach.has i i⟩

/- The leaders, in the order of what their attributes reach. -/
def leaderOrder (g : Graph) : List Nat :=
  g.leaders.mergeSort fun i j =>
    g.reach.extent i ≤ g.reach.extent j

/- The components are those of the leaders, by their extent. -/
theorem components_eq_map (g : Graph) :
    g.components = g.leaderOrder.map g.componentAt := by
  have hSort :
      ((g.leaders.map fun i =>
          (g.reach.extent i, g.componentAt i)).mergeSort
            fun a b => a.1 ≤ b.1) =
        g.leaderOrder.map fun i =>
          (g.reach.extent i, g.componentAt i) := by
    unfold leaderOrder
    rw [List.map_mergeSort]
    intro i _ j _
    rfl
  change
    ((g.leaders.map fun i =>
      (g.reach.extent i, g.componentAt i)).mergeSort
        fun a b => a.1 ≤ b.1).map (·.2) = _
  rw [hSort, List.map_map]
  rfl

theorem mem_leaderOrder_iff :
    i ∈ g.leaderOrder ↔ i ∈ g.leaders :=
  List.mem_mergeSort

theorem nodup_leaderOrder (g : Graph) :
    g.leaderOrder.Nodup := by
  unfold leaderOrder
  rw [(List.mergeSort_perm _ _).nodup_iff]
  exact List.nodup_range.filter _

/- No leader reaches less than one that comes before it. -/
theorem pairwise_extent_leaderOrder (g : Graph) :
    g.leaderOrder.Pairwise fun i j =>
      g.reach.extent i ≤ g.reach.extent j := by
  have hPairwise :
      g.leaderOrder.Pairwise fun i j =>
        decide (g.reach.extent i ≤ g.reach.extent j) =
          true := by
    apply List.pairwise_mergeSort
    · intro i j k hij hjk
      rw [decide_eq_true_eq] at hij hjk ⊢
      exact hij.trans hjk
    · intro i j
      rw [Bool.or_eq_true, decide_eq_true_eq,
        decide_eq_true_eq]
      exact Nat.le_total _ _
  exact hPairwise.imp of_decide_eq_true

/- The members of a component belong together. -/
theorem mem_componentAt_iff
    (hAt : g.nodes[i]? = some a) :
    b ∈ (g.componentAt i).members ↔
      b ∈ g.nodes ∧ g.SameComponent a b := by
  have hMem :
      b ∈ (g.componentAt i).members ↔
        ∃ j, (j < g.nodes.length ∧
          g.reach.together i j = true) ∧
            g.nodes[j]? = some b := by
    simp [componentAt, Reach.group]
  rw [hMem]
  constructor
  · intro hMember
    rcases hMember with ⟨j, ⟨_, hTogether⟩, hTo⟩
    exact ⟨List.mem_of_getElem? hTo,
      (together_iff hAt hTo).mp hTogether⟩
  · intro hBoth
    rcases hBoth with ⟨hIn, hSame⟩
    have hTo := List.getElem?_idxOf hIn
    exact ⟨_, ⟨List.idxOf_lt_length_of_mem hIn,
      (together_iff hAt hTo).mpr hSame⟩, hTo⟩

/- Attributes that are listed once are sorted strictly. -/
theorem pairwise_mergeSort_of_nodup
    {keys : List Key}
    (h : keys.Nodup) :
    (keys.mergeSort (· ≤ ·)).Pairwise (· < ·) := by
  have hNodup : (keys.mergeSort (· ≤ ·)).Nodup :=
    (List.mergeSort_perm _ _).nodup_iff.mpr h
  have hSorted :
      (keys.mergeSort (· ≤ ·)).Pairwise (· ≤ ·) :=
    List.pairwise_mergeSort' _ _
  apply (hSorted.and hNodup).imp
  intro x y hBoth
  rcases hBoth with ⟨hLe, hNe⟩
  exact lt_of_le_of_ne hLe hNe

/- The members of a component are in strict order. -/
theorem pairwise_componentAt
    (g : Graph)
    (i : Nat) :
    (g.componentAt i).members.Pairwise (· < ·) := by
  apply pairwise_mergeSort_of_nodup
  refine List.Nodup.filterMap ?_ (List.nodup_range.filter _)
  intro j k key hj hk
  rw [← idxOf_of_getElem? hj, ← idxOf_of_getElem? hk]

/- A component is cyclic if one of its members is. -/
theorem cyclic_componentAt_iff
    (hAt : g.nodes[i]? = some a) :
    (g.componentAt i).cyclic = true ↔
      ∃ b ∈ (g.componentAt i).members, g.Reaches b b := by
  have hCyclic :
      (g.componentAt i).cyclic = true ↔ g.Reaches a a :=
    has_reach_iff hAt hAt
  rw [hCyclic]
  constructor
  · intro hReaches
    have hIn : a ∈ (g.componentAt i).members :=
      (mem_componentAt_iff hAt).mpr
        ⟨List.mem_of_getElem? hAt, SameComponent.refl g a⟩
    exact ⟨a, hIn, hReaches⟩
  · intro hSome
    rcases hSome with ⟨b, hIn, hReaches⟩
    have hSame := ((mem_componentAt_iff hAt).mp hIn).2
    exact hSame.reaches (hSame.symm.reached hReaches)

/-
  What reaches an attribute of another component has a larger
  extent: it reaches all that the other one reaches, and also
  counts itself, which the other one does not reach.
-/
theorem extent_lt_extent
    (hA : g.nodes[i]? = some a)
    (hB : g.nodes[j]? = some b)
    (hReaches : g.Reaches a b)
    (hOther : ¬ g.SameComponent a b) :
    g.reach.extent j < g.reach.extent i := by
  have hCovers (k : Nat)
      (h : (decide (j = k) || g.reach.has j k) = true) :
      (decide (i = k) || g.reach.has i k) = true := by
    rw [Bool.or_eq_true, decide_eq_true_eq] at h ⊢
    rcases h with rfl | hOn
    · exact Or.inr ((has_reach_iff hA hB).mpr hReaches)
    · rcases reaches_of_transGen hB
          (Reach.transGen_of_has_closure _ hOn) with
        ⟨c, hC, hOnward⟩
      exact Or.inr
        ((has_reach_iff hA hC).mpr (hReaches.trans hOnward))
  have hSublist :=
    List.monotone_filter_right (List.range g.reach.size)
      hCovers
  have hBound : i < g.reach.size := by
    rcases List.getElem?_eq_some_iff.mp hA with ⟨hLt, _⟩
    simpa using hLt
  unfold Reach.extent
  rw [List.countP_eq_length_filter, List.countP_eq_length_filter]
  apply Nat.lt_of_not_le
  intro hLe
  have hEq := hSublist.eq_of_length_le hLe
  have hIn :
      i ∈ (List.range g.reach.size).filter
        fun k => decide (j = k) || g.reach.has j k := by
    rw [hEq]
    exact List.mem_filter.mpr
      ⟨List.mem_range.mpr hBound, by simp⟩
  have hBack := (List.mem_filter.mp hIn).2
  rw [Bool.or_eq_true, decide_eq_true_eq] at hBack
  rcases hBack with rfl | hBack
  · exact hOther
      (Or.inl (Option.some.inj (hA.symm.trans hB)))
  · exact hOther
      (Or.inr ⟨hReaches, (has_reach_iff hB hA).mp hBack⟩)

------------------------------------------------------------
-- Computed Order
------------------------------------------------------------

/- No attribute is in the components of two leaders. -/
theorem eq_of_mem_componentAt
    (hFirst : i ∈ g.leaders)
    (hSecond : j ∈ g.leaders)
    (hIn : a ∈ (g.componentAt i).members)
    (hAlso : a ∈ (g.componentAt j).members) :
    i = j := by
  rcases exists_getElem?_of_mem_leaders hFirst with ⟨b, hB⟩
  rcases exists_getElem?_of_mem_leaders hSecond with ⟨c, hC⟩
  have hSame := ((mem_componentAt_iff hB).mp hIn).2
  have hSame' := ((mem_componentAt_iff hC).mp hAlso).2
  exact eq_of_mem_leaders hFirst hSecond hB hC
    (hSame.trans hSame'.symm)

/- Each attribute is in the component of one leader. -/
theorem perm_flatMap_componentAt (g : Graph) :
    (g.leaderOrder.flatMap fun i =>
      (g.componentAt i).members).Perm g.nodes := by
  have hDisjoint :
      g.leaderOrder.Pairwise fun i j =>
        (g.componentAt i).members.Disjoint
          (g.componentAt j).members := by
    apply g.nodup_leaderOrder.pairwise_of_forall_ne
    intro i hi j hj hNe x hIn hAlso
    exact hNe (eq_of_mem_componentAt (mem_leaderOrder_iff.mp hi)
      (mem_leaderOrder_iff.mp hj) hIn hAlso)
  have hNodup :
      (g.leaderOrder.flatMap fun i =>
        (g.componentAt i).members).Nodup := by
    refine List.nodup_flatMap.mpr ⟨?_, hDisjoint⟩
    intro i _
    exact (pairwise_componentAt g i).imp ne_of_lt
  apply (List.perm_ext_iff_of_nodup hNodup g.nodup).mpr
  intro x
  rw [List.mem_flatMap]
  constructor
  · intro hIn
    rcases hIn with ⟨i, hi, hIn⟩
    rcases exists_getElem?_of_mem_leaders
      (mem_leaderOrder_iff.mp hi) with ⟨a, hA⟩
    exact ((mem_componentAt_iff hA).mp hIn).1
  · intro hIn
    rcases exists_leader hIn with ⟨i, hi, b, hB, hSame⟩
    exact ⟨i, mem_leaderOrder_iff.mpr hi,
      (mem_componentAt_iff hB).mpr ⟨hIn, hSame⟩⟩

/- A component is that of a leader's attribute. -/
theorem exists_of_mem_components
    {c : Component}
    (h : c ∈ g.components) :
    ∃ i a, i ∈ g.leaders ∧ g.nodes[i]? = some a ∧
      c = g.componentAt i := by
  rw [components_eq_map] at h
  rcases List.mem_map.mp h with ⟨i, hi, rfl⟩
  have hLeader := mem_leaderOrder_iff.mp hi
  rcases exists_getElem?_of_mem_leaders hLeader with ⟨a, hA⟩
  exact ⟨i, a, hLeader, hA, rfl⟩

/-
  A later leader is not depended on, for it would have been
  reached, and come first.
-/
theorem not_dependsOn_of_extent_le
    (hFirst : i ∈ g.leaders)
    (hSecond : j ∈ g.leaders)
    (hNe : i ≠ j)
    (hLe : g.reach.extent i ≤ g.reach.extent j)
    (hA : a ∈ (g.componentAt i).members)
    (hB : b ∈ (g.componentAt j).members) :
    ¬ g.DependsOn a b := by
  intro hDepends
  rcases exists_getElem?_of_mem_leaders hFirst with ⟨x, hX⟩
  rcases exists_getElem?_of_mem_leaders hSecond with ⟨y, hY⟩
  have hSame := ((mem_componentAt_iff hX).mp hA).2
  have hSame' := ((mem_componentAt_iff hY).mp hB).2
  have hReaches : g.Reaches x y :=
    hSame.reaches
      (hSame'.symm.reached (TransGen.single hDepends))
  have hOther : ¬ g.SameComponent x y := by
    intro hTogether
    exact hNe
      (eq_of_mem_leaders hFirst hSecond hX hY hTogether)
  have hLt := extent_lt_extent hX hY hReaches hOther
  omega

/- The computed components are in an order of evaluation. -/
theorem isEvaluationOrder_components (g : Graph) :
    g.IsEvaluationOrder g.components where
  partition := by
    rw [components_eq_map, List.flatMap_map]
    exact g.perm_flatMap_componentAt
  nonempty := by
    intro c hc hEmpty
    rcases exists_of_mem_components hc with ⟨i, a, _, hA, rfl⟩
    have hIn := (mem_componentAt_iff hA).mpr
      ⟨List.mem_of_getElem? hA, SameComponent.refl g a⟩
    rw [hEmpty] at hIn
    exact List.not_mem_nil hIn
  sorted := by
    intro c hc
    rcases exists_of_mem_components hc with ⟨i, _, _, _, rfl⟩
    exact pairwise_componentAt g i
  together := by
    intro c hc a ha b hb
    rcases exists_of_mem_components hc with ⟨i, x, _, hX, rfl⟩
    have hSame := ((mem_componentAt_iff hX).mp ha).2
    rw [mem_componentAt_iff hX]
    constructor
    · intro hIn
      exact hSame.symm.trans hIn.2
    · intro hTogether
      exact ⟨hb, hSame.trans hTogether⟩
  cyclic_iff := by
    intro c hc
    rcases exists_of_mem_components hc with ⟨i, a, _, hA, rfl⟩
    exact cyclic_componentAt_iff hA
  ordered := by
    rw [components_eq_map, List.pairwise_map]
    have hDistinct :=
      g.pairwise_extent_leaderOrder.and g.nodup_leaderOrder
    apply hDistinct.imp_of_mem
    intro i j hi hj hBoth a ha b hb
    exact not_dependsOn_of_extent_le (mem_leaderOrder_iff.mp hi)
      (mem_leaderOrder_iff.mp hj) hBoth.2 hBoth.1 ha hb

end Graph

end CharSheet
