import CharSheet.Proofs.Graph.Components
import Mathlib.Data.List.Induction
import Mathlib.Data.List.Perm.Basic

/-
  The components of a graph that is built step by step.

  Whatever is added to a graph, its components are those of
  the dependencies that were added.  This holds for all orders
  that arrange a listing of the strongly connected components,
  and the computed components are one of them.

  Main declarations:
    * `Graph.Addition`, `Graph.build`
    * `Graph.IsListing`, `Graph.arrange`
    * `Graph.IsListing.isEvaluationOrder`
    * `Graph.exists_listing`
    * `Graph.IsCondensation`
    * `Graph.isCondensation_build`
-/

namespace CharSheet

namespace Graph

open Relation

------------------------------------------------------------
-- Additions
------------------------------------------------------------

/- What may be added to a graph. -/
inductive Addition where
  | node (key : Key)
  | edge (dependent dependency : Key)
deriving DecidableEq

/- The attributes that an addition names. -/
def Addition.keys : Addition → List Key
  | .node key => [key]
  | .edge dependent dependency => [dependent, dependency]

/- Make an addition. -/
def add (g : Graph) : Addition → Graph
  | .node key => g.addNode key
  | .edge dependent dependency =>
      g.addEdge dependent dependency

/- The graph to which additions lead one after another. -/
def build (additions : List Addition) : Graph :=
  additions.foldl add .empty

variable {g : Graph}
variable {additions : List Addition}
variable {a b : Key}

/- An added attribute is in the graph with those before it. -/
theorem mem_nodes_addNode_iff :
    a ∈ (g.addNode b).nodes ↔ a ∈ g.nodes ∨ a = b := by
  by_cases hIn : b ∈ g.nodes
  · have hSame : g.addNode b = g := dif_pos hIn
    rw [hSame]
    constructor
    · exact Or.inl
    · intro hOr
      rcases hOr with hThere | rfl
      · exact hThere
      · exact hIn
  · have hNodes : (g.addNode b).nodes = g.nodes ++ [b] := by
      unfold addNode
      rw [dif_neg hIn]
    rw [hNodes, List.mem_append, List.mem_singleton]

/- An addition adds the attributes that it names. -/
theorem mem_nodes_add_iff
    (x : Addition) :
    a ∈ (g.add x).nodes ↔ a ∈ g.nodes ∨ a ∈ x.keys := by
  cases x with
  | node key =>
      rw [add, mem_nodes_addNode_iff, Addition.keys,
        List.mem_singleton]
  | edge dependent dependency =>
      change a ∈ ((g.addNode dependent).addNode
        dependency).nodes ↔ _
      rw [mem_nodes_addNode_iff, mem_nodes_addNode_iff, or_assoc,
        Addition.keys, List.mem_pair]

/- It adds the dependency that it is. -/
theorem dependsOn_add_iff
    (x : Addition) :
    (g.add x).DependsOn a b ↔
      g.DependsOn a b ∨ x = .edge a b := by
  unfold DependsOn
  cases x with
  | node key => simp [add]
  | edge dependent dependency =>
      simp only [add, addEdge, edges_addNode, List.mem_cons,
        Prod.mk.injEq, Addition.edge.injEq]
      tauto

/- The attributes of a graph are those that were named. -/
theorem mem_nodes_build_iff :
    a ∈ (build additions).nodes ↔
      ∃ x ∈ additions, a ∈ x.keys := by
  unfold build
  induction additions using List.reverseRecOn with
  | nil => simp [empty]
  | append_singleton additions x ih =>
      rw [List.foldl_append, List.foldl_cons, List.foldl_nil,
        mem_nodes_add_iff, ih]
      simp [or_and_right, exists_or]

/- Its dependencies are those that were added. -/
theorem dependsOn_build_iff :
    (build additions).DependsOn a b ↔
      .edge a b ∈ additions := by
  unfold build
  induction additions using List.reverseRecOn with
  | nil => simp [empty, DependsOn]
  | append_singleton additions x ih =>
      rw [List.foldl_append, List.foldl_cons, List.foldl_nil,
        dependsOn_add_iff, ih, List.mem_append,
        List.mem_singleton, eq_comm (a := x)]

------------------------------------------------------------
-- Listings
------------------------------------------------------------

/-
  The strongly connected components of a graph, each before
  those that its attributes depend on.
-/
structure IsListing
    (g : Graph)
    (listing : List (List Key)) : Prop where
  partition : listing.flatten.Perm g.nodes
  nonempty : ∀ keys ∈ listing, keys ≠ []
  together :
    ∀ keys ∈ listing, ∀ a ∈ keys, ∀ b ∈ g.nodes,
      b ∈ keys ↔ g.SameComponent a b
  ordered :
    listing.Pairwise fun earlier later =>
      ∀ a ∈ earlier, ∀ b ∈ later, ¬ g.DependsOn b a

/-
  The component of listed attributes.  It is cyclic if there
  are several, or if the only one depends on itself.
-/
def componentOf (g : Graph) (keys : List Key) : Component :=
  ⟨keys.mergeSort (· ≤ ·),
    decide (1 < keys.length) ||
      keys.head?.any fun key => g.edges.contains (key, key)⟩

/- The components of a listing in the order of evaluation. -/
def arrange
    (g : Graph)
    (listing : List (List Key)) : List Component :=
  listing.reverse.map g.componentOf

/- The members of a component are those that were listed. -/
theorem mem_componentOf_iff
    {keys : List Key} :
    a ∈ (g.componentOf keys).members ↔ a ∈ keys :=
  List.mem_mergeSort

/- An arrangement has the components of what is listed. -/
theorem mem_arrange_iff
    {listing : List (List Key)}
    {c : Component} :
    c ∈ g.arrange listing ↔
      ∃ keys ∈ listing, g.componentOf keys = c := by
  simp [arrange]

/- Sets of attributes are kept by reversing and sorting. -/
theorem perm_members_arrange
    (g : Graph)
    (listing : List (List Key)) :
    ((g.arrange listing).flatMap (·.members)).Perm
      listing.flatten := by
  unfold arrange
  rw [List.flatMap_map]
  have hSorted :
      (listing.reverse.flatMap fun keys =>
        (g.componentOf keys).members).Perm
          (listing.reverse.flatMap id) :=
    List.Perm.flatMap_left _ fun keys _ =>
      List.mergeSort_perm keys _
  rw [List.flatMap_id] at hSorted
  exact hSorted.trans (List.reverse_perm listing).flatten

namespace IsListing

variable {listing : List (List Key)}
variable {keys : List Key}

/- What is listed is in the graph. -/
theorem mem_nodes
    (h : g.IsListing listing)
    (hKeys : keys ∈ listing)
    (hIn : a ∈ keys) :
    a ∈ g.nodes :=
  h.partition.mem_iff.mp (List.mem_flatten_of_mem hKeys hIn)

/- No attribute is listed twice. -/
theorem nodup
    (h : g.IsListing listing)
    (hKeys : keys ∈ listing) :
    keys.Nodup := by
  have hAll := h.partition.nodup_iff.mpr g.nodup
  exact (List.nodup_flatten.mp hAll).1 keys hKeys

/-
  An attribute reaches itself if it is not alone, or else only
  by its own dependency: the first step on its way leads to an
  attribute of its component.
-/
theorem cyclic_iff
    (h : g.IsListing listing)
    (hKeys : keys ∈ listing) :
    (g.componentOf keys).cyclic = true ↔
      ∃ a ∈ keys, g.Reaches a a := by
  have hTogether := h.together keys hKeys
  have hNodup := h.nodup hKeys
  match keys, h.nonempty keys hKeys with
  | [only], _ =>
      have hOwn :
          (g.componentOf [only]).cyclic = true ↔
            g.DependsOn only only := by
        simp [componentOf, DependsOn]
      have hOnly : only ∈ [only] := List.mem_singleton_self only
      rw [hOwn]
      constructor
      · intro hDepends
        exact ⟨only, hOnly, .single hDepends⟩
      · intro hSome
        rcases hSome with ⟨a, hIn, hReaches⟩
        obtain rfl := List.mem_singleton.mp hIn
        rcases TransGen.head'_iff.mp hReaches with
          ⟨b, hDepends, hBack⟩
        have hSame : g.SameComponent a b := by
          rcases reflTransGen_iff_eq_or_transGen.mp hBack with
            hEq | hBack
          · exact Or.inl hEq
          · exact Or.inr ⟨.single hDepends, hBack⟩
        have hListed :=
          (hTogether a hIn b hDepends.mem.2).mpr hSame
        rwa [List.mem_singleton.mp hListed] at hDepends
  | first :: second :: rest, _ =>
      have hFirst : first ∈ first :: second :: rest :=
        List.mem_cons_self
      have hSecond : second ∈ first :: second :: rest :=
        List.mem_cons_of_mem _ List.mem_cons_self
      have hNe : first ≠ second := by
        intro hEq
        rw [hEq] at hNodup
        exact (List.nodup_cons.mp hNodup).1 List.mem_cons_self
      have hSame :=
        (hTogether first hFirst second
          (h.mem_nodes hKeys hSecond)).mp hSecond
      have hReaches : g.Reaches first first := by
        rcases hSame with hEq | ⟨hTo, hBack⟩
        · exact absurd hEq hNe
        · exact hTo.trans hBack
      exact iff_of_true (by simp [componentOf])
        ⟨first, hFirst, hReaches⟩

/- Listed components are arranged in an order of evaluation. -/
theorem isEvaluationOrder
    (h : g.IsListing listing) :
    g.IsEvaluationOrder (g.arrange listing) where
  partition :=
    (perm_members_arrange g listing).trans h.partition
  nonempty := by
    intro c hc hEmpty
    rcases mem_arrange_iff.mp hc with ⟨keys, hKeys, rfl⟩
    rcases List.exists_mem_of_ne_nil _
      (h.nonempty keys hKeys) with ⟨a, hIn⟩
    have hMember : a ∈ (g.componentOf keys).members :=
      mem_componentOf_iff.mpr hIn
    rw [hEmpty] at hMember
    exact List.not_mem_nil hMember
  sorted := by
    intro c hc
    rcases mem_arrange_iff.mp hc with ⟨keys, hKeys, rfl⟩
    exact pairwise_mergeSort_of_nodup (h.nodup hKeys)
  together := by
    intro c hc a ha b hb
    rcases mem_arrange_iff.mp hc with ⟨keys, hKeys, rfl⟩
    rw [mem_componentOf_iff] at ha ⊢
    exact h.together keys hKeys a ha b hb
  cyclic_iff := by
    intro c hc
    rcases mem_arrange_iff.mp hc with ⟨keys, hKeys, rfl⟩
    rw [h.cyclic_iff hKeys]
    simp only [mem_componentOf_iff]
  ordered := by
    unfold arrange
    rw [List.pairwise_map, List.pairwise_reverse]
    apply h.ordered.imp
    intro earlier later hNot a ha b hb
    exact hNot b (mem_componentOf_iff.mp hb) a
      (mem_componentOf_iff.mp ha)

end IsListing

/-
  The computed components are the arrangement of a listing:
  that of their own members.
-/
theorem exists_listing (g : Graph) :
    ∃ listing, g.IsListing listing ∧
      g.components = g.arrange listing := by
  have hOrder := g.isEvaluationOrder_components
  let listing := (g.components.map (·.members)).reverse
  have hMem {keys : List Key} (hKeys : keys ∈ listing) :
      ∃ c ∈ g.components, c.members = keys :=
    List.mem_map.mp (List.mem_reverse.mp hKeys)
  have hListing : g.IsListing listing :=
    { partition := by
        refine (List.reverse_perm _).flatten.trans ?_
        exact hOrder.partition
      nonempty := by
        intro keys hKeys
        rcases hMem hKeys with ⟨c, hc, rfl⟩
        exact hOrder.nonempty c hc
      together := by
        intro keys hKeys
        rcases hMem hKeys with ⟨c, hc, rfl⟩
        exact hOrder.together c hc
      ordered := by
        rw [List.pairwise_reverse, List.pairwise_map]
        apply hOrder.ordered.imp
        intro earlier later hNot a ha b hb
        exact hNot b hb a ha }
  refine ⟨listing, hListing, ?_⟩
  unfold arrange
  rw [List.reverse_reverse, List.map_map]
  symm
  refine (List.map_congr_left ?_).trans (List.map_id _)
  intro c hc
  have hKeys : c.members ∈ listing :=
    List.mem_reverse.mpr (List.mem_map_of_mem hc)
  have hMembers : (g.componentOf c.members).members =
      c.members :=
    List.mergeSort_of_pairwise
      ((hOrder.sorted c hc).imp fun h => decide_eq_true h.le)
  have hCyclic : (g.componentOf c.members).cyclic =
      c.cyclic := by
    rw [Bool.eq_iff_iff, hListing.cyclic_iff hKeys,
      hOrder.cyclic_iff c hc]
  exact Component.ext hMembers hCyclic

------------------------------------------------------------
-- Condensations
------------------------------------------------------------

/- An attribute was added as dependent on another one. -/
def Links (additions : List Addition) (a b : Key) : Prop :=
  .edge a b ∈ additions

/-
  The components of what was added to a graph, in an order in
  which each comes after those that it depends on.
-/
structure IsCondensation
    (additions : List Addition)
    (order : List Component) : Prop where
  /- no attribute is missing, and none is there twice -/
  mem_iff :
    ∀ a, (∃ c ∈ order, a ∈ c.members) ↔
      ∃ x ∈ additions, a ∈ x.keys
  nodup : (order.flatMap (·.members)).Nodup
  nonempty : ∀ c ∈ order, c.members ≠ []
  /- what shares a component reaches each other -/
  together :
    ∀ c ∈ order, ∀ a ∈ c.members, ∀ b,
      b ∈ c.members ↔
        ReflTransGen (Links additions) a b ∧
          ReflTransGen (Links additions) b a
  /- dependencies lead to what comes before, or stay inside -/
  ordered :
    ∀ (i j : Nat) (c d : Component),
      order[i]? = some c → order[j]? = some d →
      ∀ a ∈ c.members, ∀ b ∈ d.members,
        Links additions a b → i ≠ j → j < i
  /- the members are in the order of their names -/
  sorted : ∀ c ∈ order, c.members.Pairwise (· < ·)
  cyclic_iff :
    ∀ c ∈ order,
      c.cyclic = true ↔
        ∃ a ∈ c.members, TransGen (Links additions) a a

/- To be in one component is to be reached both ways. -/
theorem sameComponent_iff :
    g.SameComponent a b ↔
      ReflTransGen g.DependsOn a b ∧
        ReflTransGen g.DependsOn b a := by
  rw [reflTransGen_iff_eq_or_transGen,
    reflTransGen_iff_eq_or_transGen, SameComponent, Reaches,
    Reaches]
  constructor
  · intro hSame
    rcases hSame with rfl | ⟨hTo, hBack⟩
    · exact ⟨Or.inl rfl, Or.inl rfl⟩
    · exact ⟨Or.inr hTo, Or.inr hBack⟩
  · intro hBoth
    rcases hBoth with ⟨rfl | hTo, hEq | hBack⟩
    · exact Or.inl rfl
    · exact Or.inl rfl
    · exact Or.inl hEq
    · exact Or.inr ⟨hTo, hBack⟩

/- What is reached from an attribute of a graph is in it. -/
theorem mem_nodes_of_reflTransGen
    (hIn : a ∈ g.nodes)
    (h : ReflTransGen g.DependsOn a b) :
    b ∈ g.nodes := by
  rcases reflTransGen_iff_eq_or_transGen.mp h with rfl | hReaches
  · exact hIn
  · exact (Reaches.mem hReaches).2

/-
  An order of evaluation of a graph condenses the additions
  that have led to the graph.
-/
theorem IsEvaluationOrder.isCondensation
    {order : List Component}
    (h : (build additions).IsEvaluationOrder order) :
    IsCondensation additions order := by
  have hLinks : Links additions = (build additions).DependsOn := by
    funext a b
    exact propext dependsOn_build_iff.symm
  have hNodes {c : Component} {a : Key}
      (hc : c ∈ order)
      (ha : a ∈ c.members) :
      a ∈ (build additions).nodes :=
    h.partition.mem_iff.mp (List.mem_flatMap.mpr ⟨c, hc, ha⟩)
  refine
    { mem_iff := ?_
      nodup := h.partition.nodup_iff.mpr (build additions).nodup
      nonempty := h.nonempty
      together := ?_
      ordered := ?_
      sorted := h.sorted
      cyclic_iff := ?_ }
  · intro a
    rw [← mem_nodes_build_iff, ← h.partition.mem_iff,
      List.mem_flatMap]
  · intro c hc a ha b
    rw [hLinks, ← sameComponent_iff]
    constructor
    · intro hb
      exact (h.together c hc a ha b (hNodes hc hb)).mp hb
    · intro hSame
      have hIn := mem_nodes_of_reflTransGen (hNodes hc ha)
        (sameComponent_iff.mp hSame).1
      exact (h.together c hc a ha b hIn).mpr hSame
  · intro i j c d hi hj a ha b hb hLink hNe
    rw [hLinks] at hLink
    rcases List.getElem?_eq_some_iff.mp hi with ⟨hiLt, rfl⟩
    rcases List.getElem?_eq_some_iff.mp hj with ⟨hjLt, rfl⟩
    by_contra hNot
    have hLt : i < j := by omega
    exact List.pairwise_iff_getElem.mp h.ordered i j hiLt hjLt
      hLt a ha b hb hLink
  · intro c hc
    rw [hLinks]
    exact h.cyclic_iff c hc

/-
  The components of a graph that is built by additions are
  those of the additions.  Each arrangement of a listing would
  do, and the computed components are such an arrangement.
-/
theorem isCondensation_build (additions : List Addition) :
    IsCondensation additions (build additions).components ∧
      (∀ listing, (build additions).IsListing listing →
        IsCondensation additions
          ((build additions).arrange listing)) ∧
        ∃ listing, (build additions).IsListing listing ∧
          (build additions).components =
            (build additions).arrange listing := by
  have hArranged (listing : List (List Key))
      (h : (build additions).IsListing listing) :
      IsCondensation additions
        ((build additions).arrange listing) :=
    h.isEvaluationOrder.isCondensation
  rcases (build additions).exists_listing with
    ⟨listing, hListing, hEq⟩
  refine ⟨?_, hArranged, listing, hListing, hEq⟩
  rw [hEq]
  exact hArranged listing hListing

end Graph

end CharSheet
