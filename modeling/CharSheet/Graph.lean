import CharSheet.Key

/-
  Dependencies between attributes.

  An attribute that is computed depends on the attributes
  that are read for it.  Attributes that depend on each other
  form one component, and the components are put in an order
  in which each comes after those that it depends on.

  Key definitions include:
    * `Graph`
    * `Graph.addNode`
    * `Graph.addEdge`
    * `Graph.dependencies`
    * `Graph.Reach`
    * `Graph.reach`
    * `Component`
    * `Graph.components`
    * `Graph.cycles`
-/

namespace CharSheet

------------------------------------------------------------
-- Graphs
------------------------------------------------------------

/-
  Attributes in the order in which they were first named, and
  the pairs of an attribute and one that it depends on.
-/
structure Graph where
  nodes : List Key
  edges : List (Key × Key)
  nodup : nodes.Nodup
  closed : ∀ e ∈ edges, e.1 ∈ nodes ∧ e.2 ∈ nodes

namespace Graph

/- The graph without attributes. -/
def empty : Graph where
  nodes := []
  edges := []
  nodup := List.nodup_nil
  closed := by simp

/- The attribute is in the graph. -/
def contains (g : Graph) (key : Key) : Bool :=
  g.nodes.contains key

/- Add an attribute that is not in the graph yet. -/
def addNode (g : Graph) (key : Key) : Graph :=
  if h : key ∈ g.nodes then g
  else
    { nodes := g.nodes ++ [key]
      edges := g.edges
      nodup := by
        rw [List.nodup_append]
        refine ⟨g.nodup, by simp, ?_⟩
        intro a ha b hb heq
        simp only [List.mem_singleton] at hb
        exact h (hb ▸ heq ▸ ha)
      closed := fun e he =>
        have hIn := g.closed e he
        ⟨List.mem_append_left _ hIn.1,
          List.mem_append_left _ hIn.2⟩ }

/- To add an attribute adds no dependency. -/
@[simp] theorem edges_addNode
    (g : Graph)
    (key : Key) :
    (g.addNode key).edges = g.edges := by
  unfold addNode
  split
  · rfl
  · rfl

/- An added attribute is in the graph. -/
theorem mem_addNode_self
    (g : Graph)
    (key : Key) :
    key ∈ (g.addNode key).nodes := by
  unfold addNode
  split
  · assumption
  · simp

/- Adding an attribute keeps the others. -/
theorem mem_addNode_of_mem
    {g : Graph}
    {key other : Key}
    (h : other ∈ g.nodes) :
    other ∈ (g.addNode key).nodes := by
  unfold addNode
  split
  · exact h
  · exact List.mem_append_left _ h

/- Record that an attribute depends on another one. -/
def addEdge
    (g : Graph)
    (dependent dependency : Key) : Graph :=
  let both := (g.addNode dependent).addNode dependency
  { nodes := both.nodes
    edges := (dependent, dependency) :: both.edges
    nodup := both.nodup
    closed := by
      intro e he
      rcases List.mem_cons.mp he with rfl | he
      · exact ⟨mem_addNode_of_mem (mem_addNode_self g dependent),
          mem_addNode_self _ dependency⟩
      · exact both.closed e he }

/- The attributes that an attribute depends on. -/
def dependencies (g : Graph) (key : Key) : List Key :=
  (g.edges.filter (·.1 = key)).map (·.2)

------------------------------------------------------------
-- Reachability
------------------------------------------------------------

/-
  For each attribute a set of attributes.  Attributes are
  counted by their positions, and a set has a bit for each.
-/
abbrev Reach := Array Nat

namespace Reach

/- The second position is in the set of the first one. -/
def has (r : Reach) (i j : Nat) : Bool :=
  (r.getD i 0).testBit j

/-
  Allow paths to pass through one more position: whoever gets
  there gets to its whole set.
-/
def through (r : Reach) (pivot : Nat) : Reach :=
  let onward := r.getD pivot 0
  r.map fun row =>
    if row.testBit pivot then row ||| onward else row

end Reach

/- The set of positions that attributes stand at. -/
def positions (g : Graph) (keys : List Key) : Nat :=
  keys.foldl
    (fun row key => row ||| 1 <<< g.nodes.idxOf key) 0

/- What is reached by one dependency. -/
def direct (g : Graph) : Reach :=
  (g.nodes.map fun key =>
    g.positions (g.dependencies key)).toArray

/-
  What is reached by one dependency or more, where paths pass
  through all positions in turn.
-/
def reach (g : Graph) : Reach :=
  (List.range g.nodes.length).foldl Reach.through g.direct

------------------------------------------------------------
-- Components
------------------------------------------------------------

/-
  Attributes that are computed together, in the order of
  their names.  They are cyclic if one depends on itself,
  directly or through others.
-/
@[ext] structure Component where
  members : List Key
  cyclic : Bool
deriving DecidableEq

/- The members as a closed path. -/
def Component.cycle (c : Component) : List Key :=
  c.members ++ c.members.head?.toList

namespace Reach

/- Two positions are one, or each reaches the other. -/
def together (r : Reach) (i j : Nat) : Bool :=
  i = j || (r.has i j && r.has j i)

/- The position is the first one of its component. -/
def leads (r : Reach) (i : Nat) : Bool :=
  (List.range i).all fun j => !r.together j i

/- The number of positions that are reached, with its own. -/
def extent (r : Reach) (i : Nat) : Nat :=
  (List.range r.size).countP fun j => i = j || r.has i j

/- The positions that belong to the component of one. -/
def group (r : Reach) (i : Nat) : List Nat :=
  (List.range r.size).filter (r.together i)

end Reach

/-
  The components, each after those that it depends on.  What
  depends on a component reaches all that the component
  reaches and more, so the order is that of their extents.
-/
def components (g : Graph) : List Component :=
  let reach := g.reach
  let leaders := (List.range reach.size).filter reach.leads
  let measured :=
    leaders.map fun i =>
      let members := (reach.group i).filterMap (g.nodes[·]?)
      (reach.extent i,
        (⟨members.mergeSort (· ≤ ·), reach.has i i⟩ :
          Component))
  (measured.mergeSort fun a b => a.1 ≤ b.1).map (·.2)

/- The cycles, as closed paths. -/
def cycles (g : Graph) : List (List Key) :=
  (g.components.filter (·.cyclic)).map Component.cycle

/- The text of a path. -/
def pathText (path : List Key) : String :=
  Text.join " -> " path

end Graph

end CharSheet
