import CharSheet.Proofs.Graph.Components
import Mathlib.Data.List.Chain
import Mathlib.Data.List.Permutation

/-
  Cycles as they are listed.

  A cycle is listed with its attributes in the order of their
  names, and the first one again at the end.  Its neighbours
  depend on each other by way of the listed attributes, but
  not always directly: the list follows dependencies only if
  these go from name to name in the order of the names.

  Main declarations:
    * `Graph.IsClosedPath`
    * `Graph.isChain_iff_of_pairwise`
    * `Graph.transGen_dependsWithin`
    * `Graph.IsListedCycle`
    * `Graph.isListedCycle_cycles`
    * `Graph.not_forall_isClosedPath`
-/

namespace CharSheet

namespace Graph

open Relation

------------------------------------------------------------
-- Closed Paths
------------------------------------------------------------

/-
  A list that begins and ends with one attribute, and names
  no other one twice.
-/
def IsRound (path : List Key) : Prop :=
  ∃ first rest,
    path = first :: rest ++ [first] ∧ (first :: rest).Nodup

/-
  Each attribute of a list depends on the next one, or each
  one on the one before it.
-/
def IsLinked (g : Graph) (path : List Key) : Prop :=
  path.IsChain g.DependsOn ∨
    path.IsChain fun a b => g.DependsOn b a

/- A way round along dependencies in one direction. -/
structure IsClosedPath
    (g : Graph)
    (path : List Key) : Prop where
  round : IsRound path
  linked : g.IsLinked path

variable {g : Graph}
variable {keys path rest : List Key}
variable {a b first : Key}
variable {r : Key → Key → Prop}

------------------------------------------------------------
-- Neighbours By Name
------------------------------------------------------------

/-
  An attribute is the next one by name among those of a list.
  The first one by name follows the last one.
-/
def IsNextByName
    (keys : List Key)
    (a b : Key) : Prop :=
  a ∈ keys ∧ b ∈ keys ∧
    ((a < b ∧ ∀ c ∈ keys, c ≤ a ∨ b ≤ c) ∨
      ∀ c ∈ keys, b ≤ c ∧ c ≤ a)

/- The first attribute by name is the least one. -/
theorem first_le_of_pairwise
    (h : (first :: rest).Pairwise (· < ·))
    (ha : a ∈ first :: rest) :
    first ≤ a := by
  rcases List.mem_cons.mp ha with rfl | ha
  · exact le_rfl
  · exact ((List.pairwise_cons.mp h).1 a ha).le

/- The last one is the greatest. -/
theorem le_last_of_pairwise
    {last : Key}
    (h : keys.Pairwise (· < ·))
    (hLast : keys.getLast? = some last)
    (ha : a ∈ keys) :
    a ≤ last := by
  rcases List.getLast?_eq_some_iff.mp hLast with ⟨before, rfl⟩
  rcases List.mem_append.mp ha with ha | ha
  · exact ((List.pairwise_append.mp h).2.2 a ha last
      (List.mem_singleton_self last)).le
  · exact (List.mem_singleton.mp ha).le

/-
  Neighbours in a list by name are the attributes that have
  none between their names.
-/
theorem isChain_iff_of_pairwise
    (h : keys.Pairwise (· < ·)) :
    keys.IsChain r ↔
      ∀ a ∈ keys, ∀ b ∈ keys, a < b →
        (∀ c ∈ keys, c ≤ a ∨ b ≤ c) → r a b := by
  induction keys with
  | nil => simp
  | cons x keys ih =>
      rcases List.pairwise_cons.mp h with ⟨hFirst, hRest⟩
      rw [List.isChain_cons, ih hRest]
      constructor
      · intro hBoth a ha b hb hLt hNone
        rcases hBoth with ⟨hStep, hLater⟩
        have hIn : b ∈ keys :=
          (List.mem_cons.mp hb).resolve_left fun hEq =>
            (first_le_of_pairwise h ha).not_gt (hEq ▸ hLt)
        rcases List.mem_cons.mp ha with rfl | ha
        · -- the first one is followed by the least of the rest
          cases keys with
          | nil => cases hIn
          | cons y keys =>
              have hBelow : y ≤ a ∨ b ≤ y :=
                hNone y (List.mem_cons_of_mem a List.mem_cons_self)
              have hNot : ¬ y ≤ a :=
                (hFirst y List.mem_cons_self).not_ge
              have hSame : y = b :=
                le_antisymm (first_le_of_pairwise hRest hIn)
                  (hBelow.resolve_left hNot)
              rw [← hSame]
              exact hStep y rfl
        · exact hLater a ha b hIn hLt fun c hc =>
            hNone c (List.mem_cons_of_mem x hc)
      · intro hAll
        constructor
        · intro y hy
          rcases List.head?_eq_some_iff.mp hy with ⟨keys, rfl⟩
          apply hAll x List.mem_cons_self y
            (List.mem_cons_of_mem x List.mem_cons_self)
            (hFirst y List.mem_cons_self)
          intro c hc
          rcases List.mem_cons.mp hc with rfl | hc
          · exact Or.inl le_rfl
          · exact Or.inr (first_le_of_pairwise hRest hc)
        · intro a ha b hb hLt hNone
          apply hAll a (List.mem_cons_of_mem x ha) b
            (List.mem_cons_of_mem x hb) hLt
          intro c hc
          rcases List.mem_cons.mp hc with rfl | hc
          · exact Or.inl (hFirst a ha).le
          · exact hNone c hc

/- The end of a list that ends where it begins adds nothing. -/
theorem mem_round_iff :
    a ∈ first :: rest ++ [first] ↔ a ∈ first :: rest := by
  rw [List.mem_append, List.mem_singleton, or_iff_left_iff_imp]
  rintro rfl
  exact List.mem_cons_self

/-
  A list by name that ends where it begins has the next ones
  by name as neighbours.
-/
theorem isChain_round_iff
    (h : (first :: rest).Pairwise (· < ·)) :
    (first :: rest ++ [first]).IsChain r ↔
      ∀ a b, IsNextByName (first :: rest ++ [first]) a b →
        r a b := by
  obtain ⟨last, hLast⟩ :
      ∃ last, (first :: rest).getLast? = some last :=
    ⟨_, List.getLast?_cons⟩
  rw [List.isChain_append, isChain_iff_of_pairwise h]
  constructor
  · intro hBoth a b hNext
    rcases hBoth with ⟨hInside, _, hAround⟩
    rcases hNext with ⟨ha, hb, hBetween | hEnds⟩
    · exact hInside a (mem_round_iff.mp ha) b
        (mem_round_iff.mp hb) hBetween.1
        fun c hc => hBetween.2 c (mem_round_iff.mpr hc)
    · have hFirst : b = first :=
        le_antisymm
          (hEnds first (mem_round_iff.mpr List.mem_cons_self)).1
          (first_le_of_pairwise h (mem_round_iff.mp hb))
      have hIn : last ∈ first :: rest :=
        List.mem_of_getLast? hLast
      have hFinal : a = last :=
        le_antisymm
          (le_last_of_pairwise h hLast (mem_round_iff.mp ha))
          (hEnds last (mem_round_iff.mpr hIn)).2
      rw [hFirst, hFinal]
      exact hAround last hLast first rfl
  · intro hAll
    refine ⟨?_, List.isChain_singleton first, ?_⟩
    · intro a ha b hb hLt hNone
      exact hAll a b ⟨mem_round_iff.mpr ha, mem_round_iff.mpr hb,
        Or.inl ⟨hLt, fun c hc => hNone c (mem_round_iff.mp hc)⟩⟩
    · intro a ha b hb
      obtain rfl : first = b := Option.some.inj hb
      refine hAll a first ⟨mem_round_iff.mpr (List.mem_of_getLast? ha),
        mem_round_iff.mpr List.mem_cons_self, Or.inr ?_⟩
      intro c hc
      exact ⟨first_le_of_pairwise h (mem_round_iff.mp hc),
        le_last_of_pairwise h ha (mem_round_iff.mp hc)⟩

------------------------------------------------------------
-- Dependencies Within A List
------------------------------------------------------------

/- A dependency between two attributes of a list. -/
def DependsWithin
    (g : Graph)
    (keys : List Key)
    (a b : Key) : Prop :=
  g.DependsOn a b ∧ a ∈ keys ∧ b ∈ keys

/- Two attributes that depend on each other by way of a list. -/
def JoinedWithin
    (g : Graph)
    (keys : List Key)
    (a b : Key) : Prop :=
  TransGen (g.DependsWithin keys) a b ∧
    TransGen (g.DependsWithin keys) b a

/-
  Attributes that depend on each other do so by way of their
  own component: all that lies on a way there lies on a way
  back too.
-/
theorem transGen_dependsWithin
    (hKeys : ∀ c, g.Reaches a c → g.Reaches c a → c ∈ keys)
    (hTo : g.Reaches a b)
    (hBack : g.Reaches b a) :
    TransGen (g.DependsWithin keys) a b := by
  have hSelf : a ∈ keys :=
    hKeys a (hTo.trans hBack) (hTo.trans hBack)
  induction hTo with
  | single hStep =>
      exact .single
        ⟨hStep, hSelf, hKeys _ (.single hStep) hBack⟩
  | tail hBefore hStep ih =>
      have hReturn := hBack.head hStep
      exact (ih hReturn).tail
        ⟨hStep, hKeys _ hBefore hReturn,
          hKeys _ (hBefore.tail hStep) hBack⟩

/- Among no others, one depends on the other directly. -/
theorem dependsOn_of_transGen_within
    (hKeys : ∀ c ∈ keys, c = a ∨ c = b)
    (h : TransGen (g.DependsWithin keys) a b) :
    g.DependsOn a b := by
  by_contra hNot
  -- without the dependency, no way leads off the first one
  have hStay {c : Key} (hStep : g.DependsWithin keys a c) :
      c = a ∧ c ≠ b := by
    have hOther : c ≠ b := by
      rintro rfl
      exact hNot hStep.1
    exact ⟨(hKeys c hStep.2.2).resolve_right hOther, hOther⟩
  have hAll {c : Key}
      (hWay : TransGen (g.DependsWithin keys) a c) :
      c = a ∧ c ≠ b := by
    induction hWay with
    | single hStep => exact hStay hStep
    | tail _ hStep ih =>
        rw [ih.1] at hStep
        exact hStay hStep
  exact (hAll h).2 rfl

------------------------------------------------------------
-- Listed Cycles
------------------------------------------------------------

/-
  What is known of a list of attributes that is given for a
  cycle.
-/
structure IsListedCycle
    (g : Graph)
    (path : List Key) : Prop where
  round : IsRound path
  sorted : path.dropLast.Pairwise (· < ·)
  /- neighbours depend on each other by way of the listed ones -/
  joined : path.IsChain (g.JoinedWithin path)
  /- it is followed directly if names and dependencies agree -/
  isClosedPath_iff :
    g.IsClosedPath path ↔
      (∀ a b, IsNextByName path a b → g.DependsOn a b) ∨
        ∀ a b, IsNextByName path a b → g.DependsOn b a
  /- with one attribute or two they always do -/
  isClosedPath_of_length_le :
    path.length ≤ 3 → g.IsClosedPath path

/- A listed cycle is that of the members of a component. -/
theorem exists_of_mem_cycles
    (h : path ∈ g.cycles) :
    ∃ c ∈ g.components, c.cyclic = true ∧
      ∃ first rest, c.members = first :: rest ∧
        path = first :: rest ++ [first] := by
  rcases List.mem_map.mp h with ⟨c, hCyclic, rfl⟩
  rcases List.mem_filter.mp hCyclic with ⟨hc, hTrue⟩
  have hSome := g.isEvaluationOrder_components.nonempty c hc
  refine ⟨c, hc, hTrue, ?_⟩
  cases hMembers : c.members with
  | nil => exact absurd hMembers hSome
  | cons first rest =>
      refine ⟨first, rest, rfl, ?_⟩
      rw [Component.cycle, hMembers]
      rfl

/- Members of a cyclic component reach each other. -/
theorem reaches_of_mem_members
    {c : Component}
    (hc : c ∈ g.components)
    (hCyclic : c.cyclic = true)
    (ha : a ∈ c.members)
    (hb : b ∈ c.members) :
    g.Reaches a b := by
  have hOrder := g.isEvaluationOrder_components
  have hNodes {x : Key} (hx : x ∈ c.members) : x ∈ g.nodes :=
    hOrder.partition.mem_iff.mp (List.mem_flatMap.mpr ⟨c, hc, hx⟩)
  rcases (hOrder.cyclic_iff c hc).mp hCyclic with
    ⟨x, hx, hAround⟩
  have hFrom : g.SameComponent a x :=
    (hOrder.together c hc a ha x (hNodes hx)).mp hx
  have hOn : g.SameComponent x b :=
    (hOrder.together c hc x hx b (hNodes hb)).mp hb
  exact hFrom.reaches (hOn.reached hAround)

/- What depends on a member both ways is a member too. -/
theorem mem_members_of_reaches
    {c : Component}
    (hc : c ∈ g.components)
    (ha : a ∈ c.members)
    (hTo : g.Reaches a b)
    (hBack : g.Reaches b a) :
    b ∈ c.members :=
  (g.isEvaluationOrder_components.together c hc a ha b
    hTo.mem.2).mpr (Or.inr ⟨hTo, hBack⟩)

/- A list for a cycle of one or two attributes is followed. -/
theorem isLinked_of_length_le
    (hJoined :
      (first :: rest ++ [first]).IsChain
        (g.JoinedWithin (first :: rest ++ [first])))
    (hLe : (first :: rest ++ [first]).length ≤ 3) :
    g.IsLinked (first :: rest ++ [first]) := by
  match rest with
  | [] =>
      have hPair := List.isChain_pair.mp hJoined
      have hOwn : g.DependsOn first first :=
        dependsOn_of_transGen_within (by simp) hPair.1
      exact Or.inl (List.isChain_pair.mpr hOwn)
  | [second] =>
      have hPair := (List.isChain_cons_cons.mp hJoined).1
      have hTo : g.DependsOn first second :=
        dependsOn_of_transGen_within (by simp) hPair.1
      have hBack : g.DependsOn second first :=
        dependsOn_of_transGen_within (by simp) hPair.2
      exact Or.inl (List.isChain_cons_cons.mpr
        ⟨hTo, List.isChain_pair.mpr hBack⟩)
  | second :: third :: more =>
      simp only [List.length_append, List.length_cons,
        List.length_nil] at hLe
      omega

theorem isListedCycle_of_mem_cycles
    (h : path ∈ g.cycles) :
    g.IsListedCycle path := by
  rcases exists_of_mem_cycles h with
    ⟨c, hc, hCyclic, first, rest, hMembers, rfl⟩
  have hSorted : (first :: rest).Pairwise (· < ·) := by
    rw [← hMembers]
    exact g.isEvaluationOrder_components.sorted c hc
  have hRound : IsRound (first :: rest ++ [first]) :=
    ⟨first, rest, rfl, hSorted.imp ne_of_lt⟩
  have hMem {x : Key} :
      x ∈ first :: rest ++ [first] ↔ x ∈ c.members := by
    rw [hMembers, mem_round_iff]
  have hWay {a b : Key}
      (ha : a ∈ first :: rest ++ [first])
      (hb : b ∈ first :: rest ++ [first]) :
      TransGen
        (g.DependsWithin (first :: rest ++ [first])) a b := by
    rw [hMem] at ha hb
    apply transGen_dependsWithin
    · intro x hTo hBack
      exact hMem.mpr (mem_members_of_reaches hc ha hTo hBack)
    · exact reaches_of_mem_members hc hCyclic ha hb
    · exact reaches_of_mem_members hc hCyclic hb ha
  have hJoined :
      (first :: rest ++ [first]).IsChain
        (g.JoinedWithin (first :: rest ++ [first])) := by
    apply List.Pairwise.isChain
    apply List.pairwise_of_forall_mem_list
    intro a ha b hb
    exact ⟨hWay ha hb, hWay hb ha⟩
  exact
    { round := hRound
      sorted := by
        rw [List.dropLast_concat]
        exact hSorted
      joined := hJoined
      isClosedPath_iff := by
        rw [← isChain_round_iff hSorted, ← isChain_round_iff hSorted]
        exact ⟨fun h => h.linked, fun h => ⟨hRound, h⟩⟩
      isClosedPath_of_length_le := fun hLe =>
        ⟨hRound, isLinked_of_length_le hJoined hLe⟩ }

/-
  Each list that is given for a cycle is one, and the listed
  attributes are those that depend on themselves.
-/
theorem isListedCycle_cycles (g : Graph) :
    (∀ path ∈ g.cycles, g.IsListedCycle path) ∧
      ∀ key, (∃ path ∈ g.cycles, key ∈ path) ↔
        g.Reaches key key := by
  refine ⟨fun path => isListedCycle_of_mem_cycles, ?_⟩
  intro key
  constructor
  · intro hListed
    rcases hListed with ⟨path, hPath, hKey⟩
    rcases exists_of_mem_cycles hPath with
      ⟨c, hc, hCyclic, first, rest, hMembers, rfl⟩
    have hIn : key ∈ c.members := by
      rw [hMembers]
      exact mem_round_iff.mp hKey
    exact reaches_of_mem_members hc hCyclic hIn hIn
  · intro hReaches
    have hOrder := g.isEvaluationOrder_components
    rcases List.mem_flatMap.mp
      (hOrder.partition.mem_iff.mpr hReaches.mem.1) with
      ⟨c, hc, hIn⟩
    have hCyclic : c.cyclic = true :=
      (hOrder.cyclic_iff c hc).mpr ⟨key, hIn, hReaches⟩
    refine ⟨c.cycle, ?_, List.mem_append_left _ hIn⟩
    exact List.mem_map_of_mem
      (List.mem_filter.mpr ⟨hc, hCyclic⟩)

/-
  Four attributes that depend on each other in a ring, with
  their names in another order.
-/
def crossedRing : Graph :=
  (((empty.addEdge "a" "c").addEdge "c" "b").addEdge
    "b" "d").addEdge "d" "a"

theorem cycles_crossedRing :
    crossedRing.cycles = [["a", "b", "c", "d", "a"]] := by
  cbv

theorem mem_cycles_crossedRing :
    ["a", "b", "c", "d", "a"] ∈ crossedRing.cycles := by
  rw [cycles_crossedRing]
  exact List.mem_cons_self

/- What is listed for the ring goes round it by detours. -/
theorem isListedCycle_crossedRing :
    ["a", "b", "c", "d", "a"] ∈ crossedRing.cycles ∧
      crossedRing.IsListedCycle ["a", "b", "c", "d", "a"] ∧
        crossedRing.Reaches "d" "d" := by
  have hListed := isListedCycle_cycles crossedRing
  exact ⟨mem_cycles_crossedRing,
    hListed.1 _ mem_cycles_crossedRing,
    (hListed.2 "d").mp ⟨_, mem_cycles_crossedRing, by decide⟩⟩

/- It is no closed path: no dependency joins its first names. -/
theorem not_forall_isClosedPath :
    ¬ ∀ (g : Graph) (path : List Key),
      path ∈ g.cycles → g.IsClosedPath path := by
  intro hAll
  have hApart :
      ("a", "b") ∉ crossedRing.edges ∧
        ("b", "a") ∉ crossedRing.edges := by
    decide
  rcases (hAll _ _ mem_cycles_crossedRing).linked with hOn | hBack
  · exact hApart.1 (List.isChain_cons_cons.mp hOn).1
  · exact hApart.2 (List.isChain_cons_cons.mp hBack).1

end Graph

end CharSheet
