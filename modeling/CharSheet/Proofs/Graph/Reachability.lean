import CharSheet.Graph
import Mathlib.Data.List.Basic
import Mathlib.Data.List.Nodup
import Mathlib.Logic.Relation

/-
  Reachability along dependencies.

  The sets of positions that are closed under one pivot after
  another hold exactly what paths of dependencies lead to.

  Main declarations:
    * `Graph.DependsOn`, `Graph.Reaches`
    * `Graph.Reach.has_through`
    * `Graph.Reach.has_closure_iff`
    * `Graph.has_direct_iff`
    * `Graph.has_reach_iff`
-/

namespace CharSheet

namespace Graph

open Relation

/- An attribute depends on another one directly. -/
def DependsOn (g : Graph) (a b : Key) : Prop :=
  (a, b) ∈ g.edges

/- An attribute depends on another one by one step or more. -/
def Reaches (g : Graph) (a b : Key) : Prop :=
  TransGen g.DependsOn a b

------------------------------------------------------------
-- Sets of Positions
------------------------------------------------------------

namespace Reach

/- A pivot leaves the number of positions as it is. -/
@[simp] theorem size_through
    (r : Reach)
    (pivot : Nat) :
    (r.through pivot).size = r.size := by
  simp [through]

/-
  Through a pivot one gets to what one got to before, and from
  the pivot on to its own set.
-/
theorem has_through
    (r : Reach)
    (pivot i j : Nat) :
    (r.through pivot).has i j =
      (r.has i j || (r.has i pivot && r.has pivot j)) := by
  unfold has through
  by_cases hSize : i < r.size
  · simp only [Array.getD_eq_getD_getElem?, Array.getElem?_map,
      Array.getElem?_eq_getElem hSize, Option.map_some,
      Option.getD_some]
    by_cases hPivot : r[i].testBit pivot = true
    · simp [hPivot]
    · simp [hPivot]
  · simp [Array.getD_eq_getD_getElem?,
      Array.getElem?_eq_none (Nat.not_lt.mp hSize)]

/- The closure after one more pivot. -/
theorem closure_succ
    (r : Reach)
    (n : Nat) :
    (List.range (n + 1)).foldl through r =
      ((List.range n).foldl through r).through n := by
  rw [List.range_succ, List.foldl_append]
  rfl

/- Pivots leave the number of positions as it is. -/
@[simp] theorem size_closure
    (r : Reach)
    (n : Nat) :
    ((List.range n).foldl through r).size = r.size := by
  induction n with
  | zero => rfl
  | succ n ih => rw [closure_succ, size_through, ih]

variable {r : Reach}
variable {i j m n : Nat}

/- Nothing that was reached gets lost. -/
theorem has_closure_of_has
    (n : Nat)
    (h : r.has i j = true) :
    ((List.range n).foldl through r).has i j = true := by
  induction n with
  | zero => exact h
  | succ n ih => simp [closure_succ, has_through, ih]

/-
  After a number of pivots paths can be joined at each of
  them: at an earlier one by what held before the last pivot,
  and at the last one by its own step.
-/
theorem has_closure_trans
    (hLt : m < n)
    (hFirst : ((List.range n).foldl through r).has i m = true)
    (hSecond :
      ((List.range n).foldl through r).has m j = true) :
    ((List.range n).foldl through r).has i j = true := by
  induction n generalizing i j m with
  | zero => exact absurd hLt (Nat.not_lt_zero m)
  | succ n ih =>
      simp only [closure_succ, has_through, Bool.or_eq_true,
        Bool.and_eq_true] at hFirst hSecond ⊢
      rcases Nat.lt_succ_iff_lt_or_eq.mp hLt with hLt | rfl
      · rcases hFirst with hFirst | ⟨hFirst, hPivot⟩
        · rcases hSecond with hSecond | ⟨hSecond, hPivot⟩
          · exact Or.inl (ih hLt hFirst hSecond)
          · exact Or.inr ⟨ih hLt hFirst hSecond, hPivot⟩
        · rcases hSecond with hSecond | ⟨_, hSecond⟩
          · exact Or.inr ⟨hFirst, ih hLt hPivot hSecond⟩
          · exact Or.inr ⟨hFirst, hSecond⟩
      · have hTo :
            ((List.range m).foldl through r).has i m = true :=
          hFirst.elim id And.left
        have hFrom :
            ((List.range m).foldl through r).has m j = true :=
          hSecond.elim id And.right
        exact Or.inr ⟨hTo, hFrom⟩

/- Pivots only add what a path leads to. -/
theorem transGen_of_has_closure
    (n : Nat)
    (h : ((List.range n).foldl through r).has i j = true) :
    TransGen (fun i j => r.has i j = true) i j := by
  induction n generalizing i j with
  | zero => exact TransGen.single h
  | succ n ih =>
      simp only [closure_succ, has_through, Bool.or_eq_true,
        Bool.and_eq_true] at h
      rcases h with h | ⟨hTo, hFrom⟩
      · exact ih h
      · exact (ih hTo).trans (ih hFrom)

/-
  Where all sets hold positions below a number, the closure
  under so many pivots holds all that paths lead to.
-/
theorem has_closure_iff
    (hBound : ∀ i j, r.has i j = true → j < n) :
    ((List.range n).foldl through r).has i j = true ↔
      TransGen (fun i j => r.has i j = true) i j := by
  constructor
  · exact transGen_of_has_closure n
  · intro hPath
    induction hPath with
    | single h => exact has_closure_of_has n h
    | @tail middle _ hPath hStep ih =>
        have hLt : middle < n := by
          cases hPath with
          | single h => exact hBound _ _ h
          | tail _ h => exact hBound _ _ h
        exact has_closure_trans hLt ih
          (has_closure_of_has n hStep)

end Reach

------------------------------------------------------------
-- Attributes And Positions
------------------------------------------------------------

variable {g : Graph}
variable {a b : Key}
variable {i j : Nat}

/- The attribute at a position stands nowhere else. -/
theorem idxOf_of_getElem?
    (h : g.nodes[i]? = some a) :
    g.nodes.idxOf a = i := by
  rcases List.getElem?_eq_some_iff.mp h with ⟨hLt, rfl⟩
  exact g.nodup.idxOf_getElem i hLt

/- A set of positions has the positions of its attributes. -/
theorem testBit_positions
    (g : Graph)
    (keys : List Key)
    (j : Nat) :
    (g.positions keys).testBit j = true ↔
      ∃ key ∈ keys, g.nodes.idxOf key = j := by
  have hFold (row : Nat) :
      (keys.foldl
          (fun row key => row ||| 1 <<< g.nodes.idxOf key)
          row).testBit j = true ↔
        row.testBit j = true ∨
          ∃ key ∈ keys, g.nodes.idxOf key = j := by
    induction keys generalizing row with
    | nil => simp
    | cons key keys ih =>
        rw [List.foldl_cons, ih, Nat.testBit_or,
          Nat.one_shiftLeft, Nat.testBit_two_pow]
        simp [or_assoc]
  simpa [positions] using hFold 0

/- What is reached by one dependency. -/
theorem has_direct_iff
    (g : Graph)
    (i j : Nat) :
    g.direct.has i j = true ↔
      ∃ a b, g.nodes[i]? = some a ∧ g.DependsOn a b ∧
        g.nodes.idxOf b = j := by
  unfold Reach.has direct
  cases hNode : g.nodes[i]? with
  | none =>
      simp [Array.getD_eq_getD_getElem?, hNode]
  | some a =>
      simp [Array.getD_eq_getD_getElem?, hNode,
        testBit_positions, dependencies, DependsOn]

/- Dependencies are among the attributes of a graph. -/
theorem DependsOn.mem
    (h : g.DependsOn a b) :
    a ∈ g.nodes ∧ b ∈ g.nodes :=
  g.closed (a, b) h

/- Attributes on a path are among those of the graph. -/
theorem Reaches.mem
    (h : g.Reaches a b) :
    a ∈ g.nodes ∧ b ∈ g.nodes := by
  induction h with
  | single h => exact h.mem
  | tail _ h ih => exact ⟨ih.1, h.mem.2⟩

/- A path of positions is a path of attributes. -/
theorem reaches_of_transGen
    (hFrom : g.nodes[i]? = some a)
    (hPath :
      TransGen (fun i j => g.direct.has i j = true) i j) :
    ∃ b, g.nodes[j]? = some b ∧ g.Reaches a b := by
  have hStep
      {i j : Nat}
      {a : Key}
      (hFrom : g.nodes[i]? = some a)
      (h : g.direct.has i j = true) :
      ∃ b, g.nodes[j]? = some b ∧ g.DependsOn a b := by
    rcases (has_direct_iff g i j).mp h with
      ⟨a', b, hFrom', hDepends, rfl⟩
    obtain rfl : a = a' := Option.some.inj (hFrom ▸ hFrom')
    exact ⟨b, List.getElem?_idxOf hDepends.mem.2, hDepends⟩
  induction hPath with
  | single h =>
      rcases hStep hFrom h with ⟨b, hTo, hDepends⟩
      exact ⟨b, hTo, TransGen.single hDepends⟩
  | tail _ h ih =>
      rcases ih with ⟨b, hTo, hReaches⟩
      rcases hStep hTo h with ⟨c, hNext, hDepends⟩
      exact ⟨c, hNext, hReaches.tail hDepends⟩

/- A position reaches another one if its attribute does. -/
theorem has_reach_iff
    (hFrom : g.nodes[i]? = some a)
    (hTo : g.nodes[j]? = some b) :
    g.reach.has i j = true ↔ g.Reaches a b := by
  have hBound (i j : Nat) (h : g.direct.has i j = true) :
      j < g.nodes.length := by
    rcases (has_direct_iff g i j).mp h with
      ⟨_, b, _, hDepends, rfl⟩
    exact List.idxOf_lt_length_of_mem hDepends.mem.2
  unfold reach
  rw [Reach.has_closure_iff hBound]
  constructor
  · intro hPath
    rcases reaches_of_transGen hFrom hPath with
      ⟨c, hTo', hReaches⟩
    obtain rfl : b = c := Option.some.inj (hTo ▸ hTo')
    exact hReaches
  · intro hReaches
    have hPath :
        TransGen (fun i j => g.direct.has i j = true)
          (g.nodes.idxOf a) (g.nodes.idxOf b) := by
      refine TransGen.lift (fun key => g.nodes.idxOf key) ?_
        a b hReaches
      intro a b hDepends
      exact
        (has_direct_iff g _ _).mpr
          ⟨a, b, List.getElem?_idxOf hDepends.mem.1,
            hDepends, rfl⟩
    rwa [idxOf_of_getElem? hFrom, idxOf_of_getElem? hTo]
      at hPath

end Graph

end CharSheet
