import CharSheet.Proofs.Sheet.Plan

/-
  The sheet as the solution of its equations.

  On a snapshot each target has the value that its rules join
  on the snapshot itself, except that what is pending while
  the target is computed still has its input.  There is one
  snapshot for an input, and every order of evaluation comes
  to it.

  Main declarations:
    * `Store.overlay`
    * `Rulebook.IsDictionary`, `Rulebook.IsSnapshot`
    * `Rulebook.isSnapshot_planAlong`
    * `Rulebook.isSnapshot_sheet`
    * `Rulebook.IsSnapshot.eq`
    * `Rulebook.isSnapshot_iff_eq_sheet`
-/

namespace CharSheet

------------------------------------------------------------
-- Snapshots
------------------------------------------------------------

namespace Rulebook

/-
  What the rules of a target read: the snapshot, with the
  input of what is pending.
-/
structure IsDictionary
    (book : Rulebook)
    (input snapshot : Store)
    (key : Key)
    (dict : Store) : Prop where
  pending :
    ∀ other, book.IsPending key other →
      dict[other]? = input[other]?
  settled :
    ∀ other, ¬ book.IsPending key other →
      dict[other]? = snapshot[other]?

/-
  What is no target has its input, and each target has the
  value that its rules join from its input.
-/
structure IsSnapshot
    (book : Rulebook)
    (input snapshot : Store) : Prop where
  given :
    ∀ key, ¬ book.IsTarget key →
      snapshot[key]? = input[key]?
  computed :
    ∀ key, book.IsTarget key →
      ∃ dict, book.IsDictionary input snapshot key dict ∧
        snapshot[key]? =
          Rule.joinAll dict (book.rulesFor key) input[key]?

end Rulebook

------------------------------------------------------------
-- Dictionaries
------------------------------------------------------------

namespace Store

/- A store with some attributes as they are in another one. -/
def overlay
    (s t : Store)
    (keys : List Key) : Store :=
  keys.foldl (fun s key => s.put key t[key]?) s

/- An overlay has the listed attributes of the other store. -/
theorem getElem?_overlay
    (s t : Store)
    (keys : List Key)
    (key : Key) :
    (overlay s t keys)[key]? =
      if key ∈ keys then t[key]? else s[key]? := by
  unfold overlay
  induction keys generalizing s with
  | nil => simp
  | cons first keys ih =>
      rw [List.foldl_cons, ih, getElem?_put]
      by_cases hIn : key ∈ keys
      · simp [hIn]
      · by_cases hFirst : first = key
        · simp [hFirst]
        · simp [hIn, hFirst, Ne.symm hFirst]

end Store

namespace Rulebook

variable {book : Rulebook}
variable {input snapshot : Store}

/- There is a dictionary for each attribute of a snapshot. -/
theorem exists_isDictionary
    (book : Rulebook)
    (input snapshot : Store)
    (key : Key) :
    ∃ dict, book.IsDictionary input snapshot key dict := by
  classical
  let held :=
    (key :: book.targets).filter fun other =>
      decide (book.IsPending key other)
  have hHeld (other : Key) :
      other ∈ held ↔ book.IsPending key other := by
    rw [List.mem_filter, decide_eq_true_eq]
    refine ⟨And.right, fun hPending => ⟨?_, hPending⟩⟩
    rcases hPending with rfl | ⟨hTarget, _⟩
    · exact List.mem_cons_self
    · exact List.mem_cons_of_mem key
        (mem_targets_iff.mpr hTarget)
  refine ⟨Store.overlay snapshot input held, ?_, ?_⟩
  · intro other hPending
    rw [Store.getElem?_overlay,
      if_pos ((hHeld other).mpr hPending)]
  · intro other hSettled
    rw [Store.getElem?_overlay,
      if_neg (fun hIn => hSettled ((hHeld other).mp hIn))]

------------------------------------------------------------
-- Existence
------------------------------------------------------------

/-
  A plan along an order of evaluation comes to a snapshot.  A
  target's step works on what was computed before it, and on
  all that its rules read this agrees with the dictionary.
-/
theorem isSnapshot_planAlong
    {order : List Graph.Component}
    (hOrder : book.graph.IsEvaluationOrder order)
    (input : Store) :
    book.IsSnapshot input
      ((book.planAlong order).sheet input) := by
  rw [planAlong_eq_map]
  refine ⟨?_, ?_⟩
  · intro key hNot
    apply Plan.getElem?_sheet_of_notMem
    rw [map_fst_rulesFor]
    exact fun hIn => hNot ((mem_keysAlong_iff hOrder).mp hIn)
  · intro key hTarget
    rcases List.append_of_mem
        ((mem_keysAlong_iff hOrder).mpr hTarget) with
      ⟨before, after, hSplit⟩
    have hNodup := nodup_keysAlong hOrder
    rw [hSplit, List.nodup_append, List.nodup_cons] at hNodup
    rw [hSplit, List.map_append, List.map_cons]
    set first : Plan :=
      before.map fun key => (key, book.rulesFor key)
    set later : Plan :=
      after.map fun key => (key, book.rulesFor key)
    rcases exists_isDictionary book input
        (Plan.sheet (first ++ (key, book.rulesFor key) :: later)
          input) key with
      ⟨dict, hDict⟩
    refine ⟨dict, hDict, ?_⟩
    have hLater : key ∉ later.map (·.1) := by
      rw [map_fst_rulesFor]
      exact hNodup.2.1.1
    rw [Plan.getElem?_sheet_of_split hLater]
    apply Rule.joinAll_congr
    intro r hRule other hReads
    by_cases hPending : book.IsPending key other
    · rw [hDict.pending other hPending]
      apply Plan.getElem?_sheet_of_notMem
      rw [map_fst_rulesFor]
      exact notMem_before_of_isPending hOrder hSplit hPending
    · rw [hDict.settled other hPending]
      symm
      apply Plan.getElem?_sheet_append
      change other ∉ (key :: later.map (·.1))
      rw [map_fst_rulesFor]
      exact notMem_after_of_reads hOrder hSplit hRule hReads
        hPending

/- So does the plan along the computed components. -/
theorem isSnapshot_sheet
    (book : Rulebook)
    (input : Store) :
    book.IsSnapshot input (book.sheet input) :=
  isSnapshot_planAlong
    (Graph.isEvaluationOrder_components book.graph) input

------------------------------------------------------------
-- Uniqueness
------------------------------------------------------------

section Uniqueness

variable {first second : Store}
variable {order : List Graph.Component}
variable (hFirst : book.IsSnapshot input first)
variable (hSecond : book.IsSnapshot input second)
variable (hOrder : book.graph.IsEvaluationOrder order)

include hFirst hSecond hOrder

/-
  Two snapshots agree on a target if they agree on all that is
  computed before it.
-/
theorem IsSnapshot.getElem?_eq_of_before
    {key : Key}
    {before after : List Key}
    (hSplit : book.keysAlong order = before ++ key :: after)
    (hBefore :
      ∀ other ∈ before, first[other]? = second[other]?) :
    first[key]? = second[key]? := by
  have hTarget : book.IsTarget key := by
    rw [← mem_keysAlong_iff hOrder, hSplit]
    exact List.mem_append_right _ List.mem_cons_self
  rcases hFirst.computed key hTarget with ⟨dict, hDict, hValue⟩
  rcases hSecond.computed key hTarget with
    ⟨dict', hDict', hValue'⟩
  rw [hValue, hValue']
  apply Rule.joinAll_congr
  intro r hRule other hReads
  by_cases hPending : book.IsPending key other
  · rw [hDict.pending other hPending,
      hDict'.pending other hPending]
  · rw [hDict.settled other hPending,
      hDict'.settled other hPending]
    by_cases hOther : book.IsTarget other
    · exact hBefore other
        (mem_before_of_reads hOrder hSplit hRule hReads
          hOther hPending)
    · rw [hFirst.given other hOther,
        hSecond.given other hOther]

/- So they agree on all targets that come first in an order. -/
theorem IsSnapshot.getElem?_eq_along
    (before after : List Key)
    (hSplit : book.keysAlong order = before ++ after) :
    ∀ key ∈ before, first[key]? = second[key]? := by
  induction before using List.reverseRecOn
    generalizing after with
  | nil => simp
  | append_singleton before key ih =>
      have hSplit' :
          book.keysAlong order = before ++ key :: after := by
        rw [hSplit]
        exact (List.append_cons before key after).symm
      have hBefore := ih (key :: after) hSplit'
      intro other hIn
      rcases List.mem_append.mp hIn with hIn | hIn
      · exact hBefore other hIn
      · rw [List.mem_singleton.mp hIn]
        exact hFirst.getElem?_eq_of_before hSecond hOrder hSplit'
          hBefore

end Uniqueness

/- Two snapshots of one input are the same. -/
theorem IsSnapshot.eq
    {first second : Store}
    (hFirst : book.IsSnapshot input first)
    (hSecond : book.IsSnapshot input second) :
    first = second := by
  have hOrder :=
    Graph.isEvaluationOrder_components book.graph
  apply Std.ExtTreeMap.ext_getElem?
  intro key
  by_cases hTarget : book.IsTarget key
  · exact hFirst.getElem?_eq_along hSecond hOrder _ []
      (List.append_nil _).symm key
      ((mem_keysAlong_iff hOrder).mpr hTarget)
  · rw [hFirst.given key hTarget, hSecond.given key hTarget]

------------------------------------------------------------
-- The Sheet
------------------------------------------------------------

/-
  The sheet is the one snapshot of its input.  The computed
  components are in an order of evaluation, and every other
  order of evaluation gives the same sheet.
-/
theorem isSnapshot_iff_eq_sheet
    (book : Rulebook)
    (input : Store) :
    (∀ snapshot, book.IsSnapshot input snapshot ↔
        snapshot = book.sheet input) ∧
      book.graph.IsEvaluationOrder book.graph.components ∧
      ∀ order, book.graph.IsEvaluationOrder order →
        (book.planAlong order).sheet input =
          book.sheet input := by
  have hComponents :=
    Graph.isEvaluationOrder_components book.graph
  have hSheet : book.IsSnapshot input (book.sheet input) :=
    isSnapshot_planAlong hComponents input
  refine ⟨?_, hComponents, ?_⟩
  · intro snapshot
    constructor
    · intro hSnapshot
      exact hSnapshot.eq hSheet
    · intro hEq
      subst hEq
      exact hSheet
  · intro order hOrder
    exact (isSnapshot_planAlong hOrder input).eq hSheet

end Rulebook

end CharSheet
