import CharSheet.Proofs.Rulebook.Command
import CharSheet.Proofs.Sheet.Snapshot

/-
  Rules that are declared in another order.

  Rules are applied by the priorities of their operators
  first, so their order matters only among those of one
  target and one operator.  What depends on what, and with it
  the components, does not tell of any order.

  Main declarations:
    * `Rule.bare`
    * `Rulebook.rulesOf`
    * `Rulebook.rulesFor_eq_flatMap`
    * `Rulebook.sheet_eq_of_perm`
    * `Rulebook.IsRearrangement`
    * `Command.sheet_eq_of_isRearrangement`
-/

namespace CharSheet

------------------------------------------------------------
-- Bare Rules
------------------------------------------------------------

namespace Rule

/- A rule apart from its owner and its number. -/
def bare (r : Rule) : Rule :=
  { r with owner := none, seq := 0 }

@[simp] theorem target_bare (r : Rule) :
    r.bare.target = r.target := rfl

@[simp] theorem op_bare (r : Rule) : r.bare.op = r.op := rfl

/- Neither owners nor numbers are joined. -/
theorem joinAll_map_bare
    (sheet : Store)
    (rules : List Rule)
    (v : Option Value) :
    joinAll sheet (rules.map bare) v =
      joinAll sheet rules v := by
  induction rules generalizing v with
  | nil => rfl
  | cons r rules ih =>
      have hSame : r.bare.contribution sheet =
          r.contribution sheet := rfl
      simp only [List.map_cons, joinAll, op_bare, hSame, ih]

/- So rules come to the same value if they are bare the same. -/
theorem joinAll_eq_of_bare
    {rules rules' : List Rule}
    (h : rules.map bare = rules'.map bare)
    (sheet : Store)
    (v : Option Value) :
    joinAll sheet rules v = joinAll sheet rules' v := by
  rw [← joinAll_map_bare, h, joinAll_map_bare]

end Rule

------------------------------------------------------------
-- Classes of Rules
------------------------------------------------------------

/- All operators, in the order of their priorities. -/
def Operator.inOrder : List Operator :=
  [.gate, .set, .add, .multiply, .max, .min]

theorem Operator.mem_inOrder (op : Operator) :
    op ∈ Operator.inOrder := by
  cases op <;> decide

namespace Rulebook

/- The rules of a target and an operator, as declared. -/
def rulesOf
    (book : Rulebook)
    (target : Key)
    (op : Operator) : List Rule :=
  book.rules.filter fun r => r.target = target && r.op = op

variable {book other : Rulebook}
variable {key : Key}
variable {op : Operator}

theorem mem_rulesOf_iff
    {r : Rule} :
    r ∈ book.rulesOf key op ↔
      r ∈ book.rules ∧ r.target = key ∧ r.op = op := by
  simp [rulesOf]

section Ordered

variable (hOrdered : book.rules.Pairwise fun r s => r.seq < s.seq)

include hOrdered

/- The number of a rule determines it. -/
theorem eq_of_seq_eq
    {r s : Rule}
    (hr : r ∈ book.rules)
    (hs : s ∈ book.rules)
    (h : r.seq = s.seq) :
    r = s := by
  by_contra hNe
  have hSymm : Std.Symm fun r s : Rule => r.seq ≠ s.seq :=
    ⟨fun _ _ => Ne.symm⟩
  have hApart : book.rules.Pairwise fun r s => r.seq ≠ s.seq :=
    hOrdered.imp Nat.ne_of_lt
  exact hApart.forall hr hs hNe h

/- One operator after another, the rules are in order. -/
theorem pairwise_flatMap_rulesOf (key : Key) :
    (Operator.inOrder.flatMap (book.rulesOf key)).Pairwise
      fun r s => r.before s = true ∧ r ≠ s := by
  refine List.pairwise_flatMap.mpr ⟨?_, ?_⟩
  · intro op _
    refine (hOrdered.filter _).imp_of_mem ?_
    intro r s hr hs hLt
    have hOp := (mem_rulesOf_iff.mp hr).2.2
    have hOp' := (mem_rulesOf_iff.mp hs).2.2
    refine ⟨?_, ?_⟩
    · simp [Rule.before, hOp, hOp', Nat.le_of_lt hLt]
    · intro hEq
      rw [hEq] at hLt
      exact Nat.lt_irrefl _ hLt
  · have hPriorities :
        Operator.inOrder.Pairwise fun a b =>
          a.priority < b.priority := by
      decide
    refine hPriorities.imp ?_
    intro a b hLt r hr s hs
    have hOp := (mem_rulesOf_iff.mp hr).2.2
    have hOp' := (mem_rulesOf_iff.mp hs).2.2
    refine ⟨?_, ?_⟩
    · simp [Rule.before, hOp, hOp', hLt]
    · intro hEq
      rw [← hOp, ← hOp', hEq] at hLt
      exact Nat.lt_irrefl _ hLt

/-
  The rules of an attribute are applied one operator after
  another, and as declared for each of them.
-/
theorem rulesFor_eq_flatMap (key : Key) :
    book.rulesFor key =
      Operator.inOrder.flatMap (book.rulesOf key) := by
  have hClasses := pairwise_flatMap_rulesOf hOrdered key
  refine List.Perm.eq_of_pairwise ?_
    (List.pairwise_mergeSort ?_ ?_ _)
    (hClasses.imp And.left) ?_
  · intro r s hr hs hBefore hAfter
    have hSeq : r.seq = s.seq := by
      simp only [Rule.before, Bool.or_eq_true, Bool.and_eq_true,
        decide_eq_true_eq] at hBefore hAfter
      omega
    rcases List.mem_flatMap.mp hs with ⟨op, _, hs⟩
    exact eq_of_seq_eq hOrdered (mem_rulesFor_iff.mp hr).1
      (mem_rulesOf_iff.mp hs).1 hSeq
  · intro r s t hFirst hSecond
    simp only [Rule.before, Bool.or_eq_true, Bool.and_eq_true,
      decide_eq_true_eq] at hFirst hSecond ⊢
    omega
  · intro r s
    simp only [Rule.before, Bool.or_eq_true, Bool.and_eq_true,
      decide_eq_true_eq]
    omega
  · have hNodup : book.rules.Nodup := by
      refine hOrdered.imp ?_
      intro r s hLt hEq
      rw [hEq] at hLt
      exact Nat.lt_irrefl _ hLt
    refine (List.mergeSort_perm _ _).trans ?_
    refine (List.perm_ext_iff_of_nodup (hNodup.filter _)
      (hClasses.imp And.right)).mpr ?_
    intro r
    rw [List.mem_filter, List.mem_flatMap]
    constructor
    · intro hBoth
      exact ⟨r.op, r.op.mem_inOrder, mem_rulesOf_iff.mpr
        ⟨hBoth.1, of_decide_eq_true hBoth.2, rfl⟩⟩
    · intro hSome
      rcases hSome with ⟨op, _, hr⟩
      rcases mem_rulesOf_iff.mp hr with ⟨hIn, hTarget, _⟩
      exact ⟨hIn, decide_eq_true hTarget⟩

end Ordered

------------------------------------------------------------
-- The Same Bare Rules
------------------------------------------------------------

section Perm

variable
  (h : (book.rules.map Rule.bare).Perm
    (other.rules.map Rule.bare))

include h

/- Each rule of the one rulebook is bare one of the other. -/
theorem exists_bare_eq
    {r : Rule}
    (hr : r ∈ book.rules) :
    ∃ r' ∈ other.rules, r'.bare = r.bare :=
  List.mem_map.mp (h.mem_iff.mp (List.mem_map_of_mem hr))

/- The targets are the same. -/
theorem targets_eq_of_perm : book.targets = other.targets := by
  have hTargets :
      (book.rules.map (·.target)).Perm
        (other.rules.map (·.target)) := by
    have hMapped := h.map (·.target)
    rwa [List.map_map, List.map_map] at hMapped
  have hSorted (keys : List Key) :
      (keys.mergeSort (· ≤ ·)).Pairwise
        fun a b => decide (a ≤ b) = true := by
    apply List.pairwise_mergeSort
    · intro a b c hFirst hSecond
      simp only [decide_eq_true_eq] at hFirst hSecond ⊢
      exact le_trans hFirst hSecond
    · intro a b
      simpa using le_total a b
  unfold targets
  congr 1
  refine List.Perm.eq_of_pairwise ?_ (hSorted _) (hSorted _) ?_
  · intro a b _ _ hLe hGe
    exact le_antisymm (of_decide_eq_true hLe)
      (of_decide_eq_true hGe)
  · exact ((List.mergeSort_perm _ _).trans hTargets).trans
      (List.mergeSort_perm _ _).symm

theorem isTarget_iff_of_perm :
    book.IsTarget key ↔ other.IsTarget key := by
  rw [← mem_targets_iff, ← mem_targets_iff, targets_eq_of_perm h]

/- So is what depends on what. -/
theorem dependsOn_of_perm
    {a b : Key}
    (hDepends : book.graph.DependsOn a b) :
    other.graph.DependsOn a b := by
  rcases dependsOn_graph_iff.mp hDepends with
    ⟨r, hr, hTarget, hIn⟩
  rcases exists_bare_eq h hr with ⟨r', hr', hBare⟩
  refine dependsOn_graph_iff.mpr ⟨r', hr', ?_, ?_⟩
  · rw [← Rule.target_bare, hBare]
    exact hTarget
  · have hSame (r : Rule) :
        dependencies other.targets r =
          dependencies other.targets r.bare := rfl
    rw [hSame, hBare, ← hSame, ← targets_eq_of_perm h]
    exact hIn

theorem dependsOn_eq_of_perm :
    book.graph.DependsOn = other.graph.DependsOn := by
  funext a b
  exact propext
    ⟨dependsOn_of_perm h, dependsOn_of_perm h.symm⟩

/- So is what is pending, and with it the dictionaries. -/
theorem isPending_iff_of_perm
    {pending : Key} :
    book.IsPending key pending ↔
      other.IsPending key pending := by
  unfold IsPending Graph.SameComponent Graph.Reaches
  rw [isTarget_iff_of_perm h, dependsOn_eq_of_perm h]

theorem isDictionary_iff_of_perm
    {input snapshot dict : Store} :
    book.IsDictionary input snapshot key dict ↔
      other.IsDictionary input snapshot key dict := by
  constructor
  · intro hDict
    exact ⟨fun k hk => hDict.pending k
        ((isPending_iff_of_perm h).mpr hk),
      fun k hk => hDict.settled k
        fun hOld => hk ((isPending_iff_of_perm h).mp hOld)⟩
  · intro hDict
    exact ⟨fun k hk => hDict.pending k
        ((isPending_iff_of_perm h).mp hk),
      fun k hk => hDict.settled k
        fun hOld => hk ((isPending_iff_of_perm h).mpr hOld)⟩

/-
  Two rulebooks of the same bare rules come to the same sheet
  if the rules of each target come to the same value there.
-/
theorem sheet_eq_of_perm
    (input : Store)
    (hJoin : ∀ key dict, other.IsTarget key →
      other.IsDictionary input (other.sheet input) key dict →
        Rule.joinAll dict (book.rulesFor key) input[key]? =
          Rule.joinAll dict (other.rulesFor key) input[key]?) :
    book.sheet input = other.sheet input := by
  have hOwn := isSnapshot_sheet book input
  have hOther := isSnapshot_sheet other input
  refine hOwn.eq ⟨?_, ?_⟩
  · intro key hNot
    exact hOther.given key fun hTarget =>
      hNot ((isTarget_iff_of_perm h).mpr hTarget)
  · intro key hTarget
    have hThere := (isTarget_iff_of_perm h).mp hTarget
    rcases hOther.computed key hThere with ⟨dict, hDict, hValue⟩
    refine ⟨dict, (isDictionary_iff_of_perm h).mpr hDict, ?_⟩
    rw [hJoin key dict hThere hDict]
    exact hValue

end Perm

------------------------------------------------------------
-- Rearrangements
------------------------------------------------------------

/-
  The rulebooks have the same rules, apart from owners and
  numbers, and those of one target and one operator in the
  same order.
-/
structure IsRearrangement (book other : Rulebook) : Prop where
  perm :
    (book.rules.map Rule.bare).Perm (other.rules.map Rule.bare)
  kept : ∀ target op,
    (book.rulesOf target op).map Rule.bare =
      (other.rulesOf target op).map Rule.bare

/- The rules of an attribute are bare the same. -/
theorem IsRearrangement.map_bare_rulesFor
    (h : book.IsRearrangement other)
    (hBook : book.rules.Pairwise fun r s => r.seq < s.seq)
    (hOther : other.rules.Pairwise fun r s => r.seq < s.seq)
    (key : Key) :
    (book.rulesFor key).map Rule.bare =
      (other.rulesFor key).map Rule.bare := by
  rw [rulesFor_eq_flatMap hBook, rulesFor_eq_flatMap hOther,
    List.map_flatMap, List.map_flatMap]
  congr 1
  funext op
  exact h.kept key op

end Rulebook

namespace Command

open Rulebook

/-
  The order of rules matters only among those of one target
  and one operator: whatever commands lead to two rulebooks
  that differ in nothing else, their sheets are the same.
-/
theorem sheet_eq_of_isRearrangement
    (settings settings' : Settings)
    (commands commands' : List Command)
    (h :
      (runAll none (Rulebook.empty settings)
        commands).IsRearrangement
          (runAll none (Rulebook.empty settings') commands'))
    (input : Store) :
    (runAll none (Rulebook.empty settings) commands).sheet
        input =
      (runAll none (Rulebook.empty settings') commands').sheet
        input := by
  have hBook :=
    isConsistent_runAll_of (isConsistent_empty settings) none
      commands
  have hOther :=
    isConsistent_runAll_of (isConsistent_empty settings') none
      commands'
  apply sheet_eq_of_perm h.perm
  intro key dict _ _
  exact Rule.joinAll_eq_of_bare
    (h.map_bare_rulesFor hBook.ordered hOther.ordered key) _ _

/-
  Two attributes that depend on each other do not tell in
  which order their rules are declared.
-/
theorem sheet_eq_of_isRearrangement_cycle :
    let commands : List Command :=
      [.declare (.rule "a" "b" .add none),
        .declare (.rule "b" "a" .add none),
        .declare (.rule "a" "c" .set none)]
    let book := runAll none (Rulebook.empty .standard) commands
    let other :=
      runAll none (Rulebook.empty .standard) commands.reverse
    book.IsRearrangement other ∧
      ∀ input, book.sheet input = other.sheet input := by
  intro commands book other
  have h : book.IsRearrangement other :=
    { perm := (List.reverse_perm (book.rules.map Rule.bare)).symm
      kept := by
        intro target op
        by_cases hA : "a" = target
        · subst hA
          cases op <;> rfl
        · by_cases hB : "b" = target
          · subst hB
            cases op <;> rfl
          · simp [rulesOf, book, other, commands, runAll, run,
              Rulebook.declare, addRule, Rulebook.empty, hA,
              hB] }
  exact ⟨h, sheet_eq_of_isRearrangement .standard .standard
    commands commands.reverse h⟩

end Command

end CharSheet
