import CharSheet.Proofs.Rulebook.Undo
import CharSheet.Proofs.Sheet.Rearrangement

/-
  Rulebooks that differ in the numbers of their rules.

  A declaration asks for the rules that there are, never for
  their numbers.  Where nothing but the next number differs,
  the same declarations add the same, and all numbers of it
  are moved by the same.  No sheet tells the difference.

  Main declarations:
    * `shift`
    * `Rulebook.renumber`
    * `Rulebook.sheet_renumber`
    * `Rulebook.IsShifted`
    * `Rulebook.IsShifted.declareAll`
-/

namespace CharSheet

------------------------------------------------------------
-- Other Numbers
------------------------------------------------------------

/- Move numbers from a first one on, and leave the others. -/
def shift (first gap seq : Nat) : Nat :=
  if seq < first then seq else seq + gap

theorem shift_of_lt
    {first seq : Nat}
    (h : seq < first)
    (gap : Nat) :
    shift first gap seq = seq :=
  if_pos h

theorem shift_of_le
    {first seq : Nat}
    (h : first ≤ seq)
    (gap : Nat) :
    shift first gap seq = seq + gap :=
  if_neg (Nat.not_lt.mpr h)

/- Numbers stay in their order. -/
theorem strictMono_shift (first gap : Nat) :
    StrictMono (shift first gap) := by
  intro a b hLt
  unfold shift
  split
  · split
    · exact hLt
    · omega
  · split
    · omega
    · omega

/- Give a rule another number. -/
def Rule.renumber (f : Nat → Nat) (r : Rule) : Rule :=
  { r with seq := f r.seq }

/- Give a shared rule another number. -/
def SharedRule.renumber
    (f : Nat → Nat)
    (s : SharedRule) : SharedRule :=
  { s with seq := f s.seq }

theorem SharedRule.addOwner_renumber
    (f : Nat → Nat)
    (s : SharedRule)
    (owner : Owner) :
    (s.renumber f).addOwner owner =
      (s.addOwner owner).renumber f := by
  unfold addOwner renumber
  dsimp only
  split
  · rfl
  · rfl

/- Give the rules of an allocation other numbers. -/
def Allocation.renumber
    (f : Nat → Nat)
    (a : Allocation) : Allocation :=
  { a with
    budgetRule := f a.budgetRule
    members := a.members.map fun (key, seq) => (key, f seq) }

/- Numbers that are not moved leave an allocation as it is. -/
theorem Allocation.renumber_eq_self
    {f : Nat → Nat}
    {a : Allocation}
    (hBudget : f a.budgetRule = a.budgetRule)
    (hMembers : ∀ seq ∈ a.numbers, f seq = seq) :
    a.renumber f = a := by
  have hSame :
      a.members.map (fun (key, seq) => (key, f seq)) =
        a.members := by
    refine (List.map_congr_left ?_).trans (List.map_id _)
    rintro ⟨key, seq⟩ hIn
    have hNumber := mem_numbers_iff.mpr ⟨key, hIn⟩
    exact Prod.ext rfl (hMembers seq hNumber)
  rw [renumber, hBudget, hSame]

namespace Rulebook

/- Give all rules of a rulebook other numbers. -/
def renumber (f : Nat → Nat) (book : Rulebook) : Rulebook :=
  { book with
    rules := book.rules.map (Rule.renumber f)
    nextSeq := f book.nextSeq
    shared := book.shared.map (SharedRule.renumber f)
    allocations :=
      book.allocations.map fun _ a => a.renumber f }

variable {book other : Rulebook}
variable {first gap : Nat}

/- Numbers that keep their order do not change a sheet. -/
theorem sheet_renumber
    (h : book.rules.Pairwise fun r s => r.seq < s.seq)
    {f : Nat → Nat}
    (hMono : StrictMono f)
    (input : Store) :
    (book.renumber f).sheet input = book.sheet input := by
  have hOrdered :
      (book.renumber f).rules.Pairwise fun r s =>
        r.seq < s.seq :=
    List.pairwise_map.mpr (h.imp fun hLt => hMono hLt)
  have hBare : Rule.bare ∘ Rule.renumber f = Rule.bare := rfl
  have hSame : (book.renumber f).IsRearrangement book :=
    { perm := by
        rw [renumber, List.map_map, hBare]
      kept := by
        intro target op
        rw [rulesOf, renumber, List.filter_map, List.map_map,
          hBare]
        rfl }
  apply sheet_eq_of_perm hSame.perm
  intro key dict _ _
  exact Rule.joinAll_eq_of_bare
    (hSame.map_bare_rulesFor hOrdered h key) _ _

------------------------------------------------------------
-- Declarations With Other Numbers
------------------------------------------------------------

/-
  The second rulebook has the rules of the first one, with
  those numbers moved that are not less than a first one.
-/
structure IsShifted
    (first gap : Nat)
    (book other : Rulebook) : Prop where
  settings : other.settings = book.settings
  rules :
    other.rules = book.rules.map (Rule.renumber (shift first gap))
  first_le : first ≤ book.nextSeq
  nextSeq : other.nextSeq = book.nextSeq + gap
  shared :
    other.shared =
      book.shared.map (SharedRule.renumber (shift first gap))
  allocations :
    other.allocations =
      book.allocations.map fun _ a =>
        a.renumber (shift first gap)

/-
  A rulebook is shifted to one that has the same rules and
  goes on with a greater number.
-/
theorem IsConsistent.isShifted
    (h : book.IsConsistent)
    (hAgrees : other.Agrees book)
    (hSettings : other.settings = book.settings)
    (hNext : other.nextSeq = book.nextSeq + gap) :
    IsShifted book.nextSeq gap book other where
  settings := hSettings
  rules := by
    rw [hAgrees.rules]
    refine ((List.map_congr_left ?_).trans (List.map_id _)).symm
    intro r hr
    simp [Rule.renumber, shift_of_lt (h.numbered r hr)]
  first_le := Nat.le_refl _
  nextSeq := hNext
  shared := by
    rw [hAgrees.shared]
    refine ((List.map_congr_left ?_).trans (List.map_id _)).symm
    intro s hs
    simp [SharedRule.renumber,
      shift_of_lt (h.seq_lt ⟨s, hs, rfl, rfl⟩)]
  allocations := by
    rw [hAgrees.allocations]
    refine Std.ExtTreeMap.ext_getElem? fun note => ?_
    rw [Std.ExtTreeMap.getElem?_map]
    cases ha : book.allocations[note]? with
    | none => rfl
    | some a =>
        have hBudget := shift_of_lt (h.budgetRule_lt ha) gap
        have hMembers : ∀ seq ∈ a.numbers,
            shift book.nextSeq gap seq = seq := fun seq hNumber =>
          shift_of_lt (h.number_lt ha hNumber) gap
        exact congrArg some
          (Allocation.renumber_eq_self hBudget hMembers).symm

/- Both rulebooks have shared a rule anew, or both have not. -/
inductive AreShared (first gap : Nat) :
    Rulebook × Option Nat → Rulebook × Option Nat → Prop where
  | gained
      {book other : Rulebook}
      (h : IsShifted first gap book other) :
      AreShared first gap (book, none) (other, none)
  | added
      {book other : Rulebook}
      (seq : Nat)
      (h : IsShifted first gap book other) :
      AreShared first gap (book, some seq)
        (other, some (shift first gap seq))

theorem AreShared.fst
    {shared shared' : Rulebook × Option Nat}
    (h : AreShared first gap shared shared') :
    IsShifted first gap shared.1 shared'.1 := by
  cases h with
  | gained h => exact h
  | added seq h => exact h

section Shifted

variable (h : IsShifted first gap book other)

include h

/- With what comes next, all is as if it were renumbered. -/
theorem IsShifted.eq_renumber
    (hPools : other.pools = book.pools)
    (hNotes : other.notes = book.notes)
    (hRequirements : other.requirements = book.requirements)
    (hChoices : other.choices = book.choices) :
    other = book.renumber (shift first gap) := by
  have hNext := h.nextSeq
  rw [← shift_of_le h.first_le] at hNext
  cases other
  simp only [renumber, Rulebook.mk.injEq]
  exact ⟨h.settings, h.rules, hNext, h.shared, h.allocations,
    hPools, hNotes, hRequirements, hChoices⟩

/- Which choices are registered does not matter. -/
theorem IsShifted.with_choices
    (cs cs' : List Choice) :
    IsShifted first gap { book with choices := cs }
      { other with choices := cs' } :=
  ⟨h.settings, h.rules, h.first_le, h.nextSeq, h.shared,
    h.allocations⟩

/- The same attributes have rules. -/
theorem IsShifted.isDerived_eq (key : Key) :
    other.isDerived key = book.isDerived key := by
  unfold isDerived
  rw [h.rules, List.any_map]
  rfl

/- The same notes have allocations, and the same budgets. -/
theorem IsShifted.getElem?_allocations (note : Key) :
    other.allocations[note]? =
      book.allocations[note]?.map
        (Allocation.renumber (shift first gap)) := by
  rw [h.allocations, Std.ExtTreeMap.getElem?_map]

/- Allocations may be replaced in both. -/
theorem IsShifted.with_allocations
    {m m' : Std.ExtTreeMap Key Allocation}
    (hSame : ∀ note : Key,
      m'[note]? =
        m[note]?.map (Allocation.renumber (shift first gap))) :
    IsShifted first gap { book with allocations := m }
      { other with allocations := m' } where
  settings := h.settings
  rules := h.rules
  first_le := h.first_le
  nextSeq := h.nextSeq
  shared := h.shared
  allocations := by
    refine Std.ExtTreeMap.ext_getElem? fun note => ?_
    rw [hSame, Std.ExtTreeMap.getElem?_map]

/- A rule is added to both. -/
theorem IsShifted.addRule
    (owner : Owner)
    (target source : Key)
    (op : Operator)
    (formula : Option Formula) :
    IsShifted first gap
      (book.addRule owner target source op formula)
      (other.addRule owner target source op formula) where
  settings := h.settings
  rules := by
    simp only [Rulebook.addRule, h.rules, h.nextSeq,
      List.map_append, List.map_cons, List.map_nil,
      Rule.renumber, shift_of_le h.first_le]
  first_le := Nat.le_succ_of_le h.first_le
  nextSeq := by
    simp only [Rulebook.addRule, h.nextSeq]
    omega
  shared := h.shared
  allocations := h.allocations

/- A rule is shared in both, anew or not. -/
theorem IsShifted.share
    (owner : Owner)
    (target source : Key)
    (op : Operator)
    (formula : Option Formula) :
    AreShared first gap
      (book.share owner target source op formula)
      (other.share owner target source op formula) := by
  have hSame :
      other.shared.any
          (fun s => s.isMadeOf target source op
            (formula.map (·.text))) =
        book.shared.any fun s => s.isMadeOf target source op
          (formula.map (·.text)) := by
    rw [h.shared, List.any_map]
    rfl
  unfold Rulebook.share
  dsimp only
  rw [hSame]
  split
  · refine .gained ⟨h.settings, h.rules, h.first_le, h.nextSeq,
      ?_, h.allocations⟩
    rw [h.shared, List.map_map, List.map_map]
    apply List.map_congr_left
    intro s _
    have hMade :
        (s.renumber (shift first gap)).isMadeOf target source op
            (formula.map (·.text)) =
          s.isMadeOf target source op (formula.map (·.text)) :=
      rfl
    simp only [Function.comp_apply, hMade]
    split
    · exact SharedRule.addOwner_renumber ..
    · rfl
  · have hAdded := h.addRule none target source op formula
    rw [h.nextSeq, ← shift_of_le h.first_le]
    refine .added _ ⟨hAdded.settings, hAdded.rules,
      hAdded.first_le, hAdded.nextSeq, ?_, hAdded.allocations⟩
    rw [List.map_append, hAdded.shared]
    rfl

/- An allocation is declared in both. -/
theorem IsShifted.declareAllocation
    (owner : Owner)
    (note budget : Key) :
    IsShifted first gap
      (book.declareAllocation owner note budget)
      (other.declareAllocation owner note budget) := by
  have hSame :
      other.allocations[note]?.any (·.budget ≠ budget) =
        book.allocations[note]?.any (·.budget ≠ budget) := by
    rw [h.getElem?_allocations]
    cases book.allocations[note]? with
    | none => rfl
    | some a => rfl
  have hShare := h.share owner note budget .add (some .negated)
  unfold Rulebook.declareAllocation
  rw [hSame]
  split
  · exact h
  · revert hShare
    generalize book.share owner note budget .add
      (some .negated) = shared
    generalize other.share owner note budget .add
      (some .negated) = shared'
    intro hShare
    cases hShare with
    | gained hBoth => exact hBoth
    | added seq hBoth =>
        apply hBoth.with_allocations
        intro n
        rw [Key.getElem?_insert, Key.getElem?_insert]
        split
        · rfl
        · exact hBoth.getElem?_allocations n

/- A member is declared in both. -/
theorem IsShifted.declareMember
    (owner : Owner)
    (note key : Key) :
    IsShifted first gap (book.declareMember owner note key)
      (other.declareMember owner note key) := by
  have hShare := h.share owner note key .add none
  unfold Rulebook.declareMember
  rw [h.allocations, Std.ExtTreeMap.contains_map]
  split
  · revert hShare
    generalize book.share owner note key .add none = shared
    generalize other.share owner note key .add none = shared'
    intro hShare
    cases hShare with
    | gained hBoth => exact hBoth
    | added seq hBoth =>
        apply hBoth.with_allocations
        intro n
        rw [Std.ExtTreeMap.getElem?_modify,
          Std.ExtTreeMap.getElem?_modify,
          hBoth.getElem?_allocations, hBoth.getElem?_allocations]
        split
        · rw [Option.map_map, Option.map_map]
          congr 1
          funext a
          simp [Allocation.renumber]
        · rfl
  · exact h

/- An option is declared in both. -/
theorem IsShifted.declareOption
    (owner : Owner)
    (kind : PoolKind)
    (name : String) :
    IsShifted first gap (book.declareOption owner kind name)
      (other.declareOption owner kind name) := by
  have hCounted := h.declareMember owner kind.allocation
    (.under kind.chosenScope name)
  unfold Rulebook.declareOption
  dsimp only
  rw [h.allocations, Std.ExtTreeMap.contains_map]
  split
  · cases kind with
    | abilityBoost => exact hCounted
    | _ => exact (hCounted.share _ _ _ _ _).fst
  · exact h

/- An adjustment is declared in both, of one attribute. -/
theorem IsShifted.declareAdjustment
    (owner : Owner)
    (gate : Key)
    (op : Adjustment)
    (amount : Amount)
    (words : List String) :
    IsShifted first gap
      (book.declareAdjustment owner gate op amount words)
      (other.declareAdjustment owner gate op amount words) := by
  have hSame : other.adjusted? words = book.adjusted? words := by
    unfold adjusted?
    simp only [h.settings, h.isDerived_eq]
  unfold Rulebook.declareAdjustment
  rw [hSame]
  split
  · exact h
  · exact h.addRule ..

/- Any declaration is taken into both. -/
theorem IsShifted.declare
    (owner : Owner)
    (d : Declaration) :
    IsShifted first gap (book.declare owner d)
      (other.declare owner d) := by
  cases d with
  | rule target source op formula =>
      exact h.addRule owner target source op formula
  | allocation note budget =>
      exact h.declareAllocation owner note budget
  | member note key => exact h.declareMember owner note key
  | option kind name => exact h.declareOption owner kind name
  | adjustment gate op amount words =>
      exact h.declareAdjustment owner gate op amount words
  | _ =>
      exact ⟨h.settings, h.rules, h.first_le, h.nextSeq,
        h.shared, h.allocations⟩

/- So are declarations one after another. -/
theorem IsShifted.declareAll
    (owner : Owner)
    (ds : List Declaration) :
    IsShifted first gap (book.declareAll owner ds)
      (other.declareAll owner ds) := by
  induction ds generalizing book other with
  | nil => exact h
  | cons d ds ih => exact ih (h.declare owner d)

end Shifted

------------------------------------------------------------
-- Settings and Numbers
------------------------------------------------------------

/- Steps keep the settings, and numbers only grow. -/
theorem settings_nextSeq_of_step
    {owner : Owner}
    (hStep : Step owner book other) :
    other.settings = book.settings ∧
      book.nextSeq ≤ other.nextSeq := by
  cases hStep with
  | rule => exact ⟨rfl, Nat.le_succ _⟩
  | grant => exact ⟨rfl, Nat.le_succ _⟩
  | allocation => exact ⟨rfl, Nat.le_succ _⟩
  | member => exact ⟨rfl, Nat.le_succ _⟩
  | _ => exact ⟨rfl, Nat.le_refl _⟩

theorem settings_nextSeq_of_steps
    {owner : Owner}
    (hSteps : Steps owner book other) :
    other.settings = book.settings ∧
      book.nextSeq ≤ other.nextSeq := by
  induction hSteps with
  | refl => exact ⟨rfl, Nat.le_refl _⟩
  | tail _ hStep ih =>
      have hLast := settings_nextSeq_of_step hStep
      exact ⟨hLast.1.trans ih.1, ih.2.trans hLast.2⟩

/- So do declarations. -/
theorem IsConsistent.settings_nextSeq_declareAll
    (h : book.IsConsistent)
    (owner : Owner)
    (ds : List Declaration) :
    (book.declareAll owner ds).settings = book.settings ∧
      book.nextSeq ≤ (book.declareAll owner ds).nextSeq := by
  induction ds generalizing book with
  | nil => exact ⟨rfl, Nat.le_refl _⟩
  | cons d ds ih =>
      have hFirst :=
        settings_nextSeq_of_steps (steps_declare h owner d)
      have hRest := ih (h.declare owner d)
      exact ⟨hRest.1.trans hFirst.1, hFirst.2.trans hRest.2⟩

end Rulebook

end CharSheet
