import CharSheet.Rulebook.Basic
import Mathlib.Data.List.Nodup
import Mathlib.Data.List.Pairwise

/-
  Consistency of rulebooks.

  Rules, shared rules, their owners, and allocations are kept
  apart, and refer to each other by the numbers of rules.  A
  rulebook is consistent if they fit together.

  Main declarations:
    * `RuleParts`
    * `Rulebook.Shares`, `Rulebook.Owns`
    * `Rulebook.IsNumbered`
    * `Rulebook.IsAllocation`
    * `Rulebook.IsBudgeted`
    * `Rulebook.IsConsistent`
-/

namespace CharSheet

/- What is found under an attribute after an insertion. -/
theorem Key.getElem?_insert
    {β : Type}
    (m : Std.ExtTreeMap Key β)
    (key other : Key)
    (v : β) :
    (m.insert key v)[other]? =
      if other = key then some v else m[other]? := by
  rw [Std.ExtTreeMap.getElem?_insert]
  by_cases hKey : other = key
  · subst hKey
    rw [if_pos Std.ReflCmp.compare_self, if_pos rfl]
  · rw [if_neg hKey, if_neg]
    intro hEq
    exact hKey (Std.LawfulEqCmp.eq_of_compare hEq).symm

------------------------------------------------------------
-- Parts
------------------------------------------------------------

/-
  What a rule is made of, apart from its number and its
  owner.  The text stands for the formula.
-/
structure RuleParts where
  target : Key
  source : Key
  op : Operator
  formula : Option String
deriving DecidableEq

/- The parts of a rule. -/
def Rule.parts (r : Rule) : RuleParts :=
  ⟨r.target, r.source, r.op, r.formula.map (·.text)⟩

/- The parts of a shared rule. -/
def SharedRule.parts (s : SharedRule) : RuleParts :=
  ⟨s.target, s.source, s.op, s.formula⟩

/- The rule that takes a budget from a note. -/
def RuleParts.ofBudget (note budget : Key) : RuleParts :=
  ⟨note, budget, .add, some "-source"⟩

/- The rule that counts a member in a note. -/
def RuleParts.ofMember (note key : Key) : RuleParts :=
  ⟨note, key, .add, none⟩

/- Shared rules are compared by their parts. -/
theorem SharedRule.isMadeOf_iff
    {s : SharedRule}
    {target source : Key}
    {op : Operator}
    {formula : Option String} :
    s.isMadeOf target source op formula = true ↔
      s.parts = ⟨target, source, op, formula⟩ := by
  simp [isMadeOf, parts, and_assoc]

/- An owner is added to those that are there. -/
theorem SharedRule.mem_owners_addOwner
    {s : SharedRule}
    {owner other : Owner} :
    other ∈ (s.addOwner owner).owners ↔
      other ∈ s.owners ∨ other = owner := by
  unfold addOwner
  by_cases hOwner : owner ∈ s.owners
  · have hThere := List.contains_iff_mem.mpr hOwner
    rw [if_pos hThere]
    constructor
    · exact Or.inl
    · intro hOr
      rcases hOr with h | rfl
      · exact h
      · exact hOwner
  · have hNot : ¬ s.owners.contains owner = true := by
      simpa using hOwner
    rw [if_neg hNot]
    simp

/- Adding an owner changes neither parts nor number. -/
@[simp] theorem SharedRule.parts_addOwner
    (s : SharedRule)
    (owner : Owner) :
    (s.addOwner owner).parts = s.parts := by
  unfold addOwner
  split
  · rfl
  · rfl

@[simp] theorem SharedRule.seq_addOwner
    (s : SharedRule)
    (owner : Owner) :
    (s.addOwner owner).seq = s.seq := by
  unfold addOwner
  split
  · rfl
  · rfl

/- No owner is added twice. -/
theorem SharedRule.nodup_owners_addOwner
    {s : SharedRule}
    (h : s.owners.Nodup)
    (owner : Owner) :
    (s.addOwner owner).owners.Nodup := by
  unfold addOwner
  by_cases hOwner : owner ∈ s.owners
  · have hThere := List.contains_iff_mem.mpr hOwner
    rw [if_pos hThere]
    exact h
  · have hNot : ¬ s.owners.contains owner = true := by
      simpa using hOwner
    rw [if_neg hNot]
    refine List.nodup_append.mpr ⟨h, List.nodup_singleton _, ?_⟩
    intro other hOther last hLast hEq
    rw [List.mem_singleton] at hLast
    rw [hEq, hLast] at hOther
    exact hOwner hOther

namespace Rulebook

------------------------------------------------------------
-- Consistency
------------------------------------------------------------

/- Some shared rule has the given parts and number. -/
def Shares
    (book : Rulebook)
    (parts : RuleParts)
    (seq : Nat) : Prop :=
  ∃ s ∈ book.shared, s.parts = parts ∧ s.seq = seq

/- The shared rule of the given parts belongs to the owner. -/
def Owns
    (book : Rulebook)
    (owner : Owner)
    (parts : RuleParts) : Prop :=
  ∃ s ∈ book.shared, s.parts = parts ∧ owner ∈ s.owners

/-
  Rules are in the order of their numbers.  Shared rules
  differ in their parts, have owners, and stand for exactly
  one rule each, which has no owner itself.
-/
structure IsNumbered (book : Rulebook) : Prop where
  ordered : book.rules.Pairwise fun r s => r.seq < s.seq
  numbered : ∀ r ∈ book.rules, r.seq < book.nextSeq
  distinct : book.shared.Pairwise fun s t => s.parts ≠ t.parts
  owned : ∀ s ∈ book.shared, s.owners ≠ [] ∧ s.owners.Nodup
  standing : ∀ s ∈ book.shared, ∃ r : Rule,
    book.rules.filter (·.seq = s.seq) = [r] ∧
      r.parts = s.parts ∧ r.owner = none

/-
  The allocation is that of the note: its budget rule is
  shared, and its members are the attributes whose rules are
  shared, each one once.
-/
structure IsAllocation
    (book : Rulebook)
    (note : Key)
    (a : Allocation) : Prop where
  note_eq : a.note = note
  budget : book.Shares (.ofBudget note a.budget) a.budgetRule
  members : ∀ key seq,
    (key, seq) ∈ a.members ↔
      book.Shares (.ofMember note key) seq
  nodup : a.keys.Nodup

/-
  Allocations are kept under their own notes, and the shared
  rules of budgets and of members come with an allocation.
-/
structure IsBudgeted (book : Rulebook) : Prop where
  allocation : ∀ note a,
    book.allocations[note]? = some a → book.IsAllocation note a
  budget : ∀ note budget seq,
    book.Shares (.ofBudget note budget) seq →
      ∃ a, book.allocations[note]? = some a ∧
        a.budget = budget ∧ a.budgetRule = seq
  member : ∀ note key seq,
    book.Shares (.ofMember note key) seq →
      ∃ a, book.allocations[note]? = some a

/- All that a rulebook keeps fits together. -/
structure IsConsistent (book : Rulebook) : Prop extends
  book.IsNumbered, book.IsBudgeted

/- Nothing can be wrong where nothing is declared. -/
theorem isConsistent_empty (settings : Settings) :
    (empty settings).IsConsistent where
  ordered := List.Pairwise.nil
  numbered := by simp [empty]
  distinct := List.Pairwise.nil
  owned := by simp [empty]
  standing := by simp [empty]
  allocation := by simp [empty]
  budget := by simp [empty, Shares]
  member := by simp [empty, Shares]

variable {book other : Rulebook}
variable {parts parts' : RuleParts}
variable {seq seq' : Nat}

/- Only rules and allocations matter for consistency. -/
theorem IsConsistent.of_eq
    (h : book.IsConsistent)
    (hRules : other.rules = book.rules)
    (hNext : other.nextSeq = book.nextSeq)
    (hShared : other.shared = book.shared)
    (hAllocations : other.allocations = book.allocations) :
    other.IsConsistent := by
  cases book
  cases other
  cases hRules
  cases hNext
  cases hShared
  cases hAllocations
  exact
    { ordered := h.ordered
      numbered := h.numbered
      distinct := h.distinct
      owned := h.owned
      standing := h.standing
      allocation := by
        intro note a hThere
        have hOld := h.allocation note a hThere
        exact ⟨hOld.note_eq, hOld.budget, hOld.members,
          hOld.nodup⟩
      budget := h.budget
      member := h.member }

/- A shared rule is owned by someone. -/
theorem IsNumbered.exists_owns
    (h : book.IsNumbered)
    (hShares : book.Shares parts seq) :
    ∃ owner, book.Owns owner parts := by
  rcases hShares with ⟨s, hIn, hParts, _⟩
  have hSome := (h.owned s hIn).1
  rcases List.exists_mem_of_ne_nil _ hSome with ⟨owner, hOwner⟩
  exact ⟨owner, s, hIn, hParts, hOwner⟩

/- What is owned is shared. -/
theorem Owns.exists_shares
    {owner : Owner}
    (h : book.Owns owner parts) :
    ∃ seq, book.Shares parts seq := by
  rcases h with ⟨s, hIn, hParts, _⟩
  exact ⟨s.seq, s, hIn, hParts, rfl⟩

/- The rule of a shared rule is declared. -/
theorem IsNumbered.exists_rule
    (h : book.IsNumbered)
    (hShares : book.Shares parts seq) :
    ∃ r : Rule,
      book.rules.filter (·.seq = seq) = [r] ∧
        r ∈ book.rules ∧ r.seq = seq ∧ r.parts = parts ∧
          r.owner = none := by
  rcases hShares with ⟨s, hIn, rfl, rfl⟩
  rcases h.standing s hIn with ⟨r, hOnly, hParts, hOwner⟩
  have hFilter : r ∈ book.rules.filter (·.seq = s.seq) := by
    rw [hOnly]
    exact List.mem_singleton_self r
  rcases List.mem_filter.mp hFilter with ⟨hRule, hSeq⟩
  exact ⟨r, hOnly, hRule, of_decide_eq_true hSeq, hParts, hOwner⟩

/- Numbers of shared rules have been given already. -/
theorem IsNumbered.seq_lt
    (h : book.IsNumbered)
    (hShares : book.Shares parts seq) :
    seq < book.nextSeq := by
  rcases h.exists_rule hShares with ⟨r, _, hRule, rfl, _⟩
  exact h.numbered r hRule

/- The number of a shared rule determines its parts. -/
theorem IsNumbered.parts_eq
    (h : book.IsNumbered)
    (hShares : book.Shares parts seq)
    (hOther : book.Shares parts' seq) :
    parts = parts' := by
  rcases h.exists_rule hShares with ⟨r, hOnly, _, _, rfl, _⟩
  rcases h.exists_rule hOther with ⟨r', hOnly', _, _, rfl, _⟩
  rw [hOnly, List.cons.injEq] at hOnly'
  rw [hOnly'.1]

/- The parts of a shared rule determine it. -/
theorem IsNumbered.shared_eq
    (h : book.IsNumbered)
    {s t : SharedRule}
    (hs : s ∈ book.shared)
    (ht : t ∈ book.shared)
    (hParts : s.parts = t.parts) :
    s = t := by
  by_contra hNe
  have hSymm : Std.Symm fun s t : SharedRule =>
      s.parts ≠ t.parts :=
    ⟨fun _ _ => Ne.symm⟩
  exact h.distinct.forall hs ht hNe hParts

/- The parts of a shared rule determine its number. -/
theorem IsNumbered.seq_eq
    (h : book.IsNumbered)
    (hShares : book.Shares parts seq)
    (hOther : book.Shares parts seq') :
    seq = seq' := by
  rcases hShares with ⟨s, hs, hParts, rfl⟩
  rcases hOther with ⟨t, ht, hParts', rfl⟩
  have hSame := hParts.trans hParts'.symm
  rw [h.shared_eq hs ht hSame]

end Rulebook

end CharSheet
