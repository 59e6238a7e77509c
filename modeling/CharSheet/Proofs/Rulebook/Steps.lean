import CharSheet.Proofs.Rulebook.Consistency
import Mathlib.Logic.Relation

/-
  The steps by which declarations change a rulebook.

  Each declaration is taken in by a few elementary steps.
  What each of them keeps is kept by all declarations.

  Main declarations:
    * `Rulebook.gainOwner`, `Rulebook.addShared`
    * `Rulebook.addAllocation`, `Rulebook.addMember`
    * `Rulebook.Step`
    * `Rulebook.steps_declare`
    * `Rulebook.IsConsistent.step`
    * `Rulebook.IsConsistent.declare`
-/

namespace CharSheet

namespace Rulebook

------------------------------------------------------------
-- Elementary Changes
------------------------------------------------------------

/- Add an owner of the shared rule of the given parts. -/
def gainOwner
    (book : Rulebook)
    (owner : Owner)
    (parts : RuleParts) : Rulebook :=
  { book with
    shared := book.shared.map fun s =>
      if s.parts = parts then s.addOwner owner else s }

/- Add a shared rule with its first owner. -/
def addShared
    (book : Rulebook)
    (owner : Owner)
    (target source : Key)
    (op : Operator)
    (formula : Option Formula) : Rulebook :=
  { book.addRule none target source op formula with
    shared := book.shared ++
      [⟨target, source, op, formula.map (·.text),
        book.nextSeq, [owner]⟩] }

/- Add an allocation with its budget rule. -/
def addAllocation
    (book : Rulebook)
    (owner : Owner)
    (note budget : Key) : Rulebook :=
  { book.addShared owner note budget .add (some .negated) with
    allocations := book.allocations.insert note
      ⟨note, budget, book.nextSeq, []⟩ }

/- Add a member of an allocation with its rule. -/
def addMember
    (book : Rulebook)
    (owner : Owner)
    (note key : Key) : Rulebook :=
  { book.addShared owner note key .add none with
    allocations := book.allocations.modify note fun a =>
      { a with members := a.members ++ [(key, book.nextSeq)] } }

variable {book other : Rulebook}
variable {owner : Owner}
variable {parts : RuleParts}
variable {target source note budget key : Key}
variable {op : Operator}
variable {formula : Option Formula}

/- A shared rule that is there already gains an owner. -/
theorem share_of_shares
    {seq : Nat}
    (h : book.Shares
      ⟨target, source, op, formula.map (·.text)⟩ seq) :
    book.share owner target source op formula =
      (book.gainOwner owner
        ⟨target, source, op, formula.map (·.text)⟩, none) := by
  rcases h with ⟨s, hIn, hParts, _⟩
  unfold share
  rw [if_pos]
  · simp only [gainOwner, SharedRule.isMadeOf_iff]
  · exact List.any_eq_true.mpr
      ⟨s, hIn, SharedRule.isMadeOf_iff.mpr hParts⟩

/- A shared rule that is not there yet is added. -/
theorem share_of_fresh
    (h : ∀ seq, ¬ book.Shares
      ⟨target, source, op, formula.map (·.text)⟩ seq) :
    book.share owner target source op formula =
      (book.addShared owner target source op formula,
        some book.nextSeq) := by
  unfold share
  rw [if_neg]
  · rfl
  · intro hAny
    rcases List.any_eq_true.mp hAny with ⟨s, hIn, hMade⟩
    exact h s.seq
      ⟨s, hIn, SharedRule.isMadeOf_iff.mp hMade, rfl⟩

------------------------------------------------------------
-- Steps
------------------------------------------------------------

/- The steps that a declaration of an owner consists of. -/
inductive Step (owner : Owner) (book : Rulebook) :
    Rulebook → Prop where
  | rule
      (target source : Key)
      (op : Operator)
      (formula : Option Formula) :
      Step owner book
        (book.addRule owner target source op formula)
  | gain
      (parts : RuleParts)
      (seq : Nat)
      (hShares : book.Shares parts seq) :
      Step owner book (book.gainOwner owner parts)
  | grant
      (target source : Key)
      (hFresh : ∀ seq,
        ¬ book.Shares ⟨target, source, .max, none⟩ seq) :
      Step owner book
        (book.addShared owner target source .max none)
  | allocation
      (note budget : Key)
      (hNew : book.allocations[note]? = none)
      (hFresh : ∀ seq,
        ¬ book.Shares (.ofBudget note budget) seq) :
      Step owner book (book.addAllocation owner note budget)
  | member
      (note key : Key)
      (a : Allocation)
      (hThere : book.allocations[note]? = some a)
      (hFresh : ∀ seq, ¬ book.Shares (.ofMember note key) seq) :
      Step owner book (book.addMember owner note key)
  | pool (p : Pool) (hOwner : p.owner = owner) :
      Step owner book { book with pools := book.pools ++ [p] }
  | note (key : Key) (n : Note) (hOwner : n.owner = owner) :
      Step owner book
        { book with notes := book.notes.insert key n }
  | requirement
      (note : Key)
      (r : NotedRequirement)
      (hOwner : r.owner = owner) :
      Step owner book
        { book with
          requirements := book.requirements.insert note r }

/- What several steps of an owner lead to. -/
abbrev Steps (owner : Owner) : Rulebook → Rulebook → Prop :=
  Relation.ReflTransGen (Step owner)

/- An allocation is declared in at most one step. -/
theorem declareAllocation_cases
    (h : book.IsConsistent)
    (owner : Owner)
    (note budget : Key) :
    ((∃ a, book.allocations[note]? = some a ∧
        a.budget ≠ budget) ∧
      book.declareAllocation owner note budget = book) ∨
    ((∃ seq, book.Shares (.ofBudget note budget) seq) ∧
      book.declareAllocation owner note budget =
        book.gainOwner owner (.ofBudget note budget)) ∨
    (book.allocations[note]? = none ∧
      (∀ seq, ¬ book.Shares (.ofBudget note budget) seq) ∧
      book.declareAllocation owner note budget =
        book.addAllocation owner note budget) := by
  unfold declareAllocation
  by_cases hOther :
      book.allocations[note]?.any (·.budget ≠ budget) = true
  · rcases (Option.any_eq_true _ _).mp hOther with
      ⟨a, hThere, hNe⟩
    exact Or.inl ⟨⟨a, hThere, of_decide_eq_true hNe⟩,
      if_pos hOther⟩
  · right
    rw [if_neg hOther]
    by_cases hShared :
        ∃ seq, book.Shares (.ofBudget note budget) seq
    · rcases hShared with ⟨seq, hShares⟩
      exact Or.inl ⟨⟨seq, hShares⟩, by
        rw [share_of_shares hShares]
        rfl⟩
    · have hFresh : ∀ seq,
          ¬ book.Shares (.ofBudget note budget) seq :=
        not_exists.mp hShared
      refine Or.inr ⟨?_, hFresh, ?_⟩
      · -- An allocation with this budget would share its rule.
        cases hThere : book.allocations[note]? with
        | none => rfl
        | some a =>
            have hBudget := (h.allocation note a hThere).budget
            have hSame : a.budget = budget := by
              simpa [hThere] using hOther
            rw [hSame] at hBudget
            exact absurd hBudget (hFresh _)
      · rw [share_of_fresh hFresh]
        rfl

/- A member is declared in at most one step. -/
theorem declareMember_cases
    (book : Rulebook)
    (owner : Owner)
    (note key : Key) :
    (book.allocations[note]? = none ∧
      book.declareMember owner note key = book) ∨
    (∃ a, book.allocations[note]? = some a ∧
      (((∃ seq, book.Shares (.ofMember note key) seq) ∧
        book.declareMember owner note key =
          book.gainOwner owner (.ofMember note key)) ∨
      ((∀ seq, ¬ book.Shares (.ofMember note key) seq) ∧
        book.declareMember owner note key =
          book.addMember owner note key))) := by
  unfold declareMember
  rw [Std.ExtTreeMap.contains_eq_isSome_getElem?]
  cases hThere : book.allocations[note]? with
  | none => exact Or.inl ⟨rfl, rfl⟩
  | some a =>
      refine Or.inr ⟨a, rfl, ?_⟩
      rw [Option.isSome_some, if_pos rfl]
      by_cases hShared :
          ∃ seq, book.Shares (.ofMember note key) seq
      · rcases hShared with ⟨seq, hShares⟩
        exact Or.inl ⟨⟨seq, hShares⟩, by
          rw [share_of_shares hShares]
          rfl⟩
      · have hFresh : ∀ seq,
            ¬ book.Shares (.ofMember note key) seq :=
          not_exists.mp hShared
        exact Or.inr ⟨hFresh, by
          rw [share_of_fresh hFresh]
          rfl⟩

/- A member is declared by steps. -/
theorem steps_declareMember
    (book : Rulebook)
    (owner : Owner)
    (note key : Key) :
    Steps owner book (book.declareMember owner note key) := by
  rcases declareMember_cases book owner note key with
    ⟨_, hSame⟩ | ⟨a, hThere, ⟨⟨seq, hShares⟩, hGain⟩ | hAdd⟩
  · rw [hSame]
  · rw [hGain]
    exact .single (.gain _ seq hShares)
  · rw [hAdd.2]
    exact .single (.member note key a hThere hAdd.1)

/- An option is declared by steps. -/
theorem steps_declareOption
    (book : Rulebook)
    (owner : Owner)
    (kind : PoolKind)
    (name : String) :
    Steps owner book (book.declareOption owner kind name) := by
  have hGrant
      (counted : Rulebook)
      (target source : Key) :
      Steps owner counted
        (counted.share owner target source .max none).1 := by
    by_cases hShared :
        ∃ seq, counted.Shares ⟨target, source, .max, none⟩ seq
    · rcases hShared with ⟨seq, hShares⟩
      rw [share_of_shares hShares]
      exact .single (.gain _ seq hShares)
    · have hFresh := not_exists.mp hShared
      rw [share_of_fresh hFresh]
      exact .single (.grant target source hFresh)
  unfold declareOption
  by_cases hThere : book.allocations.contains kind.allocation
  · rw [if_pos hThere]
    have hMember := steps_declareMember book owner
      kind.allocation (.under kind.chosenScope name)
    cases kind with
    | abilityBoost => exact hMember
    | _ => exact hMember.trans (hGrant _ _ _)
  · rw [if_neg hThere]

/- Each declaration is taken in by steps. -/
theorem steps_declare
    (h : book.IsConsistent)
    (owner : Owner)
    (d : Declaration) :
    Steps owner book (book.declare owner d) := by
  cases d with
  | rule target source op formula =>
      exact .single (.rule target source op formula)
  | allocation note budget =>
      rcases declareAllocation_cases h owner note budget with
        ⟨_, hSame⟩ | ⟨⟨seq, hShares⟩, hGain⟩ |
          ⟨hNew, hFresh, hAdd⟩
      · rw [declare, hSame]
      · rw [declare, hGain]
        exact .single (.gain _ seq hShares)
      · rw [declare, hAdd]
        exact .single (.allocation note budget hNew hFresh)
  | member note key =>
      exact steps_declareMember book owner note key
  | option kind name =>
      exact steps_declareOption book owner kind name
  | adjustment gate op amount words =>
      rw [declare, declareAdjustment]
      cases book.adjusted? words with
      | none => exact .refl
      | some target => exact .single (.rule _ _ _ _)
  | pool kind count gate options =>
      exact .single (.pool _ rfl)
  | note key format => exact .single (.note key _ rfl)
  | requirement note selector requirement =>
      exact .single (.requirement note _ rfl)

------------------------------------------------------------
-- What Is Shared
------------------------------------------------------------

/- Another owner changes neither parts nor numbers. -/
theorem shares_gainOwner
    {p : RuleParts}
    {seq : Nat} :
    (book.gainOwner owner parts).Shares p seq ↔
      book.Shares p seq := by
  unfold Shares gainOwner
  constructor
  · intro hShared
    rcases hShared with ⟨s', hIn, hParts, hSeq⟩
    rcases List.mem_map.mp hIn with ⟨s, hs, rfl⟩
    refine ⟨s, hs, ?_, ?_⟩
    · rw [← hParts]
      split <;> simp
    · rw [← hSeq]
      split <;> simp
  · intro hShared
    rcases hShared with ⟨s, hs, hParts, hSeq⟩
    refine ⟨_, List.mem_map_of_mem hs, ?_, ?_⟩
    · rw [← hParts]
      split <;> simp
    · rw [← hSeq]
      split <;> simp

/- The new owner owns the shared rule as well. -/
theorem owns_gainOwner
    {seq : Nat}
    (hShares : book.Shares parts seq)
    {p : RuleParts}
    {w : Owner} :
    (book.gainOwner owner parts).Owns w p ↔
      book.Owns w p ∨ (w = owner ∧ p = parts) := by
  unfold Owns gainOwner
  constructor
  · intro hOwned
    rcases hOwned with ⟨s', hIn, hParts, hOwner⟩
    rcases List.mem_map.mp hIn with ⟨s, hs, rfl⟩
    by_cases hSame : s.parts = parts
    · rw [if_pos hSame] at hParts hOwner
      rw [SharedRule.parts_addOwner] at hParts
      rcases SharedRule.mem_owners_addOwner.mp hOwner with
        hOld | hNew
      · exact Or.inl ⟨s, hs, hParts, hOld⟩
      · exact Or.inr ⟨hNew, hParts.symm.trans hSame⟩
    · rw [if_neg hSame] at hParts hOwner
      exact Or.inl ⟨s, hs, hParts, hOwner⟩
  · intro hOr
    rcases hOr with ⟨s, hs, hParts, hOwner⟩ | ⟨rfl, rfl⟩
    · refine ⟨_, List.mem_map_of_mem hs, ?_, ?_⟩
      · rw [← hParts]
        split <;> simp
      · split
        · exact SharedRule.mem_owners_addOwner.mpr
            (Or.inl hOwner)
        · exact hOwner
    · rcases hShares with ⟨s, hs, hParts, _⟩
      refine ⟨_, List.mem_map_of_mem hs, ?_, ?_⟩
      · rw [if_pos hParts, SharedRule.parts_addOwner, hParts]
      · rw [if_pos hParts]
        exact SharedRule.mem_owners_addOwner.mpr (Or.inr rfl)

/- A new shared rule gets the next number. -/
theorem shares_addShared
    {p : RuleParts}
    {seq : Nat} :
    (book.addShared owner target source op formula).Shares p
        seq ↔
      book.Shares p seq ∨
        (p = ⟨target, source, op, formula.map (·.text)⟩ ∧
          seq = book.nextSeq) := by
  unfold Shares addShared
  constructor
  · intro hShared
    rcases hShared with ⟨s, hIn, rfl, rfl⟩
    rcases List.mem_append.mp hIn with hOld | hNew
    · exact Or.inl ⟨s, hOld, rfl, rfl⟩
    · rw [List.mem_singleton.mp hNew]
      exact Or.inr ⟨rfl, rfl⟩
  · intro hOr
    rcases hOr with ⟨s, hs, rfl, rfl⟩ | ⟨rfl, rfl⟩
    · exact ⟨s, List.mem_append_left _ hs, rfl, rfl⟩
    · exact ⟨_, List.mem_append_right _
        (List.mem_singleton_self _), rfl, rfl⟩

/- A new shared rule has one owner. -/
theorem owns_addShared
    {p : RuleParts}
    {w : Owner} :
    (book.addShared owner target source op formula).Owns w p ↔
      book.Owns w p ∨ (w = owner ∧
        p = ⟨target, source, op, formula.map (·.text)⟩) := by
  unfold Owns addShared
  constructor
  · intro hOwned
    rcases hOwned with ⟨s, hIn, rfl, hOwner⟩
    rcases List.mem_append.mp hIn with hOld | hNew
    · exact Or.inl ⟨s, hOld, rfl, hOwner⟩
    · rw [List.mem_singleton.mp hNew] at hOwner ⊢
      exact Or.inr ⟨List.mem_singleton.mp hOwner, rfl⟩
  · intro hOr
    rcases hOr with ⟨s, hs, rfl, hOwner⟩ | ⟨rfl, rfl⟩
    · exact ⟨s, List.mem_append_left _ hs, rfl, hOwner⟩
    · exact ⟨_, List.mem_append_right _
        (List.mem_singleton_self _), rfl,
        List.mem_singleton_self _⟩

------------------------------------------------------------
-- Rules and Shared Rules
------------------------------------------------------------

/- The rule of a number is not confused with a later one. -/
theorem filter_seq_append
    {rules : List Rule}
    {r added : Rule}
    {seq : Nat}
    (hOnly : rules.filter (·.seq = seq) = [r])
    (hOther : added.seq ≠ seq) :
    (rules ++ [added]).filter (·.seq = seq) = [r] := by
  rw [List.filter_append, hOnly, List.filter_cons_of_neg,
    List.filter_nil, List.append_nil]
  simpa using hOther

/- Rules may be added with the next number. -/
theorem IsNumbered.addRule
    (h : book.IsNumbered)
    (owner : Owner)
    (target source : Key)
    (op : Operator)
    (formula : Option Formula) :
    (book.addRule owner target source op formula).IsNumbered
    where
  ordered := by
    refine List.pairwise_append.mpr
      ⟨h.ordered, List.pairwise_singleton _ _, ?_⟩
    intro r hr added hAdded
    rw [List.mem_singleton.mp hAdded]
    exact h.numbered r hr
  numbered := by
    intro r hr
    rcases List.mem_append.mp hr with hOld | hNew
    · exact Nat.lt_succ_of_lt (h.numbered r hOld)
    · rw [List.mem_singleton.mp hNew]
      exact Nat.lt_succ_self _
  distinct := h.distinct
  owned := h.owned
  standing := by
    intro s hs
    rcases h.standing s hs with ⟨r, hOnly, hParts, hOwner⟩
    have hLt := h.seq_lt ⟨s, hs, rfl, rfl⟩
    exact ⟨r, filter_seq_append hOnly (Nat.ne_of_gt hLt),
      hParts, hOwner⟩

/- Shared rules may gain owners. -/
theorem IsNumbered.gainOwner
    (h : book.IsNumbered)
    (owner : Owner)
    (parts : RuleParts) :
    (book.gainOwner owner parts).IsNumbered where
  ordered := h.ordered
  numbered := h.numbered
  distinct := by
    refine List.pairwise_map.mpr (h.distinct.imp ?_)
    intro s t hNe
    split <;> split <;> simpa using hNe
  owned := by
    intro s' hIn
    rcases List.mem_map.mp hIn with ⟨s, hs, rfl⟩
    rcases h.owned s hs with ⟨hSome, hNodup⟩
    split
    · refine ⟨?_, SharedRule.nodup_owners_addOwner hNodup owner⟩
      exact List.ne_nil_of_mem
        (SharedRule.mem_owners_addOwner.mpr (Or.inr rfl))
    · exact ⟨hSome, hNodup⟩
  standing := by
    intro s' hIn
    rcases List.mem_map.mp hIn with ⟨s, hs, rfl⟩
    split
    · rw [SharedRule.seq_addOwner, SharedRule.parts_addOwner]
      exact h.standing s hs
    · exact h.standing s hs

/- Shared rules of other parts may be added. -/
theorem IsNumbered.addShared
    (h : book.IsNumbered)
    (owner : Owner)
    (op : Operator)
    (formula : Option Formula)
    (hFresh : ∀ seq, ¬ book.Shares
      ⟨target, source, op, formula.map (·.text)⟩ seq) :
    (book.addShared owner target source op formula).IsNumbered
    where
  ordered := (h.addRule none target source op formula).ordered
  numbered := (h.addRule none target source op formula).numbered
  distinct := by
    refine List.pairwise_append.mpr
      ⟨h.distinct, List.pairwise_singleton _ _, ?_⟩
    intro s hs added hAdded hEq
    rw [List.mem_singleton.mp hAdded] at hEq
    exact hFresh s.seq ⟨s, hs, hEq, rfl⟩
  owned := by
    intro s hs
    rcases List.mem_append.mp hs with hOld | hNew
    · exact h.owned s hOld
    · rw [List.mem_singleton.mp hNew]
      exact ⟨List.cons_ne_nil _ _, List.nodup_singleton _⟩
  standing := by
    intro s hs
    rcases List.mem_append.mp hs with hOld | hNew
    · exact (h.addRule none target source op formula).standing
        s hOld
    · rw [List.mem_singleton.mp hNew]
      refine ⟨⟨target, source, op, formula, none, book.nextSeq⟩,
        ?_, rfl, rfl⟩
      have hNone :
          book.rules.filter (·.seq = book.nextSeq) = [] := by
        apply List.filter_eq_nil_iff.mpr
        intro r hr hSeq
        exact Nat.ne_of_lt (h.numbered r hr)
          (of_decide_eq_true hSeq)
      change (book.rules ++ [_]).filter
        (fun r : Rule => r.seq = book.nextSeq) = _
      rw [List.filter_append, hNone, List.nil_append]
      exact List.filter_cons_of_pos (decide_eq_true rfl)

------------------------------------------------------------
-- Allocations
------------------------------------------------------------

/- Allocations depend on shared rules that add. -/
theorem IsAllocation.of_shares
    {a : Allocation}
    (h : book.IsAllocation note a)
    (hShares : ∀ p seq, p.op = .add →
      (other.Shares p seq ↔ book.Shares p seq)) :
    other.IsAllocation note a where
  note_eq := h.note_eq
  budget := (hShares _ _ rfl).mpr h.budget
  members := fun key seq =>
    (h.members key seq).trans (hShares _ _ rfl).symm
  nodup := h.nodup

/- So do the allocations of a whole rulebook. -/
theorem IsBudgeted.of_shares
    (h : book.IsBudgeted)
    (hShares : ∀ p seq, p.op = .add →
      (other.Shares p seq ↔ book.Shares p seq))
    (hAllocations : other.allocations = book.allocations) :
    other.IsBudgeted where
  allocation := by
    intro note a hThere
    rw [hAllocations] at hThere
    exact (h.allocation note a hThere).of_shares hShares
  budget := by
    intro note budget seq hShared
    rw [hAllocations]
    exact h.budget note budget seq
      ((hShares _ _ rfl).mp hShared)
  member := by
    intro note key seq hShared
    rw [hAllocations]
    exact h.member note key seq ((hShares _ _ rfl).mp hShared)

theorem getElem?_addAllocation
    (book : Rulebook)
    (owner : Owner)
    (note budget n : Key) :
    (book.addAllocation owner note budget).allocations[n]? =
      if n = note then some ⟨note, budget, book.nextSeq, []⟩
      else book.allocations[n]? :=
  Key.getElem?_insert _ _ _ _

theorem shares_addAllocation
    {seq : Nat} :
    (book.addAllocation owner note budget).Shares parts seq ↔
      book.Shares parts seq ∨
        (parts = .ofBudget note budget ∧ seq = book.nextSeq) :=
  shares_addShared

/- A budget rule is not that of a member. -/
theorem shares_addAllocation_ofMember
    {n : Key}
    {seq : Nat} :
    (book.addAllocation owner note budget).Shares
        (.ofMember n key) seq ↔
      book.Shares (.ofMember n key) seq := by
  rw [shares_addAllocation]
  simp [RuleParts.ofMember, RuleParts.ofBudget]

/- A note may get an allocation that has no members yet. -/
theorem IsBudgeted.addAllocation
    (h : book.IsBudgeted)
    (owner : Owner)
    (budget : Key)
    (hNew : book.allocations[note]? = none) :
    (book.addAllocation owner note budget).IsBudgeted where
  allocation := by
    intro n a ha
    rw [getElem?_addAllocation] at ha
    by_cases hNote : n = note
    · rw [if_pos hNote, Option.some.injEq] at ha
      subst hNote
      subst ha
      refine ⟨rfl, shares_addAllocation.mpr (Or.inr ⟨rfl, rfl⟩),
        ?_, List.nodup_nil⟩
      intro key seq
      rw [shares_addAllocation_ofMember]
      constructor
      · intro hIn
        exact absurd hIn List.not_mem_nil
      · intro hShared
        rcases h.member n key seq hShared with ⟨a, ha⟩
        rw [hNew] at ha
        cases ha
    · rw [if_neg hNote] at ha
      have hOld := h.allocation n a ha
      refine ⟨hOld.note_eq,
        shares_addAllocation.mpr (Or.inl hOld.budget), ?_,
        hOld.nodup⟩
      intro key seq
      rw [shares_addAllocation_ofMember]
      exact hOld.members key seq
  budget := by
    intro n b seq hShared
    rw [getElem?_addAllocation]
    rcases shares_addAllocation.mp hShared with
      hOld | ⟨hParts, rfl⟩
    · rcases h.budget n b seq hOld with ⟨a, ha, hBudget⟩
      have hNote : n ≠ note := by
        intro hEq
        rw [hEq, hNew] at ha
        cases ha
      rw [if_neg hNote]
      exact ⟨a, ha, hBudget⟩
    · cases hParts
      rw [if_pos rfl]
      exact ⟨_, rfl, rfl, rfl⟩
  member := by
    intro n key seq hShared
    rw [getElem?_addAllocation]
    by_cases hNote : n = note
    · rw [if_pos hNote]
      exact ⟨_, rfl⟩
    · rw [if_neg hNote]
      exact h.member n key seq
        (shares_addAllocation_ofMember.mp hShared)

/- The allocation of the note has one member more. -/
theorem getElem?_addMember
    {a : Allocation}
    (hThere : book.allocations[note]? = some a)
    (owner : Owner)
    (key n : Key) :
    (book.addMember owner note key).allocations[n]? =
      if n = note then
        some { a with
          members := a.members ++ [(key, book.nextSeq)] }
      else book.allocations[n]? := by
  by_cases hNote : n = note
  · subst hNote
    simp [addMember, hThere]
  · simp [addMember, addShared, addRule,
      Std.ExtTreeMap.getElem?_modify, hNote, Ne.symm hNote]

theorem shares_addMember
    {seq : Nat} :
    (book.addMember owner note key).Shares parts seq ↔
      book.Shares parts seq ∨
        (parts = .ofMember note key ∧ seq = book.nextSeq) :=
  shares_addShared

/- The rule of a member is not that of a budget. -/
theorem shares_addMember_ofBudget
    {n : Key}
    {seq : Nat} :
    (book.addMember owner note key).Shares
        (.ofBudget n budget) seq ↔
      book.Shares (.ofBudget n budget) seq := by
  rw [shares_addMember]
  simp [RuleParts.ofMember, RuleParts.ofBudget]

/- An allocation with a new member is that of its note. -/
theorem IsAllocation.addMember
    {a : Allocation}
    (h : book.IsAllocation note a)
    (owner : Owner)
    (hFresh : ∀ seq, ¬ book.Shares (.ofMember note key) seq) :
    (book.addMember owner note key).IsAllocation note
      { a with
        members := a.members ++ [(key, book.nextSeq)] } where
  note_eq := h.note_eq
  budget := shares_addMember_ofBudget.mpr h.budget
  members := by
    intro k seq
    rw [shares_addMember, ← h.members]
    simp [RuleParts.ofMember]
  nodup := by
    have hKey : key ∉ a.keys := by
      intro hIn
      rcases List.mem_map.mp hIn with ⟨⟨k, seq⟩, hMember, rfl⟩
      exact hFresh seq ((h.members k seq).mp hMember)
    unfold Allocation.keys
    rw [List.map_append]
    refine List.nodup_append.mpr
      ⟨h.nodup, List.nodup_singleton _, ?_⟩
    intro k hk last hLast hEq
    rw [List.map_singleton, List.mem_singleton] at hLast
    rw [hEq, hLast] at hk
    exact hKey hk

/- An allocation may get a member that it does not have. -/
theorem IsBudgeted.addMember
    (h : book.IsBudgeted)
    (owner : Owner)
    {a : Allocation}
    (hThere : book.allocations[note]? = some a)
    (hFresh : ∀ seq, ¬ book.Shares (.ofMember note key) seq) :
    (book.addMember owner note key).IsBudgeted where
  allocation := by
    intro n b hb
    rw [getElem?_addMember hThere] at hb
    by_cases hNote : n = note
    · rw [if_pos hNote, Option.some.injEq] at hb
      subst hNote
      subst hb
      exact (h.allocation n a hThere).addMember owner hFresh
    · rw [if_neg hNote] at hb
      have hOld := h.allocation n b hb
      refine ⟨hOld.note_eq,
        shares_addMember_ofBudget.mpr hOld.budget, ?_,
        hOld.nodup⟩
      intro k seq
      rw [shares_addMember, ← hOld.members]
      simp [RuleParts.ofMember, hNote]
  budget := by
    intro n b seq hShared
    rcases h.budget n b seq
      (shares_addMember_ofBudget.mp hShared) with
      ⟨c, hc, hBudget⟩
    rw [getElem?_addMember hThere]
    by_cases hNote : n = note
    · subst hNote
      rw [hThere, Option.some.injEq] at hc
      subst hc
      rw [if_pos rfl]
      exact ⟨_, rfl, hBudget⟩
    · rw [if_neg hNote]
      exact ⟨c, hc, hBudget⟩
  member := by
    intro n k seq hShared
    rw [getElem?_addMember hThere]
    by_cases hNote : n = note
    · rw [if_pos hNote]
      exact ⟨_, rfl⟩
    · rw [if_neg hNote]
      rcases shares_addMember.mp hShared with hOld | ⟨hParts, _⟩
      · exact h.member n k seq hOld
      · cases hParts
        exact absurd rfl hNote

------------------------------------------------------------
-- Consistency of Steps
------------------------------------------------------------

/- Each step keeps a rulebook consistent. -/
theorem IsConsistent.step
    (h : book.IsConsistent)
    (hStep : Step owner book other) :
    other.IsConsistent := by
  cases hStep with
  | rule target source op formula =>
      have hNumbered :=
        h.toIsNumbered.addRule owner target source op formula
      exact ⟨hNumbered,
        h.toIsBudgeted.of_shares (fun _ _ _ => Iff.rfl) rfl⟩
  | gain parts seq hShares =>
      exact ⟨h.toIsNumbered.gainOwner owner parts,
        h.toIsBudgeted.of_shares
          (fun _ _ _ => shares_gainOwner) rfl⟩
  | grant target source hFresh =>
      refine ⟨h.toIsNumbered.addShared owner .max none hFresh,
        h.toIsBudgeted.of_shares ?_ rfl⟩
      intro p seq hAdd
      rw [shares_addShared]
      refine ⟨fun hShares => ?_, Or.inl⟩
      rcases hShares with hOld | ⟨rfl, _⟩
      · exact hOld
      · exact Operator.noConfusion hAdd
  | allocation note budget hNew hFresh =>
      have hNumbered := h.toIsNumbered.addShared owner .add
        (some .negated) hFresh
      exact ⟨⟨hNumbered.ordered, hNumbered.numbered,
        hNumbered.distinct, hNumbered.owned, hNumbered.standing⟩,
        h.toIsBudgeted.addAllocation owner budget hNew⟩
  | member note key a hThere hFresh =>
      have hNumbered :=
        h.toIsNumbered.addShared owner .add none hFresh
      exact ⟨⟨hNumbered.ordered, hNumbered.numbered,
        hNumbered.distinct, hNumbered.owned, hNumbered.standing⟩,
        h.toIsBudgeted.addMember owner hThere hFresh⟩
  | pool p hOwner => exact h.of_eq rfl rfl rfl rfl
  | note key n hOwner => exact h.of_eq rfl rfl rfl rfl
  | requirement note r hOwner => exact h.of_eq rfl rfl rfl rfl

/- So do several steps. -/
theorem IsConsistent.steps
    (h : book.IsConsistent)
    (hSteps : Steps owner book other) :
    other.IsConsistent := by
  induction hSteps with
  | refl => exact h
  | tail _ hStep ih => exact ih.step hStep

/- Each declaration keeps a rulebook consistent. -/
theorem IsConsistent.declare
    (h : book.IsConsistent)
    (owner : Owner)
    (d : Declaration) :
    (book.declare owner d).IsConsistent :=
  h.steps (steps_declare h owner d)

/- So does a list of them. -/
theorem IsConsistent.declareAll
    (h : book.IsConsistent)
    (owner : Owner)
    (ds : List Declaration) :
    (book.declareAll owner ds).IsConsistent := by
  induction ds generalizing book with
  | nil => exact h
  | cons d ds ih => exact ih (h.declare owner d)

end Rulebook

end CharSheet
