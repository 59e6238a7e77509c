import CharSheet.Proofs.Rulebook.History
import CharSheet.Proofs.Rulebook.Steps
import CharSheet.Proofs.Rulebook.Withdrawal

/-
  Allocations belong to all who declare them.

  After any calls an allocation is there while some of its
  declarations stands, and it counts the members that have
  been named since it was there and whose naming stands.
  However many owners there are, each is counted once.

  Main declarations:
    * `Rulebook.Follows`
    * `Rulebook.follows_replay`
    * `Rulebook.IsAccountOf`
    * `Rulebook.isAccountOf_replay`
-/

namespace CharSheet

open AllocationCall

namespace Rulebook

variable {book : Rulebook}
variable {calls : List AllocationCall}
variable {note budget : Key}
variable {owner : Owner}

------------------------------------------------------------
-- Rulebooks of Shared Rules
------------------------------------------------------------

/- Every rule is shared. -/
def IsJoint (book : Rulebook) : Prop :=
  ∀ r ∈ book.rules, book.Shares r.parts r.seq

theorem IsJoint.withdraw
    (h : book.IsJoint)
    (origin : Origin) :
    (book.withdraw origin).IsJoint := by
  intro r hr
  rcases mem_rules_withdraw_iff.mp hr with ⟨hOld, _, hKept⟩
  exact shares_withdraw.mpr ⟨h r hOld, hKept⟩

/- A rule is declared once if it is shared, and else not. -/
theorem countP_parts
    (h : book.IsConsistent)
    (hJoint : book.IsJoint)
    (parts : RuleParts) :
    book.rules.countP (·.parts = parts) ≤ 1 ∧
      (book.rules.countP (·.parts = parts) = 1 ↔
        ∃ seq, book.Shares parts seq) := by
  by_cases hShared : ∃ seq, book.Shares parts seq
  · rcases hShared with ⟨seq, hShares⟩
    rcases h.exists_rule hShares with ⟨r, hOnly, _, _, hParts, _⟩
    have hSame :
        book.rules.filter (·.parts = parts) =
          book.rules.filter (·.seq = seq) := by
      apply List.filter_congr
      intro r' hr'
      rw [decide_eq_decide]
      constructor
      · intro hEq
        subst hEq
        exact h.seq_eq (hJoint r' hr') hShares
      · intro hEq
        subst hEq
        exact h.parts_eq (hJoint r' hr') hShares
    rw [List.countP_eq_length_filter, hSame, hOnly]
    exact ⟨Nat.le_refl 1, fun _ => ⟨seq, hShares⟩, fun _ => rfl⟩
  · have hNone : book.rules.countP (·.parts = parts) = 0 := by
      apply List.countP_eq_zero.mpr
      intro r hr hParts
      have hShares := hJoint r hr
      rw [of_decide_eq_true hParts] at hShares
      exact hShared ⟨_, hShares⟩
    rw [hNone]
    exact ⟨Nat.zero_le 1, fun hOne => absurd hOne Nat.zero_ne_one,
      fun hSome => absurd hSome hShared⟩

------------------------------------------------------------
-- Adding Owners
------------------------------------------------------------

/- The owner is added to a shared rule, and nothing else. -/
structure AddsOwner
    (book other : Rulebook)
    (owner : Owner)
    (parts : RuleParts) : Prop where
  joint : book.IsJoint → other.IsJoint
  shares : ∀ p seq, other.Shares p seq →
    p = parts ∨ ∃ seq, book.Shares p seq
  owns : ∀ w p,
    other.Owns w p ↔ book.Owns w p ∨ (w = owner ∧ p = parts)

theorem addsOwner_gainOwner
    {parts : RuleParts}
    {seq : Nat}
    (hShares : book.Shares parts seq) :
    AddsOwner book (book.gainOwner owner parts) owner parts where
  joint := fun h r hr => shares_gainOwner.mpr (h r hr)
  shares := fun _ seq hOld =>
    Or.inr ⟨seq, shares_gainOwner.mp hOld⟩
  owns := fun _ _ => owns_gainOwner hShares

theorem addsOwner_addShared
    (book : Rulebook)
    (owner : Owner)
    (target source : Key)
    (op : Operator)
    (formula : Option Formula) :
    AddsOwner book
      (book.addShared owner target source op formula) owner
      ⟨target, source, op, formula.map (·.text)⟩ where
  joint := by
    intro h r hr
    rcases List.mem_append.mp hr with hOld | hNew
    · exact shares_addShared.mpr (Or.inl (h r hOld))
    · rw [List.mem_singleton.mp hNew]
      exact shares_addShared.mpr (Or.inr ⟨rfl, rfl⟩)
  shares := by
    intro p seq hShares
    rcases shares_addShared.mp hShares with hOld | ⟨hNew, _⟩
    · exact Or.inr ⟨seq, hOld⟩
    · exact Or.inl hNew
  owns := fun _ _ => owns_addShared

/- A declaration adds its owner, unless the budgets differ. -/
theorem addsOwner_declareAllocation
    (h : book.IsConsistent)
    (owner : Owner)
    (note budget : Key) :
    ((∃ a, book.allocations[note]? = some a ∧
        a.budget ≠ budget) ∧
      book.declareAllocation owner note budget = book) ∨
    AddsOwner book (book.declareAllocation owner note budget)
      owner (.ofBudget note budget) := by
  rcases declareAllocation_cases h owner note budget with
    hSame | ⟨⟨seq, hShares⟩, hGain⟩ | ⟨_, _, hAdd⟩
  · exact Or.inl hSame
  · rw [hGain]
    exact Or.inr (addsOwner_gainOwner hShares)
  · rw [hAdd]
    have hAdds := addsOwner_addShared book owner note budget
      .add (some .negated)
    exact Or.inr ⟨hAdds.joint, hAdds.shares, hAdds.owns⟩

/- A naming adds its owner, where there is an allocation. -/
theorem addsOwner_declareMember
    (book : Rulebook)
    (owner : Owner)
    (note key : Key) :
    (book.allocations[note]? = none ∧
      book.declareMember owner note key = book) ∨
    ((∃ a, book.allocations[note]? = some a) ∧
      AddsOwner book (book.declareMember owner note key) owner
        (.ofMember note key)) := by
  rcases declareMember_cases book owner note key with
    hSame | ⟨a, ha, ⟨⟨seq, hShares⟩, hGain⟩ | ⟨_, hAdd⟩⟩
  · exact Or.inl hSame
  · rw [hGain]
    exact Or.inr ⟨⟨a, ha⟩, addsOwner_gainOwner hShares⟩
  · rw [hAdd]
    have hAdds := addsOwner_addShared book owner note key
      .add none
    exact Or.inr ⟨⟨a, ha⟩,
      hAdds.joint, hAdds.shares, hAdds.owns⟩

------------------------------------------------------------
-- Following Calls
------------------------------------------------------------

/-
  The shared rules of a note are its budget rule and the rules
  of its members, and belong to those whose calls stand.
-/
structure Follows
    (book : Rulebook)
    (calls : List AllocationCall)
    (note budget : Key) : Prop where
  consistent : book.IsConsistent
  joint : book.IsJoint
  parts : ∀ p seq, book.Shares p seq → p.target = note →
    p = .ofBudget note budget ∨ ∃ key, p = .ofMember note key
  declared : ∀ owner,
    book.Owns owner (.ofBudget note budget) ↔
      DeclaredBy calls owner note
  counted : ∀ owner key,
    book.Owns owner (.ofMember note key) ↔
      CountedBy calls owner note key

/- An empty rulebook follows the calls before the first. -/
theorem follows_empty
    (settings : Settings)
    (note budget : Key) :
    (empty settings).Follows [] note budget where
  consistent := isConsistent_empty settings
  joint := by
    intro r hr
    cases hr
  parts := by
    intro p seq hShares
    rcases hShares with ⟨s, hs, _⟩
    cases hs
  declared := by
    intro owner
    refine iff_of_false ?_ not_declaredBy_nil
    intro hOwns
    rcases hOwns with ⟨s, hs, _⟩
    cases hs
  counted := by
    intro owner key
    refine iff_of_false ?_ not_countedBy_nil
    intro hOwns
    rcases hOwns with ⟨s, hs, _⟩
    cases hs

/- The allocation of the note has the budget. -/
theorem Follows.budget_eq
    (h : book.Follows calls note budget)
    {a : Allocation}
    (ha : book.allocations[note]? = some a) :
    a.budget = budget := by
  have hBudget := (h.consistent.allocation note a ha).budget
  rcases h.parts _ _ hBudget rfl with hParts | ⟨key, hParts⟩
  · cases hParts
    rfl
  · cases hParts

/- The note has an allocation while it is declared. -/
theorem Follows.exists_allocation_iff
    (h : book.Follows calls note budget) :
    (∃ a, book.allocations[note]? = some a) ↔
      IsDeclared calls note := by
  constructor
  · intro hThere
    rcases hThere with ⟨a, ha⟩
    have hBudget := (h.consistent.allocation note a ha).budget
    rw [h.budget_eq ha] at hBudget
    rcases h.consistent.exists_owns hBudget with ⟨w, hOwns⟩
    exact ⟨w, (h.declared w).mp hOwns⟩
  · intro hDeclared
    rcases hDeclared with ⟨w, hDeclared⟩
    have hOwns := (h.declared w).mpr hDeclared
    rcases hOwns.exists_shares with ⟨seq, hShares⟩
    rcases h.consistent.budget note budget seq hShares with
      ⟨a, ha, _⟩
    exact ⟨a, ha⟩

/- A declaration is followed. -/
theorem Follows.allocate
    (h : book.Follows calls note budget)
    (owner : Owner)
    (n b : Key)
    (hBudget : n = note → b = budget) :
    (apply book (.allocate owner n b)).Follows
      (calls ++ [.allocate owner n b]) note budget := by
  have hConsistent :=
    h.consistent.declare owner (.allocation n b)
  rcases addsOwner_declareAllocation h.consistent owner n b with
    ⟨⟨a, ha, hNe⟩, hSame⟩ | hAdds
  · -- The budget of the note itself does not differ.
    have hNote : n ≠ note := by
      intro hEq
      subst hEq
      have hSame := (h.budget_eq ha).trans (hBudget rfl).symm
      exact hNe hSame
    change (book.declareAllocation owner n b).Follows _ _ _
    rw [hSame]
    refine ⟨h.consistent, h.joint, h.parts, ?_, ?_⟩
    · intro w
      rw [h.declared, declaredBy_allocate_iff]
      exact ⟨Or.inl, fun hOr =>
        hOr.resolve_right fun hBoth => hNote hBoth.2⟩
    · intro w key
      rw [h.counted, countedBy_allocate_iff]
  · refine ⟨hConsistent, hAdds.joint h.joint, ?_, ?_, ?_⟩
    · intro p seq hShares hTarget
      rcases hAdds.shares p seq hShares with rfl | ⟨seq', hOld⟩
      · cases hTarget
        rw [hBudget rfl]
        exact Or.inl rfl
      · exact h.parts p seq' hOld hTarget
    · intro w
      apply (hAdds.owns w _).trans
      rw [h.declared, declaredBy_allocate_iff]
      refine or_congr_right (and_congr_right fun _ => ?_)
      constructor
      · intro hParts
        cases hParts
        rfl
      · intro hEq
        subst hEq
        rw [hBudget rfl]
    · intro w key
      apply (hAdds.owns w _).trans
      rw [h.counted, countedBy_allocate_iff]
      refine ⟨fun hOr => hOr.resolve_right ?_, Or.inl⟩
      intro hBoth
      rcases hBoth with ⟨_, hParts⟩
      cases hParts

/- The naming of a member is followed. -/
theorem Follows.count
    (h : book.Follows calls note budget)
    (owner : Owner)
    (n k : Key) :
    (apply book (.count owner n k)).Follows
      (calls ++ [.count owner n k]) note budget := by
  have hConsistent :=
    h.consistent.declare owner (.member n k)
  rcases addsOwner_declareMember book owner n k with
    ⟨hNone, hSame⟩ | ⟨hThere, hAdds⟩
  · -- Without an allocation there is nothing to count for.
    change (book.declareMember owner n k).Follows _ _ _
    rw [hSame]
    refine ⟨h.consistent, h.joint, h.parts, ?_, ?_⟩
    · intro w
      rw [h.declared, declaredBy_count_iff]
    · intro w key
      rw [h.counted, countedBy_count_iff]
      constructor
      · intro hOld
        exact ⟨Or.inl hOld, hOld.isDeclared⟩
      · intro hBoth
        rcases hBoth with ⟨hOld | ⟨_, rfl, _⟩, hNow⟩
        · exact hOld
        · rcases h.exists_allocation_iff.mpr hNow with ⟨a, ha⟩
          rw [hNone] at ha
          cases ha
  · refine ⟨hConsistent, hAdds.joint h.joint, ?_, ?_, ?_⟩
    · intro p seq hShares hTarget
      rcases hAdds.shares p seq hShares with rfl | ⟨seq', hOld⟩
      · cases hTarget
        exact Or.inr ⟨k, rfl⟩
      · exact h.parts p seq' hOld hTarget
    · intro w
      apply (hAdds.owns w _).trans
      rw [h.declared, declaredBy_count_iff]
      refine ⟨fun hOr => hOr.resolve_right ?_, Or.inl⟩
      intro hBoth
      rcases hBoth with ⟨_, hParts⟩
      cases hParts
    · intro w key
      apply (hAdds.owns w _).trans
      rw [h.counted, countedBy_count_iff]
      constructor
      · intro hOr
        rcases hOr with hOld | ⟨rfl, hParts⟩
        · exact ⟨Or.inl hOld, hOld.isDeclared⟩
        · cases hParts
          exact ⟨Or.inr ⟨rfl, rfl, rfl⟩,
            h.exists_allocation_iff.mp hThere⟩
      · intro hBoth
        rcases hBoth with ⟨hOld | ⟨rfl, rfl, rfl⟩, _⟩
        · exact Or.inl hOld
        · exact Or.inr ⟨rfl, rfl⟩

/- A withdrawal is followed. -/
theorem Follows.withdraw
    (h : book.Follows calls note budget)
    (origin : Origin) :
    (apply book (.withdraw origin)).Follows
      (calls ++ [.withdraw origin]) note budget := by
  refine ⟨h.consistent.withdraw origin,
    h.joint.withdraw origin, ?_, ?_, ?_⟩
  · intro p seq hShares hTarget
    exact h.parts p seq (shares_withdraw.mp hShares).1 hTarget
  · intro w
    rw [declaredBy_withdraw_iff, ← h.declared]
    apply h.consistent.owns_withdraw_of_ne
    intro n k hParts
    cases hParts
  · intro w key
    rw [countedBy_withdraw_iff, ← h.counted]
    cases ha : book.allocations[note]? with
    | none =>
        -- Without its allocation nobody owns a member.
        have hNone :
            ¬ ∃ seq, book.Shares (.ofMember note key) seq := by
          intro hShared
          rcases hShared with ⟨seq, hShares⟩
          rcases h.consistent.member note key seq hShares with
            ⟨a, hThere⟩
          rw [ha] at hThere
          cases hThere
        refine iff_of_false ?_ ?_
        · intro hOwns
          rcases hOwns.exists_shares with ⟨seq, hShares⟩
          exact hNone ⟨seq, (shares_withdraw.mp hShares).1⟩
        · intro hOwned
          rcases hOwned with ⟨hOwns, _⟩
          exact hNone hOwns.exists_shares
    | some a =>
        apply (h.consistent.owns_withdraw_member ha).trans
        rw [h.budget_eq ha]
        simp only [h.declared]

/-
  A rulebook follows all calls that are replayed, where the
  note is always declared with the same budget.
-/
theorem follows_replay
    (settings : Settings)
    (calls : List AllocationCall)
    (note budget : Key)
    (hBudget : ∀ owner b,
      .allocate owner note b ∈ calls → b = budget) :
    (replay settings calls).Follows calls note budget := by
  induction calls using List.reverseRecOn with
  | nil => exact follows_empty settings note budget
  | append_singleton calls c ih =>
      have h := ih fun owner b hIn =>
        hBudget owner b (List.mem_append_left _ hIn)
      have hReplay :
          replay settings (calls ++ [c]) =
            apply (replay settings calls) c := by
        unfold replay
        rw [List.foldl_append, List.foldl_cons, List.foldl_nil]
      rw [hReplay]
      cases c with
      | allocate owner n b =>
          apply h.allocate owner n b
          intro hEq
          subst hEq
          exact hBudget owner b (List.mem_append_right _
            (List.mem_singleton_self _))
      | count owner n k => exact h.count owner n k
      | withdraw origin => exact h.withdraw origin

------------------------------------------------------------
-- Accounts
------------------------------------------------------------

/- The attributes that are entered as members of a note. -/
def entries (book : Rulebook) (note : Key) : List Key :=
  match book.allocations[note]? with
  | none => []
  | some a => a.keys

/-
  The rulebook holds what calls say of a note: an allocation
  with one budget rule while the note is declared, and one
  entry and one rule for each member that counts.
-/
structure IsAccountOf
    (book : Rulebook)
    (calls : List AllocationCall)
    (note budget : Key) : Prop where
  allocation :
    (∃ a, book.allocations[note]? = some a) ↔
      IsDeclared calls note
  ofNote : ∀ a, book.allocations[note]? = some a →
    a.note = note ∧ a.budget = budget
  budgetRule :
    book.rules.countP (·.parts = .ofBudget note budget) = 1 ↔
      IsDeclared calls note
  budgetRule_le :
    book.rules.countP (·.parts = .ofBudget note budget) ≤ 1
  entry : ∀ key,
    (book.entries note).count key = 1 ↔ IsCounted calls note key
  entry_le : ∀ key, (book.entries note).count key ≤ 1
  memberRule : ∀ key,
    book.rules.countP (·.parts = .ofMember note key) = 1 ↔
      IsCounted calls note key
  memberRule_le : ∀ key,
    book.rules.countP (·.parts = .ofMember note key) ≤ 1
  only : ∀ r ∈ book.rules, r.target = note →
    r.parts = .ofBudget note budget ∨
      ∃ key, r.parts = .ofMember note key

/- Owned rules are shared, and shared ones are owned. -/
theorem IsNumbered.exists_owns_iff
    (h : book.IsNumbered)
    {parts : RuleParts} :
    (∃ w, book.Owns w parts) ↔ ∃ seq, book.Shares parts seq := by
  constructor
  · intro hOwned
    rcases hOwned with ⟨w, hOwns⟩
    exact hOwns.exists_shares
  · intro hShared
    rcases hShared with ⟨seq, hShares⟩
    exact h.exists_owns hShares

/- Members are entered once each, with their rules. -/
theorem IsConsistent.count_entries
    (h : book.IsConsistent)
    (note key : Key) :
    (book.entries note).count key ≤ 1 ∧
      ((book.entries note).count key = 1 ↔
        ∃ seq, book.Shares (.ofMember note key) seq) := by
  unfold entries
  cases ha : book.allocations[note]? with
  | none =>
      refine ⟨by simp, fun hOne => by simp at hOne, ?_⟩
      intro hShared
      rcases hShared with ⟨seq, hShares⟩
      rcases h.member note key seq hShares with ⟨a, hThere⟩
      rw [ha] at hThere
      cases hThere
  | some a =>
      have hOwn := h.allocation note a ha
      have hMem :
          key ∈ a.keys ↔
            ∃ seq, book.Shares (.ofMember note key) seq := by
        simp only [← hOwn.members, Allocation.keys]
        simp
      refine ⟨List.nodup_iff_count_le_one.mp hOwn.nodup key, ?_⟩
      rw [← hMem]
      constructor
      · intro hOne
        exact List.count_pos_iff.mp (hOne ▸ Nat.zero_lt_one)
      · exact List.count_eq_one_of_mem hOwn.nodup

/-
  Whatever calls are made in whatever order, a rulebook keeps
  account of a note that is always declared with one budget.
-/
theorem isAccountOf_replay
    (settings : Settings)
    (calls : List AllocationCall)
    (note budget : Key)
    (hBudget : ∀ owner b,
      .allocate owner note b ∈ calls → b = budget) :
    (replay settings calls).IsAccountOf calls note budget := by
  have h := follows_replay settings calls note budget hBudget
  have hRules :=
    countP_parts h.consistent h.joint
  have hDeclared :
      (∃ seq, (replay settings calls).Shares
        (.ofBudget note budget) seq) ↔
          IsDeclared calls note := by
    rw [← h.consistent.exists_owns_iff]
    exact exists_congr h.declared
  have hCounted (key : Key) :
      (∃ seq, (replay settings calls).Shares
        (.ofMember note key) seq) ↔
          IsCounted calls note key := by
    rw [← h.consistent.exists_owns_iff]
    exact exists_congr fun w => h.counted w key
  exact
    { allocation := h.exists_allocation_iff
      ofNote := fun a ha =>
        ⟨(h.consistent.allocation note a ha).note_eq,
          h.budget_eq ha⟩
      budgetRule := (hRules _).2.trans hDeclared
      budgetRule_le := (hRules _).1
      entry := fun key =>
        (h.consistent.count_entries note key).2.trans
          (hCounted key)
      entry_le := fun key =>
        (h.consistent.count_entries note key).1
      memberRule := fun key => (hRules _).2.trans (hCounted key)
      memberRule_le := fun key => (hRules _).1
      only := fun r hr hTarget =>
        h.parts r.parts r.seq (h.joint r hr) hTarget }

/-
  A declaration of two owners stands when the first of them is
  withdrawn.
-/
theorem isAccountOf_of_two_owners :
    let calls : List AllocationCall :=
      [.allocate (some ⟨"Feat", "Alert"⟩) "note" "budget",
        .count (some ⟨"Feat", "Lucky"⟩) "note" "member",
        .allocate (some ⟨"Feat", "Lucky"⟩) "note" "budget",
        .withdraw ⟨"Feat", "Alert"⟩]
    (∀ owner b,
      .allocate owner "note" b ∈ calls → b = "budget") ∧
      (replay .standard calls).IsAccountOf calls "note"
        "budget" := by
  have hBudget : ∀ (owner : Owner) (b : Key),
      AllocationCall.allocate owner "note" b ∈
        [.allocate (some ⟨"Feat", "Alert"⟩) "note" "budget",
          .count (some ⟨"Feat", "Lucky"⟩) "note" "member",
          .allocate (some ⟨"Feat", "Lucky"⟩) "note" "budget",
          .withdraw ⟨"Feat", "Alert"⟩] → b = "budget" := by
    intro owner b hIn
    simp only [List.mem_cons, List.not_mem_nil, reduceCtorEq,
      allocate.injEq, or_false, false_or] at hIn
    rcases hIn with ⟨_, _, hFirst⟩ | ⟨_, _, hSecond⟩
    · exact hFirst
    · exact hSecond
  exact ⟨hBudget, isAccountOf_replay _ _ _ _ hBudget⟩

end Rulebook

end CharSheet
