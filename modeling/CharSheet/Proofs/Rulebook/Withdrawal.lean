import CharSheet.Proofs.Rulebook.Consistency
import Mathlib.Data.List.Induction
import Mathlib.Data.List.Pairwise

/-
  What a withdrawal leaves of a consistent rulebook.

  The sweep drops rules while it passes over allocations.  In
  a consistent rulebook the order of allocations does not
  matter: the rules of members that one of them drops are
  neither members nor budget rules of another one.

  Main declarations:
    * `Rulebook.isSwept_foldl`
    * `Rulebook.left`, `Rulebook.dropped`
    * `Rulebook.IsConsistent.mem_dropped_iff`
    * `Rulebook.IsConsistent.getElem?_withdraw`
    * `Rulebook.shares_withdraw`
    * `Rulebook.IsConsistent.withdraw`
-/

namespace CharSheet

/- The numbers of the rules of members. -/
def Allocation.numbers (a : Allocation) : List Nat :=
  a.members.map (·.2)

/- The allocation without members of the given numbers. -/
def Allocation.without
    (a : Allocation)
    (dropped : List Nat) : Allocation :=
  { a with
    members := a.members.filter fun (_, seq) =>
      !dropped.contains seq }

namespace Allocation

variable {a : Allocation}
variable {key : Key}
variable {seq : Nat}

theorem mem_numbers_iff :
    seq ∈ a.numbers ↔ ∃ key, (key, seq) ∈ a.members := by
  simp [numbers]

/- A number is dropped by its value alone. -/
theorem mem_members_without_iff
    {dropped : List Nat} :
    (key, seq) ∈ (a.without dropped).members ↔
      (key, seq) ∈ a.members ∧ seq ∉ dropped := by
  simp [without]

/- What members do not have is not dropped from them. -/
theorem without_congr
    {l l' : List Nat}
    (h : ∀ seq ∈ a.numbers, seq ∈ l ↔ seq ∈ l') :
    a.without l = a.without l' := by
  have hFilter :
      (a.members.filter fun (_, seq) => !l.contains seq) =
        a.members.filter fun (_, seq) => !l'.contains seq := by
    apply List.filter_congr
    intro entry hIn
    rcases entry with ⟨key, seq⟩
    have hSame := h seq (mem_numbers_iff.mpr ⟨key, hIn⟩)
    simp [hSame]
  unfold without
  rw [hFilter]

end Allocation

namespace Rulebook

------------------------------------------------------------
-- Sweeping
------------------------------------------------------------

/-
  The numbers that the first allocation may drop do not
  concern the second one.
-/
def IsApart (a b : Allocation) : Prop :=
  ∀ seq ∈ a.numbers, seq ≠ b.budgetRule ∧ seq ∉ b.numbers

/-
  What a sweep over entries drops and keeps, given the
  numbers that it starts from.
-/
structure IsSwept
    (left : List Nat)
    (entries : List (Key × Allocation))
    (dropped : List Nat)
    (kept : Std.ExtTreeMap Key Allocation) : Prop where
  dropped : ∀ seq,
    seq ∈ dropped ↔
      seq ∈ left ∨ ∃ e ∈ entries,
        e.2.budgetRule ∈ left ∧ seq ∈ e.2.numbers
  kept : ∀ note b,
    kept[note]? = some b ↔
      ∃ a, (note, a) ∈ entries ∧ a.budgetRule ∉ left ∧
        b = a.without left

section Sweep

variable {left dropped : List Nat}
variable {entries : List (Key × Allocation)}
variable {kept : Std.ExtTreeMap Key Allocation}
variable {last : Key}
variable {c : Allocation}

/- An allocation that goes drops its members. -/
theorem IsSwept.goes
    (h : IsSwept left entries dropped kept)
    (hGoes : c.budgetRule ∈ left) :
    IsSwept left (entries ++ [(last, c)])
      (dropped ++ c.numbers) kept where
  dropped := by
    intro seq
    rw [List.mem_append, h.dropped]
    simp only [List.mem_append, List.mem_singleton]
    constructor
    · intro hOr
      rcases hOr with (hLeft | ⟨e, he, hBoth⟩) | hIn
      · exact Or.inl hLeft
      · exact Or.inr ⟨e, Or.inl he, hBoth⟩
      · exact Or.inr ⟨_, Or.inr rfl, hGoes, hIn⟩
    · intro hOr
      rcases hOr with hLeft | ⟨e, he | rfl, hBoth⟩
      · exact Or.inl (Or.inl hLeft)
      · exact Or.inl (Or.inr ⟨e, he, hBoth⟩)
      · exact Or.inr hBoth.2
  kept := by
    intro note b
    rw [h.kept]
    constructor
    · intro hSome
      rcases hSome with ⟨a, ha, hBoth⟩
      exact ⟨a, List.mem_append_left _ ha, hBoth⟩
    · intro hSome
      rcases hSome with ⟨a, ha, hStays, hEq⟩
      rcases List.mem_append.mp ha with hOld | hNew
      · exact ⟨a, hOld, hStays, hEq⟩
      · cases List.mem_singleton.mp hNew
        exact absurd hGoes hStays

/- An allocation that stays is kept without what is left. -/
theorem IsSwept.stays
    (h : IsSwept left entries dropped kept)
    (hStays : c.budgetRule ∉ left)
    (hDistinct : ∀ e ∈ entries, e.1 ≠ last) :
    IsSwept left (entries ++ [(last, c)]) dropped
      (kept.insert last (c.without left)) where
  dropped := by
    intro seq
    rw [h.dropped]
    simp only [List.mem_append, List.mem_singleton]
    constructor
    · intro hOr
      rcases hOr with hLeft | ⟨e, he, hBoth⟩
      · exact Or.inl hLeft
      · exact Or.inr ⟨e, Or.inl he, hBoth⟩
    · intro hOr
      rcases hOr with hLeft | ⟨e, he | rfl, hBoth⟩
      · exact Or.inl hLeft
      · exact Or.inr ⟨e, he, hBoth⟩
      · exact absurd hBoth.1 hStays
  kept := by
    intro note b
    rw [Key.getElem?_insert]
    by_cases hNote : note = last
    · subst hNote
      rw [if_pos rfl, Option.some.injEq]
      constructor
      · intro hEq
        subst hEq
        exact ⟨c, List.mem_append_right _
          (List.mem_singleton_self _), hStays, rfl⟩
      · intro hSome
        rcases hSome with ⟨a, ha, _, rfl⟩
        rcases List.mem_append.mp ha with hOld | hNew
        · exact absurd rfl (hDistinct _ hOld)
        · cases List.mem_singleton.mp hNew
          rfl
    · rw [if_neg hNote, h.kept]
      constructor
      · intro hSome
        rcases hSome with ⟨a, ha, hBoth⟩
        exact ⟨a, List.mem_append_left _ ha, hBoth⟩
      · intro hSome
        rcases hSome with ⟨a, ha, hBoth⟩
        rcases List.mem_append.mp ha with hOld | hNew
        · exact ⟨a, hOld, hBoth⟩
        · cases List.mem_singleton.mp hNew
          exact absurd rfl hNote

/-
  A sweep over entries that are apart depends on nothing but
  the numbers that it starts from.
-/
theorem isSwept_foldl
    (left : List Nat)
    (entries : List (Key × Allocation))
    (hApart : entries.Pairwise fun e e' => IsApart e.2 e'.2)
    (hKeys : entries.Pairwise fun e e' => e.1 ≠ e'.1) :
    IsSwept left entries (entries.foldl sweep (left, ∅)).1
      (entries.foldl sweep (left, ∅)).2 := by
  induction entries using List.reverseRecOn with
  | nil => exact ⟨by simp, by simp⟩
  | append_singleton entries entry ih =>
      rcases entry with ⟨last, c⟩
      rw [List.pairwise_append] at hApart hKeys
      have hLast := List.mem_singleton_self (last, c)
      have hOther : ∀ e ∈ entries, IsApart e.2 c :=
        fun e he => hApart.2.2 e he _ hLast
      have hDistinct : ∀ e ∈ entries, e.1 ≠ last :=
        fun e he => hKeys.2.2 e he _ hLast
      have hSwept := ih hApart.1 hKeys.1
      rw [List.foldl_append, List.foldl_cons, List.foldl_nil]
      cases hFold : entries.foldl sweep (left, ∅) with
      | mk dropped kept =>
          rw [hFold] at hSwept
          -- Earlier entries drop nothing of this one.
          have hRule : c.budgetRule ∈ dropped ↔
              c.budgetRule ∈ left := by
            refine (hSwept.dropped _).trans ⟨?_, Or.inl⟩
            intro hOr
            rcases hOr with hLeft | ⟨e, he, _, hNumber⟩
            · exact hLeft
            · exact absurd rfl (hOther e he _ hNumber).1
          have hNumbers : ∀ seq ∈ c.numbers,
              seq ∈ dropped ↔ seq ∈ left := by
            intro seq hIn
            refine (hSwept.dropped seq).trans ⟨?_, Or.inl⟩
            intro hOr
            rcases hOr with hLeft | ⟨e, he, _, hNumber⟩
            · exact hLeft
            · exact absurd hIn (hOther e he seq hNumber).2
          by_cases hGoes : c.budgetRule ∈ left
          · have hThere :=
              List.contains_iff_mem.mpr (hRule.mpr hGoes)
            have hSweep :
                sweep (dropped, kept) (last, c) =
                  (dropped ++ c.numbers, kept) :=
              if_pos hThere
            rw [hSweep]
            exact hSwept.goes hGoes
          · have hNot :
                ¬ dropped.contains c.budgetRule = true := by
              simpa [hRule] using hGoes
            have hSweep :
                sweep (dropped, kept) (last, c) =
                  (dropped,
                    kept.insert last (c.without dropped)) :=
              if_neg hNot
            rw [hSweep, Allocation.without_congr hNumbers]
            exact hSwept.stays hGoes hDistinct

end Sweep

------------------------------------------------------------
-- What Is Dropped
------------------------------------------------------------

variable {book : Rulebook}
variable {origin : Origin}
variable {parts : RuleParts}
variable {note key : Key}
variable {seq : Nat}

/- The numbers of the shared rules that lose all owners. -/
def left (book : Rulebook) (origin : Origin) : List Nat :=
  ((disowned book.shared origin).filter
    (·.owners.isEmpty)).map (·.seq)

/- The numbers of all shared rules that are dropped. -/
def dropped (book : Rulebook) (origin : Origin) : List Nat :=
  (book.allocations.toList.foldl sweep
    (book.left origin, ∅)).1

/- A shared rule is left if nobody else owns it. -/
theorem mem_left_iff
    (h : book.IsNumbered)
    (hShares : book.Shares parts seq) :
    seq ∈ book.left origin ↔
      ∀ w, book.Owns w parts → w = some origin := by
  have hLeft :
      seq ∈ book.left origin ↔
        ∃ s ∈ book.shared,
          (∀ w ∈ s.owners, w = some origin) ∧ s.seq = seq := by
    simp [left, disowned, and_assoc]
  rw [hLeft]
  rcases hShares with ⟨s, hs, rfl, rfl⟩
  constructor
  · intro hSome w hOwns
    rcases hSome with ⟨t, ht, hOwners, hSeq⟩
    rcases hOwns with ⟨u, hu, hParts, hOwner⟩
    have hSame : t.parts = s.parts :=
      h.parts_eq ⟨t, ht, rfl, hSeq⟩ ⟨s, hs, rfl, rfl⟩
    rw [h.shared_eq hu ht (hParts.trans hSame.symm)] at hOwner
    exact hOwners w hOwner
  · intro hAll
    exact ⟨s, hs, fun w hw => hAll w ⟨s, hs, rfl, hw⟩, rfl⟩

/- Only numbers of shared rules are left. -/
theorem exists_shares_of_mem_left
    (h : seq ∈ book.left origin) :
    ∃ parts, book.Shares parts seq := by
  rcases List.mem_map.mp h with ⟨s', hs', rfl⟩
  rcases List.mem_map.mp (List.mem_of_mem_filter hs') with
    ⟨s, hs, rfl⟩
  exact ⟨s.parts, s, hs, rfl, rfl⟩

/- The rule of a member is not the rule of a budget. -/
theorem IsConsistent.seq_ne_budgetRule
    (h : book.IsConsistent)
    {a b : Allocation}
    {n : Key}
    (ha : book.allocations[note]? = some a)
    (hb : book.allocations[n]? = some b)
    (hNumber : seq ∈ a.numbers) :
    seq ≠ b.budgetRule := by
  intro hEq
  subst hEq
  rcases Allocation.mem_numbers_iff.mp hNumber with ⟨key, hIn⟩
  have hMember :=
    ((h.allocation note a ha).members key _).mp hIn
  have hParts :=
    h.parts_eq hMember (h.allocation n b hb).budget
  cases hParts

/- Allocations of different notes share no members. -/
theorem IsConsistent.note_eq
    (h : book.IsConsistent)
    {a b : Allocation}
    {n : Key}
    (ha : book.allocations[note]? = some a)
    (hb : book.allocations[n]? = some b)
    (hNumber : seq ∈ a.numbers)
    (hOther : seq ∈ b.numbers) :
    note = n := by
  rcases Allocation.mem_numbers_iff.mp hNumber with ⟨k, hIn⟩
  rcases Allocation.mem_numbers_iff.mp hOther with ⟨k', hIn'⟩
  have hMember := ((h.allocation note a ha).members k seq).mp hIn
  have hMember' := ((h.allocation n b hb).members k' seq).mp hIn'
  have hParts := h.parts_eq hMember hMember'
  cases hParts
  rfl

/- A withdrawal sweeps over allocations that are apart. -/
theorem IsConsistent.isSwept
    (h : book.IsConsistent)
    (origin : Origin) :
    IsSwept (book.left origin) book.allocations.toList
      (book.dropped origin)
      (book.withdraw origin).allocations := by
  have hKeys : book.allocations.toList.Pairwise
      fun e e' => e.1 ≠ e'.1 := by
    apply Std.ExtTreeMap.distinct_keys_toList.imp
    intro e e' hNe hEq
    rw [hEq] at hNe
    exact hNe Std.ReflCmp.compare_self
  refine isSwept_foldl _ _ ?_ hKeys
  apply hKeys.imp_of_mem
  intro entry later ha hb hNe seq hNumber
  rcases entry with ⟨n, a⟩
  rcases later with ⟨m, b⟩
  rw [Std.ExtTreeMap.mem_toList_iff_getElem?_eq_some] at ha hb
  exact ⟨h.seq_ne_budgetRule ha hb hNumber,
    fun hOther => hNe (h.note_eq ha hb hNumber hOther)⟩

/-
  What is dropped is left, or counts as a member for a budget
  that is left.
-/
theorem IsConsistent.mem_dropped_iff
    (h : book.IsConsistent) :
    seq ∈ book.dropped origin ↔
      seq ∈ book.left origin ∨ ∃ (note : Key) (a : Allocation),
        book.allocations[note]? = some a ∧
          a.budgetRule ∈ book.left origin ∧
            seq ∈ a.numbers := by
  rw [(h.isSwept origin).dropped]
  simp [Std.ExtTreeMap.mem_toList_iff_getElem?_eq_some]

/- An allocation stays unless its budget rule is left. -/
theorem IsConsistent.getElem?_withdraw
    (h : book.IsConsistent)
    {b : Allocation} :
    (book.withdraw origin).allocations[note]? = some b ↔
      ∃ a, book.allocations[note]? = some a ∧
        a.budgetRule ∉ book.left origin ∧
          b = a.without (book.left origin) := by
  rw [(h.isSwept origin).kept]
  simp only [Std.ExtTreeMap.mem_toList_iff_getElem?_eq_some]

/- Only members can be dropped without being left. -/
theorem IsConsistent.mem_dropped_of_ne
    (h : book.IsConsistent)
    (hShares : book.Shares parts seq)
    (hOther : ∀ n k, parts ≠ .ofMember n k) :
    seq ∈ book.dropped origin ↔ seq ∈ book.left origin := by
  rw [h.mem_dropped_iff]
  refine ⟨?_, Or.inl⟩
  intro hOr
  rcases hOr with hLeft | ⟨n, a, ha, _, hNumber⟩
  · exact hLeft
  · rcases Allocation.mem_numbers_iff.mp hNumber with ⟨k, hIn⟩
    have hMember := ((h.allocation n a ha).members k seq).mp hIn
    exact absurd (h.parts_eq hShares hMember) (hOther n k)

/- A member is dropped if its allocation goes as well. -/
theorem IsConsistent.mem_dropped_member
    (h : book.IsConsistent)
    {a : Allocation}
    (ha : book.allocations[note]? = some a)
    (hShares : book.Shares (.ofMember note key) seq) :
    seq ∈ book.dropped origin ↔
      seq ∈ book.left origin ∨
        a.budgetRule ∈ book.left origin := by
  have hNumber : seq ∈ a.numbers :=
    Allocation.mem_numbers_iff.mpr
      ⟨key, ((h.allocation note a ha).members key seq).mpr
        hShares⟩
  rw [h.mem_dropped_iff]
  constructor
  · intro hOr
    rcases hOr with hLeft | ⟨n, b, hb, hGoes, hOther⟩
    · exact Or.inl hLeft
    · have hNote := h.note_eq ha hb hNumber hOther
      subst hNote
      rw [ha, Option.some.injEq] at hb
      rw [hb]
      exact Or.inr hGoes
  · intro hOr
    rcases hOr with hLeft | hGoes
    · exact Or.inl hLeft
    · exact Or.inr ⟨note, a, ha, hGoes, hNumber⟩

------------------------------------------------------------
-- What Is Kept
------------------------------------------------------------

theorem rules_withdraw
    (book : Rulebook)
    (origin : Origin) :
    (book.withdraw origin).rules =
      book.rules.filter fun r =>
        decide (r.owner ≠ some origin) &&
          !(book.dropped origin).contains r.seq := rfl

theorem shared_withdraw
    (book : Rulebook)
    (origin : Origin) :
    (book.withdraw origin).shared =
      (disowned book.shared origin).filter fun s =>
        !(book.dropped origin).contains s.seq := rfl

/- A shared rule that is kept loses one owner at most. -/
theorem mem_shared_withdraw_iff
    {s : SharedRule} :
    s ∈ (book.withdraw origin).shared ↔
      ∃ t ∈ book.shared, t.seq ∉ book.dropped origin ∧
        s = { t with
          owners := t.owners.filter (· ≠ some origin) } := by
  rw [shared_withdraw, List.mem_filter, disowned, List.mem_map]
  constructor
  · intro hSome
    rcases hSome with ⟨⟨t, ht, rfl⟩, hKept⟩
    exact ⟨t, ht, by simpa using hKept, rfl⟩
  · intro hSome
    rcases hSome with ⟨t, ht, hKept, rfl⟩
    exact ⟨⟨t, ht, rfl⟩, by simpa using hKept⟩

/- The shared rules that are not dropped are kept. -/
theorem shares_withdraw :
    (book.withdraw origin).Shares parts seq ↔
      book.Shares parts seq ∧ seq ∉ book.dropped origin := by
  unfold Shares
  simp only [mem_shared_withdraw_iff]
  constructor
  · intro hSome
    rcases hSome with ⟨s, ⟨t, ht, hKept, rfl⟩, rfl, rfl⟩
    exact ⟨⟨t, ht, rfl, rfl⟩, hKept⟩
  · intro hSome
    rcases hSome with ⟨⟨t, ht, rfl, rfl⟩, hKept⟩
    exact ⟨_, ⟨t, ht, hKept, rfl⟩, rfl, rfl⟩

/- The origin owns nothing of what is kept. -/
theorem IsConsistent.owns_withdraw_iff
    (h : book.IsConsistent)
    (hShares : book.Shares parts seq)
    {w : Owner} :
    (book.withdraw origin).Owns w parts ↔
      book.Owns w parts ∧ w ≠ some origin ∧
        seq ∉ book.dropped origin := by
  unfold Owns
  simp only [mem_shared_withdraw_iff]
  constructor
  · intro hSome
    rcases hSome with ⟨s, ⟨t, ht, hKept, rfl⟩, hParts, hOwner⟩
    rcases List.mem_filter.mp hOwner with ⟨hOld, hOther⟩
    have hSeq : t.seq = seq :=
      h.seq_eq ⟨t, ht, hParts, rfl⟩ hShares
    rw [hSeq] at hKept
    exact ⟨⟨t, ht, hParts, hOld⟩, of_decide_eq_true hOther, hKept⟩
  · intro hSome
    rcases hSome with ⟨⟨t, ht, hParts, hOwner⟩, hOther, hKept⟩
    have hSeq : t.seq = seq :=
      h.seq_eq ⟨t, ht, hParts, rfl⟩ hShares
    rw [← hSeq] at hKept
    exact ⟨_, ⟨t, ht, hKept, rfl⟩, hParts,
      List.mem_filter.mpr ⟨hOwner, decide_eq_true hOther⟩⟩

/- Other owners keep a rule that is not that of a member. -/
theorem IsConsistent.owns_withdraw_of_ne
    (h : book.IsConsistent)
    (hOther : ∀ n k, parts ≠ .ofMember n k)
    {w : Owner} :
    (book.withdraw origin).Owns w parts ↔
      book.Owns w parts ∧ w ≠ some origin := by
  by_cases hShared : ∃ seq, book.Shares parts seq
  · rcases hShared with ⟨seq, hShares⟩
    rw [h.owns_withdraw_iff hShares]
    refine and_congr_right fun hOwns => and_iff_left_of_imp ?_
    intro hOwner hDropped
    have hLeft :=
      (h.mem_dropped_of_ne hShares hOther).mp hDropped
    exact hOwner ((mem_left_iff h.toIsNumbered hShares).mp hLeft
      w hOwns)
  · refine ⟨fun hOwns => ?_, fun hOwns => ?_⟩
    · rcases hOwns.exists_shares with ⟨seq, hShares⟩
      exact absurd ⟨seq, (shares_withdraw.mp hShares).1⟩ hShared
    · exact absurd hOwns.1.exists_shares hShared

/-
  Other owners keep the rule of a member while someone else
  owns the budget rule of the allocation.
-/
theorem IsConsistent.owns_withdraw_member
    (h : book.IsConsistent)
    {a : Allocation}
    (ha : book.allocations[note]? = some a)
    {w : Owner} :
    (book.withdraw origin).Owns w (.ofMember note key) ↔
      book.Owns w (.ofMember note key) ∧ w ≠ some origin ∧
        ∃ v, book.Owns v (.ofBudget note a.budget) ∧
          v ≠ some origin := by
  have hBudget := (h.allocation note a ha).budget
  have hStays :
      a.budgetRule ∉ book.left origin ↔
        ∃ v, book.Owns v (.ofBudget note a.budget) ∧
          v ≠ some origin := by
    rw [mem_left_iff h.toIsNumbered hBudget]
    push Not
    rfl
  rw [← hStays]
  by_cases hShared : ∃ seq, book.Shares (.ofMember note key) seq
  · rcases hShared with ⟨seq, hShares⟩
    rw [h.owns_withdraw_iff hShares,
      h.mem_dropped_member ha hShares,
      mem_left_iff h.toIsNumbered hShares]
    refine and_congr_right fun hOwns => ?_
    refine and_congr_right fun hOwner => ?_
    refine not_congr ⟨fun hOr => ?_, Or.inr⟩
    rcases hOr with hAll | hGoes
    · exact absurd (hAll w hOwns) hOwner
    · exact hGoes
  · refine ⟨fun hOwns => ?_, fun hOwns => ?_⟩
    · rcases hOwns.exists_shares with ⟨seq, hShares⟩
      exact absurd ⟨seq, (shares_withdraw.mp hShares).1⟩ hShared
    · exact absurd hOwns.1.exists_shares hShared

/- Rules are kept unless the origin or a drop takes them. -/
theorem mem_rules_withdraw_iff
    {r : Rule} :
    r ∈ (book.withdraw origin).rules ↔
      r ∈ book.rules ∧ r.owner ≠ some origin ∧
        r.seq ∉ book.dropped origin := by
  rw [rules_withdraw, List.mem_filter]
  simp

/- What is kept is numbered as before. -/
theorem IsConsistent.isNumbered_withdraw
    (h : book.IsConsistent)
    (origin : Origin) :
    (book.withdraw origin).IsNumbered where
  ordered := h.ordered.filter _
  numbered := by
    intro r hr
    exact h.numbered r (mem_rules_withdraw_iff.mp hr).1
  distinct := by
    apply List.Pairwise.filter _
    exact List.pairwise_map.mpr h.distinct
  owned := by
    intro s hs
    rcases mem_shared_withdraw_iff.mp hs with ⟨t, ht, hKept, rfl⟩
    refine ⟨?_, (h.owned t ht).2.filter _⟩
    intro hNone
    -- A shared rule without other owners would be dropped.
    have hShares : book.Shares t.parts t.seq := ⟨t, ht, rfl, rfl⟩
    refine hKept (h.mem_dropped_iff.mpr (Or.inl ?_))
    rw [mem_left_iff h.toIsNumbered hShares]
    intro w hSome
    rcases hSome with ⟨u, hu, hParts, hOwner⟩
    rw [h.shared_eq hu ht hParts] at hOwner
    by_contra hOther
    exact List.filter_eq_nil_iff.mp hNone w hOwner
      (decide_eq_true hOther)
  standing := by
    intro s hs
    rcases mem_shared_withdraw_iff.mp hs with ⟨t, ht, hKept, rfl⟩
    rcases h.standing t ht with ⟨r, hOnly, hParts, hOwner⟩
    refine ⟨r, ?_, hParts, hOwner⟩
    have hSeq : r.seq = t.seq := by
      have hIn : r ∈ book.rules.filter (·.seq = t.seq) := by
        rw [hOnly]
        exact List.mem_singleton_self r
      exact of_decide_eq_true (List.mem_filter.mp hIn).2
    rw [rules_withdraw, List.filter_comm, hOnly]
    apply List.filter_cons_of_pos
    simp [hOwner, hSeq, hKept]

/- What is kept of allocations fits to what is shared. -/
theorem IsConsistent.isBudgeted_withdraw
    (h : book.IsConsistent)
    (origin : Origin) :
    (book.withdraw origin).IsBudgeted where
  allocation := by
    intro note b hb
    rcases h.getElem?_withdraw.mp hb with ⟨a, ha, hStays, rfl⟩
    have hOld := h.allocation note a ha
    refine ⟨hOld.note_eq, ?_, ?_, ?_⟩
    · refine shares_withdraw.mpr ⟨hOld.budget, ?_⟩
      intro hDropped
      refine hStays ((h.mem_dropped_of_ne hOld.budget ?_).mp
        hDropped)
      intro n k hParts
      cases hParts
    · intro key seq
      rw [Allocation.mem_members_without_iff, hOld.members,
        shares_withdraw]
      refine and_congr_right fun hShares => ?_
      rw [h.mem_dropped_member ha hShares]
      exact not_congr
        ⟨Or.inl, fun hOr => hOr.resolve_right hStays⟩
    · exact (List.filter_sublist.map _).nodup hOld.nodup
  budget := by
    intro note budget seq hShares
    rcases shares_withdraw.mp hShares with ⟨hOld, hKept⟩
    rcases h.budget note budget seq hOld with
      ⟨a, ha, hBudget, rfl⟩
    refine ⟨_, h.getElem?_withdraw.mpr ⟨a, ha, ?_, rfl⟩,
      hBudget, rfl⟩
    intro hLeft
    exact hKept (h.mem_dropped_iff.mpr (Or.inl hLeft))
  member := by
    intro note key seq hShares
    rcases shares_withdraw.mp hShares with ⟨hOld, hKept⟩
    rcases h.member note key seq hOld with ⟨a, ha⟩
    refine ⟨_, h.getElem?_withdraw.mpr ⟨a, ha, ?_, rfl⟩⟩
    intro hGoes
    exact hKept ((h.mem_dropped_member ha hOld).mpr
      (Or.inr hGoes))

/- A withdrawal keeps a rulebook consistent. -/
theorem IsConsistent.withdraw
    (h : book.IsConsistent)
    (origin : Origin) :
    (book.withdraw origin).IsConsistent :=
  ⟨h.isNumbered_withdraw origin, h.isBudgeted_withdraw origin⟩

end Rulebook

end CharSheet
