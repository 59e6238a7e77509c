import CharSheet.Proofs.Rulebook.OwnRules

/-
  What a rulebook is without some of its owners.

  The remainder has the own rules of the other owners and
  their part in joint rules.  It is what it was after one of
  the owners that go is withdrawn.

  Main declarations:
    * `Rulebook.IsRemainder`
    * `Rulebook.IsRemainder.both`, `Rulebook.IsRemainder.left`
    * `Rulebook.IsRemainder.withdraw`
    * `Rulebook.IsAllocated`
-/

namespace CharSheet

namespace Rulebook

variable {book other rest rest' : Rulebook}
variable {gone : Owner → Bool}
variable {owner : Owner}
variable {origin : Origin}

------------------------------------------------------------
-- Remainders
------------------------------------------------------------

/-
  The second rulebook has what the first one has of owners
  that are not gone.
-/
structure IsRemainder
    (gone : Owner → Bool)
    (book rest : Rulebook) : Prop where
  settings : rest.settings = book.settings
  own : rest.ownRules.map Rule.unnumbered =
    (book.ownRules.map Rule.unnumbered).filter fun r =>
      !gone r.owner
  owns : ∀ w p,
    rest.Owns w p ↔ book.Owns w p ∧ gone w = false

/- Both rulebooks may add the same for an owner that stays. -/
theorem IsRemainder.both
    (h : IsRemainder gone book rest)
    (hOwner : gone owner = false)
    {own : List Rule}
    {parts : List RuleParts}
    (hBook : Adds book other owner own parts)
    (hRest : Adds rest rest' owner own parts) :
    IsRemainder gone other rest' where
  settings := by
    rw [hRest.settings_eq, hBook.settings_eq, h.settings]
  own := by
    have hKept : own.filter (fun r => !gone r.owner) = own := by
      apply List.filter_eq_self.mpr
      intro r hr
      rw [hBook.owner_eq r hr, hOwner]
      rfl
    rw [hRest.ownRules_eq, hBook.ownRules_eq, h.own,
      List.filter_append, hKept]
  owns := by
    intro w p
    rw [hRest.owns_iff, hBook.owns_iff, h.owns]
    constructor
    · intro hOr
      rcases hOr with ⟨hOld, hStays⟩ | ⟨rfl, hIn⟩
      · exact ⟨Or.inl hOld, hStays⟩
      · exact ⟨Or.inr ⟨rfl, hIn⟩, hOwner⟩
    · intro hBoth
      rcases hBoth with ⟨hOld | hNew, hStays⟩
      · exact Or.inl ⟨hOld, hStays⟩
      · exact Or.inr hNew

/- The first rulebook may add things for one that goes. -/
theorem IsRemainder.left
    (h : IsRemainder gone book rest)
    (hOwner : gone owner = true)
    {own : List Rule}
    {parts : List RuleParts}
    (hBook : Adds book other owner own parts) :
    IsRemainder gone other rest where
  settings := by
    rw [hBook.settings_eq, h.settings]
  own := by
    have hNone : own.filter (fun r => !gone r.owner) = [] := by
      apply List.filter_eq_nil_iff.mpr
      intro r hr
      rw [hBook.owner_eq r hr, hOwner]
      simp
    rw [hBook.ownRules_eq, h.own, List.filter_append, hNone,
      List.append_nil]
  owns := by
    intro w p
    rw [hBook.owns_iff, h.owns]
    constructor
    · intro hBoth
      exact ⟨Or.inl hBoth.1, hBoth.2⟩
    · intro hBoth
      rcases hBoth with ⟨hOld | ⟨rfl, _⟩, hStays⟩
      · exact ⟨hOld, hStays⟩
      · rw [hOwner] at hStays
        cases hStays

/- An allocation is known by the owners of its budget rule. -/
theorem IsConsistent.exists_allocation_iff
    (h : book.IsConsistent)
    {note budget : Key} :
    (∃ a, book.allocations[note]? = some a ∧
        a.budget = budget) ↔
      ∃ w, book.Owns w (.ofBudget note budget) := by
  constructor
  · intro hSome
    rcases hSome with ⟨a, ha, rfl⟩
    exact h.exists_owns (h.allocation note a ha).budget
  · intro hSome
    rcases hSome with ⟨w, hOwns⟩
    rcases hOwns.exists_shares with ⟨seq, hShares⟩
    rcases h.budget note budget seq hShares with
      ⟨a, ha, hBudget, _⟩
    exact ⟨a, ha, hBudget⟩

/- The note has an allocation. -/
def IsAllocated (book : Rulebook) (note : Key) : Prop :=
  ∃ a, book.allocations[note]? = some a

theorem IsConsistent.isAllocated_iff
    (h : book.IsConsistent)
    {note : Key} :
    book.IsAllocated note ↔
      ∃ budget w, book.Owns w (.ofBudget note budget) := by
  simp only [← h.exists_allocation_iff]
  exact ⟨fun ⟨a, ha⟩ => ⟨_, a, ha, rfl⟩,
    fun ⟨_, a, ha, _⟩ => ⟨a, ha⟩⟩

/- What has an allocation in the remainder has it before. -/
theorem IsRemainder.exists_allocation
    (h : IsRemainder gone book rest)
    (hBook : book.IsConsistent)
    (hRest : rest.IsConsistent)
    {note : Key}
    {a : Allocation}
    (ha : rest.allocations[note]? = some a) :
    ∃ b, book.allocations[note]? = some b ∧
      b.budget = a.budget := by
  rcases hRest.exists_allocation_iff.mp ⟨a, ha, rfl⟩ with
    ⟨w, hOwns⟩
  exact hBook.exists_allocation_iff.mpr
    ⟨w, ((h.owns w _).mp hOwns).1⟩

/-
  The remainder stays the same when an owner that goes is
  withdrawn.  Members whose owners stay are kept, since the
  budget rule of their note has such an owner as well.
-/
theorem IsRemainder.withdraw
    (h : IsRemainder gone book rest)
    (hBook : book.IsConsistent)
    (hRest : rest.IsConsistent)
    (hGone : gone (some origin) = true) :
    IsRemainder gone (book.withdraw origin) rest where
  settings := h.settings
  own := by
    rw [hBook.ownRules_withdraw, h.own, List.filter_map,
      List.filter_map, List.filter_filter]
    congr 1
    apply List.filter_congr
    intro r _
    by_cases hOwner : r.owner = some origin
    · simp [Rule.unnumbered, hOwner, hGone]
    · simp [Rule.unnumbered, hOwner]
  owns := by
    intro w p
    rw [h.owns]
    apply and_congr_left
    intro hStays
    have hOther : w ≠ some origin := by
      rintro rfl
      rw [hGone] at hStays
      cases hStays
    by_cases hMember : ∃ n k, p = .ofMember n k
    · rcases hMember with ⟨n, k, rfl⟩
      constructor
      · intro hOwns
        have hThere := (h.owns w _).mpr ⟨hOwns, hStays⟩
        rcases hThere.exists_shares with ⟨seq, hShares⟩
        rcases hRest.member n k seq hShares with ⟨a, ha⟩
        rcases h.exists_allocation hBook hRest ha with
          ⟨b, hb, hBudget⟩
        rcases hRest.exists_allocation_iff.mp ⟨a, ha, rfl⟩ with
          ⟨v, hOwner⟩
        rcases (h.owns v _).mp hOwner with ⟨hOwner, hKept⟩
        refine (hBook.owns_withdraw_member hb).mpr
          ⟨hOwns, hOther, v, ?_, ?_⟩
        · rw [hBudget]
          exact hOwner
        · rintro rfl
          rw [hGone] at hKept
          cases hKept
      · intro hOwns
        rcases hOwns.exists_shares with ⟨seq, hShares⟩
        exact ((hBook.owns_withdraw_iff
          (shares_withdraw.mp hShares).1).mp hOwns).1
    · have hElse : ∀ n k, p ≠ .ofMember n k := by
        intro n k hEq
        exact hMember ⟨n, k, hEq⟩
      rw [hBook.owns_withdraw_of_ne hElse]
      exact (and_iff_left hOther).symm

end Rulebook

end CharSheet
