import CharSheet.Rulebook.Basic
import Mathlib.Data.List.Basic

/-
  Histories of allocations.

  What a rulebook should count can be told from the calls that
  were made, by whom, and from the withdrawals since then.

  Main declarations:
    * `AllocationCall`
    * `AllocationCall.replay`
    * `AllocationCall.IsDeclared`
    * `AllocationCall.IsCounted`
-/

namespace CharSheet

/- A call by which allocations and their members change. -/
inductive AllocationCall where
  | allocate (owner : Owner) (note budget : Key)
  | count (owner : Owner) (note key : Key)
  | withdraw (origin : Origin)

namespace AllocationCall

/- Carry out a call. -/
def apply (book : Rulebook) : AllocationCall → Rulebook
  | .allocate owner note budget =>
      book.declare owner (.allocation note budget)
  | .count owner note key =>
      book.declare owner (.member note key)
  | .withdraw origin => book.withdraw origin

/- Carry out calls on a rulebook that is empty at first. -/
def replay
    (settings : Settings)
    (calls : List AllocationCall) : Rulebook :=
  calls.foldl apply (Rulebook.empty settings)

------------------------------------------------------------
-- What Stands
------------------------------------------------------------

/- The call does not withdraw what belongs to the owner. -/
def Spares (owner : Owner) (c : AllocationCall) : Prop :=
  ∀ origin, c = .withdraw origin → owner ≠ some origin

/- A declaration of the owner that still stands. -/
def DeclaredBy
    (calls : List AllocationCall)
    (owner : Owner)
    (note : Key) : Prop :=
  ∃ before budget after,
    calls = before ++ .allocate owner note budget :: after ∧
      ∀ c ∈ after, Spares owner c

/- Some owner's declaration of the note still stands. -/
def IsDeclared
    (calls : List AllocationCall)
    (note : Key) : Prop :=
  ∃ owner, DeclaredBy calls owner note

/-
  A member that the owner named, and that still stands.  The
  note has been declared at every moment since then.
-/
def CountedBy
    (calls : List AllocationCall)
    (owner : Owner)
    (note key : Key) : Prop :=
  ∃ before after,
    calls = before ++ .count owner note key :: after ∧
      (∀ c ∈ after, Spares owner c) ∧
        ∀ since, since <+: after →
          IsDeclared (before ++ .count owner note key :: since)
            note

/- Some owner's naming of the member still stands. -/
def IsCounted
    (calls : List AllocationCall)
    (note key : Key) : Prop :=
  ∃ owner, CountedBy calls owner note key

------------------------------------------------------------
-- One More Call
------------------------------------------------------------

variable {calls before after : List AllocationCall}
variable {c d : AllocationCall}
variable {owner : Owner}
variable {note key : Key}

/- A call of a longer history is the last or an earlier one. -/
theorem concat_eq_append_cons_iff :
    calls ++ [c] = before ++ d :: after ↔
      (before = calls ∧ d = c ∧ after = []) ∨
        ∃ rest, after = rest ++ [c] ∧
          calls = before ++ d :: rest := by
  rcases List.eq_nil_or_concat after with
    rfl | ⟨rest, last, rfl⟩
  · constructor
    · intro h
      rcases List.append_inj' h rfl with ⟨hBefore, hLast⟩
      cases hLast
      exact Or.inl ⟨hBefore.symm, rfl, rfl⟩
    · intro hOr
      rcases hOr with ⟨rfl, rfl, _⟩ | ⟨rest, hNil, _⟩
      · rfl
      · simp at hNil
  · have hAssoc :
        before ++ d :: (rest ++ [last]) =
          (before ++ d :: rest) ++ [last] := by simp
    rw [List.concat_eq_append, hAssoc]
    constructor
    · intro h
      rcases List.append_inj' h rfl with ⟨hBefore, hLast⟩
      cases hLast
      exact Or.inr ⟨rest, rfl, hBefore⟩
    · intro hOr
      rcases hOr with ⟨_, _, hNil⟩ | ⟨rest', hAfter, hCalls⟩
      · simp at hNil
      · rcases List.append_inj' hAfter rfl with ⟨rfl, hLast⟩
        cases hLast
        rw [hCalls]

/- A declaration is new or has been spared. -/
theorem declaredBy_concat_iff :
    DeclaredBy (calls ++ [c]) owner note ↔
      (∃ budget, c = .allocate owner note budget) ∨
        (DeclaredBy calls owner note ∧ Spares owner c) := by
  unfold DeclaredBy
  simp only [concat_eq_append_cons_iff]
  constructor
  · intro hDeclared
    rcases hDeclared with
      ⟨before, budget, after, hSplit, hSpares⟩
    rcases hSplit with ⟨rfl, rfl, rfl⟩ | ⟨rest, rfl, rfl⟩
    · exact Or.inl ⟨budget, rfl⟩
    · refine Or.inr ⟨⟨before, budget, rest, rfl, ?_⟩, ?_⟩
      · intro d hd
        exact hSpares d (List.mem_append_left _ hd)
      · exact hSpares c (List.mem_append_right _
          (List.mem_singleton_self c))
  · intro hOr
    rcases hOr with ⟨budget, rfl⟩ | ⟨hOld, hLast⟩
    · exact ⟨calls, budget, [], Or.inl ⟨rfl, rfl, rfl⟩,
        fun _ hd => absurd hd List.not_mem_nil⟩
    · rcases hOld with ⟨before, budget, rest, rfl, hSpares⟩
      refine ⟨before, budget, rest ++ [c],
        Or.inr ⟨rest, rfl, rfl⟩, ?_⟩
      intro d hd
      rcases List.mem_append.mp hd with hOld | hNew
      · exact hSpares d hOld
      · rw [List.mem_singleton.mp hNew]
        exact hLast

/- A member counts anew or still, while its note is declared. -/
theorem countedBy_concat_iff :
    CountedBy (calls ++ [c]) owner note key ↔
      (c = .count owner note key ∨
        (CountedBy calls owner note key ∧ Spares owner c)) ∧
          IsDeclared (calls ++ [c]) note := by
  unfold CountedBy
  simp only [concat_eq_append_cons_iff]
  constructor
  · intro hCounted
    rcases hCounted with
      ⟨before, after, hSplit, hSpares, hSince⟩
    rcases hSplit with ⟨rfl, rfl, rfl⟩ | ⟨rest, rfl, rfl⟩
    · exact ⟨Or.inl rfl, hSince [] List.nil_prefix⟩
    · refine ⟨Or.inr ⟨⟨before, rest, rfl, ?_, ?_⟩, ?_⟩, ?_⟩
      · intro d hd
        exact hSpares d (List.mem_append_left _ hd)
      · intro since hPrefix
        exact hSince since
          (hPrefix.trans (List.prefix_append _ _))
      · exact hSpares c (List.mem_append_right _
          (List.mem_singleton_self c))
      · have hAll := hSince _ List.prefix_rfl
        simpa using hAll
  · intro hBoth
    rcases hBoth with ⟨rfl | ⟨hOld, hLast⟩, hDeclared⟩
    · refine ⟨calls, [], Or.inl ⟨rfl, rfl, rfl⟩,
        fun _ hd => absurd hd List.not_mem_nil, ?_⟩
      intro since hPrefix
      rw [List.prefix_nil.mp hPrefix]
      exact hDeclared
    · rcases hOld with ⟨before, rest, rfl, hSpares, hSince⟩
      refine ⟨before, rest ++ [c],
        Or.inr ⟨rest, rfl, rfl⟩, ?_, ?_⟩
      · intro d hd
        rcases List.mem_append.mp hd with hOld | hNew
        · exact hSpares d hOld
        · rw [List.mem_singleton.mp hNew]
          exact hLast
      · intro since hPrefix
        rcases List.prefix_concat_iff.mp hPrefix with
          rfl | hEarlier
        · simpa using hDeclared
        · exact hSince since hEarlier

/- Nothing is declared before the first call. -/
theorem not_declaredBy_nil : ¬ DeclaredBy [] owner note := by
  intro hDeclared
  rcases hDeclared with ⟨before, budget, after, hCalls, _⟩
  simp at hCalls

/- Nothing is counted before the first call. -/
theorem not_countedBy_nil : ¬ CountedBy [] owner note key := by
  intro hCounted
  rcases hCounted with ⟨before, after, hCalls, _⟩
  simp at hCalls

/- A member counts only while its note is declared. -/
theorem CountedBy.isDeclared
    (h : CountedBy calls owner note key) :
    IsDeclared calls note := by
  rcases h with ⟨before, after, rfl, _, hSince⟩
  exact hSince after List.prefix_rfl

/- A call that withdraws nothing spares all. -/
theorem spares_allocate
    {w : Owner}
    {budget : Key} :
    Spares w (.allocate owner note budget) := by
  intro origin h
  cases h

theorem spares_count
    {w : Owner} :
    Spares w (.count owner note key) := by
  intro origin h
  cases h

theorem spares_withdraw_iff
    {origin : Origin} :
    Spares owner (.withdraw origin) ↔ owner ≠ some origin := by
  constructor
  · intro h
    exact h origin rfl
  · intro h other hEq
    cases hEq
    exact h

------------------------------------------------------------
-- Each Call
------------------------------------------------------------

variable {w : Owner}
variable {n k budget : Key}
variable {origin : Origin}

/- A declaration adds its owner to those of the note. -/
theorem declaredBy_allocate_iff :
    DeclaredBy (calls ++ [.allocate owner n budget]) w note ↔
      DeclaredBy calls w note ∨ (w = owner ∧ n = note) := by
  rw [declaredBy_concat_iff]
  constructor
  · intro hOr
    rcases hOr with ⟨budget', hCall⟩ | ⟨hOld, _⟩
    · cases hCall
      exact Or.inr ⟨rfl, rfl⟩
    · exact Or.inl hOld
  · intro hOr
    rcases hOr with hOld | ⟨rfl, rfl⟩
    · exact Or.inr ⟨hOld, spares_allocate⟩
    · exact Or.inl ⟨budget, rfl⟩

theorem countedBy_allocate_iff :
    CountedBy (calls ++ [.allocate owner n budget]) w note key ↔
      CountedBy calls w note key := by
  rw [countedBy_concat_iff]
  constructor
  · intro hBoth
    rcases hBoth with ⟨hCall | ⟨hOld, _⟩, _⟩
    · cases hCall
    · exact hOld
  · intro hOld
    rcases hOld.isDeclared with ⟨v, hv⟩
    exact ⟨Or.inr ⟨hOld, spares_allocate⟩,
      v, declaredBy_allocate_iff.mpr (Or.inl hv)⟩

/- The naming of a member counts while its note is declared. -/
theorem declaredBy_count_iff :
    DeclaredBy (calls ++ [.count owner n k]) w note ↔
      DeclaredBy calls w note := by
  rw [declaredBy_concat_iff]
  constructor
  · intro hOr
    rcases hOr with ⟨budget, hCall⟩ | ⟨hOld, _⟩
    · cases hCall
    · exact hOld
  · intro hOld
    exact Or.inr ⟨hOld, spares_count⟩

theorem countedBy_count_iff :
    CountedBy (calls ++ [.count owner n k]) w note key ↔
      (CountedBy calls w note key ∨
        (w = owner ∧ n = note ∧ k = key)) ∧
          IsDeclared calls note := by
  rw [countedBy_concat_iff]
  refine and_congr ?_
    (exists_congr fun _ => declaredBy_count_iff)
  constructor
  · intro hOr
    rcases hOr with hCall | ⟨hOld, _⟩
    · cases hCall
      exact Or.inr ⟨rfl, rfl, rfl⟩
    · exact Or.inl hOld
  · intro hOr
    rcases hOr with hOld | ⟨rfl, rfl, rfl⟩
    · exact Or.inr ⟨hOld, spares_count⟩
    · exact Or.inl rfl

/- A withdrawal leaves what belongs to other owners. -/
theorem declaredBy_withdraw_iff :
    DeclaredBy (calls ++ [.withdraw origin]) w note ↔
      DeclaredBy calls w note ∧ w ≠ some origin := by
  rw [declaredBy_concat_iff, spares_withdraw_iff]
  constructor
  · intro hOr
    rcases hOr with ⟨budget, hCall⟩ | hOld
    · cases hCall
    · exact hOld
  · exact Or.inr

theorem countedBy_withdraw_iff :
    CountedBy (calls ++ [.withdraw origin]) w note key ↔
      CountedBy calls w note key ∧ w ≠ some origin ∧
        ∃ v, DeclaredBy calls v note ∧ v ≠ some origin := by
  rw [countedBy_concat_iff, spares_withdraw_iff, ← and_assoc]
  refine and_congr ?_
    (exists_congr fun _ => declaredBy_withdraw_iff)
  constructor
  · intro hOr
    rcases hOr with hCall | hOld
    · cases hCall
    · exact hOld
  · exact Or.inr

end AllocationCall

end CharSheet
