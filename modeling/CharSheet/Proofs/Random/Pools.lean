import CharSheet.Proofs.Number.Floor
import CharSheet.Proofs.Random.Picks
import CharSheet.Proofs.Rulebook.Command
import CharSheet.Random.Fill

/-
  Picks from the pools of a kind.

  What is picked at random for a kind of choices is a member
  of the kind's allocation, is not granted, and is offered by
  an open pool.  Each pick takes one of what is left of the
  budget, so there are no more picks than the note of the
  allocation fell short by.

  Main declarations:
    * `Store.newlySet`
    * `Tried`
    * `Rulebook.tried_tryMembers`
    * `Tried.mem_kept_of_mem_newlySet`
    * `Tried.ofNat_le_of_le_length_kept`
    * `RandomAttribute.poolKind?`
    * `Rulebook.IsEligible`
    * `Rulebook.ensures_eligible_within_shortfall`
-/

namespace CharSheet

/- The attributes that were set to something else. -/
def Store.newlySet (before after : Store) : List Key :=
  after.keys.filter fun key => after[key]? ≠ before[key]?

theorem Store.newlySet_self (store : Store) :
    store.newlySet store = [] := by
  simp [newlySet]

------------------------------------------------------------
-- Members That Are Tried
------------------------------------------------------------

/-
  What trying members one after another may come to: it stops,
  or the first one is kept and takes one of what is left, or
  the first one is taken back.
-/
inductive Tried :
    List Key → Number → Store → Selection → Prop where
  | stopped (keys : List Key) (left : Number) (store : Store) :
      Tried keys left store ⟨[], store⟩
  | kept
      {key : Key}
      {keys : List Key}
      {left : Number}
      {store : Store}
      {s : Selection}
      (hOne : left.lt 1 = false)
      (h : Tried keys (left.sub 1) (store.insert key (.ofNat 1))
        s) :
      Tried (key :: keys) left store (s.after key)
  | takenBack
      {key : Key}
      {keys : List Key}
      {left : Number}
      {store : Store}
      {s : Selection}
      (h : Tried keys left
        ((store.insert key (.ofNat 1)).erase key) s) :
      Tried (key :: keys) left store s

theorem Rulebook.tried_tryMembers
    (book : Rulebook)
    (plan : Plan)
    (keys : List Key)
    (left : Number)
    (failures : Nat)
    (store : Store) :
    Tried keys left store
      (tryMembers book plan keys left failures store) := by
  induction keys generalizing left failures store with
  | nil => exact .stopped [] left store
  | cons key keys ih =>
      unfold tryMembers
      split
      · exact .stopped (key :: keys) left store
      · next hGoesOn =>
          rw [Bool.or_eq_true, not_or] at hGoesOn
          dsimp only
          split
          · exact .kept (Bool.eq_false_iff.mpr hGoesOn.1)
              (ih _ failures _)
          · exact .takenBack (ih left (failures + 1) _)

namespace Tried

variable {keys : List Key}
variable {key : Key}
variable {left : Number}
variable {store : Store}
variable {s : Selection}

/- Only what is tried is kept. -/
theorem mem_of_mem_kept
    (h : Tried keys left store s)
    (hKept : key ∈ s.kept) :
    key ∈ keys := by
  induction h with
  | stopped => cases hKept
  | kept _ _ ih =>
      rcases List.mem_cons.mp hKept with rfl | hRest
      · exact List.mem_cons_self
      · exact List.mem_cons_of_mem _ (ih hRest)
  | takenBack _ ih => exact List.mem_cons_of_mem _ (ih hKept)

/- What is not kept is left as it was, or taken out. -/
theorem getElem?_store_of_not_mem_kept
    (h : Tried keys left store s)
    (hNotKept : key ∉ s.kept) :
    s.store[key]? = store[key]? ∨ s.store[key]? = none := by
  induction h with
  | stopped => exact .inl rfl
  | @kept k _ _ store _ _ _ ih =>
      have hApart : key ≠ k := List.ne_of_not_mem_cons hNotKept
      rw [Store.agreeOff_insert store k (.ofNat 1) key hApart]
      exact ih (List.not_mem_of_not_mem_cons hNotKept)
  | @takenBack k _ _ store s _ ih =>
      by_cases hEq : key = k
      · subst hEq
        rw [Std.ExtTreeMap.getElem?_erase_self] at ih
        exact .inr ((ih hNotKept).elim id id)
      · rw [Store.agreeOff_insert store k (.ofNat 1) key hEq,
          Store.agreeOff_erase (store.insert k _) k key hEq]
        exact ih hNotKept

/- So all that is newly set has been kept. -/
theorem mem_kept_of_mem_newlySet
    (h : Tried keys left store s)
    (hNew : key ∈ store.newlySet s.store) :
    key ∈ s.kept := by
  rcases List.mem_filter.mp hNew with ⟨hIn, hChanged⟩
  have hChanged := of_decide_eq_true hChanged
  by_contra hNotKept
  rcases h.getElem?_store_of_not_mem_kept hNotKept with
    hSame | hNone
  · exact hChanged hSame
  · rw [Std.ExtTreeMap.mem_keys,
      Std.ExtTreeMap.mem_iff_isSome_getElem?, hNone] at hIn
    cases hIn

theorem length_newlySet_le
    (h : Tried keys left store s) :
    (store.newlySet s.store).length ≤ s.kept.length := by
  have hNodup : (store.newlySet s.store).Nodup :=
    Std.ExtTreeMap.nodup_keys.filter _
  apply List.Subperm.length_le
  exact hNodup.subperm fun _ => h.mem_kept_of_mem_newlySet

/-
  Each member that is kept takes one of what is left, which is
  at least one then.  One that is taken back leaves as much for
  those after it.
-/
theorem ofNat_le_of_le_length_kept
    {n : Nat}
    (h : Tried keys left store s)
    (hNaN : left.isNaN = false)
    (hBinary : left.IsBinary64)
    (hLimit : n ≤ Number.countLimit)
    (hPositive : 0 < n)
    (hKept : n ≤ s.kept.length) :
    (Number.ofNat n).le left = true := by
  induction h generalizing n with
  | stopped =>
      have hNone : n ≤ 0 := hKept
      omega
  | kept hOne _ ih =>
      obtain ⟨m, rfl⟩ : ∃ m, n = m + 1 := ⟨n - 1, by omega⟩
      have hRest := Nat.le_of_succ_le_succ hKept
      apply Number.ofNat_succ_le hNaN hBinary hOne hLimit
      intro hMore hNaN' hBinary'
      exact ih hNaN' hBinary' (by omega) hMore hRest
  | takenBack _ ih =>
      exact ih hNaN hBinary hLimit hPositive hKept

end Tried

------------------------------------------------------------
-- Eligible Members
------------------------------------------------------------

/- The kind of choices that a part of a character picks from. -/
def RandomAttribute.poolKind? :
    RandomAttribute → Option PoolKind
  | .languages => some .language
  | .skills => some .skill
  | .tools => some .tool
  | .weapons => some .weapon
  | _ => none

namespace Rulebook

/-
  A member of the allocation of a kind that is not granted on
  the sheet of a store, and that an open pool of the kind
  offers: the pool allows anything, or it names the member.
-/
structure IsEligible
    (book : Rulebook)
    (kind : PoolKind)
    (store : Store)
    (key : Key) : Prop where
  member : ∃ a, book.allocations[kind.allocation]? = some a ∧
    key ∈ a.keys
  notGranted :
    (book.sheet store).truthy (.under kind.grantScope key.name) =
      false
  offered : ∃ p ∈ book.pools, p.kind = kind ∧
    (book.sheet store).truthy p.gate = true ∧
      (p.allowsAny = true ∨ p.names key = true)

variable {book : Rulebook}
variable {kind : PoolKind}
variable {part : RandomAttribute}
variable {key : Key}
variable {store : Store}

/- What may be chosen from the open pools is eligible. -/
theorem isEligible_of_isAllowed
    {a : Allocation}
    (hNote : book.allocations[kind.allocation]? = some a)
    (hKey : key ∈ a.keys)
    (h : isAllowed book.pools kind (book.sheet store) key = true) :
    book.IsEligible kind store key := by
  rw [isAllowed, Bool.and_eq_true, Bool.not_eq_true',
    List.any_eq_true] at h
  rcases h with ⟨hNotGranted, p, hActive, hOffers⟩
  rcases List.mem_filter.mp hActive with ⟨hPool, hOpen⟩
  rw [Bool.and_eq_true, decide_eq_true_eq] at hOpen
  rw [Bool.or_eq_true] at hOffers
  exact ⟨⟨a, hNote, hKey⟩, hNotGranted, p, hPool, hOpen.1,
    hOpen.2, hOffers⟩

/- Where gates and grants are inputs, the input tells as much. -/
theorem isAllowed_sheet
    (hGates : ∀ p ∈ book.pools, ¬ book.IsTarget p.gate)
    (hGrant : ¬ book.IsTarget (.under kind.grantScope key.name))
    (store : Store) :
    isAllowed book.pools kind (book.sheet store) key =
      isAllowed book.pools kind store key := by
  have hTruthy {k : Key} (h : ¬ book.IsTarget k) :
      (book.sheet store).truthy k = store.truthy k := by
    rw [Store.truthy, getElem?_sheet_of_not_isTarget h,
      Store.truthy]
  have hActive :
      (book.pools.filter fun p =>
          p.kind = kind && (book.sheet store).truthy p.gate) =
        book.pools.filter fun p =>
          p.kind = kind && store.truthy p.gate := by
    apply List.filter_congr
    intro p hp
    rw [hTruthy (hGates p hp)]
  rw [isAllowed, isAllowed, hTruthy hGrant, hActive]

theorem fill_eq_fillPool
    (hPart : part.poolKind? = some kind)
    (store : Store) :
    book.fill part store =
      Random.fillPool book book.plan kind store := by
  cases part <;> cases hPart <;> rfl

------------------------------------------------------------
-- Picks of a Kind
------------------------------------------------------------

/-
  No more is picked for a kind than what the note of its
  allocation fell short by, rounded down.  The picks are only
  told apart up to the limit of exact counting: a binary64
  beyond it may be as large after one is subtracted.
-/
def IsWithinShortfall
    (book : Rulebook)
    (kind : PoolKind)
    (store after : Store) : Prop :=
  let note :=
    ((book.sheet store).number? kind.allocation).getD 0
  note.isNaN = false → note.IsBinary64 →
    (Number.ofNat (min (store.newlySet after).length
      Number.countLimit)).le (Number.max 0 note.neg.floor) = true

/- Nothing picked is within any shortfall. -/
theorem isWithinShortfall_self :
    book.IsWithinShortfall kind store store := by
  intro hNaN _
  rw [Store.newlySet_self]
  apply Number.ofNat_le_max_zero
  · rw [Number.isNaN_floor, Number.isNaN_neg]
    exact hNaN
  · intro hPositive
    cases hPositive

theorem isWithinShortfall_of_tried
    {keys : List Key}
    {excess : Number}
    {s : Selection}
    (hExcess :
      (book.sheet store).number? kind.allocation = some excess)
    (h : Tried keys excess.neg store s) :
    book.IsWithinShortfall kind store s.store := by
  intro hNaN hBinary
  rw [hExcess, Option.getD_some] at hNaN hBinary ⊢
  apply Number.ofNat_le_max_zero
  · rw [Number.isNaN_floor, Number.isNaN_neg]
    exact hNaN
  · intro hPositive
    apply Number.ofInt_le_floor_iff.mpr
    apply h.ofNat_le_of_le_length_kept
    · rw [Number.isNaN_neg]
      exact hNaN
    · exact hBinary.neg
    · exact Nat.min_le_right _ _
    · exact hPositive
    · exact (Nat.min_le_left _ _).trans h.length_newlySet_le

/-
  Languages, skills, tools and weapons: whatever the source,
  all that is newly set at random is eligible on the sheet
  before, and within the shortfall there.
-/
theorem ensures_eligible_within_shortfall
    (hPart : part.poolKind? = some kind)
    (store : Store) :
    Random.Ensures (book.fill part store) fun after =>
      (∀ key ∈ store.newlySet after,
        book.IsEligible kind store key) ∧
          book.IsWithinShortfall kind store after := by
  have hUnchanged :
      (∀ key ∈ store.newlySet store,
        book.IsEligible kind store key) ∧
          book.IsWithinShortfall kind store store := by
    rw [Store.newlySet_self]
    exact ⟨nofun, isWithinShortfall_self⟩
  rw [fill_eq_fillPool hPart, Random.fillPool]
  cases hNote : book.allocations[kind.allocation]? with
  | none => exact Random.ensures_pure hUnchanged
  | some a =>
      refine (Random.ensures_fillAllocation (P := fun after =>
        (∀ key ∈ store.newlySet after,
          book.IsEligible kind store key) ∧
            book.IsWithinShortfall kind store after)
        hUnchanged ?_).bind fun _ h => Random.ensures_pure h
      intro excess keys hExcess hPerm
      have hTried :=
        tried_tryMembers book book.plan keys excess.neg 0 store
      refine ⟨?_, isWithinShortfall_of_tried hExcess hTried⟩
      intro key hNew
      have hKey := hTried.mem_of_mem_kept
        (hTried.mem_kept_of_mem_newlySet hNew)
      rw [hPerm.mem_iff, List.mem_filter, Bool.and_eq_true]
        at hKey
      exact isEligible_of_isAllowed hNote hKey.1 hKey.2.2

end Rulebook

------------------------------------------------------------
-- A Scholar
------------------------------------------------------------

namespace Scholar

open Rulebook

/- Scholars may choose one of two skills. -/
def commands : List Command :=
  [.declare (.allocation PoolKind.skill.allocation
      PoolKind.skill.budget),
    .declare (.member PoolKind.skill.allocation
      "skillsChosen.Arcana"),
    .declare (.member PoolKind.skill.allocation
      "skillsChosen.History"),
    .declare (.pool .skill 1 "features.Scholar"
      (some ["Arcana", "History"]))]

def book : Rulebook :=
  Command.runAll none (Rulebook.empty .standard) commands

def allocation : Allocation :=
  ⟨PoolKind.skill.allocation, PoolKind.skill.budget, 0,
    [("skillsChosen.Arcana", 1), ("skillsChosen.History", 2)]⟩

/- One of the skills is granted. -/
def store : Store :=
  .ofList [("features.Scholar", Value.ofNat 1),
    ("skillChoiceCount", .ofNat 1),
    ("skillProficiency.Arcana", .ofNat 1)]

/- The other one has been picked. -/
def picked : Store :=
  store.insert "skillsChosen.History" (.ofNat 1)

theorem number?_note :
    (book.sheet store).number? PoolKind.skill.allocation =
      some (.ofInt (-1)) := by
  have hFlat : book.IsFlat := by
    unfold IsFlat IsTarget
    decide +kernel
  have hTarget : book.IsTarget PoolKind.skill.allocation := by
    unfold IsTarget
    decide +kernel
  have hOrdered :=
    (Command.isConsistent_runAll .standard commands).ordered
  rw [Store.number?, hFlat.getElem?_sheet hOrdered hTarget]
  decide +kernel

/- One skill is open: the one that is not granted. -/
theorem filter_isAllowed :
    (allocation.keys.filter fun key =>
      !store.truthy key &&
        isAllowed book.pools .skill (book.sheet store) key) =
          ["skillsChosen.History"] := by
  have hGates : ∀ p ∈ book.pools, ¬ book.IsTarget p.gate := by
    unfold IsTarget
    decide +kernel
  have hGrants : ∀ key ∈ allocation.keys, ¬ book.IsTarget
      (.under PoolKind.skill.grantScope key.name) := by
    unfold IsTarget
    decide +kernel
  have hInput :
      (allocation.keys.filter fun key =>
          !store.truthy key &&
            isAllowed book.pools .skill (book.sheet store) key) =
        allocation.keys.filter fun key =>
          !store.truthy key &&
            isAllowed book.pools .skill store key := by
    apply List.filter_congr
    intro key hKey
    rw [isAllowed_sheet hGates (hGrants key hKey)]
  rw [hInput]
  decide +kernel

/- It is picked, whatever the source. -/
theorem ensures_fill_skills :
    Random.Ensures (book.fill .skills store) (· = picked) := by
  have hNote :
      book.allocations[PoolKind.skill.allocation]? =
        some allocation := by
    decide +kernel
  have hNone : book.requirements.toList = [] := by
    decide +kernel
  have hRetries : 0 < book.settings.randomRetries := by
    decide +kernel
  have hFill :
      Random.Ensures
        (Random.fillAllocation book book.plan
          (isAllowed book.pools .skill (book.sheet store)) store
          PoolKind.skill.allocation allocation)
        (· = ⟨["skillsChosen.History"], picked⟩) := by
    refine (Random.ensures_fillAllocation_singleton
      number?_note filter_isAllowed (by decide) hRetries).mono ?_
    rintro _ rfl
    exact if_pos (isValidMember_of_no_requirements hNone _ _)
  have hPart : RandomAttribute.skills.poolKind? = some .skill :=
    rfl
  rw [fill_eq_fillPool hPart, Random.fillPool, hNote]
  exact hFill.bind_pure Selection.store

/-
  The skill that is not granted is newly set, is eligible, and
  is all that the note fell short by.
-/
theorem eligible_within_shortfall_history :
    RandomAttribute.skills.poolKind? = some .skill ∧
      (book.sheet store).number? PoolKind.skill.allocation =
          some (.ofInt (-1)) ∧
        ∀ source,
          let after := ((book.fill .skills store).run source).1
          store.newlySet after = ["skillsChosen.History"] ∧
            book.IsEligible .skill store
                "skillsChosen.History" ∧
              (Number.ofNat 1).le (Number.max 0
                (Number.neg (.ofInt (-1))).floor) = true := by
  have hPart : RandomAttribute.skills.poolKind? = some .skill :=
    rfl
  refine ⟨hPart, number?_note, ?_⟩
  intro source after
  have hAfter : after = picked := ensures_fill_skills source
  have hNew : store.newlySet after = ["skillsChosen.History"] := by
    rw [hAfter]
    decide +kernel
  rcases ensures_eligible_within_shortfall hPart store source with
    ⟨hEligible, hWithin⟩
  refine ⟨hNew, ?_, ?_⟩
  · apply hEligible
    rw [hNew]
    exact List.mem_singleton_self _
  · change book.IsWithinShortfall .skill store after at hWithin
    rw [IsWithinShortfall, hNew, number?_note] at hWithin
    apply hWithin rfl
    rintro d ⟨⟩
    decide

end Scholar

end CharSheet
