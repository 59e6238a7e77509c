import CharSheet.Proofs.Random.Outcome
import CharSheet.Proofs.Sheet.Tally
import CharSheet.Random.Fill

/-
  Picks from a budget.

  Members are tried while something is left of a budget.  A
  note whose terms come to what is left, with the other sign,
  does so after each pick, if the pick is one of its terms.

  Main declarations:
    * `Rulebook.tryMembers_keeps`
    * `Value.HasLeft`
    * `Rulebook.HasLeft`
    * `Rulebook.IsTermOf`
    * `Rulebook.exists_hasLeft_tryMembers`
    * `Random.ensures_selection`
    * `Random.ensures_fillAllocation`
    * `Random.ensures_fillAllocation_singleton`
-/

namespace CharSheet

------------------------------------------------------------
-- What Picks Keep
------------------------------------------------------------

namespace Rulebook

variable {book : Rulebook}
variable {plan : Plan}
variable {P : Store → Prop}

/- What selecting a member and taking it back keep. -/
theorem tryMembers_keeps
    {keys : List Key}
    {store : Store}
    (left : Number)
    (failures : Nat)
    (hInsert : ∀ key ∈ keys, ∀ s, P s →
      P (s.insert key (.ofNat 1)))
    (hErase : ∀ key ∈ keys, ∀ s, P s → P (s.erase key))
    (h : P store) :
    P (tryMembers book plan keys left failures store).store := by
  induction keys generalizing store left failures with
  | nil => exact h
  | cons key keys ih =>
      have hTried := hInsert key List.mem_cons_self store h
      have hRest := fun left failures store h =>
        @ih store left failures
          (fun k hk => hInsert k (List.mem_cons_of_mem key hk))
          (fun k hk => hErase k (List.mem_cons_of_mem key hk)) h
      unfold tryMembers
      split
      · exact h
      · dsimp only
        split
        · exact hRest _ _ _ hTried
        · exact hRest _ _ _
            (hErase key List.mem_cons_self _ hTried)

end Rulebook

section Outcome

variable {book : Rulebook}
variable {plan : Plan}
variable {allowed : Key → Bool}
variable {store : Store}
variable {note : Key}
variable {a : Allocation}

/-
  Filling an allocation selects nothing, or tries its open
  members in some order.
-/
theorem Random.ensures_selection
    {P : Selection → Prop}
    (h : P ⟨[], store⟩)
    (hTry : ∀ excess keys,
      (plan.sheet store).number? note = some excess →
        keys.Perm (a.keys.filter fun key =>
          !store.truthy key && allowed key) →
            P (tryMembers book plan keys excess.neg 0 store)) :
    Ensures (fillAllocation book plan allowed store note a)
      P := by
  unfold fillAllocation
  cases hExcess : (plan.sheet store).number? note with
  | none =>
      simp only [hExcess]
      exact ensures_pure h
  | some excess =>
      simp only [hExcess]
      refine (ensures_shuffle _).bind ?_
      intro keys hPerm
      exact ensures_pure (hTry excess keys hExcess hPerm)

/- A property of stores that picks keep is ensured. -/
theorem Random.ensures_fillAllocation
    {P : Store → Prop}
    (h : P store)
    (hTry : ∀ excess keys,
      (plan.sheet store).number? note = some excess →
        keys.Perm (a.keys.filter fun key =>
          !store.truthy key && allowed key) →
            P (tryMembers book plan keys excess.neg 0
              store).store) :
    Ensures (fillAllocation book plan allowed store note a)
      fun selection => P selection.store :=
  ensures_selection h hTry

------------------------------------------------------------
-- Single Members
------------------------------------------------------------

/- A book without requirements takes any member for valid. -/
theorem isValidMember_of_no_requirements
    (h : book.requirements.toList = [])
    (sheet : Store)
    (member : Key) :
    isValidMember book sheet member = true := by
  rw [isValidMember, h]
  rfl

variable {excess : Number}

/- Where at most one member is open, the source is no matter. -/
theorem Random.ensures_fillAllocation_of_length_le_one
    {keys : List Key}
    (hExcess : (plan.sheet store).number? note = some excess)
    (hOpen :
      (a.keys.filter fun key =>
        !store.truthy key && allowed key) = keys)
    (hLength : keys.length ≤ 1) :
    Ensures (fillAllocation book plan allowed store note a)
      (· = tryMembers book plan keys excess.neg 0 store) := by
  unfold fillAllocation
  simp only [hExcess, hOpen]
  refine (ensures_shuffle keys).bind ?_
  intro shuffled hPerm
  have hSame : shuffled = keys := by
    match keys, hLength with
    | [], _ => exact hPerm.eq_nil
    | [_], _ => exact List.perm_singleton.mp hPerm
  rw [hSame]
  exact ensures_pure rfl

/-
  A single open member is selected if something is left for it
  and it is valid then, and it is taken back if it is not.
-/
theorem Random.ensures_fillAllocation_singleton
    {key : Key}
    (hExcess : (plan.sheet store).number? note = some excess)
    (hOpen :
      (a.keys.filter fun key =>
        !store.truthy key && allowed key) = [key])
    (hLeft : excess.neg.lt 1 = false)
    (hRetries : 0 < book.settings.randomRetries) :
    Ensures (fillAllocation book plan allowed store note a)
      (· =
        let tried := store.insert key (.ofNat 1)
        if isValidMember book (plan.sheet tried) key then
          ⟨[key], tried⟩
        else
          ⟨[], tried.erase key⟩) := by
  refine (ensures_fillAllocation_of_length_le_one hExcess hOpen
    (Nat.le_refl 1)).mono ?_
  rintro _ rfl
  simp [tryMembers, hLeft, Nat.pos_iff_ne_zero.mp hRetries,
    Selection.after]

end Outcome

------------------------------------------------------------
-- Terms
------------------------------------------------------------

namespace Value

/-
  Exact values come to what is left, with the other sign, and
  all of it can be counted with them.
-/
structure HasLeft (vs : List Value) (left : Int) : Prop where
  integer : ∀ v ∈ vs, v.integer?.isSome = true
  counted : (extent vs : Int) + left ≤ Number.countLimit
  nonneg : 0 ≤ left
  spent : total vs + left = 0

variable {front back vs : List Value}
variable {before : Option Value}
variable {left : Int}

theorem HasLeft.areExact
    (h : HasLeft vs left) :
    AreExact vs where
  integer := h.integer
  counted := by
    have hCounted := h.counted
    have hNonneg := h.nonneg
    omega

/- What is left is no more than what the values come to. -/
theorem HasLeft.left_le
    (h : HasLeft vs left) :
    2 * left ≤ Number.countLimit := by
  have hTotal := natAbs_total_le vs
  have hCounted := h.counted
  have hSpent := h.spent
  omega

/- A value that counts for nothing may be left out. -/
theorem HasLeft.without
    (h : HasLeft (front ++ before.toList ++ back) left)
    (hBefore : ∀ v ∈ before, v.truthy = false) :
    HasLeft (front ++ back) left := by
  cases before with
  | none => simpa using h
  | some v =>
      have hZero := count_of_not_truthy (hBefore v rfl)
      have hTotal :
          total (front ++ [v] ++ back) =
            total (front ++ back) := by
        simp [total, hZero]
      have hExtent :
          extent (front ++ [v] ++ back) =
            extent (front ++ back) := by
        simp [extent, hZero]
      refine ⟨?_, ?_, h.nonneg, ?_⟩
      · intro w hw
        apply h.integer w
        simp only [List.mem_append] at hw ⊢
        tauto
      · rw [← hExtent]
        exact h.counted
      · rw [← hTotal]
        exact h.spent

/- A one among them takes one of what is left. -/
theorem HasLeft.pick
    (h : HasLeft (front ++ back) left)
    (hLeft : 1 ≤ left) :
    HasLeft (front ++ [.ofNat 1] ++ back) (left - 1) := by
  have hOne : (Value.ofNat 1).integer? = some 1 := by decide
  have hCount : (Value.ofNat 1).count = 1 := by
    rw [count, hOne]
    rfl
  have hCounted := h.counted
  have hSpent := h.spent
  rw [extent_append] at hCounted
  rw [total_append] at hSpent
  refine ⟨?_, ?_, by omega, ?_⟩
  · intro w hw
    simp only [List.mem_append, List.mem_singleton] at hw
    rcases hw with (hFront | rfl) | hBack
    · exact h.integer w (List.mem_append_left back hFront)
    · rw [hOne]
      rfl
    · exact h.integer w (List.mem_append_right front hBack)
  · rw [extent_append, extent_append]
    have hExtent : extent [.ofNat 1] = 1 := by
      simp [extent, hCount]
    omega
  · rw [total_append, total_append]
    have hTotal : total [.ofNat 1] = 1 := by
      simp [total, hCount]
    omega

end Value

------------------------------------------------------------
-- Picks of Terms
------------------------------------------------------------

namespace Rulebook

variable {book : Rulebook}
variable {note key : Key}
variable {store s : Store}
variable {left : Int}

/- The terms of a note have so much left. -/
def HasLeft
    (book : Rulebook)
    (note : Key)
    (store : Store)
    (left : Int) : Prop :=
  ∀ dict, book.IsDictionary store (book.sheet store) note dict →
    Value.HasLeft (book.terms store dict note) left

/- An input is a term of a note, and nothing else in it. -/
def IsTermOf (book : Rulebook) (key note : Key) : Prop :=
  ∀ s : Store, ∃ front back, ∀ t dict, s.AgreeOff t key →
    book.IsDictionary t (book.sheet t) note dict →
      book.terms t dict note = front ++ t[key]?.toList ++ back

/- An input that is not truthy may be left out of the terms. -/
theorem HasLeft.exists_without
    (h : book.HasLeft note store left)
    (hTerm : book.IsTermOf key note)
    (hKey : store.truthy key = false) :
    ∃ front back, Value.HasLeft (front ++ back) left ∧
      ∀ t dict, store.AgreeOff t key →
        book.IsDictionary t (book.sheet t) note dict →
          book.terms t dict note =
            front ++ t[key]?.toList ++ back := by
  rcases hTerm store with ⟨front, back, hTerms⟩
  rcases exists_isDictionary book store (book.sheet store) note with
    ⟨dict, hDict⟩
  have hHere := h dict hDict
  rw [hTerms store dict (fun _ _ => rfl) hDict] at hHere
  refine ⟨front, back, hHere.without ?_, hTerms⟩
  intro v hv
  have hSome : store[key]? = some v := hv
  simpa [Store.truthy, hSome] using hKey

/- What is left while an input that is not truthy is taken. -/
theorem HasLeft.erase
    (h : book.HasLeft note store left)
    (hTerm : book.IsTermOf key note)
    (hKey : store.truthy key = false)
    (hAgree : store.AgreeOff s key)
    (hErased : s[key]? = none) :
    book.HasLeft note s left := by
  rcases h.exists_without hTerm hKey with
    ⟨front, back, hWithout, hTerms⟩
  intro dict hDict
  rw [hTerms s dict hAgree hDict, hErased]
  simpa using hWithout

theorem HasLeft.insert
    (h : book.HasLeft note store left)
    (hTerm : book.IsTermOf key note)
    (hKey : store.truthy key = false)
    (hLeft : 1 ≤ left) :
    book.HasLeft note (store.insert key (.ofNat 1))
      (left - 1) := by
  rcases h.exists_without hTerm hKey with
    ⟨front, back, hWithout, hTerms⟩
  intro dict hDict
  rw [hTerms _ dict (Store.agreeOff_insert store key _) hDict,
    Std.ExtTreeMap.getElem?_insert_self]
  exact hWithout.pick hLeft

/-
  While terms of a note are tried, each one that is kept takes
  one of what is left.  The count of what is left stays exact,
  since it is at most half of what can be counted.
-/
theorem exists_hasLeft_tryMembers
    {plan : Plan}
    {keys : List Key}
    {count : Number}
    (failures : Nat)
    (hTerms : ∀ key ∈ keys, book.IsTermOf key note)
    (hDistinct : keys.Nodup)
    (hKeys : ∀ key ∈ keys, store.truthy key = false)
    (hCount : count.integer? = some left)
    (h : book.HasLeft note store left) :
    ∃ rest, book.HasLeft note
      (tryMembers book plan keys count failures store).store
      rest := by
  induction keys generalizing store count failures left with
  | nil => exact ⟨left, h⟩
  | cons key keys ih =>
      have hTerm := hTerms key List.mem_cons_self
      have hKey := hKeys key List.mem_cons_self
      have hTerms' := fun k hk =>
        hTerms k (List.mem_cons_of_mem key hk)
      rw [List.nodup_cons] at hDistinct
      -- Neither trying a member nor taking it back selects
      -- one of those that come later.
      have hOthers (s : Store) (hAgree : store.AgreeOff s key) :
          ∀ k ∈ keys, s.truthy k = false := by
        intro k hk
        have hApart : k ≠ key := fun hEq =>
          hDistinct.1 (hEq ▸ hk)
        have hSame := hKeys k (List.mem_cons_of_mem key hk)
        rw [Store.truthy, hAgree k hApart] at hSame
        exact hSame
      unfold tryMembers
      split
      · exact ⟨left, h⟩
      · rename_i hGoesOn
        rw [Bool.or_eq_true, not_or] at hGoesOn
        have hLeft : 1 ≤ left := by
          by_contra hLess
          have hLess : left < 1 := by omega
          exact hGoesOn.1
            ((Number.lt_ofInt_iff_of_integer? hCount).mpr hLess)
        dsimp only
        split
        · have hNext := h.insert hTerm hKey hLeft
          rcases exists_isDictionary book store (book.sheet store)
              note with
            ⟨dict, hDict⟩
          have hLimit := (h dict hDict).left_le
          have hOne : (Number.neg 1).integer? = some (-1) := by
            decide
          have hCount' :
              (count.sub 1).integer? = some (left - 1) :=
            Number.integer?_add hCount hOne (by omega)
          exact ih failures hTerms' hDistinct.2
            (hOthers _ (Store.agreeOff_insert store key _))
            hCount' hNext
        · have hAgree : store.AgreeOff
              ((store.insert key (.ofNat 1)).erase key)
              key := by
            intro k hk
            rw [Store.agreeOff_insert store key _ k hk]
            exact Store.agreeOff_erase _ key k hk
          exact ih (failures + 1) hTerms' hDistinct.2
            (hOthers _ hAgree) hCount
            (h.erase hTerm hKey hAgree
              Std.ExtTreeMap.getElem?_erase_self)

end Rulebook

end CharSheet
