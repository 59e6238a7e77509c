import CharSheet.Proofs.Choice.Removal
import CharSheet.Proofs.Random.Picks

/-
  Budgets that are filled at random.

  A budget is filled by the shortfall that its own note shows
  at first, which is counted down with each pick.  No budget
  is overspent if each pick counts once in the note of its own
  budget and in no other one.

  Main declarations:
    * `Store.IsWithin`
    * `Allocation.IsFilled`
    * `Rulebook.IsUnfed`
    * `Rulebook.CountsOnce`
    * `Rulebook.IsTallied`
    * `Rulebook.fillAll`
    * `Rulebook.StaysWithin`
    * `Rulebook.ensures_isWithin_fillAll`
    * `Command.isWithin_fillAll`
    * `SharedFeat.not_forall_isWithin_fillAll`
-/

namespace CharSheet

/- An attribute is absent or at most zero. -/
def Store.IsWithin (sheet : Store) (note : Key) : Prop :=
  ∀ x, sheet.number? note = some x → x.le 0 = true

/- The parts of a character that are filled by budgets. -/
def RandomAttribute.IsBudgeted (part : RandomAttribute) : Prop :=
  part = .feats ∨ part = .selectableFeatures

/- The budget is that of feats or of selectable features. -/
def Allocation.IsFilled (a : Allocation) : Prop :=
  Key.isUnder a.budget "featCount" = true ∨
    Key.isUnder a.budget "selectableFeatureCount" = true

/- The rule takes the budget, or counts a member. -/
def Allocation.HasRule (a : Allocation) (r : Rule) : Prop :=
  r.seq = a.budgetRule ∨ r.seq ∈ a.numbers

namespace Rulebook

/- Fill several parts of a character, one after another. -/
def fillAll
    (book : Rulebook)
    (parts : List RandomAttribute)
    (store : Store) : Random Store :=
  parts.foldlM (fun store part => book.fill part store) store

------------------------------------------------------------
-- Conditions
------------------------------------------------------------

/- No member leads to a budget or to another member. -/
def IsUnfed (book : Rulebook) : Prop :=
  ∀ (note : Key) (a : Allocation),
    book.allocations[note]? = some a → ∀ key ∈ a.keys,
      ∀ (other : Key) (b : Allocation),
        book.allocations[other]? = some b →
          ¬ book.LeadsTo key b.budget ∧
            ∀ key' ∈ b.keys, key' ≠ key →
              ¬ book.LeadsTo key key'

/- An attribute may be picked for the allocation of a note. -/
def IsPick (book : Rulebook) (note key : Key) : Prop :=
  ∃ a, book.allocations[note]? = some a ∧ a.IsFilled ∧
    key ∈ a.keys

/-
  What is picked for a note counts there once, and what is
  picked for others does not.  Its own picks are inputs, and
  picks for others are no members.  Rules of the note that are
  not its allocation's are not touched, and none of them
  scales what is counted.
-/
structure CountsOnce
    (book : Rulebook)
    (note : Key)
    (a : Allocation) : Prop where
  input : ∀ key, book.IsPick note key → ¬ book.IsTarget key
  apart : ∀ other key, book.IsPick other key →
    key ≠ a.budget ∧
      (other ≠ note → key ≠ note ∧ key ∉ a.keys)
  untouched : ∀ other key, book.IsPick other key →
    ∀ r ∈ book.rules, r.target = note → ¬ a.HasRule r →
      ¬ book.Touches key r
  adds : a.IsFilled → book.OnlyAdds note

/-
  What is added up for a note are integers, which could be
  counted twice over.
-/
def IsTallied
    (book : Rulebook)
    (store : Store)
    (note : Key) : Prop :=
  ∀ dict, book.IsDictionary store (book.sheet store) note dict →
    (∀ v ∈ book.terms store dict note,
        v.integer?.isSome = true) ∧
      2 * Value.extent (book.terms store dict note) ≤
        Number.countLimit

variable {book : Rulebook}
variable {note other key : Key}
variable {a b : Allocation}
variable {s t store : Store}

------------------------------------------------------------
-- Own Rules
------------------------------------------------------------

section Own

variable (hBook : book.IsConsistent)
variable (hPlain : book.IsPlain)
variable (hUnfed : book.IsUnfed)
variable (hNote : book.allocations[note]? = some a)
variable (hCounts : book.CountsOnce note a)

include hBook hNote

/- The note of an allocation is computed. -/
theorem isTarget_of_allocation : book.IsTarget note := by
  rcases hBook.exists_rule (hBook.allocation note a
      hNote).budget with
    ⟨r, -, hRule, -, hParts, -⟩
  exact ⟨r, hRule, congrArg RuleParts.target hParts⟩

include hPlain

/- A rule of an allocation reads its source alone. -/
theorem source_of_hasRule
    {r : Rule}
    (hRule : r ∈ book.rules)
    (hOwn : a.HasRule r)
    (hReads : r.Reads other) :
    (other = a.budget) ∨ (other, r.seq) ∈ a.members := by
  have hAllocation := hBook.allocation note a hNote
  have hStands {parts : RuleParts}
      (hShares : book.Shares parts r.seq) :
      r.parts = parts ∧ other = r.source := by
    have ⟨s, hs, _, hSeq⟩ := hShares
    have hJoint : r ∈ book.jointRules :=
      mem_jointRules_iff.mpr ⟨hRule, isJoint_iff.mpr ⟨s, hs, hSeq⟩⟩
    have hSame :=
      (hBook.shares_of_mem_jointRules hJoint).1
    refine ⟨hBook.parts_eq hSame hShares, ?_⟩
    apply hReads.eq_source
    intro f hf
    rw [(hPlain r hJoint).1] at hf
    rcases Option.map_eq_some_iff.mp hf with ⟨-, -, rfl⟩
    exact ⟨rfl, rfl⟩
  rcases hOwn with hBudget | hNumber
  · have hShares := hAllocation.budget
    rw [← hBudget] at hShares
    rcases hStands hShares with ⟨hParts, rfl⟩
    exact .inl (congrArg RuleParts.source hParts)
  · rcases Allocation.mem_numbers_iff.mp hNumber with ⟨key, hMember⟩
    rcases hStands ((hAllocation.members key r.seq).mp hMember) with
      ⟨hParts, rfl⟩
    have hSource : r.source = key :=
      congrArg RuleParts.source hParts
    rw [hSource]
    exact .inr hMember

include hUnfed hCounts

/- A pick touches no rule of a note but its own there. -/
theorem mem_members_of_touches
    (hPick : book.IsPick other key)
    {r : Rule}
    (hRule : r ∈ book.rules)
    (hTarget : r.target = note)
    (hTouches : book.Touches key r) :
    other = note ∧ (key, r.seq) ∈ a.members := by
  have ⟨b, hOther, _, hKey⟩ := hPick
  have hUnled := hUnfed other b hOther key hKey note a hNote
  have hOwn : a.HasRule r := by
    by_contra hElse
    exact hCounts.untouched other key hPick r hRule hTarget hElse
      hTouches
  rcases hTouches with ⟨k, hLeads, hReads⟩
  rcases source_of_hasRule hBook hPlain hNote hRule hOwn
      hReads with rfl | hMember
  · rcases hLeads with hEq | hLeads
    · exact absurd hEq.symm (hCounts.apart other key hPick).1
    · exact absurd hLeads hUnled.1
  · have hIn : k ∈ a.keys := List.mem_map_of_mem hMember
    by_cases hEq : k = key
    · rw [hEq] at hIn hMember
      refine ⟨?_, hMember⟩
      by_contra hElse
      exact ((hCounts.apart other key hPick).2 hElse).2 hIn
    · rcases hLeads with hSame | hLeads
      · exact absurd hSame hEq
      · exact absurd hLeads (hUnled.2 k hIn hEq)

/- So it is a term of its own note. -/
theorem isTermOf_of_isPick
    (hPick : book.IsPick note key) :
    book.IsTermOf key note := by
  have ⟨b, hSame, _, hKey⟩ := hPick
  obtain rfl : a = b := Option.some.inj (hNote.symm.trans hSame)
  rcases List.mem_map.mp hKey with ⟨⟨key, seq⟩, hMember, rfl⟩
  have hMembers := (hBook.allocation note a hNote).members
  rcases hBook.exists_rule ((hMembers _ seq).mp hMember) with
    ⟨r, -, hRule, hSeq, hParts, -⟩
  have hFormula : r.formula = none :=
    Option.map_eq_none_iff.mp (congrArg RuleParts.formula hParts)
  refine exists_terms_split hBook.ordered
    (mem_rulesOf_iff.mpr ⟨hRule,
      congrArg RuleParts.target hParts,
      congrArg RuleParts.op hParts⟩)
    (congrArg RuleParts.source hParts) hFormula
    (hCounts.input _ hPick) ?_
  intro r' hRule' hTarget hTouches
  have hOwn :=
    (mem_members_of_touches hBook hPlain hUnfed hNote hCounts
      hPick hRule' hTarget hTouches).2
  apply eq_of_seq_eq hBook.ordered hRule' hRule
  rw [hSeq]
  exact hBook.seq_eq ((hMembers _ _).mp hOwn)
    ((hMembers _ _).mp hMember)

end Own

------------------------------------------------------------
-- Fills
------------------------------------------------------------

/- What each allocation that is filled keeps, all fills keep. -/
theorem ensures_fillAll
    {P : Store → Prop}
    {parts : List RandomAttribute}
    (hParts : ∀ part ∈ parts, part.IsBudgeted)
    (hFill : ∀ other b, book.allocations[other]? = some b →
      b.IsFilled → ∀ s, P s →
        Random.Ensures
          (Random.fillAllocation book book.plan (fun _ => true)
            s other b)
          fun selection => P selection.store)
    (h : P store) :
    Random.Ensures (book.fillAll parts store) P := by
  have hScope (scope : String)
      (hFilled : ∀ b : Allocation,
        Key.isUnder b.budget scope = true → b.IsFilled)
      (s : Store) (hs : P s) :
      Random.Ensures
        (Random.fillBudgets book book.plan scope s) P := by
    apply Random.ensures_foldlM
    · intro s' entry hEntry hs'
      rcases List.mem_filter.mp hEntry with ⟨hIn, hUnder⟩
      have hThere :=
        Std.ExtTreeMap.mem_toList_iff_getElem?_eq_some.mp hIn
      refine (hFill entry.1 entry.2 hThere
        (hFilled entry.2 hUnder) s' hs').bind ?_
      intro selection hSelection
      exact Random.ensures_pure hSelection
    · exact hs
  apply Random.ensures_foldlM
  · intro s part hPart hs
    rcases hParts part hPart with rfl | rfl
    · exact hScope "featCount" (fun _ => .inl) s hs
    · exact hScope "selectableFeatureCount" (fun _ => .inr) s hs
  · exact h

/-
  A note that is within its budget stays so: it has no number,
  or its terms come to what is left, with the other sign.
-/
def StaysWithin
    (book : Rulebook)
    (note : Key)
    (store : Store) : Prop :=
  (book.sheet store).number? note = none ∨
    ∃ left, book.HasLeft note store left

section Kept

variable (hNe : note ≠ key)
variable (hApart : ∀ r ∈ book.rules, r.target = note →
  ¬ book.Touches key r)
variable (hAgree : s.AgreeOff t key)

include hNe hApart hAgree

/- What touches no rule of a note does not change it. -/
theorem getElem?_sheet_of_not_touches :
    (book.sheet t)[note]? = (book.sheet s)[note]? := by
  refine (getElem?_sheet_of_agreeOff hAgree hNe ?_).symm
  intro hLeads
  rcases hLeads.exists_touches with ⟨r, hRule, hTarget, hTouches⟩
  exact hApart r hRule hTarget hTouches

theorem HasLeft.of_not_touches
    {left : Int}
    (h : book.HasLeft note s left) :
    book.HasLeft note t left := by
  intro dict' hDict'
  rcases exists_isDictionary book s (book.sheet s) note with
    ⟨dict, hDict⟩
  rw [← terms_of_agreeOff hAgree hDict hDict' hNe hApart]
  exact h dict hDict

theorem isWithin_of_not_touches
    (h : (book.sheet s).IsWithin note) :
    (book.sheet t).IsWithin note := by
  intro x hNumber
  apply h x
  rw [Store.number?,
    ← getElem?_sheet_of_not_touches hNe hApart hAgree]
  exact hNumber

theorem StaysWithin.of_not_touches
    (h : book.StaysWithin note s) :
    book.StaysWithin note t := by
  rcases h with hNone | ⟨left, hLeft⟩
  · refine .inl ?_
    rw [Store.number?,
      getElem?_sheet_of_not_touches hNe hApart hAgree]
    exact hNone
  · exact .inr ⟨left, hLeft.of_not_touches hNe hApart hAgree⟩

end Kept

section Sums

variable (hBook : book.IsConsistent)
variable (hNote : book.allocations[note]? = some a)
variable (hAdds : book.OnlyAdds note)

include hBook hNote hAdds

/- The number of a note is the sum of exact terms. -/
theorem integer?_of_areExact
    {dict : Store}
    {x : Number}
    (hDict :
      book.IsDictionary store (book.sheet store) note dict)
    (hExact : Value.AreExact (book.terms store dict note))
    (hNumber : (book.sheet store).number? note = some x) :
    x.integer? =
      some (Value.total (book.terms store dict note)) := by
  rcases Option.bind_eq_some_iff.mp hNumber with ⟨v, hSome, hx⟩
  have hSum :
      Operator.add.combineAll none
        (book.terms store dict note) = some v := by
    rcases getElem?_sheet_of_onlyAdds hBook.ordered hAdds
        (isTarget_of_allocation hBook hNote) hDict with
      hNone | hAll
    · rw [hNone] at hSome
      cases hSome
    · rw [← hAll, hSome]
  have hTotal := hExact.combineAll hSum
  rwa [Value.integer?, hx] at hTotal

theorem HasLeft.integer?
    {left : Int}
    {x : Number}
    (h : book.HasLeft note store left)
    (hNumber : (book.sheet store).number? note = some x) :
    x.integer? = some (-left) := by
  rcases exists_isDictionary book store (book.sheet store) note with
    ⟨dict, hDict⟩
  have hLeft := h dict hDict
  rw [integer?_of_areExact hBook hNote hAdds hDict
    hLeft.areExact hNumber]
  have hSpent := hLeft.spent
  exact congrArg some (by omega)

/- Within a budget, what is left can be counted as well. -/
theorem staysWithin_of_isTallied
    (hTallied : book.IsTallied store note)
    (h : (book.sheet store).IsWithin note) :
    book.StaysWithin note store := by
  cases hNumber : (book.sheet store).number? note with
  | none => exact .inl hNumber
  | some x =>
      rcases exists_isDictionary book store (book.sheet store)
          note with
        ⟨dict, hDict⟩
      rcases hTallied dict hDict with ⟨hInteger, hTwice⟩
      have hTotal := integer?_of_areExact hBook hNote hAdds
        hDict ⟨hInteger, by omega⟩ hNumber
      have hLe := (Number.le_zero_iff_of_integer? hTotal).mp
        (h x hNumber)
      have hSize :=
        Value.natAbs_total_le (book.terms store dict note)
      refine .inr
        ⟨-Value.total (book.terms store dict note), ?_⟩
      intro dict' hDict'
      rw [hDict'.eq hDict]
      exact ⟨hInteger, by omega, by omega, by omega⟩

theorem StaysWithin.isWithin
    (h : book.StaysWithin note store) :
    (book.sheet store).IsWithin note := by
  intro x hNumber
  rcases h with hNone | ⟨left, hLeft⟩
  · rw [hNone] at hNumber
    cases hNumber
  · rcases exists_isDictionary book store (book.sheet store)
        note with
      ⟨dict, hDict⟩
    have hNonneg := (hLeft dict hDict).nonneg
    exact (Number.le_zero_iff_of_integer?
      (hLeft.integer? hBook hNote hAdds hNumber)).mpr
        (by omega)

end Sums

------------------------------------------------------------
-- Budgets
------------------------------------------------------------

section Budgets

variable (hBook : book.IsConsistent)
variable (hPlain : book.IsPlain)
variable (hUnfed : book.IsUnfed)
variable (hNote : book.allocations[note]? = some a)
variable (hCounts : book.CountsOnce note a)

include hBook hPlain hUnfed hNote hCounts

/- Picks for another note keep what they do not touch. -/
theorem ensures_fillAllocation_other
    {P : Store → Prop}
    (hOther : book.allocations[other]? = some b)
    (hFilled : b.IsFilled)
    (hNe : other ≠ note)
    (hKeeps : ∀ key s t, note ≠ key →
      (∀ r ∈ book.rules, r.target = note →
        ¬ book.Touches key r) →
          s.AgreeOff t key → P s → P t)
    (h : P store) :
    Random.Ensures
      (Random.fillAllocation book book.plan (fun _ => true)
        store other b)
      fun selection => P selection.store := by
  apply Random.ensures_fillAllocation h
  intro excess keys _ hPerm
  have hPick (key : Key) (hKey : key ∈ keys) :
      book.IsPick other key := by
    rw [hPerm.mem_iff, List.mem_filter] at hKey
    exact ⟨b, hOther, hFilled, hKey.1⟩
  have hAgree (key : Key) (hKey : key ∈ keys) (s t : Store)
      (hAgree : s.AgreeOff t key) (hs : P s) : P t := by
    have hApart :=
      (hCounts.apart other key (hPick key hKey)).2 hNe
    apply hKeeps key s t hApart.1.symm
    · intro r hRule hTarget hTouches
      exact hNe (mem_members_of_touches hBook hPlain hUnfed hNote
        hCounts (hPick key hKey) hRule hTarget hTouches).1
    · exact hAgree
    · exact hs
  apply tryMembers_keeps
  · intro key hKey s hs
    exact hAgree key hKey s _ (Store.agreeOff_insert s key _) hs
  · intro key hKey s hs
    exact hAgree key hKey s _ (Store.agreeOff_erase s key) hs
  · exact h

/- Picks for a note's own budget are counted down with it. -/
theorem ensures_fillAllocation_own
    (hFilled : a.IsFilled)
    (h : book.StaysWithin note store) :
    Random.Ensures
      (Random.fillAllocation book book.plan (fun _ => true)
        store note a)
      fun selection => book.StaysWithin note selection.store := by
  apply Random.ensures_fillAllocation h
  intro excess keys hExcess hPerm
  have hNumber :
      (book.sheet store).number? note = some excess := hExcess
  rcases h with hNone | ⟨left, hLeft⟩
  · rw [hNone] at hNumber
    cases hNumber
  · have hCount := Number.integer?_neg
      (hLeft.integer? hBook hNote (hCounts.adds hFilled) hNumber)
    rw [Int.neg_neg] at hCount
    have hKeys (key : Key) (hKey : key ∈ keys) :
        key ∈ a.keys ∧ store.truthy key = false := by
      rw [hPerm.mem_iff, List.mem_filter] at hKey
      simpa using hKey
    refine .inr (exists_hasLeft_tryMembers 0 ?_ ?_ ?_ hCount
      hLeft)
    · intro key hKey
      exact isTermOf_of_isPick hBook hPlain hUnfed hNote hCounts
        ⟨a, hNote, hFilled, (hKeys key hKey).1⟩
    · exact hPerm.nodup_iff.mpr
        ((hBook.allocation note a hNote).nodup.filter _)
    · intro key hKey
      exact (hKeys key hKey).2

/- What stays within a budget does so in all fills. -/
theorem ensures_staysWithin_fillAll
    (hFilled : a.IsFilled)
    {parts : List RandomAttribute}
    (hParts : ∀ part ∈ parts, part.IsBudgeted)
    (h : book.StaysWithin note store) :
    Random.Ensures (book.fillAll parts store)
      (book.StaysWithin note) := by
  refine ensures_fillAll hParts ?_ h
  intro other b hOther hFilled' s hs
  by_cases hEq : other = note
  · subst hEq
    obtain rfl : a = b := Option.some.inj (hNote.symm.trans hOther)
    exact ensures_fillAllocation_own hBook hPlain hUnfed hNote
      hCounts hFilled hs
  · exact ensures_fillAllocation_other hBook hPlain hUnfed hNote
      hCounts hOther hFilled' hEq
      (fun _ _ _ => StaysWithin.of_not_touches) hs

/- A note whose budget is not filled is not changed at all. -/
theorem ensures_isWithin_fillAll_of_not_isFilled
    (hFilled : ¬ a.IsFilled)
    {parts : List RandomAttribute}
    (hParts : ∀ part ∈ parts, part.IsBudgeted)
    (h : (book.sheet store).IsWithin note) :
    Random.Ensures (book.fillAll parts store) fun s =>
      (book.sheet s).IsWithin note := by
  refine ensures_fillAll hParts ?_ h
  intro other b hOther hFilled' s hs
  have hNe : other ≠ note := by
    intro hEq
    rw [hEq, hNote] at hOther
    rw [Option.some.inj hOther] at hFilled
    exact hFilled hFilled'
  exact ensures_fillAllocation_other
    (P := fun s => (book.sheet s).IsWithin note) hBook hPlain
    hUnfed hNote hCounts hOther hFilled' hNe
    (fun _ _ _ => isWithin_of_not_touches) hs

/- A note within its budget is within it after all fills. -/
theorem ensures_isWithin_fillAll
    (hTallied : a.IsFilled → book.IsTallied store note)
    {parts : List RandomAttribute}
    (hParts : ∀ part ∈ parts, part.IsBudgeted)
    (h : (book.sheet store).IsWithin note) :
    Random.Ensures (book.fillAll parts store) fun s =>
      (book.sheet s).IsWithin note := by
  by_cases hFilled : a.IsFilled
  · have hAdds := hCounts.adds hFilled
    have hStays := staysWithin_of_isTallied hBook hNote hAdds
      (hTallied hFilled) h
    have hAll := ensures_staysWithin_fillAll hBook hPlain hUnfed
      hNote hCounts hFilled hParts hStays
    exact hAll.mono fun _ hs => hs.isWithin hBook hNote hAdds
  · exact ensures_isWithin_fillAll_of_not_isFilled hBook hPlain
      hUnfed hNote hCounts hFilled hParts h

end Budgets

end Rulebook

------------------------------------------------------------
-- Flat Rulebooks
------------------------------------------------------------

namespace Rulebook

variable {book : Rulebook}
variable {note : Key}
variable {a : Allocation}
variable {store : Store}

/- Nothing leads to budgets and members that are inputs. -/
theorem isUnfed_of_inputs
    (h : ∀ entry ∈ book.allocations.toList,
      ¬ book.IsTarget entry.2.budget ∧
        ∀ key ∈ entry.2.keys, ¬ book.IsTarget key) :
    book.IsUnfed := by
  intro _ _ _ key _ other b hOther
  have hInputs := h (other, b)
    (Std.ExtTreeMap.mem_toList_iff_getElem?_eq_some.mpr hOther)
  exact ⟨fun hLeads => hInputs.1 hLeads.isTarget,
    fun key' hKey _ hLeads => hInputs.2 key' hKey hLeads.isTarget⟩

/- Picks count once in a note that has no other rules. -/
theorem countsOnce_of_own_rules
    (hPicks : ∀ entry ∈ book.allocations.toList,
      ∀ key ∈ entry.2.keys, ¬ book.IsTarget key ∧
        key ≠ a.budget ∧
          (entry.1 ≠ note → key ≠ note ∧ key ∉ a.keys))
    (hRules : ∀ r ∈ book.rules, r.target = note →
      r.op = .add ∧ a.HasRule r) :
    book.CountsOnce note a := by
  have hPick {other key : Key} (h : book.IsPick other key) :
      ¬ book.IsTarget key ∧ key ≠ a.budget ∧
        (other ≠ note → key ≠ note ∧ key ∉ a.keys) := by
    rcases h with ⟨b, hOther, -, hKey⟩
    exact hPicks (other, b)
      (Std.ExtTreeMap.mem_toList_iff_getElem?_eq_some.mpr hOther)
      key hKey
  exact
    { input := fun _ h => (hPick h).1
      apart := fun _ _ h => (hPick h).2
      untouched := fun _ _ _ r hr hTarget hElse =>
        absurd (hRules r hr hTarget).2 hElse
      adds := fun _ r hr hTarget =>
        .inr (.inr (hRules r hr hTarget).1) }

/- What is added up can be counted in the input. -/
theorem IsFlat.isTallied
    (hFlat : book.IsFlat)
    (hInteger : ∀ v ∈ book.terms store store note,
      v.integer?.isSome = true)
    (hTwice : 2 * Value.extent (book.terms store store note) ≤
      Number.countLimit) :
    book.IsTallied store note := by
  intro dict hDict
  rw [hFlat.terms_eq hDict]
  exact ⟨hInteger, hTwice⟩

end Rulebook

------------------------------------------------------------
-- Rulebooks That Commands Lead to
------------------------------------------------------------

namespace Command

open Rulebook

mutual

/- Each command keeps a rulebook plain. -/
theorem isPlain_run
    {book : Rulebook}
    (h : book.IsPlain)
    (hBook : book.IsConsistent)
    (owner : Owner) :
    (c : Command) → (run owner book c).IsPlain
  | .declare d => (adds_declare hBook owner d).isPlain h
  | .spell target source op formula => by
      unfold run
      cases Declaration.ofTexts target source op formula with
      | error _ => exact h
      | ok d => exact (adds_declare hBook owner d).isPlain h
  | .core => h.declareAll hBook owner coreDeclarations
  | .register kind name attrs =>
      h.registerAll hBook
        [⟨kind, name, (AttrTable.ofTextLossy attrs).1⟩]
  | .remove kind name => h.removeChoice kind name
  | .withdraw origin => h.withdraw origin
  | .within origin commands =>
      isPlain_runAll_of h hBook (some origin) commands

/- So do commands that are carried out one after another. -/
theorem isPlain_runAll_of
    {book : Rulebook}
    (h : book.IsPlain)
    (hBook : book.IsConsistent)
    (owner : Owner) :
    (commands : List Command) →
      (runAll owner book commands).IsPlain
  | [] => h
  | c :: commands =>
      isPlain_runAll_of (isPlain_run h hBook owner c)
        (isConsistent_run hBook owner c) owner commands

end

/-
  Whatever commands lead to a rulebook in which no member
  leads to a budget or to another member: a note in which what
  is picked counts once, and which is within its budget, is
  within it after feats and selectable features are filled at
  random, any number of times and from any source.
-/
theorem isWithin_fillAll
    (settings : Settings)
    (commands : List Command)
    {note : Key}
    {a : Allocation}
    {store : Store}
    {parts : List RandomAttribute}
    (hUnfed :
      (runAll none (Rulebook.empty settings) commands).IsUnfed)
    (hNote :
      (runAll none (Rulebook.empty settings)
        commands).allocations[note]? = some a)
    (hCounts :
      (runAll none (Rulebook.empty settings)
        commands).CountsOnce note a)
    (hTallied : a.IsFilled →
      (runAll none (Rulebook.empty settings)
        commands).IsTallied store note)
    (hParts : ∀ part ∈ parts, part.IsBudgeted)
    (hWithin :
      ((runAll none (Rulebook.empty settings) commands).sheet
        store).IsWithin note)
    (source : Source) :
    let book := runAll none (Rulebook.empty settings) commands
    (book.sheet
      ((book.fillAll parts store).run source).1).IsWithin
        note := by
  have hEmpty := isConsistent_empty settings
  have hPlain : (Rulebook.empty settings).IsPlain := nofun
  exact ensures_isWithin_fillAll
    (isConsistent_runAll_of hEmpty none commands)
    (isPlain_runAll_of hPlain hEmpty none commands)
    hUnfed hNote hCounts hTallied hParts hWithin source

/-
  Two feats of one type and a third one of another type: each
  note stays within its budget.
-/
theorem isWithin_fillAll_three_feats :
    let commands : List Command :=
      [.declare (.allocation "notes.first" "featCount.First"),
        .declare (.member "notes.first" "feats.Alert"),
        .declare (.member "notes.first" "feats.Lucky"),
        .declare (.allocation "notes.second" "featCount.Second"),
        .declare (.member "notes.second" "feats.Tough")]
    let book := runAll none (Rulebook.empty .standard) commands
    let first : Allocation :=
      ⟨"notes.first", "featCount.First", 0,
        [("feats.Alert", 1), ("feats.Lucky", 2)]⟩
    let store : Store :=
      .ofList [("featCount.First", Value.ofNat 1),
        ("featCount.Second", .ofNat 1)]
    let parts := [.feats, .selectableFeatures, .feats]
    book.IsUnfed ∧
      book.allocations["notes.first"]? = some first ∧
        book.CountsOnce "notes.first" first ∧
          book.IsTallied store "notes.first" ∧
            (∀ part ∈ parts, RandomAttribute.IsBudgeted part) ∧
              (book.sheet store).IsWithin "notes.first" ∧
                ∀ source,
                  (book.sheet
                    ((book.fillAll parts store).run
                      source).1).IsWithin "notes.first" := by
  intro commands book first store parts
  have hFlat : book.IsFlat := by
    unfold IsFlat IsTarget
    decide +kernel
  have hUnfed : book.IsUnfed := by
    apply isUnfed_of_inputs
    unfold IsTarget
    decide +kernel
  have hNote :
      book.allocations["notes.first"]? = some first := by
    decide +kernel
  have hCounts : book.CountsOnce "notes.first" first := by
    apply countsOnce_of_own_rules
    · unfold IsTarget
      decide +kernel
    · unfold Allocation.HasRule
      decide +kernel
  have hTallied : book.IsTallied store "notes.first" := by
    apply hFlat.isTallied
    · decide +kernel
    · decide +kernel
  have hParts :
      ∀ part ∈ parts, RandomAttribute.IsBudgeted part := by
    unfold RandomAttribute.IsBudgeted
    decide
  have hWithin : (book.sheet store).IsWithin "notes.first" := by
    have hOrdered :=
      (isConsistent_runAll .standard commands).ordered
    intro x hNumber
    have hTarget : book.IsTarget "notes.first" := by
      unfold IsTarget
      decide +kernel
    rw [Store.number?,
      hFlat.getElem?_sheet hOrdered hTarget] at hNumber
    revert x
    decide +kernel
  exact ⟨hUnfed, hNote, hCounts, hTallied, hParts, hWithin,
    isWithin_fillAll .standard commands hUnfed hNote hCounts
      (fun _ => hTallied) hParts hWithin⟩

end Command

------------------------------------------------------------
-- A Shared Feat
------------------------------------------------------------

namespace SharedFeat

open Rulebook

/- A feat of two types is a member of two allocations. -/
def commands : List Command :=
  [.declare (.allocation "notes.first" "featCount.First"),
    .declare (.member "notes.first" "feats.Alert"),
    .declare (.allocation "notes.second" "featCount.Second"),
    .declare (.member "notes.second" "feats.Alert")]

def book : Rulebook :=
  Command.runAll none (Rulebook.empty .standard) commands

def first : Allocation :=
  ⟨"notes.first", "featCount.First", 0, [("feats.Alert", 1)]⟩

def second : Allocation :=
  ⟨"notes.second", "featCount.Second", 2, [("feats.Alert", 3)]⟩

/- One feat of the first type may be picked. -/
def store : Store :=
  .ofList [("featCount.First", Value.ofNat 1)]

/- It has been picked. -/
def picked : Store :=
  store.insert "feats.Alert" (.ofNat 1)

/- Both notes are told from the input. -/
theorem number?_sheet
    {note : Key}
    (hNote : note ∈ ["notes.first", "notes.second"])
    (s : Store) :
    (book.sheet s).number? note =
      (Rule.joinAll s
        (Operator.inOrder.flatMap (book.rulesOf note))
        s[note]?).bind Value.number? := by
  have hFlat : book.IsFlat := by
    unfold IsFlat IsTarget
    decide +kernel
  have hTargets :
      ∀ n ∈ ["notes.first", "notes.second"],
        book.IsTarget n := by
    unfold IsTarget
    decide +kernel
  have hOrdered :=
    (Command.isConsistent_runAll .standard commands).ordered
  rw [Store.number?,
    hFlat.getElem?_sheet hOrdered (hTargets note hNote)]

/- The feat is counted in both of them. -/
theorem number?_notes :
    (book.sheet store).number? "notes.first" =
        some (.ofInt (-1)) ∧
      (book.sheet store).number? "notes.second" = none ∧
        (book.sheet picked).number? "notes.second" = some 1 := by
  rw [number?_sheet (by decide), number?_sheet (by decide),
    number?_sheet (by decide)]
  decide +kernel

/- The first allocation picks the feat. -/
theorem ensures_fillAllocation_first :
    Random.Ensures
      (Random.fillAllocation book book.plan (fun _ => true) store
        "notes.first" first)
      (· = ⟨["feats.Alert"], picked⟩) := by
  have hOpen :
      (first.keys.filter fun key =>
        !store.truthy key && true) = ["feats.Alert"] := by
    decide +kernel
  have hNone : book.requirements.toList = [] := by
    decide +kernel
  have hRetries : 0 < book.settings.randomRetries := by
    decide +kernel
  refine (Random.ensures_fillAllocation_singleton
    number?_notes.1 hOpen (by decide) hRetries).mono ?_
  rintro _ rfl
  exact if_pos (isValidMember_of_no_requirements hNone _ _)

/- After that nothing is open to the second one. -/
theorem ensures_fillAllocation_second :
    Random.Ensures
      (Random.fillAllocation book book.plan (fun _ => true) picked
        "notes.second" second)
      (· = ⟨[], picked⟩) := by
  have hOpen :
      (second.keys.filter fun key =>
        !picked.truthy key && true) = [] := by
    decide +kernel
  exact Random.ensures_fillAllocation_of_length_le_one
    number?_notes.2.2 hOpen (Nat.zero_le 1)

/- So it is picked once, and both have been filled. -/
theorem ensures_fillAll_feats :
    Random.Ensures (book.fillAll [.feats] store) (· = picked) := by
  have hFilter :
      (book.allocations.toList.filter fun entry =>
        Key.isUnder entry.2.budget "featCount") =
          [("notes.first", first), ("notes.second", second)] := by
    decide +kernel
  have hFill :
      Random.Ensures (book.fill .feats store) (· = picked) := by
    change Random.Ensures (List.foldlM (m := Random) _ store
      (book.allocations.toList.filter fun entry =>
        Key.isUnder entry.2.budget "featCount")) _
    simp only [hFilter, List.foldlM_cons, List.foldlM_nil]
    refine (ensures_fillAllocation_first.bind_pure
      Selection.store).bind ?_
    rintro _ rfl
    exact (ensures_fillAllocation_second.bind_pure
      Selection.store).bind_pure id
  exact hFill.bind_pure id

/-
  A feat that is a member of two allocations is picked for the
  one that has something left, and overspends the other one.
-/
theorem not_forall_isWithin_fillAll :
    ¬ ∀ (settings : Settings) (commands : List Command)
      (store : Store) (parts : List RandomAttribute)
      (source : Source) (note : Key),
        let book :=
          Command.runAll none (Rulebook.empty settings) commands
        book.IsUnfed → (∀ part ∈ parts, part.IsBudgeted) →
          book.allocations.contains note = true →
            (book.sheet store).IsWithin note →
              (book.sheet
                ((book.fillAll parts store).run
                  source).1).IsWithin note := by
  intro h
  have hUnfed : book.IsUnfed := by
    apply isUnfed_of_inputs
    unfold IsTarget
    decide +kernel
  have hAll := h .standard commands store [.feats]
    (.ofSeed 0 #[]) "notes.second" hUnfed
    (fun part hPart => .inl (List.mem_singleton.mp hPart))
    (by decide +kernel)
  change (book.sheet store).IsWithin "notes.second" →
    (book.sheet ((book.fillAll [.feats] store).run
      (.ofSeed 0 #[])).1).IsWithin "notes.second" at hAll
  rw [ensures_fillAll_feats] at hAll
  have hBefore : (book.sheet store).IsWithin "notes.second" := by
    intro x hNumber
    rw [number?_notes.2.1] at hNumber
    cases hNumber
  have hOne := hAll hBefore 1 number?_notes.2.2
  revert hOne
  decide

end SharedFeat

end CharSheet
