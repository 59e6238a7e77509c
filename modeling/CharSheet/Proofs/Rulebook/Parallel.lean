import CharSheet.Proofs.Rulebook.Remainder

/-
  Rulebooks that are written side by side.

  The first one takes in declarations of owners that will be
  gone, and the second one never does.  As long as these do
  not get in the way of the other owners, the second one is
  what remains of the first.

  Main declarations:
    * `Declaration.IsApart`, `Declaration.AreSupported`
    * `Rulebook.IsFrom`
    * `Rulebook.IsParallel`
    * `Rulebook.IsParallel.declareAll_kept`
    * `Rulebook.IsParallel.declareAll_gone`
-/

namespace CharSheet

------------------------------------------------------------
-- Declarations Side by Side
------------------------------------------------------------

namespace Declaration

/- The attributes that joint rules of a declaration are for. -/
def jointTargets (d : Declaration) : List Key :=
  d.parts.map (·.target)

/- The attributes that a declaration may add rules for. -/
def targets : Declaration → List Key
  | .rule target _ _ _ => [target]
  | .adjustment _ _ _ words => adjustmentNames words
  | d => d.jointTargets

/- The notes that must have an allocation already. -/
def needs : Declaration → List Key
  | .member n _ => [n]
  | .option kind _ => [kind.allocation]
  | _ => []

/- The notes that have an allocation afterwards. -/
def allocates : Declaration → List Key
  | .allocation n _ => [n]
  | _ => []

/-
  Declarations that need nothing but the allocations of given
  notes and those that they declare themselves before.
-/
def AreSupported :
    List Key → List Declaration → Prop
  | _, [] => True
  | known, d :: ds =>
      (∀ n ∈ d.needs, n ∈ known) ∧
        AreSupported (d.allocates ++ known) ds

/-
  A declaration comes to the same whether others are there or
  not: an adjustment finds no attribute that only they have
  rules for, and a note gets no other budget from them.
-/
def IsApart
    (base : Rulebook)
    (others : List Declaration) : Declaration → Prop
  | .adjustment _ _ _ words =>
      ∀ key ∈ adjustmentNames words,
        (∃ e ∈ others, key ∈ e.targets) →
          base.settings.adjustable.contains key = true ∨
            base.isDerived key = true
  | .allocation n budget =>
      ∀ e ∈ others, ∀ p ∈ e.parts,
        p = .ofBudget n p.source → p.source = budget
  | _ => True

/- The target of a joint rule is one of the declaration. -/
theorem target_mem_of_mem_parts
    {d : Declaration}
    {p : RuleParts}
    (h : p ∈ d.parts) :
    p.target ∈ d.targets := by
  cases d with
  | rule target source op formula => cases h
  | adjustment gate op amount words => cases h
  | _ => exact List.mem_map_of_mem h

/- So is the target of the own rule that it adds. -/
theorem target_mem_of_ownRule?
    {d : Declaration}
    {book : Rulebook}
    {owner : Owner}
    {r : Rule}
    (h : d.ownRule? book owner = some r) :
    r.target ∈ d.targets := by
  cases d with
  | rule target source op formula =>
      cases h
      exact List.mem_singleton_self target
  | adjustment gate op amount words =>
      rcases Option.map_eq_some_iff.mp h with ⟨target, hFound, rfl⟩
      exact List.mem_of_find?_eq_some hFound
  | _ => cases h

theorem mem_parts_of_mem_takenParts
    {d : Declaration}
    {book : Rulebook}
    {p : RuleParts}
    (h : p ∈ d.takenParts book) :
    p ∈ d.parts := by
  unfold takenParts at h
  split at h
  · exact h
  · cases h

instance
    (base : Rulebook)
    (others : List Declaration)
    (d : Declaration) :
    Decidable (d.IsApart base others) := by
  cases d <;> unfold IsApart <;> infer_instance

end Declaration

namespace Rulebook

variable {book other rest rest' base : Rulebook}
variable {gone : Owner → Bool}
variable {owner : Owner}

/- Allocations stay, and those that are declared are there. -/
theorem IsConsistent.isAllocated_declare
    (h : book.IsConsistent)
    (owner : Owner)
    {d : Declaration}
    {note : Key}
    (hNote : note ∈ d.allocates ∨ book.IsAllocated note) :
    (book.declare owner d).IsAllocated note := by
  have hAdds := adds_declare h owner d
  have hStays (hThere : book.IsAllocated note) :
      (book.declare owner d).IsAllocated note := by
    rcases h.isAllocated_iff.mp hThere with ⟨budget, w, hOwns⟩
    exact (h.declare owner d).isAllocated_iff.mpr
      ⟨budget, w, (hAdds.owns_iff w _).mpr (Or.inl hOwns)⟩
  rcases hNote with hNew | hThere
  · cases d with
    | allocation n budget =>
        obtain rfl : note = n := List.mem_singleton.mp hNew
        cases hTaken :
            (Declaration.allocation note budget).isTaken book with
        | true =>
            have hIn : RuleParts.ofBudget note budget ∈
                Declaration.takenParts book
                  (.allocation note budget) := by
              unfold Declaration.takenParts
              rw [hTaken]
              exact List.mem_singleton_self _
            exact (h.declare owner _).isAllocated_iff.mpr
              ⟨budget, owner,
                (hAdds.owns_iff _ _).mpr (Or.inr ⟨rfl, hIn⟩)⟩
        | false =>
            apply hStays
            by_contra hNone
            refine Bool.false_ne_true (hTaken.symm.trans ?_)
            exact Declaration.isTaken_allocation_iff.mpr
              fun a ha => absurd ⟨a, ha⟩ hNone
    | _ => cases hNew
  · exact hStays hThere

------------------------------------------------------------
-- Where Things Come From
------------------------------------------------------------

/-
  An attribute is derived if an own rule or a joint one has it
  as its target.
-/
theorem IsNumbered.isDerived_iff
    (h : book.IsNumbered)
    {key : Key} :
    book.isDerived key = true ↔
      (∃ r ∈ book.ownRules.map Rule.unnumbered,
        r.target = key) ∨
        ∃ w p, book.Owns w p ∧ p.target = key := by
  have hDerived :
      book.isDerived key = true ↔
        ∃ r ∈ book.rules, r.target = key := by
    simp [isDerived]
  rw [hDerived]
  constructor
  · intro hSome
    rcases hSome with ⟨r, hr, hTarget⟩
    cases hJoint : book.isJoint r with
    | false =>
        have hOwn : r ∈ book.ownRules :=
          List.mem_filter.mpr ⟨hr, by rw [hJoint]; rfl⟩
        exact Or.inl
          ⟨r.unnumbered, List.mem_map_of_mem hOwn, hTarget⟩
    | true =>
        have hShares := (h.shares_of_mem_jointRules
          (mem_jointRules_iff.mpr ⟨hr, hJoint⟩)).1
        rcases h.exists_owns hShares with ⟨w, hOwns⟩
        exact Or.inr ⟨w, r.parts, hOwns, hTarget⟩
  · intro hOr
    rcases hOr with ⟨r', hr', hTarget⟩ | ⟨w, p, hOwns, hTarget⟩
    · rcases List.mem_map.mp hr' with ⟨r, hr, rfl⟩
      exact ⟨r, (List.mem_filter.mp hr).1, hTarget⟩
    · rcases hOwns.exists_shares with ⟨seq, hShares⟩
      rcases h.exists_rule hShares with
        ⟨r, _, hr, _, hParts, _⟩
      refine ⟨r, hr, ?_⟩
      rw [← hTarget, ← hParts]
      rfl

/- What is derived before an addition is derived after. -/
theorem Adds.isDerived
    {own : List Rule}
    {parts : List RuleParts}
    (h : Adds book other owner own parts)
    (hBook : book.IsNumbered)
    (hOther : other.IsNumbered)
    {key : Key}
    (hDerived : book.isDerived key = true) :
    other.isDerived key = true := by
  rw [hBook.isDerived_iff] at hDerived
  rw [hOther.isDerived_iff, h.ownRules_eq]
  rcases hDerived with ⟨r, hr, hTarget⟩ | ⟨w, p, hOwns, hTarget⟩
  · exact Or.inl ⟨r, List.mem_append_left _ hr, hTarget⟩
  · exact Or.inr
      ⟨w, p, (h.owns_iff w p).mpr (Or.inl hOwns), hTarget⟩

/-
  What the owners that will be gone have in a rulebook comes
  from the declarations of a list.
-/
structure IsFrom
    (gone : Owner → Bool)
    (book : Rulebook)
    (ds : List Declaration) : Prop where
  own : ∀ r ∈ book.ownRules.map Rule.unnumbered,
    gone r.owner = true → ∃ d ∈ ds, r.target ∈ d.targets
  parts : ∀ w p, book.Owns w p →
    gone w = true → ∃ d ∈ ds, p ∈ d.parts

/- What is added for owners that stay comes from nowhere. -/
theorem IsFrom.of_kept
    {ds : List Declaration}
    (h : IsFrom gone book ds)
    (hOwner : gone owner = false)
    {own : List Rule}
    {parts : List RuleParts}
    (hAdds : Adds book other owner own parts) :
    IsFrom gone other ds where
  own := by
    intro r hr hGone
    rw [hAdds.ownRules_eq] at hr
    rcases List.mem_append.mp hr with hOld | hNew
    · exact h.own r hOld hGone
    · rw [hAdds.owner_eq r hNew, hOwner] at hGone
      cases hGone
  parts := by
    intro w p hOwns hGone
    rcases (hAdds.owns_iff w p).mp hOwns with hOld | ⟨rfl, _⟩
    · exact h.parts w p hOld hGone
    · rw [hOwner] at hGone
      cases hGone

/- A declaration of the list adds what it is about. -/
theorem IsFrom.declare
    {ds : List Declaration}
    (h : IsFrom gone book ds)
    (hBook : book.IsConsistent)
    (owner : Owner)
    {d : Declaration}
    (hd : d ∈ ds) :
    IsFrom gone (book.declare owner d) ds where
  own := by
    intro r hr hGone
    have hAdds := adds_declare hBook owner d
    rw [hAdds.ownRules_eq] at hr
    rcases List.mem_append.mp hr with hOld | hNew
    · exact h.own r hOld hGone
    · exact ⟨d, hd,
        Declaration.target_mem_of_ownRule?
          (Option.mem_toList.mp hNew)⟩
  parts := by
    intro w p hOwns hGone
    have hAdds := adds_declare hBook owner d
    rcases (hAdds.owns_iff w p).mp hOwns with hOld | ⟨_, hIn⟩
    · exact h.parts w p hOld hGone
    · exact ⟨d, hd, Declaration.mem_parts_of_mem_takenParts hIn⟩

------------------------------------------------------------
-- Rulebooks Side by Side
------------------------------------------------------------

/- The rules of an attribute that do not go, unnumbered. -/
def staying
    (gone : Owner → Bool)
    (book : Rulebook)
    (key : Key) : List Rule :=
  (book.rules.map Rule.unnumbered).filter fun r =>
    r.target = key && !gone r.owner

/-
  Two rulebooks that started from a base: the second one is
  what remains of the first, and all else of the first comes
  from the declarations of a list.  Only attributes that these
  have joint rules for may have their rules in another order.
-/
structure IsParallel
    (base : Rulebook)
    (gone : Owner → Bool)
    (ds : List Declaration)
    (book rest : Rulebook) : Prop where
  isConsistent : book.IsConsistent
  isConsistent_rest : rest.IsConsistent
  isRemainder : IsRemainder gone book rest
  isFrom : IsFrom gone book ds
  settings : rest.settings = base.settings
  none_stays : gone none = false
  order : ∀ key, key ∉ ds.flatMap Declaration.jointTargets →
    staying gone rest key = staying gone book key
  derived : ∀ key, base.isDerived key = true →
    rest.isDerived key = true
  allocated : ∀ n, base.IsAllocated n → rest.IsAllocated n

section Parallel

variable {ds : List Declaration}
variable (h : IsParallel base gone ds book rest)

include h

/- What the remainder derives is derived before. -/
theorem IsParallel.isDerived_of_rest
    {key : Key}
    (hDerived : rest.isDerived key = true) :
    book.isDerived key = true := by
  rw [h.isConsistent_rest.isDerived_iff,
    h.isRemainder.own] at hDerived
  rw [h.isConsistent.isDerived_iff]
  rcases hDerived with ⟨r, hr, hTarget⟩ | ⟨w, p, hOwns, hTarget⟩
  · exact Or.inl ⟨r, (List.mem_filter.mp hr).1, hTarget⟩
  · exact Or.inr
      ⟨w, p, ((h.isRemainder.owns w p).mp hOwns).1, hTarget⟩

/- What is derived before stays, or comes from the list. -/
theorem IsParallel.isDerived_cases
    {key : Key}
    (hDerived : book.isDerived key = true) :
    rest.isDerived key = true ∨ ∃ d ∈ ds, key ∈ d.targets := by
  rw [h.isConsistent.isDerived_iff] at hDerived
  rw [h.isConsistent_rest.isDerived_iff, h.isRemainder.own]
  rcases hDerived with ⟨r, hr, hTarget⟩ | ⟨w, p, hOwns, hTarget⟩
  · cases hGone : gone r.owner with
    | false =>
        refine Or.inl (Or.inl ⟨r, List.mem_filter.mpr ⟨hr, ?_⟩,
          hTarget⟩)
        rw [hGone]
        rfl
    | true =>
        rcases h.isFrom.own r hr hGone with ⟨d, hd, hIn⟩
        rw [hTarget] at hIn
        exact Or.inr ⟨d, hd, hIn⟩
  · cases hGone : gone w with
    | false =>
        exact Or.inl (Or.inr
          ⟨w, p, (h.isRemainder.owns w p).mpr ⟨hOwns, hGone⟩,
            hTarget⟩)
    | true =>
        rcases h.isFrom.parts w p hOwns hGone with ⟨d, hd, hIn⟩
        have hTargets := Declaration.target_mem_of_mem_parts hIn
        rw [hTarget] at hTargets
        exact Or.inr ⟨d, hd, hTargets⟩

/- An adjustment that is apart finds the same attribute. -/
theorem IsParallel.adjusted?_eq
    {gate : Key}
    {op : Adjustment}
    {amount : Amount}
    {words : List String}
    (hApart :
      (Declaration.adjustment gate op amount words).IsApart base
        ds) :
    rest.adjusted? words = book.adjusted? words := by
  change (adjustmentNames words).find? _ =
    (adjustmentNames words).find? _
  rw [← List.head?_filter, ← List.head?_filter]
  congr 1
  apply List.filter_congr
  intro key hKey
  rw [← h.isRemainder.settings, h.settings]
  cases hThere : base.settings.adjustable.contains key with
  | true => rfl
  | false =>
      rw [Bool.false_or, Bool.false_or, Bool.eq_iff_iff]
      refine ⟨h.isDerived_of_rest, fun hDerived => ?_⟩
      rcases h.isDerived_cases hDerived with hStays | hSome
      · exact hStays
      · rcases hApart key hKey hSome with hTrue | hBase
        · rw [hThere] at hTrue
          cases hTrue
        · exact h.derived key hBase

/- A declaration that is apart adds the same own rule. -/
theorem IsParallel.ownRule?_eq
    {d : Declaration}
    (hApart : d.IsApart base ds)
    (owner : Owner) :
    d.ownRule? rest owner = d.ownRule? book owner := by
  cases d with
  | adjustment gate op amount words =>
      simp only [Declaration.ownRule?, h.adjusted?_eq hApart]
  | _ => rfl

/- An allocation that is apart meets the same budgets. -/
theorem IsParallel.isTaken_allocation
    {n budget : Key}
    (hApart : (Declaration.allocation n budget).IsApart base ds) :
    (Declaration.allocation n budget).isTaken rest =
      (Declaration.allocation n budget).isTaken book := by
  rw [Bool.eq_iff_iff, Declaration.isTaken_allocation_iff,
    Declaration.isTaken_allocation_iff]
  constructor
  · intro hRest b hb
    rcases h.isConsistent.exists_allocation_iff.mp
        ⟨b, hb, rfl⟩ with
      ⟨w, hOwns⟩
    cases hGone : gone w with
    | false =>
        have hStays :=
          (h.isRemainder.owns w _).mpr ⟨hOwns, hGone⟩
        rcases h.isConsistent_rest.exists_allocation_iff.mpr
            ⟨w, hStays⟩ with
          ⟨a, ha, hBudget⟩
        rw [← hBudget]
        exact hRest a ha
    | true =>
        rcases h.isFrom.parts w _ hOwns hGone with ⟨d, hd, hIn⟩
        exact hApart d hd _ hIn rfl
  · intro hBook a ha
    rcases h.isRemainder.exists_allocation h.isConsistent
        h.isConsistent_rest ha with
      ⟨b, hb, hBudget⟩
    rw [← hBudget]
    exact hBook b hb

/-
  A declaration that is apart, and whose notes have
  allocations, has a part in the same joint rules.
-/
theorem IsParallel.takenParts_eq
    {d : Declaration}
    (hApart : d.IsApart base ds)
    (hNeeds : ∀ n ∈ d.needs, rest.IsAllocated n) :
    d.takenParts rest = d.takenParts book := by
  have hBoth {n : Key} (hn : n ∈ d.needs) :
      rest.IsAllocated n ∧ book.IsAllocated n := by
    rcases hNeeds n hn with ⟨a, ha⟩
    rcases h.isRemainder.exists_allocation h.isConsistent
        h.isConsistent_rest ha with
      ⟨b, hb, _⟩
    exact ⟨⟨a, ha⟩, b, hb⟩
  have hTaken : d.isTaken rest = d.isTaken book := by
    cases d with
    | allocation n budget => exact h.isTaken_allocation hApart
    | member n key =>
        have hThere := hBoth (List.mem_singleton_self n)
        rw [Declaration.isTaken_member_iff.mpr hThere.1,
          Declaration.isTaken_member_iff.mpr hThere.2]
    | option kind name =>
        have hThere := hBoth (List.mem_singleton_self _)
        rw [Declaration.isTaken_option_iff.mpr hThere.1,
          Declaration.isTaken_option_iff.mpr hThere.2]
    | _ => rfl
  unfold Declaration.takenParts
  rw [hTaken]

/- Who has a part in joint rules of other attributes stays. -/
theorem IsParallel.stays_of_owns
    {p : RuleParts}
    (hTarget : p.target ∉ ds.flatMap Declaration.jointTargets)
    {w : Owner}
    (hOwns : book.Owns w p) :
    gone w = false := by
  cases hGone : gone w with
  | false => rfl
  | true =>
      rcases h.isFrom.parts w p hOwns hGone with ⟨d, hd, hIn⟩
      exact absurd
        (List.mem_flatMap.mpr ⟨d, hd, List.mem_map_of_mem hIn⟩)
        hTarget

/- Their joint rules are those of the remainder. -/
theorem IsParallel.mem_jointParts_iff
    {p : RuleParts}
    (hTarget : p.target ∉ ds.flatMap Declaration.jointTargets) :
    p ∈ rest.jointParts ↔ p ∈ book.jointParts := by
  rw [h.isConsistent.mem_jointParts_iff,
    h.isConsistent_rest.mem_jointParts_iff]
  constructor
  · intro hSome
    rcases hSome with ⟨w, hOwns⟩
    exact ⟨w, ((h.isRemainder.owns w p).mp hOwns).1⟩
  · intro hSome
    rcases hSome with ⟨w, hOwns⟩
    exact ⟨w, (h.isRemainder.owns w p).mpr
      ⟨hOwns, h.stays_of_owns hTarget hOwns⟩⟩

/- The same additions keep the order of such rules. -/
theorem IsParallel.staying_both
    {own : List Rule}
    {parts : List RuleParts}
    (hBook : Adds book other owner own parts)
    (hRest : Adds rest rest' owner own parts)
    {key : Key}
    (hKey : key ∉ ds.flatMap Declaration.jointTargets) :
    staying gone rest' key = staying gone other key := by
  have hNew :
      ((rest.newParts parts).map RuleParts.standing).filter
          (fun r => r.target = key && !gone r.owner) =
        ((book.newParts parts).map RuleParts.standing).filter
          fun r => r.target = key && !gone r.owner := by
    rw [newParts, newParts, List.filter_map, List.filter_map,
      List.filter_filter, List.filter_filter]
    congr 1
    apply List.filter_congr
    intro p _
    by_cases hTarget : p.target = key
    · have hSame := h.mem_jointParts_iff (hTarget ▸ hKey)
      congr 1
      exact decide_eq_decide.mpr (not_congr hSame)
    · simp [RuleParts.standing, hTarget]
  have hOld := h.order key hKey
  unfold staying at hOld ⊢
  rw [hRest.rules_eq, hBook.rules_eq, List.filter_append,
    List.filter_append, List.filter_append, List.filter_append,
    hNew, hOld]

/- Additions of an owner that goes do not touch them. -/
theorem IsParallel.staying_left
    (hOwner : gone owner = true)
    {own : List Rule}
    {parts : List RuleParts}
    (hBook : Adds book other owner own parts)
    (hFrom : ∀ p ∈ parts,
      p.target ∈ ds.flatMap Declaration.jointTargets)
    {key : Key}
    (hKey : key ∉ ds.flatMap Declaration.jointTargets) :
    staying gone rest key = staying gone other key := by
  have hNone :
      (own ++ (book.newParts parts).map
        RuleParts.standing).filter
          (fun r => r.target = key && !gone r.owner) = [] := by
    apply List.filter_eq_nil_iff.mpr
    intro r hr hStays
    rcases (Bool.and_eq_true _ _).mp hStays with
      ⟨hTarget, hKept⟩
    rcases List.mem_append.mp hr with hOwn | hNew
    · rw [hBook.owner_eq r hOwn, hOwner] at hKept
      cases hKept
    · rcases List.mem_map.mp hNew with ⟨p, hp, rfl⟩
      have hIn := hFrom p (List.mem_filter.mp hp).1
      exact hKey (of_decide_eq_true hTarget ▸ hIn)
  have hOld := h.order key hKey
  unfold staying at hOld ⊢
  rw [hBook.rules_eq, List.filter_append, hNone,
    List.append_nil, hOld]

/- Both take in a declaration of an owner that stays. -/
theorem IsParallel.declare_kept
    (hOwner : gone owner = false)
    {d : Declaration}
    (hApart : d.IsApart base ds)
    (hNeeds : ∀ n ∈ d.needs, rest.IsAllocated n) :
    IsParallel base gone ds (book.declare owner d)
      (rest.declare owner d) := by
  have hBook := adds_declare h.isConsistent owner d
  have hRest := adds_declare h.isConsistent_rest owner d
  rw [h.ownRule?_eq hApart, h.takenParts_eq hApart hNeeds]
    at hRest
  refine ⟨h.isConsistent.declare owner d,
    h.isConsistent_rest.declare owner d,
    h.isRemainder.both hOwner hBook hRest,
    h.isFrom.of_kept hOwner hBook,
    hRest.settings_eq.trans h.settings, h.none_stays,
    fun key => h.staying_both hBook hRest, ?_, ?_⟩
  · intro key hBase
    exact hRest.isDerived h.isConsistent_rest.toIsNumbered
      (h.isConsistent_rest.declare owner d).toIsNumbered
      (h.derived key hBase)
  · intro n hBase
    exact h.isConsistent_rest.isAllocated_declare owner
      (Or.inr (h.allocated n hBase))

/- The first takes in one of the list for one that goes. -/
theorem IsParallel.declare_gone
    (hOwner : gone owner = true)
    {d : Declaration}
    (hd : d ∈ ds) :
    IsParallel base gone ds (book.declare owner d) rest := by
  have hBook := adds_declare h.isConsistent owner d
  have hFrom : ∀ p ∈ d.takenParts book,
      p.target ∈ ds.flatMap Declaration.jointTargets := by
    intro p hp
    have hIn := Declaration.mem_parts_of_mem_takenParts hp
    exact List.mem_flatMap.mpr ⟨d, hd, List.mem_map_of_mem hIn⟩
  exact ⟨h.isConsistent.declare owner d, h.isConsistent_rest,
    h.isRemainder.left hOwner hBook,
    h.isFrom.declare h.isConsistent owner hd, h.settings,
    h.none_stays, fun key => h.staying_left hOwner hBook hFrom,
    h.derived, h.allocated⟩

/- So do both with a list of declarations that are supported. -/
theorem IsParallel.declareAll_kept
    (hOwner : gone owner = false)
    {known : List Key}
    {list : List Declaration}
    (hSupported : Declaration.AreSupported known list)
    (hKnown : ∀ n ∈ known, rest.IsAllocated n)
    (hApart : ∀ d ∈ list, d.IsApart base ds) :
    IsParallel base gone ds (book.declareAll owner list)
      (rest.declareAll owner list) := by
  induction list generalizing known book rest with
  | nil => exact h
  | cons d list ih =>
      have hNeeds := fun n hn => hKnown n (hSupported.1 n hn)
      have hNext := h.declare_kept hOwner
        (hApart d List.mem_cons_self) hNeeds
      refine ih hNext hSupported.2 ?_ fun e he =>
        hApart e (List.mem_cons_of_mem d he)
      intro n hn
      apply h.isConsistent_rest.isAllocated_declare owner
      rcases List.mem_append.mp hn with hNew | hOld
      · exact Or.inl hNew
      · exact Or.inr (hKnown n hOld)

/- So does the first one with declarations of the list. -/
theorem IsParallel.declareAll_gone
    (hOwner : gone owner = true)
    {list : List Declaration}
    (hList : ∀ d ∈ list, d ∈ ds) :
    IsParallel base gone ds (book.declareAll owner list) rest := by
  induction list generalizing book with
  | nil => exact h
  | cons d list ih =>
      exact ih
        (h.declare_gone hOwner (hList d List.mem_cons_self))
        fun e he => hList e (List.mem_cons_of_mem d he)

/- Which choices are registered does not matter. -/
theorem IsParallel.with_choices
    (cs cs' : List Choice) :
    IsParallel base gone ds { book with choices := cs }
      { rest with choices := cs' } :=
  ⟨h.isConsistent.of_eq rfl rfl rfl rfl,
    h.isConsistent_rest.of_eq rfl rfl rfl rfl,
    ⟨h.isRemainder.settings, h.isRemainder.own,
      h.isRemainder.owns⟩,
    ⟨h.isFrom.own, h.isFrom.parts⟩, h.settings, h.none_stays,
    h.order, h.derived, h.allocated⟩

end Parallel

end Rulebook

end CharSheet
