import CharSheet.Proofs.Rulebook.Command
import CharSheet.Rulebook.Sheet

/-
  Taking back what was declared last.

  A withdrawal does not tell whether its origin has made more
  declarations: each step of the origin is undone with all of
  the others.  So a choice that is registered and removed
  leaves the rulebook as it was.

  Main declarations:
    * `Rulebook.Agrees`
    * `Rulebook.agrees_withdraw_of_step`
    * `Rulebook.agrees_withdraw_declareAll`
    * `Rulebook.IsUnused`
    * `Command.removeChoice_registerText`
-/

namespace CharSheet

namespace Rulebook

variable {book other third : Rulebook}
variable {origin : Origin}

------------------------------------------------------------
-- Agreement
------------------------------------------------------------

/- The rulebooks have the same rules, and the same pools. -/
structure Agrees (book other : Rulebook) : Prop where
  rules : book.rules = other.rules
  shared : book.shared = other.shared
  allocations : book.allocations = other.allocations
  pools : book.pools = other.pools

theorem Agrees.refl (book : Rulebook) : book.Agrees book :=
  ⟨rfl, rfl, rfl, rfl⟩

theorem Agrees.trans
    (h : book.Agrees other)
    (hNext : other.Agrees third) :
    book.Agrees third where
  rules := h.rules.trans hNext.rules
  shared := h.shared.trans hNext.shared
  allocations := h.allocations.trans hNext.allocations
  pools := h.pools.trans hNext.pools

/- A sheet is computed from nothing but rules. -/
theorem sheet_congr
    (h : book.rules = other.rules)
    (input : Store) :
    book.sheet input = other.sheet input := by
  have hGraph : book.graph = other.graph := by
    unfold graph targets
    rw [h]
  have hRules : book.rulesFor = other.rulesFor := by
    funext key
    unfold rulesFor
    rw [h]
  unfold sheet plan planAlong
  rw [hGraph, hRules]

------------------------------------------------------------
-- New Numbers
------------------------------------------------------------

/- The numbers of an allocation have been given already. -/
theorem IsConsistent.budgetRule_lt
    (h : book.IsConsistent)
    {note : Key}
    {a : Allocation}
    (ha : book.allocations[note]? = some a) :
    a.budgetRule < book.nextSeq :=
  h.seq_lt (h.allocation note a ha).budget

theorem IsConsistent.number_lt
    (h : book.IsConsistent)
    {note : Key}
    {a : Allocation}
    {seq : Nat}
    (ha : book.allocations[note]? = some a)
    (hNumber : seq ∈ a.numbers) :
    seq < book.nextSeq := by
  rcases Allocation.mem_numbers_iff.mp hNumber with ⟨key, hIn⟩
  have hOwn := h.allocation note a ha
  have hShares := (hOwn.members key seq).mp hIn
  exact h.seq_lt hShares

/-
  What a note has before and after a rule of a new number is
  shared: the rule is that of a new budget, or of a member.
-/
inductive Grows (seq : Nat) :
    Option Allocation → Option Allocation → Prop where
  | same (a? : Option Allocation) : Grows seq a? a?
  | budget
      (a : Allocation)
      (hRule : a.budgetRule = seq)
      (hMembers : a.members = []) :
      Grows seq none (some a)
  | member (a : Allocation) (key : Key) :
      Grows seq (some a)
        (some { a with members := a.members ++ [(key, seq)] })

/- What there is after growing is empty, or was there. -/
theorem Grows.of_some
    {seq : Nat}
    {a? : Option Allocation}
    {b : Allocation}
    (h : Grows seq a? (some b)) :
    b.numbers = [] ∨ ∃ a, a? = some a ∧
      b.budgetRule = a.budgetRule ∧
        ∀ q ∈ b.numbers, q ∈ a.numbers ∨ q = seq := by
  cases h with
  | same =>
      exact Or.inr ⟨b, rfl, rfl, fun _ hIn => Or.inl hIn⟩
  | budget _ hRule hMembers =>
      left
      unfold Allocation.numbers
      rw [hMembers]
      rfl
  | member a key =>
      refine Or.inr ⟨a, rfl, rfl, ?_⟩
      intro q hIn
      simpa [Allocation.numbers] using hIn

/- What there was before growing is there with its members. -/
theorem Grows.some_of
    {seq : Nat}
    {a : Allocation}
    {b? : Option Allocation}
    (h : Grows seq (some a) b?) :
    ∃ b, b? = some b ∧ b.budgetRule = a.budgetRule ∧
      ∀ q ∈ a.numbers, q ∈ b.numbers := by
  cases h with
  | same => exact ⟨a, rfl, rfl, fun _ hIn => hIn⟩
  | member _ key =>
      refine ⟨_, rfl, rfl, ?_⟩
      intro q hIn
      unfold Allocation.numbers
      rw [List.map_append]
      exact List.mem_append_left _ hIn

/- The origin's first share of a rule is all that differs. -/
structure AddsShared
    (book other : Rulebook)
    (origin : Origin)
    (r : Rule)
    (s : SharedRule) : Prop where
  rules : other.rules = book.rules ++ [r]
  shared : other.shared = book.shared ++ [s]
  pools : other.pools = book.pools
  owners : s.owners = [some origin]
  rule_seq : r.seq = book.nextSeq
  shared_seq : s.seq = book.nextSeq
  allocations : ∀ note : Key,
    Grows book.nextSeq book.allocations[note]?
      other.allocations[note]?

variable {r : Rule}
variable {s : SharedRule}

/- The new number is left with those that were left before. -/
theorem AddsShared.mem_left_iff
    (h : AddsShared book other origin r s)
    {seq : Nat} :
    seq ∈ other.left origin ↔
      seq ∈ book.left origin ∨ seq = book.nextSeq := by
  have hLeft :
      other.left origin =
        book.left origin ++ [book.nextSeq] := by
    unfold left disowned
    rw [h.shared, List.map_append, List.filter_append,
      List.map_append]
    simp [h.owners, h.shared_seq]
  rw [hLeft, List.mem_append, List.mem_singleton]

/- A number that was given before is left as before. -/
theorem AddsShared.mem_left_iff_of_lt
    (h : AddsShared book other origin r s)
    {seq : Nat}
    (hLt : seq < book.nextSeq) :
    seq ∈ other.left origin ↔ seq ∈ book.left origin := by
  rw [h.mem_left_iff]
  constructor
  · intro hOr
    rcases hOr with hOld | hNew
    · exact hOld
    · omega
  · exact Or.inl

/- The new number is dropped with those dropped before. -/
theorem AddsShared.mem_dropped_iff
    (h : AddsShared book other origin r s)
    (hBook : book.IsConsistent)
    (hOther : other.IsConsistent)
    {seq : Nat} :
    seq ∈ other.dropped origin ↔
      seq ∈ book.dropped origin ∨ seq = book.nextSeq := by
  rw [hOther.mem_dropped_iff, hBook.mem_dropped_iff,
    h.mem_left_iff]
  constructor
  · intro hOr
    rcases hOr with (hLeft | hNew) | ⟨note, b, hb, hGoes, hIn⟩
    · exact Or.inl (Or.inl hLeft)
    · exact Or.inr hNew
    · have hGrows := h.allocations note
      rw [hb] at hGrows
      rcases hGrows.of_some with hNone | ⟨a, ha, hRule, hNumbers⟩
      · rw [hNone] at hIn
        exact absurd hIn List.not_mem_nil
      · rw [hRule,
          h.mem_left_iff_of_lt (hBook.budgetRule_lt ha)] at hGoes
        rcases hNumbers seq hIn with hOld | hNew
        · exact Or.inl (Or.inr ⟨note, a, ha, hGoes, hOld⟩)
        · exact Or.inr hNew
  · intro hOr
    rcases hOr with (hLeft | ⟨note, a, ha, hGoes, hIn⟩) | hNew
    · exact Or.inl (Or.inl hLeft)
    · have hGrows := h.allocations note
      rw [ha] at hGrows
      rcases hGrows.some_of with ⟨b, hb, hRule, hNumbers⟩
      refine Or.inr ⟨note, b, hb, ?_, hNumbers seq hIn⟩
      rw [hRule]
      exact h.mem_left_iff.mpr (Or.inl hGoes)
    · exact Or.inl (Or.inr hNew)

/- A number that was given before is dropped as before. -/
theorem AddsShared.mem_dropped_iff_of_lt
    (h : AddsShared book other origin r s)
    (hBook : book.IsConsistent)
    (hOther : other.IsConsistent)
    {seq : Nat}
    (hLt : seq < book.nextSeq) :
    seq ∈ other.dropped origin ↔ seq ∈ book.dropped origin := by
  rw [h.mem_dropped_iff hBook hOther]
  constructor
  · intro hOr
    rcases hOr with hOld | hNew
    · exact hOld
    · omega
  · exact Or.inl

/- An allocation stays, or goes, as before. -/
theorem AddsShared.stays_iff
    (h : AddsShared book other origin r s)
    (hBook : book.IsConsistent)
    {note : Key}
    {a : Allocation}
    (ha : book.allocations[note]? = some a) :
    a.budgetRule ∉ other.left origin ↔
      a.budgetRule ∉ book.left origin :=
  not_congr (h.mem_left_iff_of_lt (hBook.budgetRule_lt ha))

/- An allocation that stays keeps the members it had. -/
theorem AddsShared.without_eq
    (h : AddsShared book other origin r s)
    (hBook : book.IsConsistent)
    {note : Key}
    {a : Allocation}
    (ha : book.allocations[note]? = some a) :
    a.without (other.left origin) =
      a.without (book.left origin) := by
  apply Allocation.without_congr
  intro seq hNumber
  exact h.mem_left_iff_of_lt (hBook.number_lt ha hNumber)

/- A new member is not kept. -/
theorem AddsShared.without_append_eq
    (h : AddsShared book other origin r s)
    (a : Allocation)
    (key : Key) :
    Allocation.without
        { a with
          members := a.members ++ [(key, book.nextSeq)] }
        (other.left origin) =
      a.without (other.left origin) := by
  have hNew : book.nextSeq ∈ other.left origin :=
    h.mem_left_iff.mpr (Or.inr rfl)
  simp [Allocation.without, hNew]

/- What is kept of allocations does not tell of the share. -/
theorem AddsShared.getElem?_withdraw
    (h : AddsShared book other origin r s)
    (hBook : book.IsConsistent)
    (hOther : other.IsConsistent)
    (note : Key) :
    (other.withdraw origin).allocations[note]? =
      (book.withdraw origin).allocations[note]? := by
  apply Option.ext
  intro kept
  rw [hOther.getElem?_withdraw, hBook.getElem?_withdraw]
  have hGrows := h.allocations note
  generalize hb? : other.allocations[note]? = b? at hGrows
  generalize ha? : book.allocations[note]? = a? at hGrows
  cases hGrows with
  | same =>
      refine exists_congr fun a => ?_
      apply and_congr_right
      intro ha
      rw [ha] at ha?
      rw [h.stays_iff hBook ha?, h.without_eq hBook ha?]
  | budget a hRule hMembers =>
      constructor
      · intro hKept
        rcases hKept with ⟨b, hb, hStays, _⟩
        cases hb
        rw [h.mem_left_iff] at hStays
        exact absurd (Or.inr hRule) hStays
      · intro hKept
        rcases hKept with ⟨b, hb, _⟩
        cases hb
  | member a key =>
      have hSame := (h.without_append_eq a key).trans
        (h.without_eq hBook ha?)
      constructor
      · intro hKept
        rcases hKept with ⟨b, hb, hStays, rfl⟩
        cases hb
        exact ⟨a, rfl, (h.stays_iff hBook ha?).mp hStays, hSame⟩
      · intro hKept
        rcases hKept with ⟨b, hb, hStays, rfl⟩
        cases hb
        exact ⟨_, rfl, (h.stays_iff hBook ha?).mpr hStays,
          hSame.symm⟩

/- The share of a rule is undone with all of the others. -/
theorem AddsShared.agrees
    (h : AddsShared book other origin r s)
    (hBook : book.IsConsistent)
    (hOther : other.IsConsistent) :
    (other.withdraw origin).Agrees (book.withdraw origin) where
  rules := by
    have hNew : r.seq ∈ other.dropped origin :=
      (h.mem_dropped_iff hBook hOther).mpr (Or.inr h.rule_seq)
    rw [rules_withdraw, rules_withdraw, h.rules,
      List.filter_append]
    have hLast :
        [r].filter (fun r =>
          decide (r.owner ≠ some origin) &&
            !(other.dropped origin).contains r.seq) = [] := by
      simp [hNew]
    rw [hLast, List.append_nil]
    apply List.filter_congr
    intro r' hr'
    have hSame := h.mem_dropped_iff_of_lt hBook hOther
      (hBook.numbered r' hr')
    simp [hSame]
  shared := by
    have hNew : s.seq ∈ other.dropped origin :=
      (h.mem_dropped_iff hBook hOther).mpr (Or.inr h.shared_seq)
    rw [shared_withdraw, shared_withdraw, h.shared, disowned,
      List.map_append, List.filter_append]
    have hLast :
        ([s].map fun s =>
          { s with
            owners := s.owners.filter (· ≠ some origin) }).filter
              (fun s => !(other.dropped origin).contains s.seq) =
          [] := by
      simp [hNew]
    rw [hLast, List.append_nil]
    apply List.filter_congr
    intro t' ht'
    rcases List.mem_map.mp ht' with ⟨t, ht, rfl⟩
    have hSame := h.mem_dropped_iff_of_lt hBook hOther
      (hBook.seq_lt ⟨t, ht, rfl, rfl⟩)
    simp [hSame]
  allocations :=
    Std.ExtTreeMap.ext_getElem? fun note =>
      h.getElem?_withdraw hBook hOther note
  pools := by
    have hPools (b : Rulebook) :
        (b.withdraw origin).pools =
          b.pools.filter (·.owner ≠ some origin) := rfl
    rw [hPools, hPools, h.pools]

------------------------------------------------------------
-- Undoing Steps
------------------------------------------------------------

/- A withdrawal does not tell what the origin owns itself. -/
theorem agrees_withdraw_of_eq
    (hRules :
      other.rules.filter (·.owner ≠ some origin) =
        book.rules.filter (·.owner ≠ some origin))
    (hShared :
      disowned other.shared origin =
        disowned book.shared origin)
    (hAllocations : other.allocations = book.allocations)
    (hPools :
      other.pools.filter (·.owner ≠ some origin) =
        book.pools.filter (·.owner ≠ some origin)) :
    (other.withdraw origin).Agrees (book.withdraw origin) := by
  have hLeft : other.left origin = book.left origin := by
    unfold left
    rw [hShared]
  have hDropped : other.dropped origin = book.dropped origin := by
    unfold dropped
    rw [hLeft, hAllocations]
  have hSplit (b : Rulebook) :
      (b.withdraw origin).rules =
        (b.rules.filter (·.owner ≠ some origin)).filter
          fun r => !(b.dropped origin).contains r.seq := by
    rw [rules_withdraw, List.filter_filter]
    apply List.filter_congr
    intro r _
    exact Bool.and_comm _ _
  refine ⟨?_, ?_, ?_, hPools⟩
  · rw [hSplit, hSplit, hRules, hDropped]
  · rw [shared_withdraw, shared_withdraw, hShared, hDropped]
  · change (other.allocations.toList.foldl sweep
      (other.left origin, ∅)).2 = _
    rw [hLeft, hAllocations]
    rfl

/- The origin is not kept among owners. -/
theorem disowned_gainOwner
    (book : Rulebook)
    (origin : Origin)
    (parts : RuleParts) :
    disowned (book.gainOwner (some origin) parts).shared
        origin =
      disowned book.shared origin := by
  unfold disowned gainOwner
  rw [List.map_map]
  apply List.map_congr_left
  intro s _
  rw [Function.comp_apply]
  split
  · unfold SharedRule.addOwner
    split
    · rfl
    · simp
  · rfl

/- A new budget rule is such a share. -/
theorem addsShared_addAllocation
    (origin : Origin)
    {note : Key}
    (budget : Key)
    (hNew : book.allocations[note]? = none) :
    AddsShared book
      (book.addAllocation (some origin) note budget) origin
      ⟨note, budget, .add, some .negated, none, book.nextSeq⟩
      ⟨note, budget, .add, some "-source", book.nextSeq,
        [some origin]⟩ := by
  refine ⟨rfl, rfl, rfl, rfl, rfl, rfl, ?_⟩
  intro n
  rw [getElem?_addAllocation]
  by_cases hNote : n = note
  · rw [if_pos hNote, hNote, hNew]
    exact .budget _ rfl rfl
  · rw [if_neg hNote]
    exact .same _

/- So is the rule of a new member. -/
theorem addsShared_addMember
    (origin : Origin)
    {note : Key}
    (key : Key)
    {a : Allocation}
    (hThere : book.allocations[note]? = some a) :
    AddsShared book
      (book.addMember (some origin) note key) origin
      ⟨note, key, .add, none, none, book.nextSeq⟩
      ⟨note, key, .add, none, book.nextSeq, [some origin]⟩ := by
  refine ⟨rfl, rfl, rfl, rfl, rfl, rfl, ?_⟩
  intro n
  rw [getElem?_addMember hThere]
  by_cases hNote : n = note
  · rw [if_pos hNote, hNote, hThere]
    exact .member a key
  · rw [if_neg hNote]
    exact .same _

/- Each step of the origin is undone by its withdrawal. -/
theorem agrees_withdraw_of_step
    (h : book.IsConsistent)
    (hStep : Step (some origin) book other) :
    (other.withdraw origin).Agrees (book.withdraw origin) := by
  have hOther := h.step hStep
  cases hStep with
  | rule target source op formula =>
      refine agrees_withdraw_of_eq ?_ rfl rfl rfl
      simp [addRule]
  | gain parts seq hShares =>
      exact agrees_withdraw_of_eq rfl
        (disowned_gainOwner book origin parts) rfl rfl
  | grant target source hFresh =>
      have hAdds : AddsShared book
          (book.addShared (some origin) target source .max none)
          origin ⟨target, source, .max, none, none, book.nextSeq⟩
          ⟨target, source, .max, none, book.nextSeq,
            [some origin]⟩ :=
        ⟨rfl, rfl, rfl, rfl, rfl, rfl, fun _ => .same _⟩
      exact hAdds.agrees h hOther
  | allocation note budget hNew hFresh =>
      have hAdds := addsShared_addAllocation origin budget hNew
      exact hAdds.agrees h hOther
  | member note key a hThere hFresh =>
      have hAdds := addsShared_addMember origin key hThere
      exact hAdds.agrees h hOther
  | pool p hOwner =>
      refine agrees_withdraw_of_eq rfl rfl rfl ?_
      simp [hOwner]
  | note key n hOwner => exact ⟨rfl, rfl, rfl, rfl⟩
  | requirement note n hOwner => exact ⟨rfl, rfl, rfl, rfl⟩

/- So are several steps. -/
theorem agrees_withdraw_of_steps
    (h : book.IsConsistent)
    (hSteps : Steps (some origin) book other) :
    (other.withdraw origin).Agrees (book.withdraw origin) := by
  induction hSteps with
  | refl => exact Agrees.refl _
  | tail hBefore hStep ih =>
      have hMiddle := h.steps hBefore
      exact (agrees_withdraw_of_step hMiddle hStep).trans ih

/- All declarations of the origin are undone together. -/
theorem agrees_withdraw_declareAll
    (h : book.IsConsistent)
    (ds : List Declaration) :
    ((book.declareAll (some origin) ds).withdraw origin).Agrees
      (book.withdraw origin) := by
  induction ds generalizing book with
  | nil => exact Agrees.refl _
  | cons d ds ih =>
      have hSteps := steps_declare h (some origin) d
      exact (ih (h.steps hSteps)).trans
        (agrees_withdraw_of_steps h hSteps)

------------------------------------------------------------
-- Unused Origins
------------------------------------------------------------

/- Nothing belongs to the origin. -/
structure IsUnused
    (book : Rulebook)
    (origin : Origin) : Prop where
  rules : ∀ r ∈ book.rules, r.owner ≠ some origin
  shared : ∀ s ∈ book.shared, some origin ∉ s.owners
  pools : ∀ p ∈ book.pools, p.owner ≠ some origin
  notes : ∀ (key : Key) n, book.notes[key]? = some n →
    n.owner ≠ some origin
  requirements : ∀ (note : Key) n,
    book.requirements[note]? = some n → n.owner ≠ some origin

/- Nothing is dropped with an origin that owns nothing. -/
theorem IsUnused.dropped_eq_nil
    (hUnused : book.IsUnused origin)
    (h : book.IsConsistent) :
    book.left origin = [] ∧ book.dropped origin = [] := by
  have hLeft : ∀ seq, seq ∉ book.left origin := by
    intro seq hIn
    rcases exists_shares_of_mem_left hIn with ⟨parts, hShares⟩
    rcases h.exists_owns hShares with ⟨w, hOwns⟩
    have hOwner := (mem_left_iff h.toIsNumbered hShares).mp hIn
      w hOwns
    rcases hOwns with ⟨s, hs, _, hw⟩
    rw [hOwner] at hw
    exact hUnused.shared s hs hw
  refine ⟨List.eq_nil_iff_forall_not_mem.mpr hLeft, ?_⟩
  apply List.eq_nil_iff_forall_not_mem.mpr
  intro seq hIn
  rcases h.mem_dropped_iff.mp hIn with hOld | ⟨_, a, _, hGoes, _⟩
  · exact hLeft seq hOld
  · exact hLeft _ hGoes

/- To withdraw what belongs to nothing changes nothing. -/
theorem IsUnused.agrees_withdraw
    (hUnused : book.IsUnused origin)
    (h : book.IsConsistent) :
    (book.withdraw origin).Agrees book := by
  rcases hUnused.dropped_eq_nil h with ⟨hLeft, hDropped⟩
  refine ⟨?_, ?_, ?_, ?_⟩
  · rw [rules_withdraw, hDropped]
    apply List.filter_eq_self.mpr
    intro r hr
    simp [hUnused.rules r hr]
  · rw [shared_withdraw, hDropped]
    have hSame : disowned book.shared origin = book.shared := by
      unfold disowned
      refine Eq.trans (List.map_congr_left ?_) (List.map_id _)
      intro s hs
      have hOwners :
          s.owners.filter (· ≠ some origin) = s.owners := by
        apply List.filter_eq_self.mpr
        intro w hw
        apply decide_eq_true
        intro hEq
        subst hEq
        exact hUnused.shared s hs hw
      rw [hOwners]
      rfl
    rw [hSame]
    exact List.filter_eq_self.mpr fun _ _ => rfl
  · refine Std.ExtTreeMap.ext_getElem? fun note => ?_
    refine Option.ext fun kept => ?_
    rw [h.getElem?_withdraw, hLeft]
    constructor
    · intro hSome
      rcases hSome with ⟨a, ha, _, rfl⟩
      rw [ha]
      simp [Allocation.without]
    · intro ha
      exact ⟨kept, ha, List.not_mem_nil, by
        simp [Allocation.without]⟩
  · change book.pools.filter (·.owner ≠ some origin) = _
    apply List.filter_eq_self.mpr
    intro p hp
    exact decide_eq_true (hUnused.pools p hp)

------------------------------------------------------------
-- Undoing Registrations
------------------------------------------------------------

/- Declarations do not change which choices there are. -/
theorem choices_of_steps
    {owner : Owner}
    (hSteps : Steps owner book other) :
    other.choices = book.choices := by
  induction hSteps with
  | refl => rfl
  | tail _ hStep ih =>
      cases hStep with
      | _ => exact ih

theorem choices_declareAll
    (h : book.IsConsistent)
    (owner : Owner)
    (ds : List Declaration) :
    (book.declareAll owner ds).choices = book.choices := by
  induction ds generalizing book with
  | nil => rfl
  | cons d ds ih =>
      have hSteps := steps_declare h owner d
      exact (ih (h.steps hSteps)).trans (choices_of_steps hSteps)

/- A choice that is new declares what it does. -/
theorem registerChoice_of_none
    (h : book.IsConsistent)
    (c : Choice)
    (hNone : book.choice? c.kind c.name = none) :
    book.registerChoice c =
      { book.declareAll (some c.origin) c.declarations with
        choices := book.choices ++ [c] } := by
  unfold registerChoice removeChoice
  rw [hNone]
  simp only [choices_declareAll h (some c.origin)
    c.declarations]

/- A choice that is registered anew is found and removed. -/
theorem removeChoice_registerChoice
    (h : book.IsConsistent)
    (c : Choice)
    (hNone : book.choice? c.kind c.name = none) :
    (book.registerChoice c).removeChoice c.kind c.name =
      { (book.declareAll (some c.origin)
          c.declarations).withdraw c.origin with
        choices := book.choices } := by
  have hNamed : ∀ d ∈ book.choices,
      ¬ d.isNamed c.kind c.name = true :=
    List.find?_eq_none.mp hNone
  have hSelf : c.isNamed c.kind c.name = true := by
    simp [Choice.isNamed]
  have hRegister := registerChoice_of_none h c hNone
  have hFound :
      (book.registerChoice c).choice? c.kind c.name = some c := by
    unfold choice?
    rw [hRegister, List.find?_append,
      List.find?_eq_none.mpr hNamed]
    simp [hSelf]
  have hRest :
      (book.registerChoice c).choices.filter (fun d =>
        !d.isNamed c.kind c.name) = book.choices := by
    rw [hRegister, List.filter_append]
    have hKept :
        book.choices.filter (fun d =>
          !d.isNamed c.kind c.name) = book.choices := by
      apply List.filter_eq_self.mpr
      intro d hd
      simpa using hNamed d hd
    simp [hKept, hSelf]
  rw [removeChoice, hFound]
  simp only [hRest]
  rw [hRegister]
  rfl

/- So the registration of a choice is undone exactly. -/
theorem agrees_removeChoice_registerChoice
    (h : book.IsConsistent)
    (c : Choice)
    (hUnused : book.IsUnused c.origin)
    (hNone : book.choice? c.kind c.name = none) :
    ((book.registerChoice c).removeChoice c.kind c.name).Agrees
        book ∧
      ((book.registerChoice c).removeChoice c.kind
        c.name).choices = book.choices := by
  have hDeclared :
      ((book.declareAll (some c.origin)
        c.declarations).withdraw c.origin).Agrees
          (book.withdraw c.origin) :=
    agrees_withdraw_declareAll h c.declarations
  have hAgrees := hDeclared.trans (hUnused.agrees_withdraw h)
  rw [removeChoice_registerChoice h c hNone]
  exact ⟨⟨hAgrees.rules, hAgrees.shared, hAgrees.allocations,
    hAgrees.pools⟩, rfl⟩

end Rulebook

namespace Command

open Rulebook

/-
  A choice that is registered and removed at once leaves all
  rules, pools, choices, and sheets as they were, unless its
  origin was in use before.
-/
theorem removeChoice_registerText
    (settings : Settings)
    (commands : List Command)
    (kind : ChoiceKind)
    (name attrs : String)
    (hUnused :
      (runAll none (Rulebook.empty settings) commands).IsUnused
        (Choice.originOf kind name))
    (hNone :
      (runAll none (Rulebook.empty settings) commands).choice?
        kind name = none) :
    let book :=
      runAll none (Rulebook.empty settings) commands
    let undone :=
      (book.registerText kind name attrs).removeChoice kind name
    undone.Agrees book ∧ undone.choices = book.choices ∧
      ∀ input, undone.sheet input = book.sheet input := by
  intro book undone
  have h : book.IsConsistent :=
    isConsistent_runAll_of (isConsistent_empty settings) none
      commands
  rcases agrees_removeChoice_registerChoice h
    ⟨kind, name, (AttrTable.ofTextLossy attrs).1⟩ hUnused
      hNone with ⟨hAgrees, hChoices⟩
  exact ⟨hAgrees, hChoices, sheet_congr hAgrees.rules⟩

/-
  A club leaves nothing behind where weapons are counted for
  the sake of a staff.
-/
theorem removeChoice_registerText_club :
    let commands : List Command :=
      [.declare (.allocation PoolKind.weapon.allocation
          PoolKind.weapon.budget),
        .register .weapon "Staff" ""]
    let book :=
      runAll none (Rulebook.empty .standard) commands
    let undone :=
      (book.registerText .weapon "Club" "").removeChoice .weapon
        "Club"
    book.IsUnused (Choice.originOf .weapon "Club") ∧
      book.choice? .weapon "Club" = none ∧
        undone.Agrees book ∧ undone.choices = book.choices ∧
          ∀ input, undone.sheet input = book.sheet input := by
  intro commands book undone
  have hNotes : book.notes = ∅ := rfl
  have hRequirements : book.requirements = ∅ := rfl
  have hUnused :
      book.IsUnused (Choice.originOf .weapon "Club") :=
    { rules := by decide
      shared := by decide
      pools := by decide
      notes := by simp [hNotes]
      requirements := by simp [hRequirements] }
  have hNone : book.choice? .weapon "Club" = none := by decide
  exact ⟨hUnused, hNone,
    removeChoice_registerText .standard commands .weapon "Club"
      "" hUnused hNone⟩

end Command

end CharSheet
