import CharSheet.Core
import CharSheet.Proofs.Choice.Support
import CharSheet.Proofs.Rulebook.Cleared
import CharSheet.Proofs.Rulebook.Undo

/-
  Choices that are registered and removed later on.

  Choices may be registered among others and removed in any
  order.  What is left has as many rules and comes to the same
  sheet as if they had never been registered, provided that
  the other choices do not depend on what is removed.

  Main declarations:
    * `Rulebook.core`
    * `Rulebook.registerAll`, `Rulebook.removeAll`
    * `Rulebook.IsParallel.registerAll`
    * `Rulebook.IsParallel.removeAll`
    * `Rulebook.sheet_removeAll_registerAll`
-/

namespace CharSheet

------------------------------------------------------------
-- Origins of Choices
------------------------------------------------------------

theorem ChoiceKind.mem_all (kind : ChoiceKind) :
    kind ∈ ChoiceKind.all := by
  cases kind <;> decide

/- No two kinds have one name. -/
theorem ChoiceKind.eq_of_name_eq
    {kind kind' : ChoiceKind}
    (h : kind.name = kind'.name) :
    kind = kind' := by
  have hNodup : (ChoiceKind.all.map ChoiceKind.name).Nodup := by
    decide
  exact List.inj_on_of_nodup_map hNodup kind.mem_all
    kind'.mem_all h

/- The origin of a choice says its kind and its name. -/
theorem Choice.isNamed_iff
    {c d : Choice} :
    d.isNamed c.kind c.name = true ↔ d.origin = c.origin := by
  rw [isNamed, Bool.and_eq_true, decide_eq_true_eq,
    decide_eq_true_eq]
  constructor
  · intro hBoth
    rw [origin, origin, hBoth.1, hBoth.2]
  · intro hOrigin
    injection hOrigin with hKind hName
    exact ⟨ChoiceKind.eq_of_name_eq hKind, hName⟩

namespace Rulebook

variable {book rest base : Rulebook}
variable {gone : Owner → Bool}
variable {ds : List Declaration}

/- The origins of the registered choices. -/
def origins (book : Rulebook) : List Origin :=
  book.choices.map Choice.origin

theorem choice?_eq_none_iff
    {c : Choice} :
    book.choice? c.kind c.name = none ↔
      c.origin ∉ book.origins := by
  rw [choice?, List.find?_eq_none, origins, List.mem_map]
  simp only [Choice.isNamed_iff]
  constructor
  · intro hAll hSome
    rcases hSome with ⟨d, hd, hOrigin⟩
    exact hAll d hd hOrigin
  · intro hNone d hd hOrigin
    exact hNone ⟨d, hd, hOrigin⟩

/- A choice that is registered is withdrawn. -/
theorem removeChoice_of_mem
    {c : Choice}
    (h : c.origin ∈ book.origins) :
    book.removeChoice c.kind c.name =
      { book.withdraw c.origin with
        choices := book.choices.filter fun d =>
          !d.isNamed c.kind c.name } := by
  unfold removeChoice
  cases hFound : book.choice? c.kind c.name with
  | none => exact absurd h (choice?_eq_none_iff.mp hFound)
  | some d =>
      have hNamed := List.find?_some hFound
      rw [← Choice.isNamed_iff.mp hNamed]

/- The removal of one that is not registered does nothing. -/
theorem removeChoice_of_notMem
    {c : Choice}
    (h : c.origin ∉ book.origins) :
    book.removeChoice c.kind c.name = book := by
  rw [removeChoice, choice?_eq_none_iff.mpr h]

/- Others are registered after a removal if they were. -/
theorem mem_origins_removeChoice_iff
    {c : Choice}
    {o : Origin}
    (hOther : o ≠ c.origin) :
    o ∈ (book.removeChoice c.kind c.name).origins ↔
      o ∈ book.origins := by
  by_cases hThere : c.origin ∈ book.origins
  · rw [removeChoice_of_mem hThere]
    constructor
    · intro hIn
      rcases List.mem_map.mp hIn with ⟨d, hd, rfl⟩
      exact List.mem_map_of_mem (List.mem_filter.mp hd).1
    · intro hIn
      rcases List.mem_map.mp hIn with ⟨d, hd, rfl⟩
      refine List.mem_map_of_mem (List.mem_filter.mpr ⟨hd, ?_⟩)
      rw [Bool.not_eq_true', Bool.eq_false_iff, Ne,
        Choice.isNamed_iff]
      exact hOther
  · rw [removeChoice_of_notMem hThere]

------------------------------------------------------------
-- Registering and Removing
------------------------------------------------------------

/- Register choices, one after another. -/
def registerAll
    (book : Rulebook)
    (cs : List Choice) : Rulebook :=
  cs.foldl registerChoice book

/- Remove choices, one after another. -/
def removeAll
    (book : Rulebook)
    (cs : List Choice) : Rulebook :=
  cs.foldl (fun book c => book.removeChoice c.kind c.name) book

/- A choice that is new is registered in both rulebooks. -/
theorem IsParallel.register_kept
    (h : IsParallel base gone ds book rest)
    (hKnown : ∀ n ∈ PoolKind.notes, base.IsAllocated n)
    {c : Choice}
    (hNew : c.origin ∉ book.origins)
    (hNew' : c.origin ∉ rest.origins)
    (hOwner : gone (some c.origin) = false)
    (hApart : ∀ d ∈ c.declarations, d.IsApart base ds) :
    IsParallel base gone ds (book.registerChoice c)
      (rest.registerChoice c) := by
  rw [registerChoice_of_none h.isConsistent c
      (choice?_eq_none_iff.mpr hNew),
    registerChoice_of_none h.isConsistent_rest c
      (choice?_eq_none_iff.mpr hNew')]
  have hAllocated : ∀ n ∈ PoolKind.notes, rest.IsAllocated n :=
    fun n hn => h.allocated n (hKnown n hn)
  exact (h.declareAll_kept hOwner c.areSupported_declarations
    hAllocated hApart).with_choices _ _

/- One that goes is registered in the first rulebook only. -/
theorem IsParallel.register_gone
    (h : IsParallel base gone ds book rest)
    {c : Choice}
    (hNew : c.origin ∉ book.origins)
    (hOwner : gone (some c.origin) = true)
    (hIn : ∀ d ∈ c.declarations, d ∈ ds) :
    IsParallel base gone ds (book.registerChoice c) rest := by
  rw [registerChoice_of_none h.isConsistent c
    (choice?_eq_none_iff.mpr hNew)]
  exact (h.declareAll_gone hOwner hIn).with_choices _ _

/- The origin of a choice that is registered comes last. -/
theorem origins_registerChoice
    (h : book.IsConsistent)
    (c : Choice) :
    (book.registerChoice c).origins =
      (book.removeChoice c.kind c.name).origins ++
        [c.origin] := by
  have hChoices := choices_declareAll
    (h.removeChoice c.kind c.name) (some c.origin)
    c.declarations
  simp only [origins, registerChoice, hChoices, List.map_append,
    List.map_singleton]

/- If it is new, all others stay before it. -/
theorem origins_registerChoice_of_notMem
    (h : book.IsConsistent)
    {c : Choice}
    (hNew : c.origin ∉ book.origins) :
    (book.registerChoice c).origins =
      book.origins ++ [c.origin] := by
  rw [origins_registerChoice h, removeChoice_of_notMem hNew]

/- The first of some choices that differ in origin is new. -/
theorem notMem_origins_of_nodup
    {c : Choice}
    {cs : List Choice}
    (h : (book.origins ++ (c :: cs).map Choice.origin).Nodup) :
    c.origin ∉ book.origins := by
  intro hIn
  exact (List.nodup_append.mp h).2.2 _ hIn _ List.mem_cons_self
    rfl

/- After it is registered, the others come after it. -/
theorem origins_registerChoice_append
    (h : book.IsConsistent)
    {c : Choice}
    {cs : List Choice}
    (hNew : c.origin ∉ book.origins) :
    (book.registerChoice c).origins ++ cs.map Choice.origin =
      book.origins ++ (c :: cs).map Choice.origin := by
  rw [origins_registerChoice_of_notMem h hNew,
    List.append_assoc]
  rfl

/- So all choices may be registered that differ in origin. -/
theorem IsParallel.registerAll
    (h : IsParallel base gone ds book rest)
    (hKnown : ∀ n ∈ PoolKind.notes, base.IsAllocated n)
    {cs : List Choice}
    (hDistinct :
      (book.origins ++ cs.map Choice.origin).Nodup)
    (hRest : rest.origins ⊆ book.origins)
    (hKept : ∀ c ∈ cs, gone (some c.origin) = false →
      ∀ d ∈ c.declarations, d.IsApart base ds)
    (hGone : ∀ c ∈ cs, gone (some c.origin) = true →
      ∀ d ∈ c.declarations, d ∈ ds) :
    IsParallel base gone ds (book.registerAll cs)
      (rest.registerAll
        (cs.filter fun c => !gone (some c.origin))) := by
  induction cs generalizing book rest with
  | nil => exact h
  | cons c cs ih =>
      have hNew := notMem_origins_of_nodup hDistinct
      have hNew' : c.origin ∉ rest.origins := fun hIn =>
        hNew (hRest hIn)
      have hOrigins :=
        origins_registerChoice_of_notMem h.isConsistent hNew
      have hOrigins' :=
        origins_registerChoice_of_notMem h.isConsistent_rest hNew'
      have hDistinct' := hDistinct
      rw [← origins_registerChoice_append h.isConsistent hNew]
        at hDistinct'
      have hTail :=
        fun d hd => hKept d (List.mem_cons_of_mem c hd)
      have hTail' :=
        fun d hd => hGone d (List.mem_cons_of_mem c hd)
      cases hOwner : gone (some c.origin) with
      | false =>
          have hNext := h.register_kept hKnown hNew hNew' hOwner
            (hKept c List.mem_cons_self hOwner)
          have hSubset : (rest.registerChoice c).origins ⊆
              (book.registerChoice c).origins := by
            rw [hOrigins, hOrigins']
            exact List.append_subset.mpr
              ⟨List.subset_append_of_subset_left _ hRest,
                List.subset_append_right _ _⟩
          rw [List.filter_cons_of_pos (by simp [hOwner])]
          exact ih hNext hDistinct' hSubset hTail hTail'
      | true =>
          have hNext := h.register_gone hNew hOwner
            (hGone c List.mem_cons_self hOwner)
          have hSubset : rest.origins ⊆
              (book.registerChoice c).origins := by
            rw [hOrigins]
            exact List.subset_append_of_subset_left _ hRest
          rw [List.filter_cons_of_neg (by simp [hOwner])]
          exact ih hNext hDistinct' hSubset hTail hTail'

/- The origins of all of them come last. -/
theorem origins_registerAll
    (h : book.IsConsistent)
    {cs : List Choice}
    (hDistinct :
      (book.origins ++ cs.map Choice.origin).Nodup) :
    (book.registerAll cs).origins =
      book.origins ++ cs.map Choice.origin := by
  induction cs generalizing book with
  | nil => exact (List.append_nil _).symm
  | cons c cs ih =>
      have hNew := notMem_origins_of_nodup hDistinct
      rw [← origins_registerChoice_append h hNew]
        at hDistinct ⊢
      exact ih (h.registerChoice c) hDistinct

/- An origin that goes is removed, and the others stay. -/
theorem IsParallel.remove
    (h : IsParallel base gone ds book rest)
    {c : Choice}
    (hThere : c.origin ∈ book.origins)
    (hOwner : gone (some c.origin) = true) :
    IsParallel base gone ds (book.removeChoice c.kind c.name)
      rest := by
  rw [removeChoice_of_mem hThere]
  exact (h.withdraw hOwner).with_choices _ _

/- What has nothing has nothing after a removal either. -/
theorem HasNothing.removeChoice
    {w : Owner}
    (h : book.HasNothing w)
    (hBook : book.IsConsistent)
    {c : Choice}
    (hThere : c.origin ∈ book.origins) :
    (book.removeChoice c.kind c.name).HasNothing w := by
  have hLeft := h.withdraw hBook c.origin
  rw [removeChoice_of_mem hThere]
  exact ⟨hLeft.rules, hLeft.owns⟩

/- After all that go are removed, they have nothing left. -/
theorem IsParallel.removeAll
    (h : IsParallel base gone ds book rest)
    {removed : List Choice}
    (hDistinct : (removed.map Choice.origin).Nodup)
    (hThere : ∀ c ∈ removed, c.origin ∈ book.origins)
    (hOwners : ∀ c ∈ removed, gone (some c.origin) = true) :
    IsParallel base gone ds (book.removeAll removed) rest ∧
      ∀ w, book.HasNothing w ∨
          (∃ c ∈ removed, w = some c.origin) →
        (book.removeAll removed).HasNothing w := by
  induction removed generalizing book with
  | nil =>
      refine ⟨h, fun w hw => ?_⟩
      rcases hw with hNothing | ⟨c, hc, _⟩
      · exact hNothing
      · cases hc
  | cons c removed ih =>
      rw [List.map_cons, List.nodup_cons] at hDistinct
      have hFirst := hThere c List.mem_cons_self
      have hNext := h.remove hFirst (hOwners c List.mem_cons_self)
      have hStill : ∀ d ∈ removed, d.origin ∈
          (book.removeChoice c.kind c.name).origins := by
        intro d hd
        refine (mem_origins_removeChoice_iff ?_).mpr
          (hThere d (List.mem_cons_of_mem c hd))
        intro hSame
        rw [← hSame] at hDistinct
        exact hDistinct.1 (List.mem_map_of_mem hd)
      have hRest := ih hNext hDistinct.2 hStill fun d hd =>
        hOwners d (List.mem_cons_of_mem c hd)
      refine ⟨hRest.1, fun w hw => hRest.2 w ?_⟩
      rcases hw with hNothing | ⟨d, hd, rfl⟩
      · exact Or.inl
          (hNothing.removeChoice h.isConsistent hFirst)
      · rcases List.mem_cons.mp hd with rfl | hTail
        · have hGone :=
            h.isConsistent.hasNothing_withdraw d.origin
          rw [removeChoice_of_mem hFirst]
          exact Or.inl ⟨hGone.rules, hGone.owns⟩
        · exact Or.inr ⟨d, hTail, rfl⟩

------------------------------------------------------------
-- Plain Rulebooks
------------------------------------------------------------

/- All joint rules that declarations add are plain. -/
theorem IsPlain.declareAll
    (h : book.IsPlain)
    (hBook : book.IsConsistent)
    (owner : Owner)
    (ds : List Declaration) :
    (book.declareAll owner ds).IsPlain := by
  induction ds generalizing book with
  | nil => exact h
  | cons d ds ih =>
      exact ih ((adds_declare hBook owner d).isPlain h)
        (hBook.declare owner d)

theorem IsPlain.removeChoice
    (h : book.IsPlain)
    (kind : ChoiceKind)
    (name : String) :
    (book.removeChoice kind name).IsPlain := by
  unfold Rulebook.removeChoice
  cases book.choice? kind name with
  | none => exact h
  | some c => exact h.withdraw c.origin

theorem IsPlain.registerAll
    (h : book.IsPlain)
    (hBook : book.IsConsistent)
    (cs : List Choice) :
    (book.registerAll cs).IsPlain := by
  induction cs generalizing book with
  | nil => exact h
  | cons c cs ih =>
      have hRemoved := h.removeChoice c.kind c.name
      have hDeclared := hRemoved.declareAll
        (hBook.removeChoice c.kind c.name) (some c.origin)
        c.declarations
      exact ih hDeclared (hBook.registerChoice c)

theorem IsPlain.removeAll
    (h : book.IsPlain)
    (cs : List Choice) :
    (book.removeAll cs).IsPlain := by
  induction cs generalizing book with
  | nil => exact h
  | cons c cs ih => exact ih (h.removeChoice c.kind c.name)

------------------------------------------------------------
-- The Core
------------------------------------------------------------

/- The rulebook in which only the core is declared. -/
def core (settings : Settings) : Rulebook :=
  (empty settings).declareAll none coreDeclarations

theorem isConsistent_core (settings : Settings) :
    (core settings).IsConsistent :=
  (isConsistent_empty settings).declareAll none coreDeclarations

theorem isPlain_core (settings : Settings) :
    (core settings).IsPlain := by
  apply IsPlain.declareAll _ (isConsistent_empty settings)
  intro r hr
  cases hr

theorem origins_core (settings : Settings) :
    (core settings).origins = [] := by
  rw [origins, core,
    choices_declareAll (isConsistent_empty settings)]
  rfl

/- All that is declared for one owner belongs to it. -/
theorem owner_of_declareAll
    (h : book.IsConsistent)
    {owner : Owner}
    (hOwn : ∀ r ∈ book.ownRules.map Rule.unnumbered,
      r.owner = owner)
    (hOwns : ∀ w p, book.Owns w p → w = owner)
    (ds : List Declaration) :
    (∀ r ∈ (book.declareAll owner ds).ownRules.map
        Rule.unnumbered, r.owner = owner) ∧
      ∀ w p, (book.declareAll owner ds).Owns w p →
        w = owner := by
  induction ds generalizing book with
  | nil => exact ⟨hOwn, hOwns⟩
  | cons d ds ih =>
      have hAdds := adds_declare h owner d
      refine ih (h.declare owner d) ?_ ?_
      · intro r hr
        rw [hAdds.ownRules_eq] at hr
        rcases List.mem_append.mp hr with hOld | hNew
        · exact hOwn r hOld
        · exact hAdds.owner_eq r hNew
      · intro w p hThere
        rcases (hAdds.owns_iff w p).mp hThere with hOld | hNew
        · exact hOwns w p hOld
        · exact hNew.1

/- Allocations of a list are there once it is declared. -/
theorem isAllocated_declareAll
    (h : book.IsConsistent)
    (owner : Owner)
    {ds : List Declaration}
    {note : Key}
    (hNote : note ∈ ds.flatMap Declaration.allocates ∨
      book.IsAllocated note) :
    (book.declareAll owner ds).IsAllocated note := by
  induction ds generalizing book with
  | nil => exact hNote.resolve_left List.not_mem_nil
  | cons d ds ih =>
      apply ih (h.declare owner d)
      rw [List.flatMap_cons, List.mem_append, or_assoc,
        or_left_comm] at hNote
      exact hNote.imp_right (h.isAllocated_declare owner)

/- The core has the allocations of all pools. -/
theorem isAllocated_core
    (settings : Settings)
    {note : Key}
    (hNote : note ∈ PoolKind.notes) :
    (core settings).IsAllocated note := by
  have hDeclared : ∀ n ∈ PoolKind.notes,
      n ∈ coreDeclarations.flatMap Declaration.allocates := by
    decide +kernel
  exact isAllocated_declareAll (isConsistent_empty settings) none
    (Or.inl (hDeclared note hNote))

/- The core is its own remainder, whoever goes. -/
theorem isParallel_core
    (settings : Settings)
    (hNone : gone none = false)
    (ds : List Declaration) :
    IsParallel (core settings) gone ds (core settings)
      (core settings) := by
  have hNoRules : ∀ r ∈
      (empty settings).ownRules.map Rule.unnumbered,
      r.owner = none := by
    simp [ownRules, empty]
  have hNoOwners : ∀ w p,
      (empty settings).Owns w p → w = none := by
    simp [Owns, empty]
  rcases owner_of_declareAll (isConsistent_empty settings)
    hNoRules hNoOwners coreDeclarations with ⟨hOwn, hOwns⟩
  have h := isConsistent_core settings
  refine ⟨h, h, ⟨rfl, ?_, ?_⟩, ⟨?_, ?_⟩, rfl, hNone,
    fun _ _ => rfl, fun _ => id, fun _ => id⟩
  · symm
    apply List.filter_eq_self.mpr
    intro r hr
    rw [hOwn r hr, hNone]
    rfl
  · intro w p
    rw [iff_self_and]
    intro hThere
    rw [hOwns w p hThere]
    exact hNone
  · intro r hr hGone
    rw [hOwn r hr, hNone] at hGone
    cases hGone
  · intro w p hThere hGone
    rw [hOwns w p hThere, hNone] at hGone
    cases hGone

------------------------------------------------------------
-- Removed Choices
------------------------------------------------------------

/- The owner is one of the removed choices. -/
def goesWith
    (removed : List Choice)
    (w : Owner) : Bool :=
  removed.any fun c => w = some c.origin

section Removed

variable {cs removed : List Choice}
variable (hDistinct : (cs.map Choice.origin).Nodup)
variable (hIn : removed ⊆ cs)

include hDistinct hIn

/- A choice goes if it is removed itself. -/
theorem goesWith_iff
    {c : Choice}
    (hc : c ∈ cs) :
    goesWith removed (some c.origin) = true ↔ c ∈ removed := by
  simp only [goesWith, List.any_eq_true, decide_eq_true_eq,
    Option.some.injEq]
  constructor
  · intro hSome
    rcases hSome with ⟨d, hd, hOrigin⟩
    rw [List.inj_on_of_nodup_map hDistinct hc (hIn hd) hOrigin]
    exact hd
  · intro hRemoved
    exact ⟨c, hRemoved, rfl⟩

variable (settings : Settings)
variable
  (hApart : ∀ c ∈ cs, c ∉ removed → ∀ d ∈ c.declarations,
    d.IsApart (core settings)
      (removed.flatMap Choice.declarations))

include hApart

/- The removed choices are registered in one rulebook only. -/
theorem isParallel_registerAll :
    IsParallel (core settings) (goesWith removed)
      (removed.flatMap Choice.declarations)
      ((core settings).registerAll cs)
      ((core settings).registerAll
        (cs.filter (· ∉ removed))) := by
  have hNone : goesWith removed none = false := by
    simp [goesWith]
  have hKept :
      cs.filter (· ∉ removed) =
        cs.filter fun c => !goesWith removed (some c.origin) := by
    apply List.filter_congr
    intro c hc
    rw [Bool.eq_iff_iff, decide_eq_true_eq, Bool.not_eq_true',
      ← Bool.not_eq_true, goesWith_iff hDistinct hIn hc]
  rw [hKept]
  refine (isParallel_core settings hNone _).registerAll
    (fun _ => isAllocated_core settings) ?_ (List.Subset.refl _)
    ?_ ?_
  · rw [origins_core]
    exact hDistinct
  · intro c hc hStays
    refine hApart c hc ?_
    rw [← goesWith_iff hDistinct hIn hc, hStays]
    exact Bool.false_ne_true
  · intro c hc hGoes d hd
    exact List.mem_flatMap.mpr
      ⟨c, (goesWith_iff hDistinct hIn hc).mp hGoes, hd⟩

/- After they are removed, nothing of them is left. -/
theorem isParallel_removeAll
    (hNodup : removed.Nodup) :
    IsParallel (core settings) (goesWith removed)
        (removed.flatMap Choice.declarations)
        (((core settings).registerAll cs).removeAll removed)
        ((core settings).registerAll
          (cs.filter (· ∉ removed))) ∧
      ∀ w, goesWith removed w = true →
        (((core settings).registerAll cs).removeAll
          removed).HasNothing w := by
  have h := isParallel_registerAll hDistinct hIn settings hApart
  have hOrigins :
      ((core settings).origins ++ cs.map Choice.origin).Nodup := by
    rw [origins_core]
    exact hDistinct
  have hRegistered :
      ((core settings).registerAll cs).origins =
        cs.map Choice.origin := by
    rw [origins_registerAll (isConsistent_core settings) hOrigins,
      origins_core]
    rfl
  have hDistinct' : (removed.map Choice.origin).Nodup := by
    refine hNodup.map_on ?_
    intro c hc d hd hOrigin
    exact List.inj_on_of_nodup_map hDistinct (hIn hc) (hIn hd)
      hOrigin
  have hLeft := h.removeAll hDistinct'
    (fun c hc => by
      rw [hRegistered]
      exact List.mem_map_of_mem (hIn hc))
    (fun c hc => (goesWith_iff hDistinct hIn (hIn hc)).mpr hc)
  refine ⟨hLeft.1, fun w hw => hLeft.2 w (Or.inr ?_)⟩
  rcases List.any_eq_true.mp hw with ⟨c, hc, hOwner⟩
  exact ⟨c, hc, of_decide_eq_true hOwner⟩

end Removed

/-
  Choices that are registered after the core and removed
  later on, in any order, leave as many rules as if they had
  never been registered, unless the other choices depend on
  what they declare.  The sheets are the same for all inputs
  by which those attributes are counted that the removed
  choices had joint rules for: the rules of these may come in
  another order.
-/
theorem sheet_removeAll_registerAll
    (settings : Settings)
    (cs removed : List Choice)
    (hDistinct : (cs.map Choice.origin).Nodup)
    (hNodup : removed.Nodup)
    (hIn : removed ⊆ cs)
    (hApart : ∀ c ∈ cs, c ∉ removed → ∀ d ∈ c.declarations,
      d.IsApart (core settings)
        (removed.flatMap Choice.declarations)) :
    let book :=
      ((core settings).registerAll cs).removeAll removed
    let rest :=
      (core settings).registerAll (cs.filter (· ∉ removed))
    book.rules.length = rest.rules.length ∧
      ∀ input,
        (∀ c ∈ removed, ∀ d ∈ c.declarations,
          ∀ key ∈ d.jointTargets, rest.IsTarget key →
            rest.IsCounted input key) →
          book.sheet input = rest.sheet input := by
  intro book rest
  rcases isParallel_removeAll hDistinct hIn settings hApart
    hNodup with ⟨h, hClear⟩
  have hCore := isPlain_core settings
  have hPlain : book.IsPlain :=
    (hCore.registerAll (isConsistent_core settings) cs).removeAll
      removed
  have hPlain' : rest.IsPlain :=
    hCore.registerAll (isConsistent_core settings) _
  refine ⟨?_, fun input hCounted => ?_⟩
  · have hPerm := h.perm hClear hPlain hPlain'
    simpa only [List.length_map] using hPerm.length_eq
  · apply h.sheet_eq hClear hPlain hPlain' input
    intro key hKey
    rcases List.mem_flatMap.mp hKey with ⟨d, hd, hTarget⟩
    rcases List.mem_flatMap.mp hd with ⟨c, hc, hd⟩
    exact hCounted c hc d hd key hTarget

/-
  A feature offers two skills, and goes after the skills have
  been registered.  They are counted in the order in which the
  feature named them, which is not that of the skills.
-/
theorem sheet_removeAll_registerAll_scholar :
    let scholar : Choice :=
      ⟨.feature, "Scholar",
        ⟨[("Section", ["skill"]),
          ("Note",
            ["Skill Proficiency (Choose 1 from History, Arcana)"])]⟩⟩
    let arcana : Choice := ⟨.skill, "Arcana", ⟨[]⟩⟩
    let history : Choice := ⟨.skill, "History", ⟨[]⟩⟩
    let cs := [scholar, arcana, history]
    let others := scholar.declarations
    let book :=
      ((core .standard).registerAll cs).removeAll [scholar]
    let rest :=
      (core .standard).registerAll (cs.filter (· ∉ [scholar]))
    let input : Store :=
      (((∅ : Store).put "skillChoiceCount"
        (some (.number 2))).put "skillsChosen.Arcana"
          (some (.number 1))).put "skillsChosen.History"
            (some (.number 1))
    (∀ c ∈ cs, c ∉ [scholar] → ∀ d ∈ c.declarations,
      d.IsApart (core .standard) others) ∧
      (∀ key ∈ others.flatMap Declaration.jointTargets,
        rest.IsCounted input key) ∧
      book.rules.length = rest.rules.length ∧
      book.sheet input = rest.sheet input := by
  intro scholar arcana history cs others book rest input
  have hApart : ∀ c ∈ cs, c ∉ [scholar] →
      ∀ d ∈ c.declarations,
        d.IsApart (core .standard)
          ([scholar].flatMap Choice.declarations) := by
    decide +kernel
  have hInputs : ∀ r ∈ rest.rules,
      r.target ∈ others.flatMap Declaration.jointTargets →
        (∀ f ∈ r.formula,
          f.dependencies = [] ∧ f.patterns = []) ∧
        ∀ s ∈ rest.rules, s.target ≠ r.source := by
    decide +kernel
  have hValues :
      ∀ key ∈ others.flatMap Declaration.jointTargets,
        let summands :=
          (Rule.joinAll input
            (rest.rulesOf key .gate ++ rest.rulesOf key .set)
              input[key]?).toList ++
            Rule.contributions input (rest.rulesOf key .add)
        (∀ v ∈ summands, v.isWhole = true) ∧
          (summands.map Value.size).sum ≤ Number.countLimit ∧
          ∀ v ∈ Rule.contributions input
            (rest.rulesOf key .max), v.isInteger = true := by
    decide +kernel
  have hCounted :
      ∀ key ∈ others.flatMap Declaration.jointTargets,
        rest.IsCounted input key := by
    intro key hKey
    rcases hValues key hKey with ⟨hWhole, hSum, hRaised⟩
    refine isCounted_of_inputs ?_ ⟨⟨hWhole, hSum⟩, hRaised⟩
    rintro r hr rfl other hReads ⟨s, hs, hTarget⟩
    rcases hInputs r hr hKey with ⟨hFormula, hSource⟩
    rw [hReads.eq_source hFormula] at hTarget
    exact hSource s hs hTarget
  have hBoth := sheet_removeAll_registerAll .standard cs
    [scholar] (by decide) (by decide) (by simp [cs]) hApart
  refine ⟨?_, hCounted, hBoth.1, hBoth.2 input ?_⟩
  · simpa [others] using hApart
  · intro c hc d hd key hKey _
    rw [List.mem_singleton.mp hc] at hd
    exact hCounted key (List.mem_flatMap.mpr ⟨d, hd, hKey⟩)

/-
  Without the condition on the other choices this fails.  Two
  feats count in one note against two budgets that differ in
  case only.  The second one's budget is not taken, and its
  count goes with the first feat; registered alone, it has
  both.
-/
theorem not_forall_removeAll_registerAll :
    ¬ ∀ (settings : Settings) (cs removed : List Choice),
      (cs.map Choice.origin).Nodup → removed.Nodup →
        removed ⊆ cs →
          let book :=
            ((core settings).registerAll cs).removeAll removed
          let rest :=
            (core settings).registerAll
              (cs.filter (· ∉ removed))
          book.rules.length = rest.rules.length ∧
            ∀ input, book.sheet input = rest.sheet input := by
  intro h
  let shiny : Choice :=
    ⟨.feat, "Shiny", (AttrTable.ofTextLossy "Type=Fancy").1⟩
  let glossy : Choice :=
    ⟨.feat, "Glossy", (AttrTable.ofTextLossy "Type=fancy").1⟩
  have hEq := (h .standard [shiny, glossy] [shiny]
    (by decide +kernel) (by decide +kernel) (by simp)).1
  revert hEq
  decide +kernel

end Rulebook

end CharSheet
