import CharSheet.Proofs.Choice.Calls
import CharSheet.Proofs.Formula.Equality

/-
  What the registered choices account for.

  Whatever choices are registered, registered again and
  removed, the rules of an origin are those of a choice that is
  registered under it.  All gates have an owner, so that each of
  them is declared by a registered choice.  No two choices of a
  kind have the same name.

  Main declarations:
    * `Rulebook.mem_addedRules_iff`
    * `Rulebook.IsRegistry`
    * `Rulebook.IsRegistry.callAll`
    * `Rulebook.IsRegistry.mem_declarations_iff`
    * `Rulebook.IsRegistry.exists_of_gate`
    * `Rulebook.pairwise_choicesOf`
    * `Command.nodup_choiceNames_runAll`
-/

namespace CharSheet

------------------------------------------------------------
-- Added Rules
------------------------------------------------------------

/- The rule neither adds nor multiplies, as adjustments do. -/
def Operator.IsFirm (op : Operator) : Prop :=
  op ≠ .add ∧ op ≠ .multiply

theorem Operator.isFirm_gate : IsFirm .gate :=
  ⟨nofun, nofun⟩

theorem Operator.isFirm_set : IsFirm .set :=
  ⟨nofun, nofun⟩

/- Only its declaration makes such a rule. -/
theorem Declaration.ownRule?_eq_some_iff
    {d : Declaration}
    {book : Rulebook}
    {owner : Owner}
    {target source : Key}
    {op : Operator}
    {formula : Option Formula}
    (hOp : op.IsFirm) :
    d.ownRule? book owner =
        some ⟨target, source, op, formula, owner, 0⟩ ↔
      d = .rule target source op formula := by
  cases d with
  | rule => simp [ownRule?]
  | adjustment gate change amount words =>
      refine iff_of_false ?_ Declaration.noConfusion
      intro hRule
      rcases Option.map_eq_some_iff.mp hRule with ⟨_, _, hEq⟩
      have hSame := congrArg Rule.op hEq
      change (if change = .multiply then Operator.multiply
        else .add) = op at hSame
      split at hSame
      · exact hOp.2 hSame.symm
      · exact hOp.1 hSame.symm
  | _ => simp [ownRule?]

/- Joint rules are no gates. -/
theorem Declaration.op_ne_gate_of_mem_parts
    {d : Declaration}
    {p : RuleParts}
    (hp : p ∈ d.parts) :
    p.op ≠ .gate := by
  cases d with
  | allocation note budget =>
      rw [List.mem_singleton.mp hp]
      nofun
  | member note key =>
      rw [List.mem_singleton.mp hp]
      nofun
  | option kind name =>
      rcases List.mem_cons.mp hp with rfl | hGrant
      · nofun
      · cases kind with
        | abilityBoost => cases hGrant
        | _ =>
            rw [List.mem_singleton.mp hGrant]
            nofun
  | _ => cases hp

namespace Rulebook

variable {book other : Rulebook}
variable {owner : Owner}
variable {origin : Origin}
variable {ds : List Declaration}

theorem mem_addedRules_iff
    {target source : Key}
    {op : Operator}
    {formula : Option Formula}
    (hOp : op.IsFirm) :
    ⟨target, source, op, formula, owner, 0⟩ ∈
        addedRules owner book ds ↔
      .rule target source op formula ∈ ds := by
  induction ds generalizing book with
  | nil => exact iff_of_false List.not_mem_nil List.not_mem_nil
  | cons d ds ih =>
      rw [addedRules, List.mem_append, Option.mem_toList,
        Declaration.ownRule?_eq_some_iff hOp, ih,
        List.mem_cons, eq_comm]

/- A gate among rules is an old one, or is declared. -/
theorem exists_of_gate_declareAll
    (h : book.IsConsistent)
    {r : Rule}
    (hRule : r ∈ (book.declareAll owner ds).rules)
    (hGate : r.op = .gate) :
    (∃ r' ∈ book.rules, r'.unnumbered = r.unnumbered) ∨
      (r.owner = owner ∧
        .rule r.target r.source .gate r.formula ∈ ds) := by
  induction ds generalizing book with
  | nil => exact .inl ⟨r, hRule, rfl⟩
  | cons d ds ih =>
      rcases ih (h.declare owner d) hRule with
        ⟨r', hr', hEq⟩ | ⟨hOwner, hMem⟩
      · have hAdds := adds_declare h owner d
        have hMem :
            r.unnumbered ∈
              (book.declare owner d).rules.map
                Rule.unnumbered :=
          hEq ▸ List.mem_map_of_mem hr'
        rw [hAdds.rules_eq, List.mem_append,
          List.mem_append] at hMem
        rcases hMem with hOld | hOwn | hJoint
        · exact .inl (List.mem_map.mp hOld)
        · have hOwner := hAdds.owner_eq _ hOwn
          change r.owner = owner at hOwner
          have hAdded := Option.mem_toList.mp hOwn
          rw [Rule.unnumbered, hGate, hOwner] at hAdded
          refine .inr ⟨hOwner, ?_⟩
          rw [(Declaration.ownRule?_eq_some_iff
            Operator.isFirm_gate).mp hAdded]
          exact List.mem_cons_self
        · rcases List.mem_map.mp hJoint with ⟨p, hp, hStands⟩
          have hTaken := (List.mem_filter.mp hp).1
          have hPart : p ∈ d.parts := by
            unfold Declaration.takenParts at hTaken
            split at hTaken
            · exact hTaken
            · cases hTaken
          exact absurd ((congrArg Rule.op hStands).trans hGate)
            (Declaration.op_ne_gate_of_mem_parts hPart)
      · exact .inr ⟨hOwner, List.mem_cons_of_mem d hMem⟩

------------------------------------------------------------
-- Registries
------------------------------------------------------------

/-
  The rules of all origins are those that registered choices
  declare, and all gates are among them.
-/
structure IsRegistry (book : Rulebook) : Prop where
  tracked : ∀ origin, book.IsTracked origin
  tagged : ∀ c ∈ book.choices, ∃ before,
    book.taggedRules c.origin =
      addedRules (some c.origin) before c.declarations
  owned : ∀ r ∈ book.rules, r.op = .gate → r.owner ≠ none

/- It may start from what has neither owners nor gates. -/
theorem isRegistry_declareAll_empty
    (settings : Settings)
    (hGates : ∀ target source formula,
      .rule target source .gate formula ∉ ds) :
    ((empty settings).declareAll none ds).IsRegistry where
  tracked origin :=
    IsTracked.declareAll (.inl rfl) (isConsistent_empty settings)
      ds
  tagged c hc := by
    rw [choices_declareAll (isConsistent_empty settings)] at hc
    cases hc
  owned r hRule hGate := by
    rcases exists_of_gate_declareAll (isConsistent_empty settings)
        hRule hGate with
      ⟨r', hr', _⟩ | ⟨_, hMem⟩
    · cases hr'
    · exact absurd hMem (hGates _ _ _)

theorem isRegistry_empty (settings : Settings) :
    (empty settings).IsRegistry := by
  have hNone :
      ∀ target source formula,
        .rule target source .gate formula ∉
          ([] : List Declaration) :=
    fun _ _ _ => List.not_mem_nil
  exact isRegistry_declareAll_empty settings hNone

theorem isRegistry_core (settings : Settings) :
    (core settings).IsRegistry := by
  apply isRegistry_declareAll_empty
  intro target source formula hMem
  have hOps :
      ∀ d ∈ coreDeclarations,
        (d.ownRule? (empty .standard) none).all
          (·.op ≠ .gate) = true := by
    decide +kernel
  have hOp := hOps _ hMem
  simp [Declaration.ownRule?] at hOp

variable {c : Choice}

/- What is left after a removal has other origins. -/
theorem mem_choices_removeChoice_iff
    {d : Choice} :
    d ∈ (book.removeChoice c.kind c.name).choices ↔
      d ∈ book.choices ∧ d.origin ≠ c.origin := by
  by_cases hThere : c.origin ∈ book.origins
  · rw [removeChoice_of_mem hThere, List.mem_filter,
      Bool.not_eq_true', Bool.eq_false_iff, Ne,
      Choice.isNamed_iff]
  · rw [removeChoice_of_notMem hThere]
    refine (and_iff_left_of_imp fun hd hSame => hThere ?_).symm
    rw [← hSame]
    exact List.mem_map_of_mem hd

theorem mem_rules_of_removeChoice
    {r : Rule}
    (hRule : r ∈ (book.removeChoice c.kind c.name).rules) :
    r ∈ book.rules := by
  by_cases hThere : c.origin ∈ book.origins
  · rw [removeChoice_of_mem hThere] at hRule
    exact (mem_rules_withdraw_iff.mp hRule).1
  · rwa [removeChoice_of_notMem hThere] at hRule

theorem IsRegistry.removeChoice
    (hRegistry : book.IsRegistry)
    (h : book.IsConsistent)
    (c : Choice) :
    (book.removeChoice c.kind c.name).IsRegistry where
  tracked origin := by
    by_cases hSame : origin = c.origin
    · rw [hSame]
      exact .inl
        (hRegistry.tracked c.origin).taggedRules_removeChoice
    · unfold IsTracked
      rw [taggedRules_removeChoice_of_ne h (Ne.symm hSame),
        mem_origins_removeChoice_iff hSame]
      exact hRegistry.tracked origin
  tagged d hd := by
    rcases mem_choices_removeChoice_iff.mp hd with
      ⟨hThere, hOther⟩
    rw [taggedRules_removeChoice_of_ne h hOther.symm]
    exact hRegistry.tagged d hThere
  owned r hRule :=
    hRegistry.owned r (mem_rules_of_removeChoice hRule)

theorem IsRegistry.registerChoice
    (hRegistry : book.IsRegistry)
    (h : book.IsConsistent)
    (c : Choice) :
    (book.registerChoice c).IsRegistry where
  tracked origin := by
    by_cases hSame : origin = c.origin
    · exact .inr ((mem_origins_registerChoice_iff h).mpr
        (.inl hSame))
    · unfold IsTracked
      rw [taggedRules_registerChoice_of_ne h (Ne.symm hSame),
        mem_origins_registerChoice_iff h, or_iff_right hSame]
      exact hRegistry.tracked origin
  tagged d hd := by
    have hChoices :
        (book.registerChoice c).choices =
          (book.removeChoice c.kind c.name).choices ++ [c] :=
      congrArg (· ++ [c])
        (choices_declareAll (h.removeChoice c.kind c.name) _ _)
    rw [hChoices, List.mem_append, List.mem_singleton,
      mem_choices_removeChoice_iff] at hd
    rcases hd with ⟨hThere, hOther⟩ | rfl
    · rw [taggedRules_registerChoice_of_ne h hOther.symm]
      exact hRegistry.tagged d hThere
    · exact ⟨_, (hRegistry.tracked
        d.origin).taggedRules_registerChoice h⟩
  owned r hRule hGate := by
    have hLeft := h.removeChoice c.kind c.name
    rcases exists_of_gate_declareAll hLeft hRule hGate with
      ⟨r', hr', hEq⟩ | ⟨hOwner, _⟩
    · have hOld := hRegistry.owned r'
        (mem_rules_of_removeChoice hr')
        ((congrArg Rule.op hEq).trans hGate)
      exact fun hNone =>
        hOld ((congrArg Rule.owner hEq).trans hNone)
    · rw [hOwner]
      exact Option.some_ne_none c.origin

/- Calls keep the account. -/
theorem IsRegistry.callAll
    (hRegistry : book.IsRegistry)
    (h : book.IsConsistent)
    (calls : List ChoiceCall) :
    (book.callAll calls).IsRegistry := by
  induction calls generalizing book with
  | nil => exact hRegistry
  | cons call calls ih =>
      refine ih ?_ (h.call call)
      cases call with
      | register c => exact hRegistry.registerChoice h c
      | remove kind name =>
          exact hRegistry.removeChoice h ⟨kind, name, ⟨[]⟩⟩

------------------------------------------------------------
-- Declared Rules
------------------------------------------------------------

/- A rule of a registered choice is one that it declares. -/
theorem IsRegistry.mem_declarations_iff
    (hRegistry : book.IsRegistry)
    (hIn : c ∈ book.choices)
    {target source : Key}
    {op : Operator}
    {formula : Option Formula}
    (hOp : op.IsFirm) :
    .rule target source op formula ∈ c.declarations ↔
      ∃ r ∈ book.rules, r.unnumbered =
        ⟨target, source, op, formula, some c.origin, 0⟩ := by
  rcases hRegistry.tagged c hIn with ⟨before, hTagged⟩
  rw [← @mem_addedRules_iff before (some c.origin)
      c.declarations target source op formula hOp,
    ← hTagged, taggedRules, List.mem_filter, List.mem_map]
  exact and_iff_left (decide_eq_true rfl)

/- Each gate is declared by a registered choice. -/
theorem IsRegistry.exists_of_gate
    (hRegistry : book.IsRegistry)
    {r : Rule}
    (hRule : r ∈ book.rules)
    (hGate : r.op = .gate) :
    ∃ c ∈ book.choices, r.owner = some c.origin ∧
      .rule r.target r.source .gate r.formula ∈
        c.declarations := by
  rcases Option.ne_none_iff_exists'.mp
      (hRegistry.owned r hRule hGate) with
    ⟨origin, hOwner⟩
  have hTagged : r.unnumbered ∈ book.taggedRules origin :=
    List.mem_filter.mpr
      ⟨List.mem_map_of_mem hRule, decide_eq_true hOwner⟩
  rcases hRegistry.tracked origin with hNone | hThere
  · rw [hNone] at hTagged
    cases hTagged
  · rcases List.mem_map.mp hThere with ⟨c, hc, rfl⟩
    refine ⟨c, hc, hOwner, ?_⟩
    refine (hRegistry.mem_declarations_iff hc
      Operator.isFirm_gate).mpr ⟨r, hRule, ?_⟩
    rw [Rule.unnumbered, hGate, hOwner]

------------------------------------------------------------
-- Order of Choices
------------------------------------------------------------

/- Those that are registered in that order stay in it. -/
theorem choicesOf_eq_choices
    {kind : ChoiceKind}
    (hKind : book.choices.filter (·.kind = kind) = book.choices)
    (hSorted : book.choices.Pairwise fun a b =>
      decide (a.name ≤ b.name) = true) :
    book.choicesOf kind = book.choices := by
  rw [choicesOf, hKind]
  exact List.mergeSort_of_pairwise hSorted

------------------------------------------------------------
-- Distinct Choices
------------------------------------------------------------

/- No origin has two choices after one is removed. -/
theorem nodup_origins_removeChoice
    (h : book.origins.Nodup)
    (kind : ChoiceKind)
    (name : String) :
    (book.removeChoice kind name).origins.Nodup := by
  unfold removeChoice
  split
  · exact h
  · exact (List.filter_sublist.map Choice.origin).nodup h

/- Nor after one is registered, in place of its like. -/
theorem nodup_origins_registerChoice
    (hDistinct : book.origins.Nodup)
    (h : book.IsConsistent)
    (c : Choice) :
    (book.registerChoice c).origins.Nodup := by
  rw [origins_registerChoice h, ← List.concat_eq_append,
    List.nodup_concat]
  refine ⟨fun hIn => ?_,
    nodup_origins_removeChoice hDistinct c.kind c.name⟩
  rcases List.mem_map.mp hIn with ⟨d, hd, hOrigin⟩
  exact (mem_choices_removeChoice_iff.mp hd).2 hOrigin

/- So the choices of a kind differ in their names. -/
theorem nodup_choiceNames
    (h : book.origins.Nodup)
    (kind : ChoiceKind) :
    (book.choiceNames kind).Nodup := by
  have hNames :
      (book.choiceNames kind).map (Choice.originOf kind) =
        (book.choicesOf kind).map Choice.origin := by
    rw [choiceNames, List.map_map]
    apply List.map_congr_left
    intro c hc
    have hKept := (List.mergeSort_perm _ _).subset hc
    rw [Function.comp_apply, Choice.origin,
      of_decide_eq_true (List.mem_filter.mp hKept).2]
  apply List.Nodup.of_map (Choice.originOf kind)
  rw [hNames, choicesOf,
    ((List.mergeSort_perm _ _).map Choice.origin).nodup_iff]
  exact (List.filter_sublist.map Choice.origin).nodup h

end Rulebook

namespace Command

open Rulebook

mutual

/- Each command keeps choices distinct. -/
theorem nodup_origins_run
    {book : Rulebook}
    (hDistinct : book.origins.Nodup)
    (h : book.IsConsistent)
    (owner : Owner) :
    (c : Command) → (run owner book c).origins.Nodup
  | .declare d => by
      change ((book.declareAll owner [d]).choices.map _).Nodup
      rw [choices_declareAll h]
      exact hDistinct
  | .spell target source op formula => by
      unfold run
      cases Declaration.ofTexts target source op formula with
      | error _ => exact hDistinct
      | ok d =>
          change
            ((book.declareAll owner [d]).choices.map _).Nodup
          rw [choices_declareAll h]
          exact hDistinct
  | .core => by
      change ((book.declareAll owner _).choices.map _).Nodup
      rw [choices_declareAll h]
      exact hDistinct
  | .register _ _ _ =>
      nodup_origins_registerChoice hDistinct h _
  | .remove kind name =>
      nodup_origins_removeChoice hDistinct kind name
  | .withdraw _ => hDistinct
  | .within origin commands =>
      nodup_origins_runAll_of hDistinct h (some origin) commands

theorem nodup_origins_runAll_of
    {book : Rulebook}
    (hDistinct : book.origins.Nodup)
    (h : book.IsConsistent)
    (owner : Owner) :
    (commands : List Command) →
      (runAll owner book commands).origins.Nodup
  | [] => hDistinct
  | c :: commands =>
      nodup_origins_runAll_of (nodup_origins_run hDistinct h owner c)
        (isConsistent_run h owner c) owner commands

end

/- All choices of a kind differ in their names. -/
theorem nodup_choiceNames_runAll
    (settings : Settings)
    (commands : List Command)
    (kind : ChoiceKind) :
    ((runAll none (Rulebook.empty settings)
      commands).choiceNames kind).Nodup := by
  have hEmpty : (Rulebook.empty settings).origins.Nodup :=
    List.nodup_nil
  exact nodup_choiceNames
    (nodup_origins_runAll_of hEmpty (isConsistent_empty settings)
      none commands)
    kind

end Command

end CharSheet
