import CharSheet.Proofs.Choice.Removal
import CharSheet.Proofs.Rulebook.Records
import CharSheet.Proofs.Rulebook.Renumbering

/-
  Choices that are registered twice.

  The second registration takes back the first one and makes
  the same declarations once more.  What these find is what
  the first ones found, so they add the same with the next
  numbers.  Formats and requirements are put where they were.

  Main declarations:
    * `Key.recordAll_filter_recordAll`
    * `Rulebook.IsConsistent.isUnused_removeChoice`
    * `Rulebook.registerChoice_registerChoice`
    * `Command.registerText_registerText`
-/

namespace CharSheet

------------------------------------------------------------
-- Records Put Twice
------------------------------------------------------------

namespace Key

variable {β : Type}
variable {m m' : Std.ExtTreeMap Key β}
variable {entries : List (Key × β)}

/- Entries hide what was there before. -/
theorem recordAll_congr
    (h : ∀ key : Key, key ∉ entries.map (·.1) →
      m[key]? = m'[key]?) :
    recordAll m entries = recordAll m' entries := by
  induction entries generalizing m m' with
  | nil =>
      exact Std.ExtTreeMap.ext_getElem? fun key =>
        h key List.not_mem_nil
  | cons e entries ih =>
      apply ih
      intro key hNot
      rw [getElem?_insert, getElem?_insert]
      split
      · rfl
      · next hKey =>
          apply h
          rw [List.map_cons, List.mem_cons]
          exact not_or.mpr ⟨hKey, hNot⟩

/- Entries that are taken away may be put again. -/
theorem recordAll_filter_recordAll
    {keeps : β → Bool}
    (hKept : ∀ (key : Key) v, m[key]? = some v → keeps v = true)
    (hGone : ∀ e ∈ entries, keeps e.2 = false) :
    recordAll ((recordAll m entries).filter fun _ v => keeps v)
        entries =
      recordAll m entries := by
  apply recordAll_congr
  intro key hNot
  rw [getElem?_filter_recordAll hGone, if_neg hNot]
  cases hThere : m[key]? with
  | none => rfl
  | some v => simp [hKept key v hThere]

end Key

namespace Rulebook

variable {book : Rulebook}

------------------------------------------------------------
-- What a Removal Leaves
------------------------------------------------------------

/- A choice that was removed is not registered. -/
theorem choice?_removeChoice
    (book : Rulebook)
    (kind : ChoiceKind)
    (name : String) :
    (book.removeChoice kind name).choice? kind name = none := by
  unfold removeChoice
  cases hFound : book.choice? kind name with
  | none => exact hFound
  | some c =>
      apply List.find?_eq_none.mpr
      intro d hd
      simpa using (List.mem_filter.mp hd).2

/- A registration begins with the removal in any case. -/
theorem registerChoice_removeChoice
    (book : Rulebook)
    (c : Choice) :
    (book.removeChoice c.kind c.name).registerChoice c =
      book.registerChoice c := by
  have hAgain :
      (book.removeChoice c.kind c.name).removeChoice c.kind
          c.name =
        book.removeChoice c.kind c.name := by
    rw [removeChoice, choice?_removeChoice]
  unfold registerChoice
  rw [hAgain]

/- An origin that is withdrawn is unused. -/
theorem IsConsistent.isUnused_withdraw
    (h : book.IsConsistent)
    (origin : Origin) :
    (book.withdraw origin).IsUnused origin where
  rules := (h.hasNothing_withdraw origin).rules
  shared := fun s hs hOwner =>
    (h.hasNothing_withdraw origin).owns s.parts
      ⟨s, hs, rfl, hOwner⟩
  pools := fun _ hp =>
    of_decide_eq_true (List.mem_filter.mp hp).2
  notes := by
    intro key n hThere
    change (book.notes.filter _)[key]? = some n at hThere
    rw [Std.ExtTreeMap.getElem?_filter'] at hThere
    exact of_decide_eq_true (Option.filter_eq_some_iff.mp hThere).2
  requirements := by
    intro note r hThere
    change (book.requirements.filter _)[note]? = some r at hThere
    rw [Std.ExtTreeMap.getElem?_filter'] at hThere
    exact of_decide_eq_true (Option.filter_eq_some_iff.mp hThere).2

/-
  The origin of a choice that was removed is unused, if all
  that it had belonged to the choice.
-/
theorem IsConsistent.isUnused_removeChoice
    (h : book.IsConsistent)
    (c : Choice)
    (hOwned : book.choice? c.kind c.name = none →
      book.IsUnused c.origin) :
    (book.removeChoice c.kind c.name).IsUnused c.origin := by
  by_cases hThere : c.origin ∈ book.origins
  · have hGone := h.isUnused_withdraw c.origin
    rw [removeChoice_of_mem hThere]
    exact ⟨hGone.rules, hGone.shared, hGone.pools, hGone.notes,
      hGone.requirements⟩
  · rw [removeChoice_of_notMem hThere]
    exact hOwned (choice?_eq_none_iff.mpr hThere)

------------------------------------------------------------
-- Choices Registered Twice
------------------------------------------------------------

section Twice

variable (h : book.IsConsistent)
variable (c : Choice)
variable (hUnused : book.IsUnused c.origin)
variable (hNone : book.choice? c.kind c.name = none)

include h hUnused hNone

/-
  A new choice that is registered twice is registered once,
  with greater numbers for what it has declared.
-/
theorem registerChoice_registerChoice :
    (book.registerChoice c).registerChoice c =
      (book.registerChoice c).renumber
        (shift book.nextSeq
          ((book.registerChoice c).nextSeq - book.nextSeq)) := by
  let undone := (book.registerChoice c).removeChoice c.kind c.name
  have hOnce := registerChoice_of_none h c hNone
  have hTwice : (book.registerChoice c).registerChoice c =
      { undone.declareAll (some c.origin) c.declarations with
        choices := undone.choices ++ [c] } := by
    rw [← registerChoice_removeChoice]
    exact registerChoice_of_none
      ((h.registerChoice c).removeChoice c.kind c.name) c
      (choice?_removeChoice ..)
  rcases agrees_removeChoice_registerChoice h c hUnused hNone
    with ⟨hAgrees, hChoices⟩
  have hKeeps := h.settings_nextSeq_declareAll (some c.origin)
    c.declarations
  have hShifted : IsShifted book.nextSeq
      ((book.registerChoice c).nextSeq - book.nextSeq) book
        undone := by
    apply h.isShifted hAgrees
    · rw [removeChoice_registerChoice h c hNone]
      exact hKeeps.1
    · rw [removeChoice_registerChoice h c hNone, hOnce]
      exact (Nat.add_sub_cancel' hKeeps.2).symm
  have hDeclared := (hShifted.declareAll (some c.origin)
    c.declarations).with_choices (book.choices ++ [c])
      (undone.choices ++ [c])
  rw [hTwice, hDeclared.eq_renumber, hOnce]
  · exact (pools_declareAll ..).trans
      ((congrArg (· ++ _) hAgrees.pools).trans
        (pools_declareAll ..).symm)
  · refine (notes_declareAll ..).trans ?_
    rw [notes_removeChoice_registerChoice h c hNone,
      Key.recordAll_filter_recordAll]
    · exact (notes_declareAll ..).symm
    · intro key n hThere
      exact decide_eq_true (hUnused.notes key n hThere)
    · intro e he
      simp [Declaration.owner_of_mem_formats he]
  · refine (requirements_declareAll ..).trans ?_
    rw [requirements_removeChoice_registerChoice h c hNone,
      Key.recordAll_filter_recordAll]
    · exact (requirements_declareAll ..).symm
    · intro note r hThere
      exact decide_eq_true (hUnused.requirements note r hThere)
    · intro e he
      simp [Declaration.owner_of_mem_requirements he]
  · exact congrArg (· ++ [c]) hChoices

end Twice

end Rulebook

namespace Command

open Rulebook

/-
  A choice that is registered twice in a row is registered
  once: rules, shared rules with their owners, allocations
  with their members, pools, formats, requirements, and
  choices are the same up to numbers that keep their order,
  and all sheets are the same.
-/
theorem registerText_registerText
    (settings : Settings)
    (commands : List Command)
    (kind : ChoiceKind)
    (name attrs : String)
    (hOwned :
      (runAll none (Rulebook.empty settings) commands).choice?
          kind name = none →
        (runAll none (Rulebook.empty settings)
          commands).IsUnused (Choice.originOf kind name)) :
    let book :=
      runAll none (Rulebook.empty settings) commands
    let once := book.registerText kind name attrs
    let twice := once.registerText kind name attrs
    (∃ f : Nat → Nat, StrictMono f ∧ twice = once.renumber f) ∧
      ∀ input, twice.sheet input = once.sheet input := by
  intro book once twice
  let c : Choice :=
    ⟨kind, name, (AttrTable.ofTextLossy attrs).1⟩
  have h : book.IsConsistent :=
    isConsistent_runAll_of (isConsistent_empty settings) none
      commands
  let base := book.removeChoice kind name
  have hBase : base.IsConsistent := h.removeChoice kind name
  have hOnce : base.registerChoice c = once :=
    registerChoice_removeChoice book c
  have hTwice := registerChoice_registerChoice hBase c
    (h.isUnused_removeChoice c hOwned)
    (choice?_removeChoice book kind name)
  rw [hOnce] at hTwice
  have hMono := strictMono_shift base.nextSeq
    (once.nextSeq - base.nextSeq)
  refine ⟨⟨_, hMono, hTwice⟩, ?_⟩
  intro input
  change (once.registerChoice c).sheet input = _
  rw [hTwice]
  exact sheet_renumber (h.registerChoice c).ordered hMono input

/-
  So is a second feat with a requirement, which is counted
  with the first one.
-/
theorem registerText_registerText_feat :
    let commands : List Command := [.register .feat "Tough" ""]
    let book :=
      runAll none (Rulebook.empty .standard) commands
    let attrs := "Require='dexterity >= 13'"
    let once := book.registerText .feat "Alert" attrs
    let twice := once.registerText .feat "Alert" attrs
    book.choice? .feat "Alert" = none ∧
      book.IsUnused (Choice.originOf .feat "Alert") ∧
        (∃ f : Nat → Nat,
          StrictMono f ∧ twice = once.renumber f) ∧
          ∀ input, twice.sheet input = once.sheet input := by
  intro commands book attrs once twice
  have hNotes : book.notes.toList = [] := by decide +kernel
  have hRequirements : book.requirements.toList = [] := by
    decide +kernel
  have hUnused : book.IsUnused (Choice.originOf .feat "Alert") :=
    { rules := by decide +kernel
      shared := by decide +kernel
      pools := by decide +kernel
      notes := fun key n hThere => by
        rw [← Std.ExtTreeMap.mem_toList_iff_getElem?_eq_some,
          hNotes] at hThere
        cases hThere
      requirements := fun note r hThere => by
        rw [← Std.ExtTreeMap.mem_toList_iff_getElem?_eq_some,
          hRequirements] at hThere
        cases hThere }
  exact ⟨by decide +kernel, hUnused,
    registerText_registerText .standard commands .feat "Alert"
      attrs fun _ => hUnused⟩

end Command

end CharSheet
