import CharSheet.Proofs.Random.Picks
import CharSheet.Proofs.Rulebook.Command

/-
  Members that are tried and taken back.

  Each member that is tried is one afterwards or absent, and
  all else is as before.  So what is taken back leaves a trace
  where it was set to something that is not truthy, such as
  zero, and none where it was absent.

  Main declarations:
    * `Selection.LeavesNoTrace`
    * `Selection.IsOutcome`
    * `Rulebook.exists_isOutcome_tryMembers`
    * `Selection.IsOutcome.leavesNoTrace_iff`
    * `Command.ensures_leavesNoTrace_iff`
-/

namespace CharSheet

------------------------------------------------------------
-- Outcomes
------------------------------------------------------------

namespace Selection

/-
  Nothing but the selection can be told from the store: the
  members that were kept are one each, and all other inputs
  are those from before, be they present or absent.
-/
structure LeavesNoTrace
    (s : Selection)
    (before : Store) : Prop where
  distinct : s.kept.Nodup
  kept : ∀ key ∈ s.kept, s.store[key]? = some (.ofNat 1)
  others : ∀ key : Key, key ∉ s.kept →
    s.store[key]? = before[key]?

/-
  What trying members of a list comes to where some of them
  have failed: these are absent, and each of them was not
  valid when it was set to one.
-/
structure IsOutcome
    (s : Selection)
    (book : Rulebook)
    (plan : Plan)
    (keys : List Key)
    (before : Store)
    (failed : List Key) : Prop where
  distinct : (s.kept ++ failed).Nodup
  tried : ∀ key ∈ s.kept ++ failed, key ∈ keys
  kept : ∀ key ∈ s.kept, s.store[key]? = some (.ofNat 1)
  takenBack : ∀ key ∈ failed, s.store[key]? = none
  invalid : ∀ key ∈ failed, ∃ t : Store,
    t[key]? = some (.ofNat 1) ∧
      isValidMember book (plan.sheet t) key = false
  others : ∀ key : Key, key ∉ s.kept ++ failed →
    s.store[key]? = before[key]?

variable {s : Selection}
variable {book : Rulebook}
variable {plan : Plan}
variable {key : Key}
variable {keys failed : List Key}
variable {before : Store}

/- Where nothing is tried, nothing is changed. -/
theorem isOutcome_nil
    (book : Rulebook)
    (plan : Plan)
    (keys : List Key)
    (before : Store) :
    IsOutcome ⟨[], before⟩ book plan keys before [] where
  distinct := List.nodup_nil
  tried := nofun
  kept := nofun
  takenBack := nofun
  invalid := nofun
  others _ _ := rfl

section First

variable (hNew : key ∉ keys)

include hNew

/- The first member may be kept. -/
theorem IsOutcome.after
    (h : s.IsOutcome book plan keys
      (before.insert key (.ofNat 1)) failed) :
    (s.after key).IsOutcome book plan (key :: keys) before
      failed where
  distinct :=
    List.nodup_cons.mpr ⟨mt (h.tried key) hNew, h.distinct⟩
  tried k hk := by
    rcases List.mem_cons.mp hk with rfl | hRest
    · exact List.mem_cons_self
    · exact List.mem_cons_of_mem key (h.tried k hRest)
  kept k hk := by
    rcases List.mem_cons.mp hk with rfl | hRest
    · change s.store[k]? = _
      rw [h.others k (mt (h.tried k) hNew),
        Std.ExtTreeMap.getElem?_insert_self]
    · exact h.kept k hRest
  takenBack := h.takenBack
  invalid := h.invalid
  others k hk := by
    have hApart : k ≠ key := List.ne_of_not_mem_cons hk
    rw [Store.agreeOff_insert before key (.ofNat 1) k hApart]
    exact h.others k (List.not_mem_of_not_mem_cons hk)

/- The first member may be taken back. -/
theorem IsOutcome.takeBack
    (hInvalid : isValidMember book
      (plan.sheet (before.insert key (.ofNat 1))) key = false)
    (h : s.IsOutcome book plan keys
      ((before.insert key (.ofNat 1)).erase key) failed) :
    s.IsOutcome book plan (key :: keys) before
      (key :: failed) where
  distinct :=
    List.nodup_middle.mpr
      (List.nodup_cons.mpr ⟨mt (h.tried key) hNew, h.distinct⟩)
  tried k hk := by
    rcases List.mem_cons.mp (List.perm_middle.subset hk) with
      rfl | hRest
    · exact List.mem_cons_self
    · exact List.mem_cons_of_mem key (h.tried k hRest)
  kept := h.kept
  takenBack k hk := by
    rcases List.mem_cons.mp hk with rfl | hRest
    · rw [h.others k (mt (h.tried k) hNew),
        Std.ExtTreeMap.getElem?_erase_self]
    · exact h.takenBack k hRest
  invalid k hk := by
    rcases List.mem_cons.mp hk with rfl | hRest
    · exact ⟨_, Std.ExtTreeMap.getElem?_insert_self, hInvalid⟩
    · exact h.invalid k hRest
  others k hk := by
    rw [List.perm_middle.mem_iff] at hk
    have hApart : k ≠ key := List.ne_of_not_mem_cons hk
    rw [Store.agreeOff_insert before key (.ofNat 1) k hApart,
      Store.agreeOff_erase (before.insert key _) key k hApart]
    exact h.others k (List.not_mem_of_not_mem_cons hk)

end First

/- There is no trace if what was taken back was absent. -/
theorem IsOutcome.leavesNoTrace_iff
    (h : s.IsOutcome book plan keys before failed) :
    s.LeavesNoTrace before ↔
      ∀ key ∈ failed, before[key]? = none := by
  rcases List.nodup_append.mp h.distinct with
    ⟨hKept, -, hDisjoint⟩
  constructor
  · intro hNoTrace key hKey
    have hNot : key ∉ s.kept := fun hIn =>
      hDisjoint key hIn key hKey rfl
    rw [← hNoTrace.others key hNot, h.takenBack key hKey]
  · intro hAbsent
    refine ⟨hKept, h.kept, ?_⟩
    intro key hNot
    by_cases hKey : key ∈ failed
    · rw [h.takenBack key hKey, hAbsent key hKey]
    · apply h.others
      rw [List.mem_append]
      exact not_or.mpr ⟨hNot, hKey⟩

end Selection

/- Trying members that are all distinct has an outcome. -/
theorem Rulebook.exists_isOutcome_tryMembers
    (book : Rulebook)
    (plan : Plan)
    {keys : List Key}
    (hDistinct : keys.Nodup)
    (left : Number)
    (failures : Nat)
    (store : Store) :
    ∃ failed,
      (tryMembers book plan keys left failures store).IsOutcome
        book plan keys store failed := by
  induction keys generalizing left failures store with
  | nil => exact ⟨[], Selection.isOutcome_nil book plan [] store⟩
  | cons key keys ih =>
      rw [List.nodup_cons] at hDistinct
      unfold tryMembers
      split
      · exact ⟨[], Selection.isOutcome_nil book plan _ store⟩
      · dsimp only
        split
        · rcases ih hDistinct.2 (left.sub 1) failures
              (store.insert key (.ofNat 1)) with
            ⟨failed, h⟩
          exact ⟨failed, h.after hDistinct.1⟩
        · next hInvalid =>
            rcases ih hDistinct.2 left (failures + 1)
                ((store.insert key (.ofNat 1)).erase key) with
              ⟨failed, h⟩
            exact ⟨key :: failed, h.takeBack hDistinct.1
              (Bool.eq_false_iff.mpr hInvalid)⟩

------------------------------------------------------------
-- Allocations
------------------------------------------------------------

namespace Command

open Rulebook

/-
  Whatever commands have led to, whatever members of an
  allocation are allowed, and whatever the source: filling the
  allocation leaves no trace but the members that are kept,
  exactly if the members that are taken back were absent.
-/
theorem ensures_leavesNoTrace_iff
    (settings : Settings)
    (commands : List Command)
    {note : Key}
    {a : Allocation}
    (hNote :
      (runAll none (Rulebook.empty settings)
        commands).allocations[note]? = some a)
    (allowed : Key → Bool)
    (store : Store) :
    let book := runAll none (Rulebook.empty settings) commands
    let opened := a.keys.filter fun key =>
      !store.truthy key && allowed key
    Random.Ensures
      (Random.fillAllocation book book.plan allowed store note a)
      fun s => ∃ failed,
        s.IsOutcome book book.plan opened store failed ∧
          (s.LeavesNoTrace store ↔
            ∀ key ∈ failed, store[key]? = none) := by
  intro book opened
  have hConsistent := isConsistent_runAll settings commands
  have hDistinct : opened.Nodup :=
    (hConsistent.allocation note a hNote).nodup.filter _
  have hOutcome : Random.Ensures
      (Random.fillAllocation book book.plan allowed store note a)
      fun s => ∃ failed,
        s.IsOutcome book book.plan opened store failed := by
    apply Random.ensures_selection
    · exact ⟨[], Selection.isOutcome_nil _ _ _ _⟩
    · intro excess keys _ hPerm
      rcases exists_isOutcome_tryMembers book book.plan
          (hPerm.nodup_iff.mpr hDistinct) excess.neg 0 store with
        ⟨failed, h⟩
      exact ⟨failed,
        { h with tried := fun k hk => hPerm.subset (h.tried k hk) }⟩
  exact hOutcome.mono fun s ⟨failed, h⟩ =>
    ⟨failed, h, h.leavesNoTrace_iff⟩

end Command

------------------------------------------------------------
-- A Feat That Is Out of Reach
------------------------------------------------------------

namespace AlertFeat

open Rulebook

/- The only feat requires a level. -/
def commands : List Command :=
  [.register .feat "Alert" "Require=\"level >= 4\""]

def book : Rulebook :=
  Command.runAll none (Rulebook.empty .standard) commands

def note : Key :=
  "validationNotes.generalFeatAllocation"

def allocation : Allocation :=
  ⟨note, "featCount.General", 4, [("feats.Alert", 5)]⟩

/- The level is not reached, and no feat is selected. -/
def absent : Store :=
  .ofList [("featCount.General", Value.ofNat 1),
    ("level", .ofNat 1)]

/- It is not selected either where it is set to zero. -/
def zeroed : Store :=
  absent.insert "feats.Alert" (.ofNat 0)

theorem getElem?_allocations :
    book.allocations[note]? = some allocation := by
  decide +kernel

/- Notes are told from the inputs. -/
theorem number?_sheet
    {key : Key}
    (hNote : key ∈ [note, "validationNotes.alertFeat"])
    (s : Store) :
    (book.sheet s).number? key =
      (Rule.joinAll s
        (Operator.inOrder.flatMap (book.rulesOf key))
        s[key]?).bind Value.number? := by
  have hFlat : book.IsFlat := by
    unfold IsFlat IsTarget
    decide +kernel
  have hTargets :
      ∀ key ∈ [note, "validationNotes.alertFeat"],
        book.IsTarget key := by
    unfold IsTarget
    decide +kernel
  have hOrdered :=
    (Command.isConsistent_runAll .standard commands).ordered
  rw [Store.number?,
    hFlat.getElem?_sheet hOrdered (hTargets key hNote)]

/- The feat is not valid on any sheet with an unmet clause. -/
theorem isValidMember_of_unmet
    {sheet : Store}
    (h : sheet.number? "validationNotes.alertFeat" = some 1) :
    isValidMember book sheet "feats.Alert" = false := by
  have hRequirements :
      (book.requirements.toList.map fun entry =>
        (entry.1, entry.2.selector)) =
          [("validationNotes.alertFeat", "feats.Alert")] := by
    decide +kernel
  have hAll :
      isValidMember book sheet "feats.Alert" =
        (book.requirements.toList.map fun entry =>
          (entry.1, entry.2.selector)).all fun entry =>
            entry.2 ≠ "feats.Alert" ||
              !Key.isUnder entry.1 "validationNotes" ||
              (sheet.number? entry.1).all (·.isZero) := by
    rw [List.all_map]
    rfl
  have hUnder :
      Key.isUnder "validationNotes.alertFeat"
        "validationNotes" = true := by
    decide +kernel
  have hOne : Number.isZero 1 = false := by decide
  rw [hAll, hRequirements]
  simp [h, hUnder, hOne]

/- It is tried and taken back, whatever the source. -/
theorem ensures_fillAllocation_eq
    {store : Store}
    (hStore : store = absent ∨ store = zeroed) :
    Random.Ensures
      (Random.fillAllocation book book.plan (fun _ => true) store
        note allocation)
      (· = ⟨[], absent⟩) := by
  have hExcess :
      (book.plan.sheet store).number? note =
        some (.ofInt (-1)) := by
    change (book.sheet store).number? note = _
    rw [number?_sheet (by decide)]
    rcases hStore with rfl | rfl
    · decide +kernel
    · decide +kernel
  have hOpen :
      (allocation.keys.filter fun key =>
        !store.truthy key && true) = ["feats.Alert"] := by
    rcases hStore with rfl | rfl
    · decide +kernel
    · decide +kernel
  have hInvalid :
      isValidMember book
        (book.plan.sheet (store.insert "feats.Alert" (.ofNat 1)))
        "feats.Alert" = false := by
    apply isValidMember_of_unmet
    change (book.sheet _).number? _ = _
    rw [number?_sheet (by decide)]
    rcases hStore with rfl | rfl
    · decide +kernel
    · decide +kernel
  have hBack :
      (store.insert "feats.Alert" (.ofNat 1)).erase
        "feats.Alert" = absent := by
    rcases hStore with rfl | rfl
    · decide +kernel
    · decide +kernel
  have hRetries : 0 < book.settings.randomRetries := by
    decide +kernel
  refine (Random.ensures_fillAllocation_singleton hExcess hOpen
    (by decide) hRetries).mono ?_
  rintro _ rfl
  simp [hInvalid, hBack]

/-
  Where the feat was absent, no trace is left of it.  Where it
  was zero, it is absent afterwards.
-/
theorem leavesNoTrace_iff_alert :
    book.allocations[note]? = some allocation ∧
      ∀ source,
        let fill := fun store =>
          ((Random.fillAllocation book book.plan (fun _ => true)
            store note allocation).run source).1
        (fill absent).LeavesNoTrace absent ∧
          ¬ (fill zeroed).LeavesNoTrace zeroed := by
  refine ⟨getElem?_allocations, fun source => ?_⟩
  intro fill
  have hOutcome (store : Store) :=
    Command.ensures_leavesNoTrace_iff .standard commands
      getElem?_allocations (fun _ => true) store source
  have hFill
      {store : Store}
      (hStore : store = absent ∨ store = zeroed) :
      fill store = ⟨[], absent⟩ :=
    ensures_fillAllocation_eq hStore source
  constructor
  · rcases hOutcome absent with ⟨failed, h, hIff⟩
    apply hIff.mpr
    intro key hKey
    have hMember : key ∈ ["feats.Alert"] :=
      (List.mem_filter.mp
        (h.tried key (List.mem_append_right _ hKey))).1
    rw [List.mem_singleton.mp hMember]
    decide +kernel
  · rcases hOutcome zeroed with ⟨failed, h, hIff⟩
    change (fill zeroed).IsOutcome _ _ _ _ _ at h
    rw [hFill (.inr rfl)] at h
    intro hNoTrace
    by_cases hKey : "feats.Alert" ∈ failed
    · have hAbsent := hIff.mp hNoTrace "feats.Alert" hKey
      revert hAbsent
      decide +kernel
    · have hSame := h.others "feats.Alert" hKey
      revert hSame
      decide +kernel

/- So what is taken back may leave a trace. -/
theorem not_forall_leavesNoTrace :
    ¬ ∀ (settings : Settings) (commands : List Command)
      (note : Key) (a : Allocation) (allowed : Key → Bool)
      (store : Store),
        let book :=
          Command.runAll none (Rulebook.empty settings) commands
        book.allocations[note]? = some a →
          Random.Ensures
            (Random.fillAllocation book book.plan allowed store
              note a)
            (·.LeavesNoTrace store) := by
  intro h
  have hNoTrace := h .standard commands note allocation
    (fun _ => true) zeroed getElem?_allocations (.ofSeed 0 #[])
  change ((Random.fillAllocation book book.plan (fun _ => true)
    zeroed note allocation).run _).1.LeavesNoTrace zeroed
      at hNoTrace
  rw [ensures_fillAllocation_eq (.inr rfl)] at hNoTrace
  have hSame := hNoTrace.others "feats.Alert" List.not_mem_nil
  revert hSame
  decide +kernel

end AlertFeat

end CharSheet
