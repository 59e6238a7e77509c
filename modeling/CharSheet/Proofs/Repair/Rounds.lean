import CharSheet.Proofs.Repair.Fulfilment
import CharSheet.Proofs.Repair.Gap
import CharSheet.Proofs.Repair.Mending

/-
  Rounds of a repair.

  A repair goes over the notes in rounds, one for each pass.
  Within a round each change is of an attribute that has not
  been changed in it yet, whichever note is mended and in
  whichever way, so that no attribute is changed twice.

  Main declarations:
    * `Fix.AreApart`
    * `Repair.WritesFresh`, `Repair.WritesAllFresh`
    * `Repair.WritesAllFresh.areApart`
    * `Repair.ensures_fresh_mendNote`
    * `Rulebook.Rounds`
    * `Rulebook.exists_rounds_run`
    * `Command.attrs_apart_in_rounds`
-/

namespace CharSheet

/- No attribute is changed twice. -/
def Fix.AreApart (fixes : List Fix) : Prop :=
  (fixes.map (·.attr)).Nodup

namespace Repair

variable {book : Rulebook}
variable {sheet : Store}
variable {p q : Repair}
variable {note key : Key}
variable {keys : List Key}

------------------------------------------------------------
-- Fresh Writes
------------------------------------------------------------

/-
  A change of an attribute that has not been changed leads to
  another repair.
-/
def WritesFresh (p q : Repair) : Prop :=
  ∃ note key value, p.hasChanged key = false ∧
    q = p.write note key value

/- Some such changes lead from a repair to another one. -/
abbrev WritesAllFresh : Repair → Repair → Prop :=
  Relation.ReflTransGen WritesFresh

theorem writesAllFresh_write
    (h : p.hasChanged key = false)
    (note : Key)
    (value : Option Value) :
    WritesAllFresh p (p.write note key value) :=
  .single ⟨note, key, value, h, rfl⟩

/- A fresh change is none of an attribute changed before. -/
theorem WritesFresh.areApart
    (h : WritesFresh p q)
    (hApart : Fix.AreApart p.fixes) :
    Fix.AreApart q.fixes := by
  rcases h with ⟨note, key, value, hUnchanged, rfl⟩
  have hNot : key ∉ p.fixes.map (·.attr) :=
    mt hasChanged_iff.mpr (Bool.eq_false_iff.mp hUnchanged)
  unfold Fix.AreApart write
  rw [List.map_append]
  exact List.Nodup.append hApart (List.nodup_singleton key)
    (List.disjoint_singleton.mpr hNot)

/- So no attribute is changed twice by such changes. -/
theorem WritesAllFresh.areApart
    (h : WritesAllFresh p q)
    (hApart : Fix.AreApart p.fixes) :
    Fix.AreApart q.fixes := by
  induction h with
  | refl => exact hApart
  | tail _ hStep ih => exact hStep.areApart ih

------------------------------------------------------------
-- Allocations
------------------------------------------------------------

/- A member is changed, and those that are left are fresh. -/
theorem writesAllFresh_cons
    (hNodup : (key :: keys).Nodup)
    (hUnchanged : ∀ k ∈ key :: keys, p.hasChanged k = false)
    (note : Key)
    (value : Option Value)
    (hRest : (∀ k ∈ keys,
      (p.write note key value).hasChanged k = false) →
        WritesAllFresh (p.write note key value) q) :
    WritesAllFresh p q := by
  have hNot := (List.nodup_cons.mp hNodup).1
  rcases List.forall_mem_cons.mp hUnchanged with ⟨hKey, hKeys⟩
  refine (writesAllFresh_write hKey note value).trans (hRest ?_)
  intro k hk
  rw [hasChanged_write_of_notMem hNot p note value k hk,
    hKeys k hk]

/- Where members are there once, each one is changed once. -/
theorem WritesFirst.writesAllFresh
    (h : WritesFirst note keys p q)
    (hNodup : keys.Nodup)
    (hUnchanged : ∀ key ∈ keys, p.hasChanged key = false) :
    WritesAllFresh p q := by
  induction h with
  | stop => exact .refl
  | write value _ ih =>
      exact writesAllFresh_cons hNodup hUnchanged note value
        (ih (List.nodup_cons.mp hNodup).2)

/-
  Members that have changed before are left alone, and each
  other one is there once.
-/
theorem ensures_fresh_mendAllocation
    {allocation : Allocation}
    (hNodup : allocation.keys.Nodup)
    (sheet : Store)
    (note : Key)
    (p : Repair) :
    Random.Ensures (mendAllocation book sheet note allocation p)
      (WritesAllFresh p) := by
  refine (ensures_writesFirst sheet note allocation p).mono ?_
  rintro q ⟨keys, hSub, hUnchanged, hWrites⟩
  rcases hSub with ⟨chosen, hPerm, hSublist⟩
  have hKeys : keys.Nodup :=
    hPerm.nodup_iff.mp (hNodup.sublist hSublist)
  exact hWrites.writesAllFresh hKeys hUnchanged

------------------------------------------------------------
-- Requirements
------------------------------------------------------------

theorem ensures_fresh_replaceIdentity
    (note : Key)
    (origin : Origin)
    (p : Repair) :
    Random.Ensures (replaceIdentity book note origin p)
      (WritesAllFresh p) := by
  have hStay : Random.Ensures (pure p) (WritesAllFresh p) :=
    Random.ensures_pure .refl
  unfold replaceIdentity
  split
  · split
    · split
      · exact hStay
      · next hUnchanged =>
          refine (Random.ensures_true _).bind ?_
          intro other _
          exact Random.ensures_pure (writesAllFresh_write
            (eq_false_of_ne_true hUnchanged) note _)
    · exact hStay
  · exact hStay

theorem ensures_fresh_deselect
    (note : Key)
    (r : NotedRequirement)
    (p : Repair) :
    Random.Ensures (deselect book note r p)
      (WritesAllFresh p) := by
  unfold deselect
  split
  · next hSelected =>
      have hUnchanged := ((Bool.and_eq_true _ _).mp hSelected).2
      exact Random.ensures_pure (writesAllFresh_write
        ((Bool.not_eq_true' _).mp hUnchanged) note none)
  · split
    · exact Random.ensures_pure .refl
    · exact ensures_fresh_replaceIdentity note _ p

/- What is proposed has not been changed. -/
theorem ensures_fresh_fulfilFirst?
    (sheet : Store)
    (p : Repair)
    (tests : List Test) :
    Random.Ensures (fulfilFirst? book sheet p tests)
      fun change => ∀ c ∈ change, p.hasChanged c.1 = false := by
  induction tests with
  | nil => exact Random.ensures_pure nofun
  | cons test tests ih =>
      refine (ensures_proposes_fulfil? book sheet p test).bind ?_
      intro change hChange
      cases change with
      | none => exact ih
      | some change =>
          refine Random.ensures_pure ?_
          rintro c ⟨⟩
          exact hasChanged_of_maySet (hChange change rfl).1

theorem ensures_fresh_mendRequirement
    (sheet : Store)
    (note : Key)
    (r : NotedRequirement)
    (p : Repair) :
    Random.Ensures (mendRequirement book sheet note r p)
      (WritesAllFresh p) := by
  unfold mendRequirement
  refine (Random.ensures_true _).bind ?_
  intro clause _
  cases clause with
  | none => exact ensures_fresh_deselect note r p
  | some clause =>
      refine (Random.ensures_true _).bind ?_
      intro tests _
      refine (ensures_fresh_fulfilFirst? sheet p tests).bind ?_
      intro change hChange
      cases change with
      | none => exact ensures_fresh_deselect note r p
      | some change =>
          exact Random.ensures_pure (writesAllFresh_write
            (hChange change rfl) note change.2)

------------------------------------------------------------
-- Passes
------------------------------------------------------------

/- Whatever a note reports, it is mended by fresh changes. -/
theorem ensures_fresh_mendNote
    (hBook : book.IsConsistent)
    (sheet : Store)
    (p : Repair)
    (note : Key) :
    Random.Ensures (mendNote book sheet p note)
      (WritesAllFresh p) := by
  unfold mendNote
  split
  · next hNote =>
      have hNodup := (hBook.allocation note _ hNote).nodup
      exact ensures_fresh_mendAllocation hNodup sheet note p
  · exact ensures_fresh_mendRequirement sheet note _ p
  · exact Random.ensures_pure .refl

/- So a pass changes no attribute twice. -/
theorem ensures_areApart_pass
    (hBook : book.IsConsistent)
    (sheet store : Store) :
    Random.Ensures (pass book sheet store) fun p =>
      Fix.AreApart p.fixes := by
  have hFresh :
      Random.Ensures (pass book sheet store)
        (WritesAllFresh (.start store)) := by
    refine Random.ensures_foldlM ?_ .refl
    intro p note _ h
    exact (ensures_fresh_mendNote hBook sheet p note).mono
      fun _ => h.trans
  exact hFresh.mono fun _ h => h.areApart List.nodup_nil

end Repair

------------------------------------------------------------
-- Rounds
------------------------------------------------------------

/-
  Each list of fixes is what one pass records, from the inputs
  and the words that the passes before it have left and from
  the sheet of these inputs.  After the last one the final
  inputs are left.
-/
inductive Rulebook.Rounds (book : Rulebook) :
    Store → Source → List (List Fix) → Store → Prop where
  | done (store : Store) (source : Source) :
      Rounds book store source [] store
  | round
      {store final : Store}
      {source left : Source}
      {p : Repair}
      {rounds : List (List Fix)}
      (hPass :
        (Repair.pass book (book.sheet store) store).run source =
          (p, left))
      (hRest : Rounds book p.store left rounds final) :
      Rounds book store source (p.fixes :: rounds) final

namespace Rulebook

variable {book : Rulebook}
variable {store final : Store}
variable {source : Source}
variable {rounds : List (List Fix)}

/- In no round an attribute is changed twice. -/
theorem Rounds.areApart
    (h : book.Rounds store source rounds final)
    (hBook : book.IsConsistent) :
    ∀ round ∈ rounds, Fix.AreApart round := by
  induction h with
  | done => nofun
  | @round store _ source _ p _ hPass _ ih =>
      have hApart :=
        Repair.ensures_areApart_pass hBook (book.sheet store)
          store source
      rw [hPass] at hApart
      exact List.forall_mem_cons.mpr ⟨hApart, ih⟩

/- A report is made of as many rounds as there are passes. -/
theorem exists_rounds_run
    (book : Rulebook)
    (passes : Nat)
    (store : Store)
    (source : Source) :
    let (final, report) :=
      ((Repair.run book book.plan passes store).run source).1
    ∃ rounds, book.Rounds store source rounds final ∧
      rounds.length = report.passes ∧
        rounds.flatten = report.fixes := by
  induction passes generalizing store source with
  | zero => exact ⟨[], .done store source, rfl, rfl⟩
  | succ passes ih =>
      unfold Repair.run
      dsimp only
      split
      · exact ⟨[], .done store source, rfl, rfl⟩
      · rw [Random.run_bind]
        cases hPass :
          (Repair.pass book (book.plan.sheet store) store).run
            source with
        | mk p left =>
            dsimp only
            split
            · next hNone =>
                -- The last pass, which has changed nothing.
                refine ⟨[p.fixes],
                  .round hPass (.done p.store left), rfl, ?_⟩
                rw [List.isEmpty_iff.mp hNone]
                rfl
            · rcases ih p.store left with
                ⟨rounds, hRest, hLength, hAll⟩
              refine ⟨p.fixes :: rounds, .round hPass hRest,
                ?_, ?_⟩
              · rw [List.length_cons, hLength]
                rfl
              · rw [List.flatten_cons, hAll]
                rfl

end Rulebook

namespace Command

/-
  Whatever commands lead to a rulebook, no pass over notes
  changes an attribute twice, from whichever inputs and sheet
  and whatever is drawn.  So the fixes that a repair reports
  come in one round for each pass, in each of which all
  attributes differ.
-/
theorem attrs_apart_in_rounds
    (settings : Settings)
    (commands : List Command) :
    let book := runAll none (Rulebook.empty settings) commands
    (∀ (sheet store : Store) (source : Source),
      Fix.AreApart
        ((Repair.pass book sheet store).run source).1.fixes) ∧
    ∀ (store : Store) (source : Source),
      let (final, report) := ((book.repair store).run source).1
      ∃ rounds, book.Rounds store source rounds final ∧
        rounds.length = report.passes ∧
          rounds.flatten = report.fixes ∧
            ∀ round ∈ rounds, Fix.AreApart round := by
  intro book
  have hBook : book.IsConsistent :=
    isConsistent_runAll settings commands
  refine ⟨Repair.ensures_areApart_pass hBook, ?_⟩
  intro store source
  rcases Rulebook.exists_rounds_run book
      book.settings.repairPasses store source with
    ⟨rounds, hRounds, hLength, hFixes⟩
  exact ⟨rounds, hRounds, hLength, hFixes,
    hRounds.areApart hBook⟩

end Command

end CharSheet
