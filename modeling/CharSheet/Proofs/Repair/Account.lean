import CharSheet.Proofs.Repair.Mending

/-
  Repairs and their reports.

  The fixes of a report lead from the first inputs to the last
  ones, over all passes together, and what remains is what is
  wrong with the last ones.

  Main declarations:
    * `RepairReport.IsAccount`
    * `Rulebook.isAccount_repair`
-/

namespace CharSheet

------------------------------------------------------------
-- Reports
------------------------------------------------------------

/-
  A report accounts for all that became of the inputs: there
  are no more passes than allowed, the fixes lead to the last
  inputs, what remains is what is wrong with them, and where
  nothing was wrong there is nothing to report.
-/
structure RepairReport.IsAccount
    (book : Rulebook)
    (store : Store)
    (passes : Nat)
    (final : Store)
    (report : RepairReport) : Prop where
  bounded : report.passes ≤ passes
  replayed : final = Fix.replay store report.fixes
  remaining : report.remaining = violations (book.sheet final)
  idle :
    violations (book.sheet store) = [] →
      final = store ∧ report.passes = 0 ∧ report.fixes = []

/- The passes that are left account for what they do. -/
theorem Repair.ensures_run
    (book : Rulebook)
    (passes : Nat)
    (store : Store) :
    Random.Ensures (run book book.plan passes store)
      fun (final, report) =>
        report.IsAccount book store passes final := by
  induction passes generalizing store with
  | zero =>
      refine Random.ensures_pure ?_
      exact ⟨Nat.le_refl 0, rfl, rfl, fun _ => ⟨rfl, rfl, rfl⟩⟩
  | succ passes ih =>
      unfold run
      dsimp only
      split
      · next hNone =>
          have hNone' := List.isEmpty_iff.mp hNone
          refine Random.ensures_pure ?_
          exact ⟨Nat.zero_le _, rfl, hNone'.symm,
            fun _ => ⟨rfl, rfl, rfl⟩⟩
      · next hSome =>
          have hSome' :
              violations (book.plan.sheet store) ≠ [] :=
            fun hNone => hSome (List.isEmpty_iff.mpr hNone)
          refine (ensures_pass store).bind ?_
          intro p hPass
          split
          · next hNone =>
              -- The last pass, which has changed nothing.
              have hStore : p.store = store := by
                rw [hPass.2, List.isEmpty_iff.mp hNone]
                rfl
              refine Random.ensures_pure ?_
              exact ⟨Nat.le_add_left 1 passes, hStore, rfl,
                fun hNone => absurd hNone hSome'⟩
          · refine (ih p.store).bind ?_
            rintro ⟨final, report⟩ hRest
            refine Random.ensures_pure ?_
            refine ⟨Nat.succ_le_succ hRest.bounded, ?_,
              hRest.remaining, fun hNone => absurd hNone hSome'⟩
            rw [hRest.replayed, hPass.2]
            exact (Fix.replay_append store _ _).symm

/-
  A repair ends within the passes of the settings, and its
  report accounts for it, whatever is drawn.
-/
theorem Rulebook.isAccount_repair
    (book : Rulebook)
    (store : Store)
    (source : Source) :
    let (final, report) := ((book.repair store).run source).1
    report.IsAccount book store book.settings.repairPasses
      final :=
  Repair.ensures_run book book.settings.repairPasses store
    source

end CharSheet
