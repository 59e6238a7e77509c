import CharSheet.Proofs.Rulebook.Parallel
import CharSheet.Proofs.Sheet.Counting

/-
  Rulebooks from which owners are gone.

  After all owners that go are withdrawn, a rulebook has the
  same bare rules as one that never had them.  Only the rules
  of attributes that these owners had joint rules for may come
  in another order, and only where they add or raise.

  Main declarations:
    * `Rulebook.IsParallel.withdraw`
    * `Rulebook.HasNothing`
    * `Rulebook.IsParallel.perm`
    * `Rulebook.IsParallel.sheet_eq`
-/

namespace CharSheet

namespace Rulebook

variable {book rest base : Rulebook}
variable {gone : Owner → Bool}
variable {ds : List Declaration}
variable {origin : Origin}
variable {key : Key}

------------------------------------------------------------
-- Withdrawals
------------------------------------------------------------

/- What is left after a withdrawal comes from where it came. -/
theorem IsFrom.withdraw
    (h : IsFrom gone book ds)
    (hBook : book.IsConsistent)
    (origin : Origin) :
    IsFrom gone (book.withdraw origin) ds where
  own := by
    intro r hr hGone
    rw [hBook.ownRules_withdraw] at hr
    rcases List.mem_map.mp hr with ⟨r', hr', rfl⟩
    exact h.own _
      (List.mem_map_of_mem (List.mem_filter.mp hr').1) hGone
  parts := by
    intro w p hOwns hGone
    rcases hOwns.exists_shares with ⟨seq, hShares⟩
    have hOld := (hBook.owns_withdraw_iff
      (shares_withdraw.mp hShares).1).mp hOwns
    exact h.parts w p hOld.1 hGone

/-
  The rules of other attributes are not dropped, since they
  have an owner that stays.
-/
theorem IsParallel.notMem_dropped
    (h : IsParallel base gone ds book rest)
    (hGone : gone (some origin) = true)
    {r : Rule}
    (hr : r ∈ book.rules)
    (hTarget :
      r.target ∉ ds.flatMap Declaration.jointTargets) :
    r.seq ∉ book.dropped origin := by
  intro hDropped
  have hJoint := h.isConsistent.isJoint_of_mem_dropped hDropped
  have hShares := (h.isConsistent.shares_of_mem_jointRules
    (mem_jointRules_iff.mpr ⟨hr, hJoint⟩)).1
  rcases h.isConsistent.exists_owns hShares with ⟨w, hOwns⟩
  have hStays := h.stays_of_owns hTarget hOwns
  have hLeft := h.isRemainder.withdraw h.isConsistent
    h.isConsistent_rest hGone
  have hThere := (h.isRemainder.owns w _).mpr ⟨hOwns, hStays⟩
  rcases ((hLeft.owns w _).mp hThere).1.exists_shares with
    ⟨seq, hKept⟩
  rcases shares_withdraw.mp hKept with ⟨hOld, hNot⟩
  rw [h.isConsistent.seq_eq hShares hOld] at hDropped
  exact hNot hDropped

/- Owners that go may be withdrawn from the first rulebook. -/
theorem IsParallel.withdraw
    (h : IsParallel base gone ds book rest)
    (hGone : gone (some origin) = true) :
    IsParallel base gone ds (book.withdraw origin) rest := by
  refine ⟨h.isConsistent.withdraw origin, h.isConsistent_rest,
    h.isRemainder.withdraw h.isConsistent h.isConsistent_rest
      hGone,
    h.isFrom.withdraw h.isConsistent origin, h.settings,
    h.none_stays, ?_, h.derived, h.allocated⟩
  intro key hKey
  rw [h.order key hKey, staying, staying, rules_withdraw,
    List.filter_map, List.filter_map, List.filter_filter]
  congr 1
  apply List.filter_congr
  intro r hr
  by_cases hTarget : r.target = key
  · have hKept := h.notMem_dropped hGone hr (hTarget ▸ hKey)
    by_cases hOwner : r.owner = some origin
    · simp [Rule.unnumbered, hOwner, hGone]
    · simp [hOwner, hKept]
  · simp [Rule.unnumbered, hTarget]

/- Nothing belongs to the owner, nor any part of it. -/
structure HasNothing
    (book : Rulebook)
    (w : Owner) : Prop where
  rules : ∀ r ∈ book.rules, r.owner ≠ w
  owns : ∀ p, ¬ book.Owns w p

/- An origin that is withdrawn has nothing. -/
theorem IsConsistent.hasNothing_withdraw
    (h : book.IsConsistent)
    (origin : Origin) :
    (book.withdraw origin).HasNothing (some origin) where
  rules := fun _ hr => (mem_rules_withdraw_iff.mp hr).2.1
  owns := by
    intro p hOwns
    rcases hOwns.exists_shares with ⟨seq, hShares⟩
    have hOld := (h.owns_withdraw_iff
      (shares_withdraw.mp hShares).1).mp hOwns
    exact hOld.2.1 rfl

/- It has nothing after other withdrawals either. -/
theorem HasNothing.withdraw
    {w : Owner}
    (h : book.HasNothing w)
    (hBook : book.IsConsistent)
    (origin : Origin) :
    (book.withdraw origin).HasNothing w where
  rules := fun r hr => h.rules r (mem_rules_withdraw_iff.mp hr).1
  owns := by
    intro p hOwns
    rcases hOwns.exists_shares with ⟨seq, hShares⟩
    exact h.owns p ((hBook.owns_withdraw_iff
      (shares_withdraw.mp hShares).1).mp hOwns).1

------------------------------------------------------------
-- The Same Bare Rules
------------------------------------------------------------

/- A rulebook has own rules and joint rules. -/
theorem perm_rules (book : Rulebook) :
    (book.jointRules ++ book.ownRules).Perm book.rules :=
  List.filter_append_perm book.isJoint book.rules

/- The bare joint rules are those of their parts. -/
theorem IsPlain.map_bare_jointRules
    (h : book.IsPlain) :
    book.jointRules.map Rule.bare =
      book.jointParts.map RuleParts.standing := by
  rw [jointParts, List.map_map]
  apply List.map_congr_left
  intro r hr
  have hFormula := (h r hr).1
  unfold Rule.bare RuleParts.standing
  simp only [Function.comp_apply]
  rw [← hFormula]
  rfl

/- Bare rules do not tell of numbers. -/
theorem map_bare_eq_of_unnumbered
    {rules rules' : List Rule}
    (h : rules.map Rule.unnumbered =
      rules'.map Rule.unnumbered) :
    rules.map Rule.bare = rules'.map Rule.bare := by
  have hMapped := congrArg (List.map Rule.bare) h
  rw [List.map_map, List.map_map] at hMapped
  exact hMapped

/- If no rule goes, the rules of an attribute are all there. -/
theorem map_bare_rulesOf_eq_staying
    (hStays : ∀ r ∈ book.rules, gone r.owner = false)
    (key : Key)
    (op : Operator) :
    (book.rulesOf key op).map Rule.bare =
      ((staying gone book key).filter (·.op = op)).map
        Rule.bare := by
  rw [staying, List.filter_map, List.filter_map, List.map_map,
    List.filter_filter]
  have hSame :
      book.rulesOf key op =
        book.rules.filter fun r =>
          r.unnumbered.op = op &&
            (r.unnumbered.target = key &&
              !gone r.unnumbered.owner) := by
    apply List.filter_congr
    intro r hr
    simp only [Rule.unnumbered, hStays r hr, Bool.not_false,
      Bool.and_comm]
    rfl
  rw [hSame]
  rfl

/- An operator that is not joint is one of own rules only. -/
theorem IsPlain.map_bare_rulesOf
    (h : book.IsPlain)
    {op : Operator}
    (hAdd : op ≠ .add)
    (hMax : op ≠ .max)
    (key : Key) :
    (book.rulesOf key op).map Rule.bare =
      (book.ownRules.map Rule.bare).filter fun r =>
        r.target = key && r.op = op := by
  rw [List.filter_map, ownRules, List.filter_filter]
  congr 1
  apply List.filter_congr
  intro r hr
  cases hJoint : book.isJoint r with
  | false =>
      simp only [Bool.not_false, Bool.and_true]
      rfl
  | true =>
      have hOp := (h r (mem_jointRules_iff.mpr ⟨hr, hJoint⟩)).2
      have hNe : r.op ≠ op := by
        rintro rfl
        exact hOp.elim hAdd hMax
      simp [hNe]

/- The remainder has rules of owners that stay only. -/
theorem IsParallel.stays_of_mem_rest
    (h : IsParallel base gone ds book rest)
    {r : Rule}
    (hr : r ∈ rest.rules) :
    gone r.owner = false := by
  cases hJoint : rest.isJoint r with
  | true =>
      have hNone := (h.isConsistent_rest.shares_of_mem_jointRules
        (mem_jointRules_iff.mpr ⟨hr, hJoint⟩)).2
      rw [hNone]
      exact h.none_stays
  | false =>
      have hOwn : r ∈ rest.ownRules :=
        List.mem_filter.mpr ⟨hr, congrArg Bool.not hJoint⟩
      have hIn := List.mem_map_of_mem (f := Rule.unnumbered) hOwn
      rw [h.isRemainder.own] at hIn
      exact (Bool.not_eq_true' _).mp (List.mem_filter.mp hIn).2

section Cleared

variable (h : IsParallel base gone ds book rest)
variable (hClear : ∀ w, gone w = true → book.HasNothing w)

include hClear

/- All rules that are left belong to owners that stay. -/
theorem stays_of_hasNothing
    {r : Rule}
    (hr : r ∈ book.rules) :
    gone r.owner = false := by
  cases hGone : gone r.owner with
  | false => rfl
  | true => exact absurd rfl ((hClear _ hGone).rules r hr)

include h

/- So the own rules are those of the remainder. -/
theorem IsParallel.ownRules_eq :
    book.ownRules.map Rule.bare =
      rest.ownRules.map Rule.bare := by
  apply map_bare_eq_of_unnumbered
  rw [h.isRemainder.own]
  symm
  apply List.filter_eq_self.mpr
  intro r hr
  rcases List.mem_map.mp hr with ⟨r', hr', rfl⟩
  have hStays :=
    stays_of_hasNothing hClear (List.mem_filter.mp hr').1
  exact congrArg Bool.not hStays

/- So are the parts of the joint rules, up to their order. -/
theorem IsParallel.perm_jointParts :
    book.jointParts.Perm rest.jointParts := by
  refine (List.perm_ext_iff_of_nodup
    h.isConsistent.nodup_jointParts
    h.isConsistent_rest.nodup_jointParts).mpr ?_
  intro p
  rw [h.isConsistent.mem_jointParts_iff,
    h.isConsistent_rest.mem_jointParts_iff]
  apply exists_congr
  intro w
  rw [h.isRemainder.owns, iff_self_and]
  intro hOwns
  cases hGone : gone w with
  | false => rfl
  | true => exact absurd hOwns ((hClear w hGone).owns p)

/- Both have the same bare rules, up to their order. -/
theorem IsParallel.perm
    (hPlain : book.IsPlain)
    (hPlain' : rest.IsPlain) :
    (book.rules.map Rule.bare).Perm
      (rest.rules.map Rule.bare) := by
  have hBook := book.perm_rules.map Rule.bare
  have hRest := rest.perm_rules.map Rule.bare
  rw [List.map_append, hPlain.map_bare_jointRules] at hBook
  rw [List.map_append, hPlain'.map_bare_jointRules,
    ← h.ownRules_eq hClear] at hRest
  have hJoint := (h.perm_jointParts hClear).map RuleParts.standing
  exact hBook.symm.trans ((hJoint.append_right _).trans hRest)

/-
  The sheets are the same where all attributes are counted
  that the others had joint rules for.
-/
theorem IsParallel.sheet_eq
    (hPlain : book.IsPlain)
    (hPlain' : rest.IsPlain)
    (input : Store)
    (hCounted : ∀ key ∈ ds.flatMap Declaration.jointTargets,
      rest.IsTarget key → rest.IsCounted input key) :
    book.sheet input = rest.sheet input := by
  apply sheet_eq_of_isCounted h.isConsistent.ordered
    h.isConsistent_rest.ordered (h.perm hClear hPlain hPlain')
  intro key op hTarget hNot
  by_cases hKey : key ∈ ds.flatMap Declaration.jointTargets
  · have hOp : ¬ (op = .add ∨ op = .max) := fun hJoint =>
      hNot hJoint (hCounted key hKey hTarget)
    rcases not_or.mp hOp with ⟨hAdd, hMax⟩
    rw [hPlain.map_bare_rulesOf hAdd hMax,
      hPlain'.map_bare_rulesOf hAdd hMax, h.ownRules_eq hClear]
  · rw [map_bare_rulesOf_eq_staying
        fun r hr => stays_of_hasNothing hClear hr,
      map_bare_rulesOf_eq_staying
        fun r hr => h.stays_of_mem_rest hr,
      h.order key hKey]

end Cleared

end Rulebook

end CharSheet
