import CharSheet.Proofs.Choice.Calls
import CharSheet.Proofs.Choice.Composition
import CharSheet.Proofs.Key.Scopes
import CharSheet.Proofs.Rulebook.Records
import CharSheet.Proofs.Sheet.Tally

/-
  Budgets and pools of choices.

  A granted choice adds to the budget of its kind by a rule,
  and opens a pool.  The two are declared together and taken
  back together, so that they stay in step whatever choices
  are registered, registered again and removed.  A budget that
  nothing else adds to is the sum of the pools that are open.

  Main declarations:
    * `Pool.rule`
    * `Declaration.IsGranted`
    * `Declaration.IsComposed.areMatched`
    * `Rulebook.IsPaired`
    * `Rulebook.IsPaired.callAll`
-/

namespace CharSheet

------------------------------------------------------------
-- Grants
------------------------------------------------------------

/- The rule by which a pool adds to its budget. -/
def Pool.rule (p : Pool) : Rule :=
  ⟨p.kind.budget, p.gate, .add, some (.gated (.ofNat p.count)),
    p.owner, 0⟩

namespace Declaration

/- The declaration is a rule of some granted item. -/
def IsGranted (d : Declaration) : Prop :=
  d.IsRule ∧ ∃ gate kind item,
    d ∈ Item.declarations gate kind item

/- A rule that adds an amount to a budget, as grants do. -/
def isGrant (kind : PoolKind) : Declaration → Bool
  | .rule target _ .add
      (some ⟨_, .choose .source (.literal (.number _))
        .absent⟩) =>
      target = kind.budget
  | _ => false

variable {d : Declaration}
variable {ds : List Declaration}
variable {kind : PoolKind}

theorem isGrant_iff :
    d.isGrant kind = true ↔
      ∃ source f,
        d = .rule kind.budget source .add (some f) ∧
          f.IsGated := by
  constructor
  · intro h
    unfold isGrant at h
    split at h
    · rw [of_decide_eq_true h]
      exact ⟨_, _, rfl, _, rfl⟩
    · cases h
  · rintro ⟨source, ⟨text, expr⟩, rfl, n, rfl⟩
    exact decide_eq_true rfl

/- Budgets have no scope, but a capital. -/
theorem isRoot_budget (kind : PoolKind) :
    Key.IsRoot kind.budget := by
  cases kind <;> decide

theorem budget_ne_abilityKey
    (kind : PoolKind)
    (name : String) :
    kind.budget ≠ abilityKey name := by
  intro hSame
  have hCapital : 'C' ∈ kind.budget.toList := by
    cases kind <;> decide
  rw [hSame] at hCapital
  exact nomatch Text.isUpper_of_mem_lower hCapital

theorem budget_injective
    {kind kind' : PoolKind}
    (h : kind.budget = kind'.budget) :
    kind = kind' := by
  revert h
  cases kind <;> cases kind' <;> decide

/- Of granted items, only choices add to budgets. -/
theorem IsGranted.isGrant
    (h : d.IsGranted)
    (hTarget : ∃ source op formula,
      d = .rule kind.budget source op formula) :
    d.isGrant kind = true := by
  rcases h with ⟨_, gate, other, item, hMem⟩
  rcases hTarget with ⟨source, op, formula, rfl⟩
  rw [isGrant_iff]
  cases item with
  | choose count options =>
      simp only [Item.declarations, List.cons_append,
        List.mem_cons, List.mem_append, List.mem_map,
        List.not_mem_nil, reduceCtorEq, and_false,
        exists_false, or_false] at hMem
      injection hMem with _ hSource hOp hFormula
      subst hSource hOp hFormula
      exact ⟨_, _, rfl, _, rfl⟩
  | grant name amount =>
      cases other with
      | abilityBoost =>
          injection List.mem_singleton.mp hMem
            with _ hSource hOp hFormula
          subst hSource hOp hFormula
          exact ⟨_, _, rfl, _, rfl⟩
      | _ =>
          have hRule := List.mem_singleton.mp hMem
          injection hRule with hTarget
          exact absurd hTarget
            ((isRoot_budget kind).ne_under _ _)

/- The rules of grants are those of the pools, in order. -/
def AreMatched
    (owner : Owner)
    (kind : PoolKind)
    (ds : List Declaration) : Prop :=
  (ds.filter (isGrant kind)).filterMap (ruleFor? owner 0) =
    ((ds.filterMap (pool? owner)).filter (·.kind = kind)).map
      Pool.rule

theorem AreMatched.append
    {owner : Owner}
    {es : List Declaration}
    (h : AreMatched owner kind ds)
    (hNext : AreMatched owner kind es) :
    AreMatched owner kind (ds ++ es) := by
  unfold AreMatched at *
  rw [List.filter_append, List.filterMap_append, h, hNext,
    List.filterMap_append, List.filter_append, List.map_append]

/- What is neither a grant nor a pool does not matter. -/
theorem areMatched_of_neither
    {owner : Owner}
    (h : ∀ d ∈ ds,
      d.isGrant kind = false ∧ d.pool? owner = none) :
    AreMatched owner kind ds := by
  have hGrants : ds.filter (isGrant kind) = [] :=
    List.filter_eq_nil_iff.mpr fun d hd =>
      Bool.eq_false_iff.mp (h d hd).1
  have hPools : ds.filterMap (pool? owner) = [] :=
    List.filterMap_eq_nil_iff.mpr fun d hd => (h d hd).2
  unfold AreMatched
  rw [hGrants, hPools]
  rfl

theorem areMatched_item
    (owner : Owner)
    (kind : PoolKind)
    (gate : Key)
    (other : PoolKind)
    (item : Item) :
    AreMatched owner kind (item.declarations gate other) := by
  cases item with
  | choose count options =>
      have hGrants :
          ((options.getD []).map
            (Declaration.option other)).filter
              (isGrant kind) = [] := by
        apply List.filter_eq_nil_iff.mpr
        intro d hd
        rcases List.mem_map.mp hd with ⟨name, _, rfl⟩
        exact Bool.false_ne_true
      have hPools :
          ((options.getD []).map
            (Declaration.option other)).filterMap
              (pool? owner) = [] := by
        apply List.filterMap_eq_nil_iff.mpr
        intro d hd
        rcases List.mem_map.mp hd with ⟨name, _, rfl⟩
        rfl
      have hRule (source : Key) (n : Number) :
          (Declaration.rule other.budget source .add
            (some (.gated n))).isGrant kind =
              decide (other.budget = kind.budget) := rfl
      unfold AreMatched
      rw [Item.declarations, List.cons_append,
        List.filter_cons, hRule, List.filter_append, hGrants,
        List.filterMap_cons, List.filterMap_append, hPools]
      by_cases hKind : other = kind
      · subst hKind
        simp [isGrant, ruleFor?, pool?, Pool.rule]
      · have hBudget : other.budget ≠ kind.budget :=
          fun hSame => hKind (budget_injective hSame)
        simp [isGrant, pool?, hKind, hBudget]
  | grant name amount =>
      apply areMatched_of_neither
      intro d hd
      cases other with
      | abilityBoost =>
          rw [List.mem_singleton.mp hd]
          refine ⟨?_, rfl⟩
          exact decide_eq_false (budget_ne_abilityKey kind name).symm
      | _ =>
          rw [List.mem_singleton.mp hd]
          exact ⟨rfl, rfl⟩

/- Whatever content declares, the two are in step. -/
theorem IsComposed.areMatched
    {roots : Operator → Key → Prop}
    (h : IsComposed roots ds)
    (owner : Owner)
    (kind : PoolKind) :
    AreMatched owner kind ds := by
  induction h with
  | nil => rfl
  | append _ _ ih ihNext => exact ih.append ihNext
  | rule target source op formula hOwn _ =>
      apply areMatched_of_neither
      intro d hd
      rw [List.mem_singleton.mp hd]
      refine ⟨?_, rfl⟩
      rw [Bool.eq_false_iff, Ne, isGrant_iff]
      rintro ⟨_, f, hEq, hGated⟩
      cases hEq
      exact hOwn rfl f rfl hGated
  | item gate other item =>
      exact areMatched_item owner kind gate other item
  | _ => rfl

end Declaration

namespace Rulebook

variable {book : Rulebook}
variable {kind : PoolKind}
variable {numbers : List Nat}
variable {granted : List Rule}
variable {owner : Owner}

------------------------------------------------------------
-- Rules of Grants
------------------------------------------------------------

/- The numbers at which grants add to a budget. -/
def grantNumbers
    (kind : PoolKind)
    (log : List (Declaration × Rule)) : List Nat :=
  (log.filter (·.1.isGrant kind)).map (·.2.seq)

theorem grantNumbers_append
    (kind : PoolKind)
    (log later : List (Declaration × Rule)) :
    grantNumbers kind (log ++ later) =
      grantNumbers kind log ++ grantNumbers kind later := by
  rw [grantNumbers, List.filter_append, List.map_append]
  rfl

/-
  The rules of some numbers, which have all been given away,
  are those that are granted, and belong to some origin each.
-/
structure IsMarked
    (book : Rulebook)
    (numbers : List Nat)
    (granted : List Rule) : Prop where
  past : ∀ n ∈ numbers, n < book.nextSeq
  owned : ∀ r ∈ book.rules, r.seq ∈ numbers → r.owner ≠ none
  rules_eq :
    (book.rules.filter (·.seq ∈ numbers)).map Rule.unnumbered =
      granted

/- Rules that are no grants are not among them. -/
theorem IsMarked.of_isExtension
    {other : Rulebook}
    (h : book.IsMarked numbers granted)
    (hExtension : book.IsExtension other) :
    other.IsMarked numbers granted := by
  rcases hExtension.rules with ⟨added, hRules, hLater⟩
  have hOthers : ∀ r ∈ added, r.seq ∉ numbers := by
    intro r hr hNumber
    have hLt := h.past r.seq hNumber
    have hLe := hLater r hr
    omega
  refine ⟨?_, ?_, ?_⟩
  · intro n hn
    exact Nat.lt_of_lt_of_le (h.past n hn) hExtension.next
  · rw [hRules]
    intro r hr hNumber
    rcases List.mem_append.mp hr with hOld | hNew
    · exact h.owned r hOld hNumber
    · exact absurd hNumber (hOthers r hNew)
  · have hNone : added.filter (·.seq ∈ numbers) = [] := by
      apply List.filter_eq_nil_iff.mpr
      intro r hr
      simpa using hOthers r hr
    rw [hRules, List.filter_append, hNone, List.append_nil,
      h.rules_eq]

/- The rule of a grant is the last of them. -/
theorem IsMarked.addRule
    (h : book.IsMarked numbers granted)
    (hBook : book.IsConsistent)
    (hOwner : owner ≠ none)
    (target source : Key)
    (op : Operator)
    (formula : Option Formula) :
    (book.addRule owner target source op formula).IsMarked
      (numbers ++ [book.nextSeq])
      (granted ++ [⟨target, source, op, formula, owner, 0⟩]) := by
  have hOld :
      ∀ r ∈ book.rules,
        r.seq ∈ numbers ++ [book.nextSeq] ↔ r.seq ∈ numbers := by
    intro r hr
    rw [List.mem_append, List.mem_singleton]
    exact or_iff_left (Nat.ne_of_lt (hBook.numbered r hr))
  refine ⟨?_, ?_, ?_⟩
  · intro n hn
    change n < book.nextSeq + 1
    rcases List.mem_append.mp hn with hOldNumber | hNew
    · exact Nat.lt_succ_of_lt (h.past n hOldNumber)
    · rw [List.mem_singleton.mp hNew]
      exact Nat.lt_succ_self _
  · intro r hr hNumber
    rcases List.mem_append.mp hr with hThere | hNew
    · exact h.owned r hThere ((hOld r hThere).mp hNumber)
    · rw [List.mem_singleton.mp hNew]
      exact hOwner
  · have hRest :
        book.rules.filter (·.seq ∈ numbers ++ [book.nextSeq]) =
          book.rules.filter (·.seq ∈ numbers) := by
      apply List.filter_congr
      intro r hr
      exact decide_eq_decide.mpr (hOld r hr)
    have hLast :
        book.nextSeq ∈ numbers ++ [book.nextSeq] :=
      List.mem_append_right _ List.mem_cons_self
    change ((book.rules ++ [_]).filter _).map _ = _
    rw [List.filter_append, hRest, List.map_append, h.rules_eq]
    simp [Rule.unnumbered]

/- Each declaration adds its rule to them if it is a grant. -/
theorem IsMarked.declare
    (h : book.IsMarked numbers granted)
    (hBook : book.IsConsistent)
    (kind : PoolKind)
    (hOwner : owner ≠ none)
    (d : Declaration) :
    (book.declare owner d).IsMarked
      (numbers ++ grantNumbers kind (additions owner book [d]))
      (granted ++
        ([d].filter (Declaration.isGrant kind)).filterMap
          (Declaration.ruleFor? owner 0)) := by
  cases hGrant : d.isGrant kind with
  | false =>
      have hNumbers :
          grantNumbers kind (additions owner book [d]) = [] := by
        cases hRule : d.ruleFor? owner book.nextSeq with
        | none => simp [grantNumbers, additions, hRule]
        | some r => simp [grantNumbers, additions, hRule, hGrant]
      rw [hNumbers, List.filter_cons_of_neg (by simp [hGrant]),
        List.append_nil]
      exact (List.append_nil granted).symm ▸
        h.of_isExtension (isExtension_declare hBook owner d)
  | true =>
      rcases Declaration.isGrant_iff.mp hGrant with
        ⟨source, f, rfl, _⟩
      have hNumbers :
          grantNumbers kind (additions owner book
            [.rule kind.budget source .add (some f)]) =
              [book.nextSeq] := by
        simp [grantNumbers, additions, hGrant,
          Declaration.ruleFor?]
      rw [hNumbers, List.filter_cons_of_pos hGrant]
      exact h.addRule hBook hOwner _ _ _ _

theorem IsMarked.declareAll
    (h : book.IsMarked numbers granted)
    (hBook : book.IsConsistent)
    (kind : PoolKind)
    (hOwner : owner ≠ none)
    (ds : List Declaration) :
    (book.declareAll owner ds).IsMarked
      (numbers ++ grantNumbers kind (additions owner book ds))
      (granted ++
        (ds.filter (Declaration.isGrant kind)).filterMap
          (Declaration.ruleFor? owner 0)) := by
  induction ds generalizing book numbers granted with
  | nil =>
      simpa [grantNumbers, additions, Rulebook.declareAll]
        using h
  | cons d ds ih =>
      have hRest := ih (h.declare hBook kind hOwner d)
        (hBook.declare owner d)
      rw [List.append_assoc, List.append_assoc,
        ← grantNumbers_append, ← additions_cons,
        ← List.filterMap_append, ← List.filter_append] at hRest
      exact hRest

/- A withdrawal takes those of the origin, and no others. -/
theorem IsMarked.withdraw
    (h : book.IsMarked numbers granted)
    (hBook : book.IsConsistent)
    (origin : Origin) :
    (book.withdraw origin).IsMarked numbers
      (granted.filter (·.owner ≠ some origin)) := by
  refine ⟨h.past, ?_, ?_⟩
  · intro r hr hNumber
    exact h.owned r (mem_rules_withdraw_iff.mp hr).1 hNumber
  · rw [← h.rules_eq, rules_withdraw, List.filter_comm,
      List.filter_map]
    congr 1
    apply List.filter_congr
    intro r hr
    rcases List.mem_filter.mp hr with ⟨hRule, hNumber⟩
    -- What is dropped with an origin belongs to none.
    have hStays : r.seq ∉ book.dropped origin := by
      intro hDropped
      have hJoint := mem_jointRules_iff.mpr
        ⟨hRule, hBook.isJoint_of_mem_dropped hDropped⟩
      exact h.owned r hRule (of_decide_eq_true hNumber)
        (hBook.toIsNumbered.shares_of_mem_jointRules hJoint).2
    by_cases hOwner : r.owner = some origin
    · simp [hOwner, Rule.unnumbered]
    · simp [hOwner, hStays, Rule.unnumbered]

------------------------------------------------------------
-- Rules and Pools
------------------------------------------------------------

/-
  The rules of grants stand for the pools of a kind, one for
  one and in the same order.
-/
def IsPaired
    (book : Rulebook)
    (kind : PoolKind)
    (numbers : List Nat) : Prop :=
  book.IsMarked numbers
    ((book.pools.filter (·.kind = kind)).map Pool.rule)

theorem IsPaired.withdraw
    (h : book.IsPaired kind numbers)
    (hBook : book.IsConsistent)
    (origin : Origin) :
    (book.withdraw origin).IsPaired kind numbers := by
  have hMarked := IsMarked.withdraw h hBook origin
  rw [List.filter_map, ← List.filter_comm] at hMarked
  exact hMarked

theorem IsPaired.declareAll
    (h : book.IsPaired kind numbers)
    (hBook : book.IsConsistent)
    (hOwner : owner ≠ none)
    {roots : Operator → Key → Prop}
    {ds : List Declaration}
    (hComposed : Declaration.IsComposed roots ds) :
    (book.declareAll owner ds).IsPaired kind
      (numbers ++ grantNumbers kind (additions owner book ds)) := by
  have hMarked := IsMarked.declareAll h hBook kind hOwner ds
  rw [hComposed.areMatched owner kind, ← List.map_append,
    ← List.filter_append, ← pools_declareAll] at hMarked
  exact hMarked

/- Registered choices do not matter for them. -/
theorem IsPaired.removeChoice
    (h : book.IsPaired kind numbers)
    (hBook : book.IsConsistent)
    (chosen : ChoiceKind)
    (name : String) :
    (book.removeChoice chosen name).IsPaired kind numbers := by
  unfold Rulebook.removeChoice
  cases book.choice? chosen name with
  | none => exact h
  | some c =>
      have hLeft := h.withdraw hBook c.origin
      exact ⟨hLeft.past, hLeft.owned, hLeft.rules_eq⟩

theorem IsPaired.registerChoice
    (h : book.IsPaired kind numbers)
    (hBook : book.IsConsistent)
    (c : Choice) :
    (book.registerChoice c).IsPaired kind
      (numbers ++ grantNumbers kind
        (additions (some c.origin)
          (book.removeChoice c.kind c.name)
          c.declarations)) := by
  have hDeclared :=
    (h.removeChoice hBook c.kind c.name).declareAll
      (hBook.removeChoice c.kind c.name)
      (Option.some_ne_none c.origin) c.isComposed_declarations
  exact ⟨hDeclared.past, hDeclared.owned, hDeclared.rules_eq⟩

/-
  Whatever is registered, registered again and removed, rules
  and pools stay paired.
-/
theorem IsPaired.callAll
    (h : book.IsPaired kind numbers)
    (hBook : book.IsConsistent)
    (calls : List ChoiceCall) :
    (book.callAll calls).IsPaired kind
      (numbers ++
        grantNumbers kind (additionsAll book calls)) := by
  induction calls generalizing book numbers with
  | nil => exact (List.append_nil numbers).symm ▸ h
  | cons call calls ih =>
      cases call with
      | register c =>
          have hRest := ih (h.registerChoice hBook c)
            (hBook.registerChoice c)
          rw [List.append_assoc, ← grantNumbers_append] at hRest
          exact hRest
      | remove chosen name =>
          exact ih (h.removeChoice hBook chosen name)
            (hBook.removeChoice chosen name)

end Rulebook

end CharSheet
