import CharSheet.Proofs.Choice.Removal

/-
  The rules of an origin.

  The rules that are tagged with an origin come from its own
  declarations only, and no other origin takes them back.  What
  is registered in place of a former choice starts anew, so the
  rules of a choice are those of its last registration.

  Main declarations:
    * `Rulebook.taggedRules`
    * `Rulebook.addedRules`, `Rulebook.foundKeys`
    * `Rulebook.taggedRules_declareAll`
    * `Rulebook.IsTracked`
    * `Rulebook.taggedRules_registerChoice`
-/

namespace CharSheet

------------------------------------------------------------
-- Added Rules
------------------------------------------------------------

/- The declaration is that of a rule. -/
def Declaration.IsRule (d : Declaration) : Prop :=
  ∃ target source op formula, d = .rule target source op formula

/- What an adjustment finds among the attributes. -/
def Declaration.found?
    (book : Rulebook) : Declaration → Option (Option Key)
  | .adjustment _ _ _ words => some (book.adjusted? words)
  | _ => none

/- The own rule of a declaration depends on nothing else. -/
theorem Declaration.ownRule?_congr
    {d : Declaration}
    {book other : Rulebook}
    (h : d.found? book = d.found? other)
    (owner : Owner) :
    d.ownRule? book owner = d.ownRule? other owner := by
  cases d with
  | adjustment gate op amount words =>
      have hFound := Option.some.inj h
      simp only [ownRule?, hFound]
  | _ => rfl

namespace Rulebook

variable {book other : Rulebook}
variable {owner : Owner}
variable {origin : Origin}
variable {ds : List Declaration}

/- The own rules that declarations add, one after another. -/
def addedRules
    (owner : Owner) : Rulebook → List Declaration → List Rule
  | _, [] => []
  | book, d :: ds =>
      (d.ownRule? book owner).toList ++
        addedRules owner (book.declare owner d) ds

/-
  What the adjustments among declarations find, while these
  are taken in one after another.
-/
def foundKeys
    (owner : Owner) :
    Rulebook → List Declaration → List (Option Key)
  | _, [] => []
  | book, d :: ds =>
      (d.found? book).toList ++
        foundKeys owner (book.declare owner d) ds

/- Where adjustments find the same, the same is added. -/
theorem addedRules_congr
    (h : foundKeys owner book ds = foundKeys owner other ds) :
    addedRules owner book ds = addedRules owner other ds := by
  induction ds generalizing book other with
  | nil => rfl
  | cons d ds ih =>
      have hLength : (d.found? book).toList.length =
          (d.found? other).toList.length := by
        cases d with
        | _ => rfl
      rcases List.append_inj h hLength with ⟨hFirst, hRest⟩
      have hFound : d.found? book = d.found? other := by
        simpa using congrArg List.head? hFirst
      rw [addedRules, addedRules, ih hRest,
        Declaration.ownRule?_congr hFound]

/- Rules find nothing. -/
theorem foundKeys_of_rules
    (hRules : ∀ d ∈ ds, d.IsRule) :
    foundKeys owner book ds = [] := by
  induction ds generalizing book with
  | nil => rfl
  | cons d ds ih =>
      have hRest := fun e he =>
        hRules e (List.mem_cons_of_mem d he)
      rcases hRules d List.mem_cons_self with
        ⟨target, source, op, formula, rfl⟩
      exact ih hRest

/- They are added as they are declared. -/
theorem addedRules_inj
    (hRules : ∀ d ∈ ds, d.IsRule)
    {ds' : List Declaration}
    (hRules' : ∀ d ∈ ds', d.IsRule)
    (h :
      addedRules owner book ds = addedRules owner other ds') :
    ds = ds' := by
  induction ds generalizing book other ds' with
  | nil =>
      cases ds' with
      | nil => rfl
      | cons d' ds' =>
          rcases hRules' d' List.mem_cons_self with
            ⟨target, source, op, formula, rfl⟩
          cases h
  | cons d ds ih =>
      rcases hRules d List.mem_cons_self with
        ⟨target, source, op, formula, rfl⟩
      cases ds' with
      | nil => cases h
      | cons d' ds' =>
          rcases hRules' d' List.mem_cons_self with
            ⟨target', source', op', formula', rfl⟩
          rcases List.cons.inj h with ⟨hFirst, hRest⟩
          have hSame := ih
            (fun e he => hRules e (List.mem_cons_of_mem _ he))
            (fun e he => hRules' e (List.mem_cons_of_mem _ he))
            hRest
          cases hFirst
          rw [hSame]

------------------------------------------------------------
-- Tagged Rules
------------------------------------------------------------

/- The rules of an origin, apart from their numbers. -/
def taggedRules
    (book : Rulebook)
    (origin : Origin) : List Rule :=
  (book.rules.map Rule.unnumbered).filter
    (·.owner = some origin)

/- They are the rules that it owns itself. -/
theorem taggedRules_eq
    (book : Rulebook)
    (origin : Origin) :
    book.taggedRules origin =
      (book.rules.filter (·.owner = some origin)).map
        Rule.unnumbered :=
  List.filter_map

/- An addition is tagged with the origin it is made for. -/
theorem Adds.taggedRules_eq
    {own : List Rule}
    {parts : List RuleParts}
    (h : Adds book other owner own parts)
    (origin : Origin) :
    other.taggedRules origin =
      book.taggedRules origin ++
        if owner = some origin then own else [] := by
  have hJoint :
      ((book.newParts parts).map RuleParts.standing).filter
        (fun r => decide (r.owner = some origin)) = [] := by
    apply List.filter_eq_nil_iff.mpr
    intro r hr
    rcases List.mem_map.mp hr with ⟨p, _, rfl⟩
    simp [RuleParts.standing]
  have hOwn :
      own.filter (fun r => decide (r.owner = some origin)) =
        if owner = some origin then own else [] := by
    split
    · next hSame =>
        apply List.filter_eq_self.mpr
        intro r hr
        simp [h.owner_eq r hr, hSame]
    · next hOther =>
        apply List.filter_eq_nil_iff.mpr
        intro r hr
        simp [h.owner_eq r hr, hOther]
  unfold taggedRules
  rw [h.rules_eq, List.filter_append, List.filter_append,
    hJoint, hOwn, List.append_nil]

/- The origin's own declarations add rules of its own. -/
theorem taggedRules_declareAll
    (h : book.IsConsistent)
    (origin : Origin)
    (ds : List Declaration) :
    (book.declareAll (some origin) ds).taggedRules origin =
      book.taggedRules origin ++
        addedRules (some origin) book ds := by
  induction ds generalizing book with
  | nil => exact (List.append_nil _).symm
  | cons d ds ih =>
      have hFirst :=
        (adds_declare h (some origin) d).taggedRules_eq origin
      rw [if_pos rfl] at hFirst
      have hRest := ih (h.declare (some origin) d)
      rw [hFirst, List.append_assoc] at hRest
      exact hRest

/- Declarations for others do not. -/
theorem taggedRules_declareAll_of_ne
    (h : book.IsConsistent)
    (hOther : owner ≠ some origin)
    (ds : List Declaration) :
    (book.declareAll owner ds).taggedRules origin =
      book.taggedRules origin := by
  induction ds generalizing book with
  | nil => rfl
  | cons d ds ih =>
      have hFirst :=
        (adds_declare h owner d).taggedRules_eq origin
      rw [if_neg hOther, List.append_nil] at hFirst
      exact (ih (h.declare owner d)).trans hFirst

/- After a withdrawal there are none left. -/
theorem taggedRules_withdraw
    (book : Rulebook)
    (origin : Origin) :
    (book.withdraw origin).taggedRules origin = [] := by
  rw [taggedRules_eq, List.map_eq_nil_iff,
    List.filter_eq_nil_iff]
  intro r hr
  simp [(mem_rules_withdraw_iff.mp hr).2.1]

/-
  The withdrawal of others takes none of them, since rules
  that are dropped with others have no owner.
-/
theorem taggedRules_withdraw_of_ne
    (h : book.IsConsistent)
    {gone : Origin}
    (hOther : gone ≠ origin) :
    (book.withdraw gone).taggedRules origin =
      book.taggedRules origin := by
  rw [taggedRules_eq, taggedRules_eq, rules_withdraw,
    List.filter_filter]
  congr 1
  apply List.filter_congr
  intro r hr
  by_cases hOwner : r.owner = some origin
  · have hStays : r.seq ∉ book.dropped gone := by
      intro hDropped
      have hJoint := mem_jointRules_iff.mpr
        ⟨hr, h.isJoint_of_mem_dropped hDropped⟩
      have hNone :=
        (h.toIsNumbered.shares_of_mem_jointRules hJoint).2
      rw [hOwner] at hNone
      cases hNone
    simp [hOwner, hStays, hOther.symm]
  · simp [hOwner]

------------------------------------------------------------
-- Choices
------------------------------------------------------------

/- The rules of an origin are those of a registered choice. -/
def IsTracked
    (book : Rulebook)
    (origin : Origin) : Prop :=
  book.taggedRules origin = [] ∨ origin ∈ book.origins

/- It stays so with declarations that have no owner. -/
theorem IsTracked.declareAll
    (hTracked : book.IsTracked origin)
    (h : book.IsConsistent)
    (ds : List Declaration) :
    (book.declareAll none ds).IsTracked origin := by
  unfold IsTracked origins at hTracked ⊢
  rw [taggedRules_declareAll_of_ne h (by simp),
    choices_declareAll h]
  exact hTracked

variable {c : Choice}

/- After a registration the choice itself is registered. -/
theorem mem_origins_registerChoice_iff
    (h : book.IsConsistent) :
    origin ∈ (book.registerChoice c).origins ↔
      origin = c.origin ∨ origin ∈ book.origins := by
  rw [origins_registerChoice h, List.mem_append,
    List.mem_singleton, or_comm]
  by_cases hSame : origin = c.origin
  · simp [hSame]
  · simp only [hSame, false_or]
    exact mem_origins_removeChoice_iff hSame

/- A choice that is removed leaves no rules. -/
theorem IsTracked.taggedRules_removeChoice
    (h : book.IsTracked c.origin) :
    (book.removeChoice c.kind c.name).taggedRules c.origin =
      [] := by
  by_cases hThere : c.origin ∈ book.origins
  · rw [removeChoice_of_mem hThere]
    exact taggedRules_withdraw book c.origin
  · rw [removeChoice_of_notMem hThere]
    exact h.resolve_right hThere

/- It leaves those of others. -/
theorem taggedRules_removeChoice_of_ne
    (h : book.IsConsistent)
    (hOther : c.origin ≠ origin) :
    (book.removeChoice c.kind c.name).taggedRules origin =
      book.taggedRules origin := by
  by_cases hThere : c.origin ∈ book.origins
  · rw [removeChoice_of_mem hThere]
    exact taggedRules_withdraw_of_ne h hOther
  · rw [removeChoice_of_notMem hThere]

/- The rules of a choice are those that it declares anew. -/
theorem IsTracked.taggedRules_registerChoice
    (h : book.IsConsistent)
    (hTracked : book.IsTracked c.origin) :
    (book.registerChoice c).taggedRules c.origin =
      addedRules (some c.origin)
        (book.removeChoice c.kind c.name) c.declarations := by
  have hDeclared := taggedRules_declareAll
    (h.removeChoice c.kind c.name) c.origin c.declarations
  rw [hTracked.taggedRules_removeChoice] at hDeclared
  exact hDeclared

/- The rules of others stay. -/
theorem taggedRules_registerChoice_of_ne
    (h : book.IsConsistent)
    (hOther : c.origin ≠ origin) :
    (book.registerChoice c).taggedRules origin =
      book.taggedRules origin :=
  (taggedRules_declareAll_of_ne (h.removeChoice c.kind c.name)
    (fun hSame => hOther (Option.some.inj hSame))
    c.declarations).trans
      (taggedRules_removeChoice_of_ne h hOther)

end Rulebook

end CharSheet
