import CharSheet.Proofs.Choice.Tagged

/-
  Rulebooks that choices lead to.

  Choices are registered, registered again and removed in any
  order.  Each rule among their declarations is added with a
  number of its own, which later declarations go beyond.

  Main declarations:
    * `ChoiceCall`
    * `Rulebook.call`, `Rulebook.callAll`
    * `Rulebook.IsConsistent.callAll`
    * `Rulebook.additions`, `Rulebook.additionsAll`
    * `Rulebook.IsExtension`
-/

namespace CharSheet

/- What may be done to the choices of a rulebook. -/
inductive ChoiceCall where
  | register (c : Choice)
  | remove (kind : ChoiceKind) (name : String)

/- The rule that is declared for an owner, with a number. -/
def Declaration.ruleFor?
    (owner : Owner)
    (seq : Nat) : Declaration → Option Rule
  | .rule target source op formula =>
      some ⟨target, source, op, formula, owner, seq⟩
  | _ => none

namespace Rulebook

variable {book other : Rulebook}
variable {owner : Owner}

------------------------------------------------------------
-- Calls
------------------------------------------------------------

/- Register or remove a choice. -/
def call (book : Rulebook) : ChoiceCall → Rulebook
  | .register c => book.registerChoice c
  | .remove kind name => book.removeChoice kind name

/- Register and remove choices, one after another. -/
def callAll
    (book : Rulebook)
    (calls : List ChoiceCall) : Rulebook :=
  calls.foldl call book

theorem IsConsistent.call
    (h : book.IsConsistent)
    (c : ChoiceCall) :
    (book.call c).IsConsistent := by
  cases c with
  | register c => exact h.registerChoice c
  | remove kind name => exact h.removeChoice kind name

theorem IsConsistent.callAll
    (h : book.IsConsistent)
    (calls : List ChoiceCall) :
    (book.callAll calls).IsConsistent := by
  induction calls generalizing book with
  | nil => exact h
  | cons c calls ih => exact ih (h.call c)

------------------------------------------------------------
-- Additions
------------------------------------------------------------

/-
  The rules among declarations that are taken in one after
  another, each with the rule that it adds.
-/
def additions
    (owner : Owner) :
    Rulebook → List Declaration → List (Declaration × Rule)
  | _, [] => []
  | book, d :: ds =>
      ((d.ruleFor? owner book.nextSeq).map (d, ·)).toList ++
        additions owner (book.declare owner d) ds

theorem additions_cons
    (owner : Owner)
    (book : Rulebook)
    (d : Declaration)
    (ds : List Declaration) :
    additions owner book (d :: ds) =
      additions owner book [d] ++
        additions owner (book.declare owner d) ds := by
  simp [additions]

/- The rules that calls declare, with those that are added. -/
def additionsAll :
    Rulebook → List ChoiceCall → List (Declaration × Rule)
  | _, [] => []
  | book, .register c :: calls =>
      additions (some c.origin)
          (book.removeChoice c.kind c.name) c.declarations ++
        additionsAll (book.registerChoice c) calls
  | book, .remove kind name :: calls =>
      additionsAll (book.removeChoice kind name) calls

/- A rule that is added is made of what is declared. -/
theorem eq_rule_of_mem_additions
    {ds : List Declaration}
    {d : Declaration}
    {r : Rule}
    (h : (d, r) ∈ additions owner book ds) :
    d = .rule r.target r.source r.op r.formula := by
  induction ds generalizing book with
  | nil => cases h
  | cons e ds ih =>
      rcases List.mem_append.mp h with hFirst | hRest
      · rcases Option.map_eq_some_iff.mp
            (Option.mem_toList.mp hFirst) with
          ⟨s, hRule, hEq⟩
        cases hEq
        cases d with
        | rule target source op formula =>
            cases hRule
            rfl
        | _ => cases hRule
      · exact ih hRest

theorem eq_rule_of_mem_additionsAll
    {calls : List ChoiceCall}
    {d : Declaration}
    {r : Rule}
    (h : (d, r) ∈ additionsAll book calls) :
    d = .rule r.target r.source r.op r.formula := by
  induction calls generalizing book with
  | nil => cases h
  | cons c calls ih =>
      cases c with
      | register c =>
          rcases List.mem_append.mp h with hFirst | hRest
          · exact eq_rule_of_mem_additions hFirst
          · exact ih hRest
      | remove kind name => exact ih h

/-
  The second rulebook has more rules at most, whose numbers
  are later than those of the first one.
-/
structure IsExtension (book other : Rulebook) : Prop where
  rules : ∃ added, other.rules = book.rules ++ added ∧
    ∀ r ∈ added, book.nextSeq ≤ r.seq
  next : book.nextSeq ≤ other.nextSeq

theorem isExtension_of_eq
    (hRules : other.rules = book.rules)
    (hNext : other.nextSeq = book.nextSeq) :
    book.IsExtension other where
  rules := ⟨[], by rw [hRules, List.append_nil], nofun⟩
  next := Nat.le_of_eq hNext.symm

theorem isExtension_of_cons
    {r : Rule}
    (hRules : other.rules = book.rules ++ [r])
    (hSeq : r.seq = book.nextSeq)
    (hNext : other.nextSeq = book.nextSeq + 1) :
    book.IsExtension other where
  rules := by
    refine ⟨[r], hRules, ?_⟩
    intro s hs
    rw [List.mem_singleton.mp hs, hSeq]
  next := by omega

theorem IsExtension.trans
    {third : Rulebook}
    (h : book.IsExtension other)
    (hNext : other.IsExtension third) :
    book.IsExtension third where
  rules := by
    rcases h.rules with ⟨added, hRules, hSeq⟩
    rcases hNext.rules with ⟨later, hLater, hLaterSeq⟩
    refine ⟨added ++ later, ?_, ?_⟩
    · rw [hLater, hRules, List.append_assoc]
    · refine List.forall_mem_append.mpr ⟨hSeq, ?_⟩
      intro r hr
      exact Nat.le_trans h.next (hLaterSeq r hr)
  next := Nat.le_trans h.next hNext.next

/- Each step adds one rule at most. -/
theorem Step.isExtension
    (h : Step owner book other) :
    book.IsExtension other := by
  cases h with
  | rule => exact isExtension_of_cons rfl rfl rfl
  | grant => exact isExtension_of_cons rfl rfl rfl
  | allocation => exact isExtension_of_cons rfl rfl rfl
  | member => exact isExtension_of_cons rfl rfl rfl
  | _ => exact isExtension_of_eq rfl rfl

/- So declarations add rules with later numbers. -/
theorem isExtension_declare
    (h : book.IsConsistent)
    (owner : Owner)
    (d : Declaration) :
    book.IsExtension (book.declare owner d) := by
  have hSteps
      {other : Rulebook}
      (h : Steps owner book other) :
      book.IsExtension other := by
    induction h with
    | refl => exact isExtension_of_eq rfl rfl
    | tail _ hStep ih => exact ih.trans hStep.isExtension
  exact hSteps (steps_declare h owner d)

end Rulebook

end CharSheet
