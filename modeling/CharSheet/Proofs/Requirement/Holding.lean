import CharSheet.Requirement
import Mathlib.Data.List.Basic

/-
  Requirements that hold on a sheet.

  A requirement is judged in three ways: by its tests, by the
  clauses that are unmet, and by the value of its expression.
  The expression gives back a value of the sheet and not a
  truth value, but it is truthy where the requirement is met,
  and it does not look at the source of a rule.

  Main declarations:
    * `Test.eval_toExpr`
    * `Clause.holds_toExpr`
    * `Requirement.holds_toExpr`
    * `Requirement.unmet_eq_nil_iff`
    * `Requirement.alternatives_ne_nil_of_ofText`
-/

namespace CharSheet

------------------------------------------------------------
-- Expressions
------------------------------------------------------------

section Join

variable {a b : Expr}
variable {es : List Expr}
variable {source : Option Value}
variable {sheet : Store}

/- An alternative gives back the first truthy value. -/
theorem holds_either :
    holds ((Expr.either a b).eval source sheet) =
      (holds (a.eval source sheet) ||
        holds (b.eval source sheet)) := by
  simp only [Expr.eval]
  cases hFirst : holds (a.eval source sheet) with
  | true => simp [hFirst]
  | false => simp

/- A conjunction gives back the first value that is not. -/
theorem holds_both :
    holds ((Expr.both a b).eval source sheet) =
      (holds (a.eval source sheet) &&
        holds (b.eval source sheet)) := by
  simp only [Expr.eval]
  cases hFirst : holds (a.eval source sheet) with
  | true => simp
  | false => simp [hFirst]

/- Joined alternatives hold if one of them holds. -/
theorem holds_joinExprs_either
    (h : es ≠ []) :
    holds ((joinExprs .either es).eval source sheet) =
      es.any fun e => holds (e.eval source sheet) := by
  have hFold (first : Expr) (rest : List Expr) :
      holds ((rest.foldl .either first).eval source sheet) =
        (first :: rest).any
          fun e => holds (e.eval source sheet) := by
    induction rest generalizing first with
    | nil => simp
    | cons e rest ih =>
        rw [List.foldl_cons, ih]
        simp only [List.any_cons, holds_either, Bool.or_assoc]
  cases es with
  | nil => exact absurd rfl h
  | cons first rest => exact hFold first rest

/- Joined conditions hold if all of them hold. -/
theorem holds_joinExprs_both :
    holds ((joinExprs .both es).eval source sheet) =
      es.all fun e => holds (e.eval source sheet) := by
  have hFold (first : Expr) (rest : List Expr) :
      holds ((rest.foldl .both first).eval source sheet) =
        (first :: rest).all
          fun e => holds (e.eval source sheet) := by
    induction rest generalizing first with
    | nil => simp
    | cons e rest ih =>
        rw [List.foldl_cons, ih]
        simp only [List.all_cons, holds_both, Bool.and_assoc]
  cases es with
  | nil => rfl
  | cons first rest => exact hFold first rest

/- Joined expressions gather what one of them gathers. -/
theorem mem_patterns_joinExprs_both
    {p : Pattern} :
    p ∈ (joinExprs .both es).patterns ↔
      ∃ e ∈ es, p ∈ e.patterns := by
  have hFold (first : Expr) (rest : List Expr) :
      p ∈ (rest.foldl .both first).patterns ↔
        ∃ e ∈ first :: rest, p ∈ e.patterns := by
    induction rest generalizing first with
    | nil => simp
    | cons e rest ih =>
        rw [List.foldl_cons, ih]
        simp [Expr.patterns, or_assoc]
  cases es with
  | nil => simp [joinExprs, Expr.patterns]
  | cons first rest => exact hFold first rest

end Join

------------------------------------------------------------
-- Tests and Clauses
------------------------------------------------------------

/- The expression of a test does not look at the source. -/
theorem Test.eval_toExpr
    (t : Test)
    (source : Option Value)
    (sheet : Store) :
    t.toExpr.eval source sheet = t.toExpr.eval none sheet := by
  rcases t with ⟨subject, comparison⟩
  have hSubject :
      subject.toExpr.eval source sheet =
        subject.toExpr.eval none sheet := by
    cases subject with
    | attr key => rfl
    | gather kind p => rfl
  match comparison with
  | none => exact hSubject
  | some (.relation r v) =>
      simp only [toExpr, Expr.eval, hSubject]
  | some (.match true _ p) =>
      simp only [toExpr, Expr.eval, hSubject]
  | some (.match false _ p) =>
      simp only [toExpr, Expr.eval, hSubject]

/- The expression of a clause holds if the clause does. -/
theorem Clause.holds_toExpr
    {c : Clause}
    (h : c.alternatives ≠ [])
    (source : Option Value)
    (sheet : Store) :
    CharSheet.holds (c.toExpr.eval source sheet) =
      c.holds sheet := by
  have hSome : c.alternatives.map Test.toExpr ≠ [] := by
    simpa using h
  unfold toExpr
  rw [holds_joinExprs_either hSome, List.any_map]
  unfold holds
  congr 1
  funext t
  simp only [Function.comp_apply, t.eval_toExpr source,
    Test.holds]

------------------------------------------------------------
-- Requirements
------------------------------------------------------------

namespace Requirement

variable {r : Requirement}

/- The expression holds if the requirement is met. -/
theorem holds_toExpr
    (h : ∀ c ∈ r.clauses, c.alternatives ≠ [])
    (source : Option Value)
    (sheet : Store) :
    holds (r.toExpr.eval source sheet) = r.isMet sheet := by
  unfold toExpr isMet
  rw [holds_joinExprs_both, List.all_map]
  rw [Bool.eq_iff_iff, List.all_eq_true, List.all_eq_true]
  apply forall₂_congr
  intro c hc
  rw [Function.comp_apply,
    Clause.holds_toExpr (h c hc) source sheet]

/- A requirement is met if no clause is unmet. -/
theorem unmet_eq_nil_iff
    {sheet : Store} :
    r.unmet sheet = [] ↔ r.isMet sheet = true := by
  simp [unmet, isMet]

/- The expression gathers what its clauses gather. -/
theorem mem_patterns_toExpr
    {c : Clause}
    {p : Pattern}
    (hc : c ∈ r.clauses)
    (hp : p ∈ c.toExpr.patterns) :
    p ∈ r.toExpr.patterns :=
  mem_patterns_joinExprs_both.mpr
    ⟨c.toExpr, List.mem_map_of_mem hc, hp⟩

end Requirement

------------------------------------------------------------
-- Requirements That Are Read
------------------------------------------------------------

/- What is read entry by entry is what the entries are. -/
theorem map_eq_of_mapM_eq_ok
    {α β ε : Type}
    {f : α → Except ε β}
    {xs : List α}
    {ys : List β}
    (h : xs.mapM f = .ok ys) :
    xs.map f = ys.map .ok := by
  induction xs generalizing ys with
  | nil =>
      cases h
      rfl
  | cons x xs ih =>
      rw [List.mapM_cons] at h
      cases hHead : f x with
      | error e =>
          rw [hHead] at h
          cases h
      | ok y =>
          cases hTail : xs.mapM f with
          | error e =>
              rw [hHead, hTail] at h
              cases h
          | ok rest =>
              rw [hHead, hTail] at h
              cases h
              rw [List.map_cons, List.map_cons, hHead, ih hTail]

/- A text has at least one part. -/
theorem Text.splitFrom_ne_nil
    (separator : List Char)
    (quote : Option Char)
    (skip : Nat)
    (cs : List Char) :
    splitFrom separator quote skip cs ≠ [] := by
  have hFirst (c : Char) (parts : List (List Char)) :
      consFirst c parts ≠ [] := by
    cases parts with
    | nil => exact List.cons_ne_nil _ _
    | cons part parts => exact List.cons_ne_nil _ _
  fun_induction splitFrom separator quote skip cs with
  | case1 => exact List.cons_ne_nil _ _
  | case2 quote skip c cs ih => exact ih
  | case3 q c cs ih => exact hFirst c _
  | case4 c cs hQuote ih => exact hFirst c _
  | case5 c cs hQuote hBegins ih => exact List.cons_ne_nil _ _
  | case6 c cs hQuote hBegins ih => exact hFirst c _

/- A clause that is read has a test. -/
theorem Clause.alternatives_ne_nil_of_ofChars
    {cs : List Char}
    {c : Clause}
    (h : Clause.ofChars cs = .ok c) :
    c.alternatives ≠ [] := by
  simp only [Clause.ofChars] at h
  cases hTests :
      (Text.splitOutsideQuotes ['|', '|'] cs).mapM
        Test.ofChars with
  | error fault =>
      rw [hTests] at h
      cases h
  | ok tests =>
      rw [hTests] at h
      cases h
      have hRead := map_eq_of_mapM_eq_ok hTests
      rintro rfl
      rw [List.map_nil, List.map_eq_nil_iff] at hRead
      exact Text.splitFrom_ne_nil _ _ _ _ hRead

/- Each clause of a requirement that is read has a test. -/
theorem Requirement.alternatives_ne_nil_of_ofText
    {text : String}
    {r : Requirement}
    (h : Requirement.ofText text = .ok r) :
    ∀ c ∈ r.clauses, c.alternatives ≠ [] := by
  unfold Requirement.ofText at h
  cases hClauses :
      (clauseTexts text.toList).mapM Clause.ofChars with
  | error fault =>
      rw [hClauses] at h
      cases h
  | ok clauses =>
      rw [hClauses] at h
      have hSame : r.clauses = clauses := by
        cases clauses with
        | nil => cases h
        | cons c clauses =>
            cases h
            rfl
      intro c hc
      rw [hSame] at hc
      have hRead :
          Except.ok c ∈
            (clauseTexts text.toList).map Clause.ofChars := by
        rw [map_eq_of_mapM_eq_ok hClauses]
        exact List.mem_map_of_mem hc
      rcases List.mem_map.mp hRead with ⟨cs, _, hOk⟩
      exact Clause.alternatives_ne_nil_of_ofChars hOk

end CharSheet
