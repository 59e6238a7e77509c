import CharSheet.Rule
import Mathlib

/-
  What formulas and rules depend on.

  The value of a formula is determined by its source, by the
  attributes that it names and by the attributes that match
  one of its patterns.  No other attribute is looked at.

  Main declarations:
    * `Store.AgreeOn`
    * `Gather.eval_congr`
    * `Expr.eval_congr`
    * `Formula.eval_eq_of_agreeOn`
    * `Rule.Reads`
    * `Rule.joinAll_congr`
-/

namespace CharSheet

------------------------------------------------------------
-- Agreement
------------------------------------------------------------

/-
  Two stores agree on attributes that are listed and on those
  that match one of a list of patterns.
-/
def Store.AgreeOn
    (s t : Store)
    (keys : List Key)
    (patterns : List Pattern) : Prop :=
  (∀ key ∈ keys, s[key]? = t[key]?) ∧
    ∀ p ∈ patterns, ∀ key : Key, p.matchesIn key = true →
      s[key]? = t[key]?

namespace Store.AgreeOn

variable {s t : Store}
variable {keys keys' : List Key}
variable {patterns patterns' : List Pattern}

/- Agreement on two parts is agreement on each of them. -/
theorem append_iff :
    AgreeOn s t (keys ++ keys') (patterns ++ patterns') ↔
      AgreeOn s t keys patterns ∧
        AgreeOn s t keys' patterns' := by
  simp only [AgreeOn, List.forall_mem_append]
  constructor
  · intro hAgree
    rcases hAgree with ⟨⟨hKeys, hKeys'⟩, hPatterns, hPatterns'⟩
    exact ⟨⟨hKeys, hPatterns⟩, hKeys', hPatterns'⟩
  · intro hAgree
    rcases hAgree with ⟨⟨hKeys, hPatterns⟩, hKeys', hPatterns'⟩
    exact ⟨⟨hKeys, hKeys'⟩, hPatterns, hPatterns'⟩

end Store.AgreeOn

------------------------------------------------------------
-- Expressions
------------------------------------------------------------

/- A store may be cut down to what a list is made of. -/
theorem Store.filterMap_filter
    {β : Type}
    (s : Store)
    (keeps : Key → Bool)
    (f : Key × Value → Option β)
    (hRest : ∀ key v, keeps key = false → f (key, v) = none) :
    s.toList.filterMap f =
      (s.filter fun key _ => keeps key).toList.filterMap f := by
  rw [Std.ExtTreeMap.toList_filter, List.filterMap_filter]
  apply List.filterMap_congr
  intro entry _
  cases hKeeps : keeps entry.1 with
  | true => simp
  | false => simp [hRest entry.1 entry.2 hKeeps]

/-
  What is made of the attributes that match a pattern does
  not depend on others.  The two stores, cut down to matching
  attributes, are the same store.
-/
theorem Gather.eval_congr
    (kind : Gather)
    {p : Pattern}
    {s t : Store}
    (h :
      ∀ key : Key, p.matchesIn key = true →
        s[key]? = t[key]?) :
    kind.eval p s = kind.eval p t := by
  have hSame :
      (s.filter fun key _ => p.matchesIn key) =
        t.filter fun key _ => p.matchesIn key := by
    apply Std.ExtTreeMap.ext_getElem?
    intro key
    rw [Std.ExtTreeMap.getElem?_filter',
      Std.ExtTreeMap.getElem?_filter']
    by_cases hMatches : p.matchesIn key = true
    · rw [h key hMatches]
    · simp [hMatches]
  simp only [Gather.eval]
  rw [Store.filterMap_filter s p.matchesIn,
    Store.filterMap_filter t p.matchesIn, hSame]
  · intro key v hRest
    simp [hRest]
  · intro key v hRest
    simp [hRest]

namespace Expr

variable {source : Option Value}
variable {s t : Store}

mutual

/-
  An expression has the same value on stores that agree on
  what it names and gathers.
-/
theorem eval_congr :
    (e : Expr) → Store.AgreeOn s t e.keys e.patterns →
      e.eval source s = e.eval source t
  | .literal _, _ => rfl
  | .absent, _ => rfl
  | .source, _ => rfl
  | .attr key, h => by
      simp only [eval]
      exact h.1 key (List.mem_singleton_self key)
  | .unary op e, h => by
      simp only [eval, eval_congr e h]
  | .binary op a b, h => by
      have hParts := Store.AgreeOn.append_iff.mp h
      simp only [eval, eval_congr a hParts.1,
        eval_congr b hParts.2]
  | .both a b, h => by
      have hParts := Store.AgreeOn.append_iff.mp h
      simp only [eval, eval_congr a hParts.1,
        eval_congr b hParts.2]
  | .either a b, h => by
      have hParts := Store.AgreeOn.append_iff.mp h
      simp only [eval, eval_congr a hParts.1,
        eval_congr b hParts.2]
  | .choose c a b, h => by
      have hParts := Store.AgreeOn.append_iff.mp h
      have hFront := Store.AgreeOn.append_iff.mp hParts.1
      simp only [eval, eval_congr c hFront.1,
        eval_congr a hFront.2, eval_congr b hParts.2]
  | .call f args, h => by
      simp only [eval, evalAll_congr args h]
  | .occurrences e p, h => by
      simp only [eval, eval_congr e h]
  | .gather kind p, h => by
      simp only [eval]
      exact kind.eval_congr
        (h.2 p (List.mem_singleton_self p))

/- The same of a list of expressions. -/
theorem evalAll_congr :
    (es : List Expr) →
      Store.AgreeOn s t (keysOfAll es) (patternsOfAll es) →
        evalAll source s es = evalAll source t es
  | [], _ => rfl
  | e :: es, h => by
      have hParts := Store.AgreeOn.append_iff.mp h
      simp only [evalAll, eval_congr e hParts.1,
        evalAll_congr es hParts.2]

end

end Expr

/-
  Stores that agree on the dependencies of a formula agree on
  all that its expression names.
-/
theorem Formula.agreeOn_expr
    {f : Formula}
    {s t : Store}
    (h : Store.AgreeOn s t f.dependencies f.patterns) :
    Store.AgreeOn s t f.expr.keys f.expr.patterns := by
  refine ⟨?_, h.2⟩
  intro key hKey
  exact h.1 key (List.mem_eraseDups.mpr hKey)

/-
  A formula has the same value on stores that agree on its
  dependencies and on what its patterns match.
-/
theorem Formula.eval_eq_of_agreeOn
    (f : Formula)
    {s t : Store}
    (h : Store.AgreeOn s t f.dependencies f.patterns)
    (source : Option Value) :
    f.eval source s = f.eval source t :=
  Expr.eval_congr f.expr (Formula.agreeOn_expr h)

/-
  A formula that gathers the levels of classes does not tell
  of the level that is their sum.
-/
theorem Formula.eval_eq_of_agreeOn_levels :
    let p : Pattern :=
      ⟨"ls", .sequence (.set (.single 'l')) (.set (.single 's'))⟩
    let f : Formula :=
      ⟨"sum('ls') * dict['bonus']",
        .binary .mul (.gather .sum p) (.attr "bonus")⟩
    let s : Store :=
      .ofList
        [("bonus", Value.number 2), ("levels.Bard", .number 3)]
    let t : Store := s.insert "level" (.number 3)
    Formula.ofText f.text = .ok f ∧
      Store.AgreeOn s t f.dependencies f.patterns ∧
        ∀ source, f.eval source s = f.eval source t := by
  intro p f s t
  have hElse (key : Key) (hKey : key ≠ "level") :
      s[key]? = t[key]? := by
    simp [t, Std.ExtTreeMap.getElem?_insert, hKey.symm]
  have hAgree : Store.AgreeOn s t f.dependencies f.patterns := by
    constructor
    · intro key hKey
      have hBonus : key = "bonus" := List.mem_singleton.mp hKey
      exact hElse key (by rw [hBonus]; decide)
    · intro q hPattern key hMatches
      have hOnly : q = p := List.mem_singleton.mp hPattern
      apply hElse
      intro hLevel
      rw [hOnly, hLevel] at hMatches
      have hNot : p.matchesIn "level" = false := by decide
      rw [hNot] at hMatches
      cases hMatches
  have hText : Formula.ofText f.text = .ok f := by cbv
  exact ⟨hText, hAgree, f.eval_eq_of_agreeOn hAgree⟩

------------------------------------------------------------
-- Rules
------------------------------------------------------------

namespace Rule

/-
  A rule reads an attribute: its source, or one that its
  formula names or gathers.
-/
def Reads (r : Rule) (key : Key) : Prop :=
  key = r.source ∨
    ∃ f, r.formula = some f ∧
      (key ∈ f.dependencies ∨
        ∃ p ∈ f.patterns, p.matchesIn key = true)

/- A rule contributes the same where it reads the same. -/
theorem contribution_congr
    {r : Rule}
    {s t : Store}
    (h : ∀ key, r.Reads key → s[key]? = t[key]?) :
    r.contribution s = r.contribution t := by
  have hSource : s[r.source]? = t[r.source]? :=
    h r.source (Or.inl rfl)
  unfold contribution
  rw [hSource]
  cases hValue : t[r.source]? with
  | none => rfl
  | some v =>
      cases hFormula : r.formula with
      | none => rfl
      | some f =>
          apply f.expr.eval_congr
          apply Formula.agreeOn_expr
          constructor
          · intro key hKey
            exact h key (Or.inr ⟨f, hFormula, Or.inl hKey⟩)
          · intro p hPattern key hMatches
            exact h key
              (Or.inr
                ⟨f, hFormula, Or.inr ⟨p, hPattern, hMatches⟩⟩)

/- Rules that contribute the same come to the same value. -/
theorem joinAll_of_contribution_eq
    {s t : Store}
    {rules : List Rule}
    (h : ∀ r ∈ rules, r.contribution s = r.contribution t)
    (v : Option Value) :
    joinAll s rules v = joinAll t rules v := by
  induction rules generalizing v with
  | nil => rfl
  | cons r rules ih =>
      have hRest := ih fun r' hr =>
        h r' (List.mem_cons_of_mem r hr)
      simp only [joinAll, h r List.mem_cons_self, hRest]

/-
  Rules come to the same value on stores that agree on all
  that they read.
-/
theorem joinAll_congr
    {s t : Store}
    (rules : List Rule)
    (v : Option Value)
    (h :
      ∀ r ∈ rules, ∀ key, r.Reads key → s[key]? = t[key]?) :
    joinAll s rules v = joinAll t rules v :=
  joinAll_of_contribution_eq
    (fun r hr => contribution_congr (h r hr)) v

end Rule

end CharSheet
