import CharSheet.Proofs.Sheet.Snapshot

/-
  Which inputs an attribute is computed from.

  The closure of an attribute holds all that its rules read,
  what the rules of that read, and so on.  Two inputs that
  agree on the closure come to the same value, whether rules
  form cycles or not.

  Main declarations:
    * `Rulebook.Closure`
    * `Rulebook.IsClosed`
    * `Rulebook.IsClosed.getElem?_sheet`
    * `Rulebook.getElem?_sheet_eq_of_closure`
-/

namespace CharSheet

namespace Rulebook

variable {book : Rulebook}
variable {s t dict dict' : Store}
variable {key k : Key}

------------------------------------------------------------
-- Inputs
------------------------------------------------------------

/- What is no target is on the sheet as in the input. -/
theorem getElem?_sheet_of_not_isTarget
    (h : ¬ book.IsTarget key)
    (s : Store) :
    (book.sheet s)[key]? = s[key]? :=
  (isSnapshot_sheet book s).given key h

/- Without rules the sheet has only the inputs. -/
theorem sheet_eq_self
    (h : book.rules = [])
    (s : Store) :
    book.sheet s = s := by
  apply Std.ExtTreeMap.ext_getElem?
  intro key
  apply getElem?_sheet_of_not_isTarget
  unfold IsTarget
  rw [h]
  nofun

/- Dictionaries agree where their inputs and sheets do. -/
theorem IsDictionary.getElem?_congr
    (hDict : book.IsDictionary s (book.sheet s) key dict)
    (hDict' : book.IsDictionary t (book.sheet t) key dict')
    (hInput : s[k]? = t[k]?)
    (hSheet : ¬ book.IsPending key k →
      (book.sheet s)[k]? = (book.sheet t)[k]?) :
    dict[k]? = dict'[k]? := by
  by_cases hPending : book.IsPending key k
  · rw [hDict.pending k hPending, hDict'.pending k hPending,
      hInput]
  · rw [hDict.settled k hPending, hDict'.settled k hPending,
      hSheet hPending]

------------------------------------------------------------
-- Closed Sets
------------------------------------------------------------

/- All that the rules of a set of attributes read is in it. -/
def IsClosed (book : Rulebook) (inside : Key → Prop) : Prop :=
  ∀ r ∈ book.rules, inside r.target →
    ∀ k, r.Reads k → inside k

/-
  The least closed set with an attribute: what a rule of a
  member takes as its source, names, or finds by a pattern is
  a member as well.
-/
inductive Closure (book : Rulebook) (key : Key) : Key → Prop where
  | self : Closure book key key
  | source
      (r : Rule)
      (hRule : r ∈ book.rules)
      (hTarget : Closure book key r.target) :
      Closure book key r.source
  | named
      (r : Rule)
      (f : Formula)
      (k : Key)
      (hRule : r ∈ book.rules)
      (hTarget : Closure book key r.target)
      (hFormula : r.formula = some f)
      (hNamed : k ∈ f.dependencies) :
      Closure book key k
  | found
      (r : Rule)
      (f : Formula)
      (p : Pattern)
      (k : Key)
      (hRule : r ∈ book.rules)
      (hTarget : Closure book key r.target)
      (hFormula : r.formula = some f)
      (hPattern : p ∈ f.patterns)
      (hFound : p.matchesIn k = true) :
      Closure book key k

theorem isClosed_closure
    (book : Rulebook)
    (key : Key) :
    book.IsClosed (book.Closure key) := by
  intro r hRule hTarget k hReads
  rcases hReads with rfl | ⟨f, hFormula, hNamed |
    ⟨p, hPattern, hFound⟩⟩
  · exact .source r hRule hTarget
  · exact .named r f k hRule hTarget hFormula hNamed
  · exact .found r f p k hRule hTarget hFormula hPattern hFound

variable {inside : Key → Prop}

/- Each closed set with an attribute has its closure. -/
theorem IsClosed.of_closure
    (h : book.IsClosed inside)
    (hKey : inside key)
    (hIn : book.Closure key k) :
    inside k := by
  induction hIn with
  | self => exact hKey
  | source r hRule _ ih => exact h r hRule ih _ (Or.inl rfl)
  | named r f k hRule _ hFormula hNamed ih =>
      exact h r hRule ih k (Or.inr ⟨f, hFormula, Or.inl hNamed⟩)
  | found r f p k hRule _ hFormula hPattern hFound ih =>
      exact h r hRule ih k
        (Or.inr ⟨f, hFormula, Or.inr ⟨p, hPattern, hFound⟩⟩)

------------------------------------------------------------
-- Two Inputs
------------------------------------------------------------

section Agreement

variable (h : book.IsClosed inside)
variable (hAgree : ∀ k, inside k → s[k]? = t[k]?)

include h hAgree

/-
  An attribute of a closed set is the same on both sheets if
  so is all of the set that is computed before it.  What its
  rules read is before it, or pending, or no target at all.
-/
theorem IsClosed.getElem?_sheet_of_before
    (hInside : inside key)
    {before after : List Key}
    (hSplit : book.keysAlong book.graph.components =
      before ++ key :: after)
    (hBefore : ∀ k ∈ before, inside k →
      (book.sheet s)[k]? = (book.sheet t)[k]?) :
    (book.sheet s)[key]? = (book.sheet t)[key]? := by
  have hOrder := Graph.isEvaluationOrder_components book.graph
  have hTarget : book.IsTarget key := by
    rw [← mem_keysAlong_iff hOrder, hSplit]
    exact List.mem_append_right _ List.mem_cons_self
  rcases (isSnapshot_sheet book s).computed key hTarget with
    ⟨dict, hDict, hValue⟩
  rcases (isSnapshot_sheet book t).computed key hTarget with
    ⟨dict', hDict', hValue'⟩
  rw [hValue, hValue', hAgree key hInside]
  apply Rule.joinAll_congr
  intro r hRule k hReads
  rcases mem_rulesFor_iff.mp hRule with ⟨hDeclared, rfl⟩
  have hIn : inside k := h r hDeclared hInside k hReads
  apply hDict.getElem?_congr hDict' (hAgree k hIn)
  intro hSettled
  by_cases hComputed : book.IsTarget k
  · exact hBefore k
      (mem_before_of_reads hOrder hSplit hRule hReads hComputed
        hSettled) hIn
  · rw [getElem?_sheet_of_not_isTarget hComputed s,
      getElem?_sheet_of_not_isTarget hComputed t]
    exact hAgree k hIn

/- So it is for all that comes first in the order. -/
theorem IsClosed.getElem?_sheet_along
    (before after : List Key)
    (hSplit : book.keysAlong book.graph.components =
      before ++ after) :
    ∀ k ∈ before, inside k →
      (book.sheet s)[k]? = (book.sheet t)[k]? := by
  induction before using List.reverseRecOn
    generalizing after with
  | nil => simp
  | append_singleton before last ih =>
      have hSplit' :
          book.keysAlong book.graph.components =
            before ++ last :: after := by
        rw [hSplit]
        exact (List.append_cons before last after).symm
      have hBefore := ih (last :: after) hSplit'
      intro k hIn hInside
      rcases List.mem_append.mp hIn with hIn | hIn
      · exact hBefore k hIn hInside
      · rw [List.mem_singleton.mp hIn] at hInside ⊢
        exact h.getElem?_sheet_of_before hAgree hInside hSplit'
          hBefore

/- Inputs that agree on a closed set do so on their sheets. -/
theorem IsClosed.getElem?_sheet
    (hInside : inside key) :
    (book.sheet s)[key]? = (book.sheet t)[key]? := by
  have hOrder := Graph.isEvaluationOrder_components book.graph
  by_cases hTarget : book.IsTarget key
  · exact h.getElem?_sheet_along hAgree _ []
      (List.append_nil _).symm key
      ((mem_keysAlong_iff hOrder).mpr hTarget) hInside
  · rw [getElem?_sheet_of_not_isTarget hTarget s,
      getElem?_sheet_of_not_isTarget hTarget t]
    exact hAgree key hInside

end Agreement

/-
  An attribute is computed from its closure alone: two inputs
  that agree there, in presence and value, come to the same.
-/
theorem getElem?_sheet_eq_of_closure
    (book : Rulebook)
    (key : Key)
    (s t : Store)
    (hAgree : ∀ k, book.Closure key k → s[k]? = t[k]?) :
    (book.sheet s)[key]? = (book.sheet t)[key]? :=
  (isClosed_closure book key).getElem?_sheet hAgree .self

/-
  What is computed from a cycle does not tell on it: the cycle
  reads no more than itself, its gate, and what it gathers.
-/
theorem getElem?_sheet_eq_of_closure_cycle :
    let p : Pattern :=
      ⟨"ls", .sequence (.set (.single 'l')) (.set (.single 's'))⟩
    let book :=
      (Rulebook.empty .standard).declareAll none
        [.rule "a" "open" .gate none,
          .rule "a" "b" .add none,
          .rule "b" "a" .add
            (some ⟨"sum('ls')", .gather .sum p⟩),
          .rule "far" "a" .set none]
    let s : Store :=
      .ofList
        [("open", Value.number 1), ("levels.Bard", .number 3)]
    let t : Store := s.insert "far" (.number 7)
    (∀ k, book.Closure "a" k → s[k]? = t[k]?) ∧
      (book.sheet s)["a"]? = (book.sheet t)["a"]? := by
  intro p book s t
  have hClosed : book.IsClosed (· ≠ "far") := by
    intro r hRule hTarget k hReads
    have hRules : book.rules =
        [⟨"a", "open", .gate, none, none, 0⟩,
          ⟨"a", "b", .add, none, none, 1⟩,
          ⟨"b", "a", .add, some ⟨"sum('ls')", .gather .sum p⟩,
            none, 2⟩,
          ⟨"far", "a", .set, none, none, 3⟩] := rfl
    rw [hRules] at hRule
    simp only [List.mem_cons, List.not_mem_nil, or_false]
      at hRule
    rcases hRule with rfl | rfl | rfl | rfl
    · rcases hReads with rfl | ⟨f, hFormula, _⟩
      · decide
      · cases hFormula
    · rcases hReads with rfl | ⟨f, hFormula, _⟩
      · decide
      · cases hFormula
    · rcases hReads with rfl | ⟨f, hFormula, hNamed | hFound⟩
      · decide
      · cases hFormula
        cases hNamed
      · cases hFormula
        rcases hFound with ⟨q, hPattern, hFound⟩
        rintro rfl
        rw [List.mem_singleton.mp hPattern] at hFound
        revert hFound
        decide
    · exact absurd rfl hTarget
  have hAgree (k : Key) (hIn : book.Closure "a" k) :
      s[k]? = t[k]? := by
    have hFar : k ≠ "far" := hClosed.of_closure (by decide) hIn
    simp [t, Std.ExtTreeMap.getElem?_insert, hFar.symm]
  exact ⟨hAgree, getElem?_sheet_eq_of_closure book "a" s t hAgree⟩

end Rulebook

end CharSheet
