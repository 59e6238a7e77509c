import CharSheet.Proofs.Sheet.Counting
import CharSheet.Proofs.Sheet.Influence

/-
  What is added up for an attribute.

  The value of an attribute whose rules only open it, set it
  and add to it is the sum of some terms.  The sum is exact as
  long as the terms are integers and can be counted.  A rule
  that adds another attribute as it is gives that term.

  Main declarations:
    * `Value.integer?`, `Value.count`
    * `Value.AreExact`
    * `Rulebook.terms`
    * `Rulebook.OnlyAdds`
    * `Rulebook.getElem?_sheet_of_onlyAdds`
    * `Rulebook.exists_terms_split`
    * `Rulebook.IsFlat`
-/

namespace CharSheet

------------------------------------------------------------
-- Integers
------------------------------------------------------------

namespace Value

/- The integer that the number of a value is. -/
def integer? (v : Value) : Option Int :=
  v.number?.bind Number.integer?

/- What a value counts for. -/
def count (v : Value) : Int :=
  v.integer?.getD 0

variable {v w : Value}
variable {vs ws : List Value}
variable {i j : Int}

/- What is not truthy counts for nothing. -/
theorem count_of_not_truthy
    (h : v.truthy = false) :
    v.count = 0 := by
  cases v with
  | bool b =>
      obtain rfl : b = false := h
      rfl
  | number x =>
      cases x with
      | nan negative => rfl
      | infinite negative => cases h
      | negZero => rfl
      | finite d =>
          have hZero : d = 0 := by simpa [truthy,
            Number.isZero, Number.isNaN] using h
          subst hZero
          rfl
  | text s =>
      have hEmpty : s = "" := by simpa [truthy] using h
      subst hEmpty
      rfl

/- The sum of two integers is their sum as numbers. -/
theorem exists_combine_add
    (hv : v.integer? = some i)
    (hw : w.integer? = some j)
    (h : i.natAbs + j.natAbs ≤ Number.countLimit) :
    ∃ u, Operator.add.combine (some v) w = some u ∧
      u.integer? = some (i + j) := by
  rcases Option.bind_eq_some_iff.mp hv with ⟨x, hx, hi⟩
  rcases Option.bind_eq_some_iff.mp hw with ⟨y, hy, hj⟩
  have hSum := Number.integer?_add hi hj (by omega)
  have hWord (u : Value) (z : Number)
      (hNumber : u.number? = some z) : u.isWord = false := by
    cases u <;> simp [isWord, hNumber]
  have hNaN : (x.add y).isNaN = false := by
    rcases Number.exists_ofWhole_eq hSum with ⟨a, hEq, -⟩
    rw [hEq]
    exact Number.isNaN_ofWhole a
  refine ⟨.number (x.add y), ?_, ?_⟩
  · simp [Operator.combine, plus?, hWord v x hx, hWord w y hy,
      hx, hy]
  · simp [integer?, number?, hNaN, hSum]

------------------------------------------------------------
-- Sums
------------------------------------------------------------

/- The sum of what values count for. -/
def total (vs : List Value) : Int :=
  (vs.map count).sum

/- The sum of the sizes of what values count for. -/
def extent (vs : List Value) : Nat :=
  (vs.map fun v => v.count.natAbs).sum

theorem total_append (vs ws : List Value) :
    total (vs ++ ws) = total vs + total ws := by
  simp [total]

theorem extent_append (vs ws : List Value) :
    extent (vs ++ ws) = extent vs + extent ws := by
  simp [extent]

theorem natAbs_total_le (vs : List Value) :
    (total vs).natAbs ≤ extent vs := by
  induction vs with
  | nil => exact Nat.le_refl 0
  | cons v vs ih =>
      have hFirst := Int.natAbs_add_le v.count (total vs)
      simp only [total, extent, List.map_cons,
        List.sum_cons] at ih hFirst ⊢
      omega

/-
  Values whose numbers are integers, and that can be counted
  exactly whatever their signs.
-/
structure AreExact (vs : List Value) : Prop where
  integer : ∀ v ∈ vs, v.integer?.isSome = true
  counted : extent vs ≤ Number.countLimit

theorem exists_combineAll_add
    (hv : v.integer? = some i)
    (hAll : ∀ w ∈ vs, w.integer?.isSome = true)
    (h : i.natAbs + extent vs ≤ Number.countLimit) :
    ∃ u, Operator.add.combineAll (some v) vs = some u ∧
      u.integer? = some (i + total vs) := by
  induction vs generalizing v i with
  | nil => exact ⟨v, rfl, by simpa [total] using hv⟩
  | cons w vs ih =>
      rcases Option.isSome_iff_exists.mp (hAll w
          List.mem_cons_self) with
        ⟨j, hw⟩
      have hCount : w.count = j := by simp [count, hw]
      have hRest := Int.natAbs_add_le i j
      simp only [extent, List.map_cons, List.sum_cons,
        hCount] at h ih
      rcases exists_combine_add hv hw (by omega) with ⟨u, hSum, hu⟩
      rcases ih hu (fun x hx => hAll x (List.mem_cons_of_mem w hx))
          (by omega) with
        ⟨sum, hLast, hTotal⟩
      refine ⟨sum, ?_, ?_⟩
      · rw [Operator.combineAll, List.foldl_cons, hSum]
        exact hLast
      · rw [hTotal, total, total, List.map_cons, List.sum_cons,
          hCount, Int.add_assoc]

/- Exact values are added up to what they count for. -/
theorem AreExact.combineAll
    (h : AreExact vs)
    (hSum : Operator.add.combineAll none vs = some v) :
    v.integer? = some (total vs) := by
  cases vs with
  | nil => cases hSum
  | cons w vs =>
      rcases Option.isSome_iff_exists.mp (h.integer w
          List.mem_cons_self) with
        ⟨i, hw⟩
      have hCount : w.count = i := by simp [count, hw]
      have hCounted := h.counted
      rw [extent, List.map_cons, List.sum_cons,
        hCount] at hCounted
      rcases exists_combineAll_add hw (fun x hx => h.integer x
          (List.mem_cons_of_mem w hx)) hCounted with
        ⟨u, hAll, hu⟩
      have hSame : some u = some v := hAll.symm.trans hSum
      rw [← Option.some.inj hSame, hu, total, total,
        List.map_cons, List.sum_cons, hCount]

end Value

------------------------------------------------------------
-- Joining
------------------------------------------------------------

namespace Rule

/- The last rules join what the first ones leave, if any. -/
theorem joinAll_append_cases
    (s : Store)
    (rules last : List Rule)
    (v : Option Value) :
    joinAll s (rules ++ last) v = none ∨
      joinAll s (rules ++ last) v =
        joinAll s last (joinAll s rules v) := by
  induction rules generalizing v with
  | nil => exact .inr rfl
  | cons r rules ih =>
      simp only [List.cons_append, joinAll]
      split
      · split
        · exact ih v
        · exact .inl rfl
      · cases r.contribution s with
        | none => exact ih v
        | some c => exact ih _

end Rule

------------------------------------------------------------
-- Terms
------------------------------------------------------------

namespace Rulebook

/-
  What is added up for an attribute: what is left of its input
  once it is opened and set, and what its rules add.
-/
def terms
    (book : Rulebook)
    (input dict : Store)
    (key : Key) : List Value :=
  (Rule.joinAll dict
    (book.rulesOf key .gate ++ book.rulesOf key .set)
      input[key]?).toList ++
    Rule.contributions dict (book.rulesOf key .add)

/- The rules of an attribute only open it, set it and add. -/
def OnlyAdds (book : Rulebook) (key : Key) : Prop :=
  ∀ r ∈ book.rules, r.target = key →
    r.op = .gate ∨ r.op = .set ∨ r.op = .add

variable {book : Rulebook}
variable {key note : Key}
variable {s t dict dict' : Store}

/- There is one dictionary of an attribute. -/
theorem IsDictionary.eq
    {input snapshot : Store}
    (h : book.IsDictionary input snapshot key dict)
    (h' : book.IsDictionary input snapshot key dict') :
    dict = dict' := by
  apply Std.ExtTreeMap.ext_getElem?
  intro other
  by_cases hPending : book.IsPending key other
  · rw [h.pending other hPending, h'.pending other hPending]
  · rw [h.settled other hPending, h'.settled other hPending]

theorem rulesFor_of_onlyAdds
    (hOrdered : book.rules.Pairwise fun r s => r.seq < s.seq)
    (h : book.OnlyAdds key) :
    book.rulesFor key =
      (book.rulesOf key .gate ++ book.rulesOf key .set) ++
        book.rulesOf key .add := by
  have hNone (op : Operator)
      (hOp : op ≠ .gate ∧ op ≠ .set ∧ op ≠ .add) :
      book.rulesOf key op = [] := by
    apply List.eq_nil_iff_forall_not_mem.mpr
    intro r hr
    rcases mem_rulesOf_iff.mp hr with ⟨hRule, hTarget, rfl⟩
    rcases h r hRule hTarget with hGate | hSet | hAdd
    · exact hOp.1 hGate
    · exact hOp.2.1 hSet
    · exact hOp.2.2 hAdd
  rw [rulesFor_eq_flatMap hOrdered]
  simp [Operator.inOrder, hNone .multiply (by decide),
    hNone .max (by decide), hNone .min (by decide)]

/-
  An attribute to which rules only add is the sum of its terms,
  unless it is not open.
-/
theorem getElem?_sheet_of_onlyAdds
    (hOrdered : book.rules.Pairwise fun r s => r.seq < s.seq)
    (h : book.OnlyAdds key)
    (hTarget : book.IsTarget key)
    (hDict : book.IsDictionary s (book.sheet s) key dict) :
    (book.sheet s)[key]? = none ∨
      (book.sheet s)[key]? =
        Operator.add.combineAll none
          (book.terms s dict key) := by
  rcases (isSnapshot_sheet book s).computed key hTarget with
    ⟨dict', hDict', hValue⟩
  rw [hDict'.eq hDict, rulesFor_of_onlyAdds hOrdered h] at hValue
  have hStart (v : Option Value) (vs : List Value) :
      Operator.add.combineAll none (v.toList ++ vs) =
        Operator.add.combineAll v vs := by
    cases v <;> rfl
  rcases Rule.joinAll_append_cases dict
      (book.rulesOf key .gate ++ book.rulesOf key .set)
      (book.rulesOf key .add) s[key]? with hNone | hSome
  · exact .inl (hValue.trans hNone)
  · refine .inr (hValue.trans (hSome.trans ?_))
    rw [terms, hStart, joinAll_rulesOf Operator.noConfusion]

section Changes

variable (hAgree : s.AgreeOff t key)
variable (hDict : book.IsDictionary s (book.sheet s) note dict)
variable (hDict' : book.IsDictionary t (book.sheet t) note dict')
variable (hApart : note ≠ key)

include hAgree hDict hDict'

theorem contributions_of_agreeOff
    {rules : List Rule}
    (h : ∀ r ∈ rules, ¬ book.Touches key r) :
    Rule.contributions dict rules =
      Rule.contributions dict' rules := by
  apply List.filterMap_congr
  intro r hr
  exact contribution_of_agreeOff hAgree hDict hDict' (h r hr)

include hApart

/- What opens and sets an attribute leaves the same of it. -/
theorem opening_of_agreeOff
    {rules : List Rule}
    (h : ∀ r ∈ rules, ¬ book.Touches key r) :
    Rule.joinAll dict rules s[note]? =
      Rule.joinAll dict' rules t[note]? := by
  rw [hAgree note hApart]
  apply Rule.joinAll_of_contribution_eq
  intro r hr
  exact contribution_of_agreeOff hAgree hDict hDict' (h r hr)

/- The terms are the same if no rule is touched. -/
theorem terms_of_agreeOff
    (h : ∀ r ∈ book.rules, r.target = note →
      ¬ book.Touches key r) :
    book.terms s dict note = book.terms t dict' note := by
  have hNone (op : Operator) :
      ∀ r ∈ book.rulesOf note op, ¬ book.Touches key r := by
    intro r hr
    rcases mem_rulesOf_iff.mp hr with ⟨hRule, hTarget, -⟩
    exact h r hRule hTarget
  rw [terms, terms,
    opening_of_agreeOff hAgree hDict hDict' hApart
      (List.forall_mem_append.mpr ⟨hNone .gate, hNone .set⟩),
    contributions_of_agreeOff hAgree hDict hDict' (hNone .add)]

end Changes

/- A rule is found once among those of one kind. -/
theorem exists_rulesOf_split
    (hOrdered : book.rules.Pairwise fun r s => r.seq < s.seq)
    {op : Operator}
    {r : Rule}
    (hRule : r ∈ book.rulesOf note op) :
    ∃ before after,
      book.rulesOf note op = before ++ r :: after ∧
        ∀ r' ∈ before ++ after, r' ≠ r := by
  rcases List.append_of_mem hRule with ⟨before, after, hSplit⟩
  have hDistinct : (book.rulesOf note op).Nodup := by
    refine (hOrdered.filter _).imp ?_
    intro a b hLt hEq
    rw [hEq] at hLt
    exact Nat.lt_irrefl _ hLt
  rw [hSplit, List.nodup_middle, List.nodup_cons] at hDistinct
  refine ⟨before, after, hSplit, ?_⟩
  intro r' hr hEq
  rw [hEq] at hr
  exact hDistinct.1 hr

/- A rule that adds an input as it is contributes that input. -/
theorem contribution_of_input
    {r : Rule}
    (hFormula : r.formula = none)
    (hInput : ¬ book.IsTarget r.source)
    (hNote : book.IsTarget note)
    (hDict : book.IsDictionary s (book.sheet s) note dict) :
    r.contribution dict = s[r.source]? := by
  have hHere := hDict.getElem?_of_not_isTarget hInput hNote
  unfold Rule.contribution
  rw [hHere, hFormula]
  cases s[r.source]? <;> rfl

/-
  If only one rule is touched, and it adds the attribute that
  changes as it is, only that term changes.
-/
theorem exists_terms_split
    (hOrdered : book.rules.Pairwise fun r s => r.seq < s.seq)
    {r : Rule}
    (hRule : r ∈ book.rulesOf note .add)
    (hSource : r.source = key)
    (hFormula : r.formula = none)
    (hInput : ¬ book.IsTarget key)
    (hOnly : ∀ r' ∈ book.rules, r'.target = note →
      book.Touches key r' → r' = r)
    (s : Store) :
    ∃ front back, ∀ t dict, s.AgreeOff t key →
      book.IsDictionary t (book.sheet t) note dict →
        book.terms t dict note =
          front ++ t[key]?.toList ++ back := by
  subst hSource
  rcases mem_rulesOf_iff.mp hRule with ⟨hDeclared, hTarget, hAdd⟩
  have hNote : book.IsTarget note := ⟨r, hDeclared, hTarget⟩
  have hApart : note ≠ r.source := fun hEq =>
    hInput (hEq ▸ hNote)
  have hNone {op : Operator} {r' : Rule}
      (hr : r' ∈ book.rulesOf note op) (hNe : r' ≠ r) :
      ¬ book.Touches r.source r' := by
    rcases mem_rulesOf_iff.mp hr with ⟨hDeclared', hTarget', -⟩
    exact fun hTouches =>
      hNe (hOnly r' hDeclared' hTarget' hTouches)
  have hOther (op : Operator) (hOp : op ≠ .add) :
      ∀ r' ∈ book.rulesOf note op,
        ¬ book.Touches r.source r' := by
    intro r' hr
    apply hNone hr
    intro hEq
    rw [← (mem_rulesOf_iff.mp hr).2.2, hEq] at hOp
    exact hOp hAdd
  rcases exists_rulesOf_split hOrdered hRule with
    ⟨before, after, hSplit, hElse⟩
  have hRest :
      ∀ r' ∈ before ++ after, ¬ book.Touches r.source r' := by
    intro r' hr
    refine @hNone .add r' ?_ (hElse r' hr)
    rw [hSplit]
    simp only [List.mem_append, List.mem_cons] at hr ⊢
    tauto
  rcases List.forall_mem_append.mp hRest with ⟨hBefore, hAfter⟩
  rcases exists_isDictionary book s (book.sheet s) note with
    ⟨dict, hDict⟩
  refine ⟨(Rule.joinAll dict
      (book.rulesOf note .gate ++ book.rulesOf note .set)
        s[note]?).toList ++ Rule.contributions dict before,
    Rule.contributions dict after, ?_⟩
  intro t dict' hAgree hDict'
  have hTerm :=
    contribution_of_input hFormula hInput hNote hDict'
  rw [terms, hSplit,
    opening_of_agreeOff hAgree hDict hDict' hApart
      (List.forall_mem_append.mpr
        ⟨hOther .gate nofun, hOther .set nofun⟩),
    contributions_of_agreeOff hAgree hDict hDict' hBefore,
    contributions_of_agreeOff hAgree hDict hDict' hAfter]
  unfold Rule.contributions
  rw [List.filterMap_append, List.filterMap_cons, hTerm]
  cases t[r.source]? <;> simp

------------------------------------------------------------
-- Flat Rulebooks
------------------------------------------------------------

/- Rules only read inputs, and each of them by its name. -/
def IsFlat (book : Rulebook) : Prop :=
  ∀ r ∈ book.rules, ¬ book.IsTarget r.source ∧
    ∀ f ∈ r.formula, f.patterns = [] ∧
      ∀ key ∈ f.dependencies, ¬ book.IsTarget key

section Flat

variable (hFlat : book.IsFlat)

include hFlat

theorem IsFlat.contribution_eq
    (hDict : book.IsDictionary s (book.sheet s) key dict)
    {r : Rule}
    (hRule : r ∈ book.rules) :
    r.contribution dict = r.contribution s := by
  rcases hFlat r hRule with ⟨hSource, hFormula⟩
  apply Rule.contribution_congr
  intro other hReads
  have hInput : ¬ book.IsTarget other := by
    rcases hReads with rfl | ⟨f, hSome, hNamed | hFound⟩
    · exact hSource
    · exact (hFormula f hSome).2 other hNamed
    · rcases hFound with ⟨p, hp, _⟩
      rw [(hFormula f hSome).1] at hp
      cases hp
  by_cases hPending : book.IsPending key other
  · exact hDict.pending _ hPending
  · rw [hDict.settled _ hPending]
    exact getElem?_sheet_of_not_isTarget hInput s

/- What is added up can be told from the input. -/
theorem IsFlat.terms_eq
    (hDict : book.IsDictionary s (book.sheet s) key dict) :
    book.terms s dict key = book.terms s s key := by
  have hSame (op : Operator) :
      ∀ r ∈ book.rulesOf key op,
        r.contribution dict = r.contribution s := by
    intro r hr
    exact hFlat.contribution_eq hDict (mem_rulesOf_iff.mp hr).1
  have hOpening :=
    Rule.joinAll_of_contribution_eq
      (List.forall_mem_append.mpr ⟨hSame .gate, hSame .set⟩)
      s[key]?
  have hAdded :
      Rule.contributions dict (book.rulesOf key .add) =
        Rule.contributions s (book.rulesOf key .add) :=
    List.filterMap_congr (hSame .add)
  rw [terms, terms, hOpening, hAdded]

/- So can the sheet. -/
theorem IsFlat.getElem?_sheet
    (hOrdered : book.rules.Pairwise fun r s => r.seq < s.seq)
    (hTarget : book.IsTarget key)
    (s : Store) :
    (book.sheet s)[key]? =
      Rule.joinAll s
        (Operator.inOrder.flatMap (book.rulesOf key))
        s[key]? := by
  rcases (isSnapshot_sheet book s).computed key hTarget with
    ⟨dict, hDict, hValue⟩
  rw [hValue, ← rulesFor_eq_flatMap hOrdered]
  apply Rule.joinAll_of_contribution_eq
  intro r hr
  exact hFlat.contribution_eq hDict (mem_rulesFor_iff.mp hr).1

end Flat

end Rulebook

end CharSheet
