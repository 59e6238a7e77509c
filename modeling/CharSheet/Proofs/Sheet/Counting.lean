import CharSheet.Proofs.Number.Whole
import CharSheet.Proofs.Sheet.Rearrangement

/-
  Rules whose order does not matter among themselves.

  What is added up may come in any order as long as it is
  whole and can be counted exactly, and integers may be
  compared with a value in any order.

  Main declarations:
    * `Value.isWhole`, `Value.size`, `Value.isInteger`
    * `Rule.joined`
    * `Rule.IsCounted`
    * `Rule.joinAll_add_of_perm`
    * `Rule.joinAll_max_of_perm`
-/

namespace CharSheet

------------------------------------------------------------
-- Whole Values
------------------------------------------------------------

namespace Value

/- The value is a whole number. -/
def isWhole : Value → Bool
  | .number x => x.integer?.isSome
  | _ => false

/- How far a whole value is from zero. -/
def size : Value → Nat
  | .number x => x.size
  | _ => 0

/- The value is a whole number other than a negative zero. -/
def isInteger : Value → Bool
  | .number x => x.integer?.isSome && x ≠ .negZero
  | _ => false

theorem exists_number_of_isWhole
    {v : Value}
    (h : v.isWhole = true) :
    ∃ x, v = .number x ∧ x.integer?.isSome = true := by
  cases v with
  | number x => exact ⟨x, rfl, h⟩
  | _ => cases h

theorem exists_ofInt_of_isInteger
    {v : Value}
    (h : v.isInteger = true) :
    ∃ i : Int, v = .number (.ofInt i) := by
  cases v with
  | number x =>
      simp only [isInteger, Bool.and_eq_true,
        decide_eq_true_eq] at h
      rcases Number.exists_ofWhole h.1 with ⟨a, rfl⟩
      cases a with
      | none => exact absurd rfl h.2
      | some i => exact ⟨i, rfl⟩
  | _ => cases h

/- Whole numbers are added as numbers. -/
theorem plus?_of_whole
    {x y : Number}
    (hx : x.integer?.isSome = true)
    (hy : y.integer?.isSome = true) :
    (Value.number x).plus? (.number y) =
      some (.number (x.add y)) := by
  rcases Number.exists_ofWhole hx with ⟨a, rfl⟩
  rcases Number.exists_ofWhole hy with ⟨b, rfl⟩
  simp [plus?, isWord, number?, Number.isNaN_ofWhole]

/- The larger of a value and an integer. -/
theorem max_ofInt
    (v : Value)
    (i : Int) :
    v.max (.number (.ofInt i)) =
      if v.number?.all (·.lt (.ofInt i)) then
        .number (.ofInt i)
      else v := by
  have hInteger :
      (Value.number (.ofInt i)).number? = some (.ofInt i) := rfl
  unfold max looseCmp?
  rw [hInteger]
  cases hNumber : v.number? with
  | none => cases v <;> rfl
  | some x =>
      have hLt : x.lt (.ofInt i) =
          (x.cmp? (.ofInt i) == some .lt) := rfl
      simp only [Option.all_some, Option.isSome_some, if_true,
        hLt]
      split <;> simp_all

/- Of two integers the larger one is larger either way. -/
theorem max_integers (i j : Int) :
    (Value.number (.ofInt i)).max (.number (.ofInt j)) =
      .number (.ofInt (Max.max i j)) := by
  have hBelow :
      (Value.number (.ofInt i)).number?.all
          (·.lt (.ofInt j)) = true ↔ i < j :=
    Number.lt_ofInt_iff
  rw [max_ofInt]
  by_cases hLt : i < j
  · rw [if_pos (hBelow.mpr hLt), max_eq_right hLt.le]
  · rw [if_neg (mt hBelow.mp hLt),
      max_eq_left (not_lt.mp hLt)]

/- Two integers may be compared with a value in any order. -/
theorem max_right_comm
    (v : Value)
    (i j : Int) :
    (v.max (.number (.ofInt i))).max (.number (.ofInt j)) =
      (v.max (.number (.ofInt j))).max (.number (.ofInt i)) := by
  -- What is below one of them is below all greater ones.
  have hTrans (k l : Int) (hLt : k < l)
      (hk : v.number?.all (·.lt (.ofInt k)) = true) :
      v.number?.all (·.lt (.ofInt l)) = true := by
    cases hNumber : v.number? with
    | none => rfl
    | some x =>
        rw [hNumber] at hk
        exact Number.lt_ofInt_trans hk hLt
  rw [max_ofInt v i, max_ofInt v j]
  by_cases hi : v.number?.all (·.lt (.ofInt i)) = true
  · by_cases hj : v.number?.all (·.lt (.ofInt j)) = true
    · rw [if_pos hi, if_pos hj, max_integers, max_integers,
        max_comm]
    · have hLe : j ≤ i :=
        not_lt.mp fun hLt => hj (hTrans i j hLt hi)
      rw [if_pos hi, if_neg hj, max_integers, max_ofInt v i,
        if_pos hi, max_eq_left hLe]
  · by_cases hj : v.number?.all (·.lt (.ofInt j)) = true
    · have hLe : i ≤ j :=
        not_lt.mp fun hLt => hi (hTrans j i hLt hj)
      rw [if_neg hi, if_pos hj, max_ofInt v j, if_pos hj,
        max_integers, max_eq_left hLe]
    · rw [if_neg hi, if_neg hj, max_ofInt v j, if_neg hj,
        max_ofInt v i, if_neg hi]

------------------------------------------------------------
-- Counted Values
------------------------------------------------------------

/-
  Values that are whole, and that can be counted exactly
  whatever their signs.
-/
structure AreCounted (vs : List Value) : Prop where
  whole : ∀ v ∈ vs, v.isWhole = true
  counted : (vs.map size).sum ≤ Number.countLimit

variable {v w x : Value}
variable {vs ws : List Value}

/- Their order does not matter. -/
theorem AreCounted.of_perm
    (h : AreCounted vs)
    (hPerm : vs.Perm ws) :
    AreCounted ws where
  whole := fun v hv => h.whole v (hPerm.mem_iff.mpr hv)
  counted := by
    rw [← (hPerm.map size).sum_nat]
    exact h.counted

/- The first two of them may be replaced by their sum. -/
theorem AreCounted.combine
    (h : AreCounted (v :: w :: vs)) :
    ∃ sum, Operator.add.combine (some v) w = some sum ∧
      AreCounted (sum :: vs) := by
  rcases exists_number_of_isWhole (h.whole v (by simp)) with
    ⟨x, rfl, hx⟩
  rcases exists_number_of_isWhole (h.whole w (by simp)) with
    ⟨y, rfl, hy⟩
  have hCounted := h.counted
  simp only [List.map_cons, List.sum_cons, size] at hCounted
  have hSum := Number.integer?_add_of_whole hx hy (by omega)
  refine ⟨.number (x.add y), ?_, ?_, ?_⟩
  · rw [Operator.combine, plus?_of_whole hx hy]
    rfl
  · intro u hu
    rcases List.mem_cons.mp hu with rfl | hRest
    · exact hSum.1
    · exact h.whole u (by simp [hRest])
  · simp only [List.map_cons, List.sum_cons, size]
    omega

/- Two of them are added to a value in any order. -/
theorem AreCounted.combine_comm
    {start : Option Value}
    (h : AreCounted (start.toList ++ v :: w :: vs)) :
    Operator.add.combine (Operator.add.combine start v) w =
      Operator.add.combine (Operator.add.combine start w) v := by
  rcases exists_number_of_isWhole (h.whole v (by simp)) with
    ⟨x, rfl, hx⟩
  rcases exists_number_of_isWhole (h.whole w (by simp)) with
    ⟨y, rfl, hy⟩
  have hCounted := h.counted
  simp only [List.map_append, List.map_cons, List.sum_append,
    List.sum_cons, size] at hCounted
  cases start with
  | none =>
      simp only [Operator.combine]
      rw [plus?_of_whole hx hy, plus?_of_whole hy hx,
        Number.add_comm_of_whole hx hy (by omega)]
      rfl
  | some u =>
      rcases exists_number_of_isWhole (h.whole u (by simp)) with
        ⟨z, rfl, hz⟩
      simp only [Option.toList_some, List.map_cons, List.map_nil,
        List.sum_cons, List.sum_nil, size] at hCounted
      have hzx := Number.integer?_add_of_whole hz hx (by omega)
      have hzy := Number.integer?_add_of_whole hz hy (by omega)
      simp only [Operator.combine]
      rw [plus?_of_whole hz hx, plus?_of_whole hz hy]
      simp only [Option.getD_some]
      rw [plus?_of_whole hzx.1 hy, plus?_of_whole hzy.1 hx,
        Number.add_right_comm_of_whole hx hy hz (by omega)]
      rfl

end Value

namespace Operator

variable {vs ws : List Value}

/- Join values to a first one, one after another. -/
def combineAll
    (op : Operator)
    (start : Option Value)
    (vs : List Value) : Option Value :=
  vs.foldl (fun v c => op.combine v c) start

/- Counted values come to the same sum in any order. -/
theorem combineAll_add_of_perm
    {start : Option Value}
    (hPerm : vs.Perm ws)
    (h : Value.AreCounted (start.toList ++ vs)) :
    Operator.add.combineAll start vs =
      Operator.add.combineAll start ws := by
  induction hPerm generalizing start with
  | nil => rfl
  | cons c hPerm ih =>
      apply ih
      cases start with
      | none => exact h
      | some v =>
          rcases h.combine with ⟨sum, hSum, hCounted⟩
          simp only [hSum]
          exact hCounted
  | swap c d vs =>
      have hFirst := h.combine_comm
      simp only [combineAll, List.foldl_cons, hFirst]
  | trans hPerm hNext ih ihNext =>
      exact (ih h).trans
        (ihNext (h.of_perm (hPerm.append_left _)))

/- Integers raise a value to the same one in any order. -/
theorem combineAll_max_of_perm
    (start : Option Value)
    (hPerm : vs.Perm ws)
    (h : ∀ v ∈ vs, v.isInteger = true) :
    Operator.max.combineAll start vs =
      Operator.max.combineAll start ws := by
  apply hPerm.foldl_eq'
  intro c hc d hd v
  rcases Value.exists_ofInt_of_isInteger (h c hc) with ⟨i, rfl⟩
  rcases Value.exists_ofInt_of_isInteger (h d hd) with ⟨j, rfl⟩
  cases v with
  | none =>
      have hSame : Max.max i j = Max.max j i := max_comm i j
      simp only [Operator.combine, Value.max_integers, hSame]
  | some v => exact congrArg some (Value.max_right_comm v i j)

end Operator

namespace Rule

variable {sheet : Store}
variable {v : Option Value}
variable {rules rules' : List Rule}

------------------------------------------------------------
-- Joining
------------------------------------------------------------

/- A formula without attributes reads the source alone. -/
theorem Reads.eq_source
    {r : Rule}
    {key : Key}
    (h : r.Reads key)
    (hFormula : ∀ f ∈ r.formula,
      f.dependencies = [] ∧ f.patterns = []) :
    key = r.source := by
  rcases h with hSource | ⟨f, hSome, hReads⟩
  · exact hSource
  · rcases hFormula f hSome with ⟨hNamed, hPatterns⟩
    rw [hNamed, hPatterns] at hReads
    rcases hReads with hIn | ⟨p, hIn, _⟩
    · cases hIn
    · cases hIn

/- What rules contribute, as far as they do. -/
def contributions
    (sheet : Store)
    (rules : List Rule) : List Value :=
  rules.filterMap (·.contribution sheet)

/- Rules of one operator join what they contribute. -/
theorem joinAll_eq_combineAll
    {op : Operator}
    (hOp : op ≠ .gate)
    (h : ∀ r ∈ rules, r.op = op) :
    joinAll sheet rules v =
      op.combineAll v (contributions sheet rules) := by
  induction rules generalizing v with
  | nil => rfl
  | cons r rules ih =>
      have hRest := fun s hs => h s (List.mem_cons_of_mem r hs)
      have hFirst := h r List.mem_cons_self
      rw [joinAll, if_neg (hFirst ▸ hOp), contributions]
      cases hSome : r.contribution sheet with
      | none =>
          rw [List.filterMap_cons]
          simp only [hSome]
          exact ih hRest
      | some c =>
          rw [List.filterMap_cons]
          simp only [hSome, hFirst]
          exact ih hRest

/- Neither owners nor numbers contribute. -/
theorem contributions_map_bare
    (sheet : Store)
    (rules : List Rule) :
    contributions sheet (rules.map bare) =
      contributions sheet rules := by
  rw [contributions, List.filterMap_map]
  rfl

/- What the last rules come to depends on the first value. -/
theorem joinAll_append_congr
    {last last' : List Rule}
    (h : joinAll sheet last (joinAll sheet rules v) =
      joinAll sheet last' (joinAll sheet rules v)) :
    joinAll sheet (rules ++ last) v =
      joinAll sheet (rules ++ last') v := by
  induction rules generalizing v with
  | nil => exact h
  | cons r rules ih =>
      simp only [joinAll, List.cons_append] at h ⊢
      split
      · next hGate =>
          rw [if_pos hGate] at h
          split
          · next hOpen =>
              rw [if_pos hOpen] at h
              exact ih h
          · rfl
      · next hGate =>
          rw [if_neg hGate] at h
          split
          · next hNone =>
              simp only [hNone] at h
              exact ih h
          · next hSome =>
              simp only [hSome] at h
              exact ih h

/- Rules without a gate may be told apart from the others. -/
theorem joinAll_append_of_ne
    {last : List Rule}
    (h : ∀ r ∈ rules, r.op ≠ .gate) :
    joinAll sheet (rules ++ last) v =
      joinAll sheet last (joinAll sheet rules v) := by
  induction rules generalizing v with
  | nil => rfl
  | cons r rules ih =>
      have hNe := h r List.mem_cons_self
      have hRest := fun s hs => h s (List.mem_cons_of_mem r hs)
      simp only [List.cons_append, joinAll, if_neg hNe]
      cases r.contribution sheet with
      | none => exact ih hRest
      | some c => exact ih hRest

/-
  Rules one operator after another come to the same value if
  those that add or raise do, and the others are the same.
-/
theorem joinAll_inOrder_congr
    {f g : Operator → List Rule}
    (hSame : ∀ op, op ≠ .add → op ≠ .max → f op = g op)
    (hOf : ∀ op, ∀ r ∈ f op, r.op = op)
    (hOf' : ∀ op, ∀ r ∈ g op, r.op = op)
    (hAdd :
      joinAll sheet (f .add)
          (joinAll sheet (g .gate ++ g .set) v) =
        joinAll sheet (g .add)
          (joinAll sheet (g .gate ++ g .set) v))
    (hMax : ∀ w,
      joinAll sheet (f .max) w = joinAll sheet (g .max) w) :
    joinAll sheet (Operator.inOrder.flatMap f) v =
      joinAll sheet (Operator.inOrder.flatMap g) v := by
  have hNe {op : Operator} {rules : List Rule}
      (hRules : ∀ r ∈ rules, r.op = op) (hOp : op ≠ .gate) :
      ∀ r ∈ rules, r.op ≠ .gate := by
    intro r hr hGate
    exact hOp ((hRules r hr).symm.trans hGate)
  have hSplit (f : Operator → List Rule) :
      Operator.inOrder.flatMap f =
        (f .gate ++ f .set) ++
          (f .add ++ (f .multiply ++ (f .max ++ f .min))) := by
    simp [Operator.inOrder]
  rw [hSplit f, hSplit g, hSame .gate nofun nofun,
    hSame .set nofun nofun, hSame .multiply nofun nofun,
    hSame .min nofun nofun]
  apply joinAll_append_congr
  rw [joinAll_append_of_ne (hNe (hOf .add) nofun),
    joinAll_append_of_ne (hNe (hOf' .add) nofun), hAdd]
  apply joinAll_append_congr
  rw [joinAll_append_of_ne (hNe (hOf .max) nofun),
    joinAll_append_of_ne (hNe (hOf' .max) nofun), hMax]

end Rule

------------------------------------------------------------
-- Counted Attributes
------------------------------------------------------------

namespace Rulebook

variable {book other : Rulebook}
variable {key : Key}
variable {input : Store}

/-
  All that is added for an attribute on top of its input can
  be counted, and it is raised to integers only.  Gates and
  what is multiplied or lowered are free.
-/
structure IsCountedIn
    (book : Rulebook)
    (input : Store)
    (key : Key)
    (dict : Store) : Prop where
  added : Value.AreCounted
    ((Rule.joinAll dict
      (book.rulesOf key .gate ++ book.rulesOf key .set)
        input[key]?).toList ++
      Rule.contributions dict (book.rulesOf key .add))
  raised : ∀ v ∈ Rule.contributions dict (book.rulesOf key .max),
    v.isInteger = true

/- So it is when the sheet is computed. -/
def IsCounted
    (book : Rulebook)
    (input : Store)
    (key : Key) : Prop :=
  ∀ dict, book.IsDictionary input (book.sheet input) key dict →
    book.IsCountedIn input key dict

/-
  An attribute whose rules read nothing but inputs is counted
  if it is so in the input itself.
-/
theorem isCounted_of_inputs
    (hInputs : ∀ r ∈ book.rules, r.target = key →
      ∀ other, r.Reads other → ¬ book.IsTarget other)
    (h : book.IsCountedIn input key input) :
    book.IsCounted input key := by
  intro dict hDict
  have hGiven := (isSnapshot_sheet book input).given
  have hSame (op : Operator) :
      ∀ r ∈ book.rulesOf key op, ∀ other, r.Reads other →
        dict[other]? = input[other]? := by
    intro r hr other hReads
    rcases mem_rulesOf_iff.mp hr with ⟨hRule, hTarget, _⟩
    by_cases hPending : book.IsPending key other
    · exact hDict.pending other hPending
    · rw [hDict.settled other hPending]
      exact hGiven other (hInputs r hRule hTarget other hReads)
  have hContributions (op : Operator) :
      Rule.contributions dict (book.rulesOf key op) =
        Rule.contributions input (book.rulesOf key op) := by
    apply List.filterMap_congr
    intro r hr
    exact Rule.contribution_congr (hSame op r hr)
  have hOpening :
      Rule.joinAll dict
          (book.rulesOf key .gate ++ book.rulesOf key .set)
          input[key]? =
        Rule.joinAll input
          (book.rulesOf key .gate ++ book.rulesOf key .set)
          input[key]? := by
    apply Rule.joinAll_congr
    intro r hr
    rcases List.mem_append.mp hr with hGate | hSet
    · exact hSame .gate r hGate
    · exact hSame .set r hSet
  refine ⟨?_, ?_⟩
  · rw [hOpening, hContributions]
    exact h.added
  · rw [hContributions]
    exact h.raised

/- The bare rules of an operator. -/
theorem map_bare_rulesOf
    (book : Rulebook)
    (key : Key)
    (op : Operator) :
    (book.rulesOf key op).map Rule.bare =
      (book.rules.map Rule.bare).filter fun r =>
        r.target = key && r.op = op := by
  rw [List.filter_map]
  rfl

/- The rules of an operator join what they contribute. -/
theorem joinAll_rulesOf
    {op : Operator}
    (hOp : op ≠ .gate)
    (dict : Store)
    (v : Option Value) :
    Rule.joinAll dict (book.rulesOf key op) v =
      op.combineAll v
        (Rule.contributions dict (book.rulesOf key op)) :=
  Rule.joinAll_eq_combineAll hOp fun _ hr =>
    (mem_rulesOf_iff.mp hr).2.2

/-
  Rulebooks of the same bare rules come to the same sheet if
  all attributes are counted for which the rules that add or
  raise come in another order.
-/
theorem sheet_eq_of_isCounted
    (hBook : book.rules.Pairwise fun r s => r.seq < s.seq)
    (hOther : other.rules.Pairwise fun r s => r.seq < s.seq)
    (hPerm :
      (book.rules.map Rule.bare).Perm
        (other.rules.map Rule.bare))
    (hKept : ∀ key op, other.IsTarget key →
      (op = .add ∨ op = .max → ¬ other.IsCounted input key) →
        (book.rulesOf key op).map Rule.bare =
          (other.rulesOf key op).map Rule.bare) :
    book.sheet input = other.sheet input := by
  apply sheet_eq_of_perm hPerm
  intro key dict hTarget hDict
  have hOf (book : Rulebook) (op : Operator) :
      ∀ r ∈ (book.rulesOf key op).map Rule.bare, r.op = op := by
    intro r hr
    rcases List.mem_map.mp hr with ⟨r', hr', rfl⟩
    exact (mem_rulesOf_iff.mp hr').2.2
  have hClass (op : Operator) :
      ((book.rulesOf key op).map Rule.bare).Perm
        ((other.rulesOf key op).map Rule.bare) := by
    rw [map_bare_rulesOf, map_bare_rulesOf]
    exact hPerm.filter _
  rw [← Rule.joinAll_map_bare,
    ← Rule.joinAll_map_bare dict (other.rulesFor key),
    rulesFor_eq_flatMap hBook, rulesFor_eq_flatMap hOther,
    List.map_flatMap, List.map_flatMap]
  have hContributions (op : Operator) :
      (Rule.contributions dict (other.rulesOf key op)).Perm
        (Rule.contributions dict (book.rulesOf key op)) := by
    have hMapped :=
      (hClass op).symm.filterMap (·.contribution dict)
    rw [← Rule.contributions_map_bare dict,
      ← Rule.contributions_map_bare dict (book.rulesOf key op)]
    exact hMapped
  refine Rule.joinAll_inOrder_congr
    (fun op hAdd hMax => hKept key op hTarget (by tauto))
    (hOf book) (hOf other) ?_ ?_
  · by_cases hCounted : other.IsCounted input key
    · have hAdded := (hCounted dict hDict).added
      rw [← List.map_append, Rule.joinAll_map_bare,
        Rule.joinAll_map_bare, Rule.joinAll_map_bare,
        joinAll_rulesOf Operator.noConfusion,
        joinAll_rulesOf Operator.noConfusion]
      exact (Operator.combineAll_add_of_perm
        (hContributions .add) hAdded).symm
    · rw [hKept key .add hTarget fun _ => hCounted]
  · intro w
    by_cases hCounted : other.IsCounted input key
    · have hRaised := (hCounted dict hDict).raised
      rw [Rule.joinAll_map_bare, Rule.joinAll_map_bare,
        joinAll_rulesOf Operator.noConfusion,
        joinAll_rulesOf Operator.noConfusion]
      exact (Operator.combineAll_max_of_perm w
        (hContributions .max) hRaised).symm
    · rw [hKept key .max hTarget fun _ => hCounted]

end Rulebook

end CharSheet
