import CharSheet.Formula.Reading
import Mathlib.Data.Option.Basic

/-
  The grammar of formulas.

  A list of tokens spells an expression if it can be derived
  from the grammar, one part of it after another.  Nothing is
  said here about how tokens are read, or which of them is
  looked at first.

  Main declarations:
    * `Tier.IsOperator`, `UnaryOp.IsSpelled`
    * `Func.IsNamed`, `Gather.IsNamed`
    * `Expr.IsWord`
    * `Grammar.Part`, `Grammar.Spells`
-/

namespace CharSheet

------------------------------------------------------------
-- Operators
------------------------------------------------------------

/- The operators of each tier, and what they are made into. -/
inductive Tier.IsOperator :
    Tier → Mark → (Expr → Expr → Expr) → Prop where
  | either : IsOperator .either .either .either
  | both : IsOperator .both .both .both
  | equal : IsOperator .equality .equal (.binary .eq)
  | identical : IsOperator .equality .identical (.binary .eq)
  | notEqual : IsOperator .equality .notEqual (.binary .ne)
  | notIdentical :
      IsOperator .equality .notIdentical (.binary .ne)
  | less : IsOperator .comparison .less (.binary .lt)
  | atMost : IsOperator .comparison .atMost (.binary .le)
  | greater : IsOperator .comparison .greater (.binary .gt)
  | atLeast : IsOperator .comparison .atLeast (.binary .ge)
  | plus : IsOperator .sum .plus (.binary .add)
  | minus : IsOperator .sum .minus (.binary .sub)
  | star : IsOperator .product .star (.binary .mul)
  | slash : IsOperator .product .slash (.binary .div)
  | percent : IsOperator .product .percent (.binary .rem)

/- The operators of one operand. -/
inductive UnaryOp.IsSpelled : UnaryOp → Mark → Prop where
  | minus : IsSpelled .neg .minus
  | plus : IsSpelled .plus .plus
  | bang : IsSpelled .not .bang

variable {tier : Tier}
variable {m : Mark}
variable {build : Expr → Expr → Expr}

/- The operators of a tier are those that are looked up. -/
theorem Tier.operator?_eq_some_iff :
    tier.operator? m = some build ↔
      tier.IsOperator m build := by
  constructor
  · intro h
    unfold operator? at h
    split at h <;> cases h <;> constructor
  · intro h
    cases h <;> rfl

/- No mark is an operator of two tiers. -/
theorem Tier.IsOperator.tier_eq
    {other : Tier}
    {build' : Expr → Expr → Expr}
    (h : tier.IsOperator m build)
    (hOther : other.IsOperator m build') :
    tier = other := by
  cases h <;> cases hOther <;> rfl

/- A mark is made into one operator of a tier only. -/
theorem Tier.IsOperator.build_eq
    {build' : Expr → Expr → Expr}
    (h : tier.IsOperator m build)
    (h' : tier.IsOperator m build') :
    build = build' := by
  rw [← operator?_eq_some_iff] at h h'
  exact Option.some.inj (h.symm.trans h')

theorem UnaryOp.ofMark?_eq_some_iff
    {op : UnaryOp} :
    ofMark? m = some op ↔ op.IsSpelled m := by
  constructor
  · intro h
    unfold ofMark? at h
    split at h <;> cases h <;> constructor
  · intro h
    cases h <;> rfl

theorem UnaryOp.IsSpelled.op_eq
    {op op' : UnaryOp}
    (h : op.IsSpelled m)
    (h' : op'.IsSpelled m) :
    op = op' := by
  rw [← ofMark?_eq_some_iff] at h h'
  exact Option.some.inj (h.symm.trans h')

------------------------------------------------------------
-- Names
------------------------------------------------------------

/- A function is known by its name, and under `Math.`. -/
def Func.IsNamed (f : Func) (name : String) : Prop :=
  name = f.name ∨ name = "Math." ++ f.name

theorem Func.ofName?_eq_some_iff
    {f : Func}
    {name : String} :
    ofName? name = some f ↔ f.IsNamed name := by
  constructor
  · intro h
    have hShort := List.find?_some h
    cases hAfter :
        Text.after? "Math.".toList name.toList with
    | none =>
        rw [hAfter] at hShort
        exact .inl (of_decide_eq_true hShort).symm
    | some rest =>
        rw [hAfter] at hShort
        refine .inr (String.toList_injective ?_)
        rw [Text.eq_append_of_after? hAfter,
          of_decide_eq_true hShort]
        simp
  · rintro (rfl | rfl)
    · cases f <;> rfl
    · cases f <;> rfl

/- The words that are expressions by themselves. -/
inductive Expr.IsWord : String → Expr → Prop where
  | source : IsWord "source" .source
  | true : IsWord "true" (.literal (.bool true))
  | false : IsWord "false" (.literal (.bool false))
  | null : IsWord "null" .absent
  | undefined : IsWord "undefined" .absent

theorem Expr.ofName?_eq_some_iff
    {name : String}
    {e : Expr} :
    ofName? name = some e ↔ IsWord name e := by
  constructor
  · intro h
    unfold ofName? at h
    split at h <;> cases h <;> constructor
  · intro h
    cases h <;> rfl

/- The names of the gathering functions. -/
inductive Gather.IsNamed : Gather → String → Prop where
  | sum : IsNamed .sum "sum"
  | max : IsNamed .max "maxof"

theorem Expr.gatherOfName?_eq_some_iff
    {name : String}
    {kind : Gather} :
    gatherOfName? name = some kind ↔ kind.IsNamed name := by
  constructor
  · intro h
    unfold gatherOfName? at h
    split at h <;> cases h <;> constructor
  · intro h
    cases h <;> rfl

/- What the functions are called has no other meaning. -/
theorem Func.IsNamed.is_free
    {f : Func}
    {name : String}
    (h : f.IsNamed name) :
    Expr.ofName? name = none ∧ name ≠ "dict" ∧
      Expr.gatherOfName? name = none ∧ name ≠ "matches" := by
  rcases h with rfl | rfl
  · cases f <;> decide
  · cases f <;> decide

theorem Gather.IsNamed.is_free
    {kind : Gather}
    {name : String}
    (h : kind.IsNamed name) :
    Expr.ofName? name = none ∧ name ≠ "dict" := by
  cases h <;> decide

------------------------------------------------------------
-- Derivations
------------------------------------------------------------

namespace Grammar

/- The parts of the grammar. -/
inductive Part where
  | choice
  | tier (t : Tier)
  | unary
  | primary
deriving DecidableEq

/- The operands of a tier belong to the next tighter one. -/
def Part.operand : Tier → Part
  | .either => .tier .both
  | .both => .tier .equality
  | .equality => .tier .comparison
  | .comparison => .tier .sum
  | .sum => .tier .product
  | .product => .unary

/-
  A list of tokens spells an expression as a part of the
  grammar.  An operator has all that stands before it in its
  tier as its first operand, and so groups to the left.
-/
inductive Spells : Part → List Token → Expr → Prop where
  | always
      {ts : List Token}
      {e : Expr}
      (h : Spells (.tier .either) ts e) : Spells .choice ts e
  | choose
      {ts us vs : List Token}
      {c a b : Expr}
      (hCondition : Spells (.tier .either) ts c)
      (hYes : Spells .choice us a)
      (hNo : Spells .choice vs b) :
      Spells .choice
        (ts ++ .mark .question :: (us ++ .mark .colon :: vs))
        (.choose c a b)
  | operand
      {tier : Tier}
      {ts : List Token}
      {e : Expr}
      (h : Spells (.operand tier) ts e) :
      Spells (.tier tier) ts e
  | operate
      {tier : Tier}
      {m : Mark}
      {build : Expr → Expr → Expr}
      {ts us : List Token}
      {a b : Expr}
      (hFirst : Spells (.tier tier) ts a)
      (hOperator : tier.IsOperator m build)
      (hSecond : Spells (.operand tier) us b) :
      Spells (.tier tier) (ts ++ .mark m :: us) (build a b)
  | bare
      {ts : List Token}
      {e : Expr}
      (h : Spells .primary ts e) : Spells .unary ts e
  | sign
      {op : UnaryOp}
      {m : Mark}
      {ts : List Token}
      {e : Expr}
      (hOperator : op.IsSpelled m)
      (h : Spells .unary ts e) :
      Spells .unary (.mark m :: ts) (.unary op e)
  | number (n : Number) :
      Spells .primary [.number n] (.number n)
  | text (s : String) : Spells .primary [.text s] (.text s)
  | round
      {ts : List Token}
      {e : Expr}
      (h : Spells .choice ts e) :
      Spells .primary
        (.mark .openRound :: (ts ++ [.mark .closeRound])) e
  | word
      {name : String}
      {e : Expr}
      (h : Expr.IsWord name e) : Spells .primary [.name name] e
  | attr (key : String) :
      Spells .primary
        [.name "dict", .mark .openSquare, .text key,
          .mark .closeSquare]
        (.attr key)
  | gather
      {kind : Gather}
      {name s : String}
      {p : Pattern}
      (hName : kind.IsNamed name)
      (hPattern : Pattern.ofText? s = some p) :
      Spells .primary
        [.name name, .mark .openRound, .text s,
          .mark .closeRound]
        (.gather kind p)
  | occurrences
      {s : String}
      {p : Pattern}
      {ts : List Token}
      {e : Expr}
      (h : Spells .choice ts e)
      (hPattern : Pattern.ofText? s = some p) :
      Spells .primary
        (.name "matches" :: .mark .openRound ::
          (ts ++ [.mark .comma, .text s, .mark .closeRound]))
        (.occurrences e p)
  | call
      {f : Func}
      {name : String}
      {args : List (List Token × Expr)}
      (hName : f.IsNamed name)
      (hArgs : ∀ arg ∈ args, Spells .choice arg.1 arg.2) :
      Spells .primary
        (.name name :: .mark .openRound ::
          ([.mark .comma].intercalate (args.map (·.1)) ++
            [.mark .closeRound]))
        (.call f (args.map (·.2)))

end Grammar

end CharSheet
