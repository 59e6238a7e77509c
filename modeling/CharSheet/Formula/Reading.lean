import CharSheet.Formula.Expr
import CharSheet.Formula.Token
import CharSheet.Pattern.Reading

/-
  Reading expressions from tokens.

  The operators of two operands stand in six tiers.  Those of
  one tier group to the left, and a tier binds tighter than
  the tiers before it.  The choice `c ? a : b` binds weakest
  and groups to the right.

  Key definitions include:
    * `Tier`
    * `Tier.operator?`
    * `Expr.readChoice`
    * `Expr.ofTokens`
    * `Expr.ofText`
-/

namespace CharSheet

------------------------------------------------------------
-- Tiers
------------------------------------------------------------

/- The tiers of operators, the weakest first. -/
inductive Tier where
  | either
  | both
  | equality
  | comparison
  | sum
  | product
deriving DecidableEq

namespace Tier

/- The next tighter tier. -/
def next? : Tier → Option Tier
  | .either => some .both
  | .both => some .equality
  | .equality => some .comparison
  | .comparison => some .sum
  | .sum => some .product
  | .product => none

/- The number of tiers from a tier to the tightest. -/
def height : Tier → Nat
  | .either => 6
  | .both => 5
  | .equality => 4
  | .comparison => 3
  | .sum => 2
  | .product => 1

/- What a mark makes of two operands in a tier. -/
def operator? :
    Tier → Mark → Option (Expr → Expr → Expr)
  | .either, .either => some .either
  | .both, .both => some .both
  | .equality, .equal => some (.binary .eq)
  | .equality, .identical => some (.binary .eq)
  | .equality, .notEqual => some (.binary .ne)
  | .equality, .notIdentical => some (.binary .ne)
  | .comparison, .atMost => some (.binary .le)
  | .comparison, .atLeast => some (.binary .ge)
  | .comparison, .less => some (.binary .lt)
  | .comparison, .greater => some (.binary .gt)
  | .sum, .plus => some (.binary .add)
  | .sum, .minus => some (.binary .sub)
  | .product, .star => some (.binary .mul)
  | .product, .slash => some (.binary .div)
  | .product, .percent => some (.binary .rem)
  | _, _ => none

/- The next tier is tighter. -/
theorem height_of_next?
    {tier tighter : Tier}
    (h : tier.next? = some tighter) :
    tighter.height < tier.height := by
  cases tier <;> simp [next?] at h <;> subst h <;> decide

end Tier

/- The operator of one operand that a mark stands for. -/
def UnaryOp.ofMark? : Mark → Option UnaryOp
  | .minus => some .neg
  | .plus => some .plus
  | .bang => some .not
  | _ => none

------------------------------------------------------------
-- Reading Expressions
------------------------------------------------------------

namespace Expr

/- The tokens that are left after reading some. -/
abbrev Left (ts : List Token) :=
  { rest : List Token // rest.length < ts.length }

/- The outcome of reading from the front of some tokens. -/
abbrev Outcome (α : Type) (ts : List Token) :=
  Except FormulaFault (α × Left ts)

/- The same tokens are left, seen from a longer list. -/
def Left.widen
    {ts us : List Token}
    (h : ts.length ≤ us.length)
    (left : Left ts) : Left us :=
  ⟨left.1, Nat.lt_of_lt_of_le left.2 h⟩

/- The tokens after a given mark, if it stands first. -/
def takeMark?
    (m : Mark)
    (ts : List Token) : Option (Left ts) :=
  match ts with
  | .mark m' :: rest =>
      if m = m' then some ⟨rest, by simp⟩ else none
  | _ => none

/- Read one given mark. -/
def readMark
    (m : Mark)
    (ts : List Token) : Except FormulaFault (Left ts) :=
  match takeMark? m ts with
  | some left => .ok left
  | none => .error (.expected m)

/- The operator of a tier that stands first, if one does. -/
def takeOperator?
    (tier : Tier)
    (ts : List Token) :
    Option ((Expr → Expr → Expr) × Left ts) :=
  match ts with
  | .mark m :: rest =>
      (tier.operator? m).map (·, ⟨rest, by simp⟩)
  | _ => none

/-
  The operator of one operand that stands first, if one does.
-/
def takeUnary?
    (ts : List Token) : Option (UnaryOp × Left ts) :=
  match ts with
  | .mark m :: rest =>
      (UnaryOp.ofMark? m).map (·, ⟨rest, by simp⟩)
  | _ => none

/- Read a quoted text. -/
def readText (ts : List Token) : Outcome String ts :=
  match ts with
  | .text s :: rest => .ok (s, ⟨rest, by simp⟩)
  | _ => .error .expectedText

/- Read a quoted text that is a pattern. -/
def readPattern (ts : List Token) : Outcome Pattern ts :=
  match readText ts with
  | .ok (s, left) =>
      match Pattern.ofText? s with
      | some p => .ok (p, left)
      | none => .error (.badPattern s)
  | .error e => .error e

/- The expression of a name that needs no argument. -/
def ofName? (name : String) : Option Expr :=
  match name with
  | "source" => some .source
  | "true" => some (.literal (.bool true))
  | "false" => some (.literal (.bool false))
  | "null" => some .absent
  | "undefined" => some .absent
  | _ => none

/- The gathering function of a name. -/
def gatherOfName? (name : String) : Option Gather :=
  match name with
  | "sum" => some .sum
  | "maxof" => some .max
  | _ => none

/- Read a named attribute after the word `dict`. -/
def readAttr (ts : List Token) : Outcome Expr ts := do
  let ⟨r, h⟩ ← readMark .openSquare ts
  let (key, ⟨r', h'⟩) ← readText r
  let ⟨r'', h''⟩ ← readMark .closeSquare r'
  return (.attr key, ⟨r'', by omega⟩)

mutual

/- Read a choice `c ? a : b`, or an expression without one. -/
def readChoice (ts : List Token) : Outcome Expr ts := do
  let (c, ⟨r, h⟩) ← readTier .either ts
  match takeMark? .question r with
  | some ⟨r₁, h₁⟩ => do
      let (a, ⟨r₂, h₂⟩) ← readChoice r₁
      let ⟨r₃, h₃⟩ ← readMark .colon r₂
      let (b, ⟨r₄, h₄⟩) ← readChoice r₃
      return (.choose c a b, ⟨r₄, by omega⟩)
  | none => return (c, ⟨r, h⟩)
termination_by (ts.length, 2 * Tier.either.height + 4)

/- Read operands of a tier with its operators between. -/
def readTier
    (tier : Tier)
    (ts : List Token) : Outcome Expr ts := do
  let (lhs, ⟨r, h⟩) ← readOperand tier ts
  readChain tier ts lhs ⟨r, h⟩
termination_by (ts.length, 2 * tier.height + 3)

/-
  Read the operators of a tier that follow an operand, and
  their other operands.
-/
def readChain
    (tier : Tier)
    (ts : List Token)
    (lhs : Expr)
    (left : Left ts) : Outcome Expr ts :=
  match takeOperator? tier left.1 with
  | some (build, ⟨r, h⟩) => do
      let (rhs, ⟨r', h'⟩) ← readOperand tier r
      readChain tier ts (build lhs rhs)
        ⟨r', by have := left.2; omega⟩
  | none => return (lhs, left)
termination_by (left.1.length, 0)

/- Read an operand of a tier. -/
def readOperand
    (tier : Tier)
    (ts : List Token) : Outcome Expr ts :=
  match h : tier.next? with
  | some tighter =>
      have := Tier.height_of_next? h
      readTier tighter ts
  | none => readUnary ts
termination_by (ts.length, 2 * tier.height + 2)

/- Read an operand with its operators of one operand. -/
def readUnary (ts : List Token) : Outcome Expr ts :=
  match takeUnary? ts with
  | some (op, ⟨r, h⟩) => do
      let (e, ⟨r', h'⟩) ← readUnary r
      return (.unary op e, ⟨r', by omega⟩)
  | none => readPrimary ts
termination_by (ts.length, 1)

/- Read an expression without operators outside brackets. -/
def readPrimary (ts : List Token) : Outcome Expr ts :=
  match ts with
  | [] => .error .unexpectedEnd
  | .number n :: rest => .ok (.number n, ⟨rest, by simp⟩)
  | .text s :: rest => .ok (.text s, ⟨rest, by simp⟩)
  | .mark .openRound :: rest => do
      let (e, ⟨r, h⟩) ← readChoice rest
      let ⟨r', h'⟩ ← readMark .closeRound r
      return (e, ⟨r', by simp; omega⟩)
  | .mark m :: _ => .error (.unexpectedMark m)
  | .name name :: rest =>
      match ofName? name with
      | some e => .ok (e, ⟨rest, by simp⟩)
      | none =>
          if name = "dict" then do
            let (e, ⟨r, h⟩) ← readAttr rest
            return (e, ⟨r, by simp; omega⟩)
          else
            match rest with
            | .mark .openRound :: inner => do
                let (e, ⟨r, h⟩) ← readCall name inner
                let ⟨r', h'⟩ ← readMark .closeRound r
                return (e, ⟨r', by simp; omega⟩)
            | _ => .error (.unknownName name)
termination_by (ts.length, 0)

/- Read the arguments of a function up to its bracket. -/
def readCall
    (name : String)
    (ts : List Token) :
    Except FormulaFault
      (Expr × { r : List Token // r.length ≤ ts.length }) :=
  match gatherOfName? name with
  | some kind => do
      let (p, ⟨r, h⟩) ← readPattern ts
      return (.gather kind p, ⟨r, by omega⟩)
  | none =>
      if name = "matches" then do
        let (e, ⟨r, h⟩) ← readChoice ts
        let ⟨r₁, h₁⟩ ← readMark .comma r
        let (p, ⟨r₂, h₂⟩) ← readPattern r₁
        return (.occurrences e p, ⟨r₂, by omega⟩)
      else
        match Func.ofName? name with
        | none => .error (.unknownFunction name)
        | some f =>
            if ts.head? = some (.mark .closeRound) then
              .ok (.call f [], ⟨ts, Nat.le_refl _⟩)
            else do
              let (args, ⟨r, h⟩) ← readArguments ts
              return (.call f args, ⟨r, by omega⟩)
termination_by (ts.length, 2 * Tier.either.height + 6)

/- Read one or more expressions with commas between. -/
def readArguments
    (ts : List Token) : Outcome (List Expr) ts := do
  let (e, ⟨r, h⟩) ← readChoice ts
  match takeMark? .comma r with
  | some ⟨r₁, h₁⟩ => do
      let (es, ⟨r₂, h₂⟩) ← readArguments r₁
      return (e :: es, ⟨r₂, by omega⟩)
  | none => return ([e], ⟨r, h⟩)
termination_by (ts.length, 2 * Tier.either.height + 5)

end

------------------------------------------------------------
-- Whole Formulas
------------------------------------------------------------

/- The expression that all tokens of a list spell. -/
def ofTokens
    (ts : List Token) : Except FormulaFault Expr :=
  if ts.isEmpty then .error .empty
  else
    match readChoice ts with
    | .error e => .error e
    | .ok (e, ⟨[], _⟩) => .ok e
    | .ok (_, ⟨rest, _⟩) =>
        .error (.trailing (ts.length - rest.length))

/- The expression that a text spells. -/
def ofText (s : String) : Except FormulaFault Expr :=
  match Token.scan s.toList with
  | .error e => .error e
  | .ok ts => ofTokens ts

end Expr

end CharSheet
