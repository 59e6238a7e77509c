import CharSheet.Error
import CharSheet.Formula.Eval
import CharSheet.Pattern.Reading
import CharSheet.Text.Quoting

/-
  Requirements such as
  `strength >= 13/features.Spellcasting || race =~ 'Elf'`.

  A requirement is a list of clauses that must all hold.  A
  clause is a list of tests of which one must hold.

  Key definitions include:
    * `Subject`, `Comparison`, `Test`, `Clause`
    * `Requirement`
    * `Requirement.toExpr`
    * `Requirement.isMet`
    * `Requirement.unmet`
    * `Requirement.ofText`
    * `Requirement.ofTexts`
-/

namespace CharSheet

------------------------------------------------------------
-- Tests
------------------------------------------------------------

/- The comparisons of a test by their order or equality. -/
inductive Relation where
  | atLeast
  | atMost
  | greater
  | less
  | equal
  | notEqual
deriving DecidableEq

/- The operator of formulas that a relation stands for. -/
def Relation.operator : Relation → BinaryOp
  | .atLeast => .ge
  | .atMost => .le
  | .greater => .gt
  | .less => .lt
  | .equal => .eq
  | .notEqual => .ne

/- What a test reads from a sheet. -/
inductive Subject where
  | attr (key : Key)
  | gather (kind : Gather) (pattern : Pattern)
deriving DecidableEq

/-
  What a test asks of its subject: a relation to a value, or a
  match of a pattern, which may also be forbidden.
-/
inductive Comparison where
  | relation (r : Relation) (v : Value)
  | match (wanted : Bool) (v : Value) (pattern : Pattern)
deriving DecidableEq

/- A subject, and what is asked of it besides being truthy. -/
structure Test where
  subject : Subject
  comparison : Option Comparison
deriving DecidableEq

/- The expression of a subject. -/
def Subject.toExpr : Subject → Expr
  | .attr key => .attr key
  | .gather kind p => .gather kind p

namespace Test

/- The single attribute that a test reads, if there is one. -/
def attr? (t : Test) : Option Key :=
  match t.subject with
  | .attr key => some key
  | .gather _ _ => none

/- The expression that is truthy when a test holds. -/
def toExpr (t : Test) : Expr :=
  let subject := t.subject.toExpr
  match t.comparison with
  | none => subject
  | some (.relation r v) =>
      .binary r.operator subject (.literal v)
  | some (.match true _ p) => .occurrences subject p
  | some (.match false _ p) =>
      .unary .not (.occurrences subject p)

/- A test holds on a sheet. -/
def holds (t : Test) (sheet : Store) : Bool :=
  CharSheet.holds (t.toExpr.eval none sheet)

end Test

------------------------------------------------------------
-- Clauses
------------------------------------------------------------

/- Tests of which one must hold, with their text. -/
structure Clause where
  text : String
  alternatives : List Test
deriving DecidableEq

/-
  Join a list of expressions by an operator from the left.
  The empty list is true.
-/
def joinExprs (op : Expr → Expr → Expr) : List Expr → Expr
  | [] => .literal (.bool true)
  | e :: es => es.foldl op e

namespace Clause

/- The expression that is truthy when a clause holds. -/
def toExpr (c : Clause) : Expr :=
  joinExprs .either (c.alternatives.map Test.toExpr)

/- One of the tests holds. -/
def holds (c : Clause) (sheet : Store) : Bool :=
  c.alternatives.any (·.holds sheet)

end Clause

------------------------------------------------------------
-- Requirements
------------------------------------------------------------

/- Clauses that must all hold, with their text. -/
structure Requirement where
  text : String
  clauses : List Clause
deriving DecidableEq

namespace Requirement

/- The expression that is truthy when all clauses hold. -/
def toExpr (r : Requirement) : Expr :=
  joinExprs .both (r.clauses.map Clause.toExpr)

/- All clauses hold. -/
def isMet (r : Requirement) (sheet : Store) : Bool :=
  r.clauses.all (·.holds sheet)

/- The clauses that do not hold. -/
def unmet (r : Requirement) (sheet : Store) : List Clause :=
  r.clauses.filter fun c => !c.holds sheet

end Requirement

------------------------------------------------------------
-- Reading Tests
------------------------------------------------------------

/- How a test is compared, as it is spelled. -/
inductive ComparisonKind where
  | relation (r : Relation)
  | match (wanted : Bool)

/- The spellings of comparisons; longer ones come first. -/
def ComparisonKind.spellings :
    List (List Char × ComparisonKind) :=
  [(['>', '='], .relation .atLeast),
    (['<', '='], .relation .atMost),
    (['=', '='], .relation .equal),
    (['!', '='], .relation .notEqual),
    (['=', '~'], .match true),
    (['!', '~'], .match false),
    (['>'], .relation .greater),
    (['<'], .relation .less)]

/-
  Read the value of a comparison.  A text in quotes is a text,
  another one a number if it reads as one.
-/
def readOperand
    (cs : List Char) : Except RequirementFault Value :=
  if cs.isEmpty then .error .missingValue
  else
    match Text.unquote? cs with
    | some inner => .ok (.text (String.ofList inner))
    | none =>
        match Number.ofChars? cs with
        | some n => .ok (.number n)
        | none => .ok (.text (String.ofList cs))

/- The kind of gathering that a test begins with. -/
def splitGather
    (cs : List Char) : Option Gather × List Char :=
  match Text.cutAt? [' '] cs with
  | some (['S', 'u', 'm'], rest) =>
      (some .sum, Text.trimFront rest)
  | some (['M', 'a', 'x'], rest) =>
      (some .max, Text.trimFront rest)
  | _ => (none, cs)

/- Read a pattern of a test. -/
def readTestPattern
    (s : String) : Except RequirementFault Pattern :=
  match Pattern.ofText? s with
  | some p => .ok p
  | none => .error .badPattern

/- Read a comparison whose kind and value are known. -/
def ComparisonKind.withValue
    (v : Value) :
    ComparisonKind → Except RequirementFault Comparison
  | .relation r => .ok (.relation r v)
  | .match wanted => do
      let p ← readTestPattern v.display
      return .match wanted v p

/-
  Read one test.  A missing value is reported before a missing
  subject, and both before a pattern.
-/
def Test.ofChars
    (cs : List Char) : Except RequirementFault Test := do
  let text := Text.trimChars cs
  let (gather, rest) := splitGather text
  let (subject, operand) ←
    match Text.findOutsideQuotes? ComparisonKind.spellings
        none rest with
    | some (before, kind, after) => do
        let v ← readOperand (Text.trimChars after)
        pure (before, some (kind, v))
    | none => pure (rest, none)
  let name := Text.unquote (Text.trimChars subject)
  if name.isEmpty then
    throw (.missingSubject (String.ofList text))
  let key := String.ofList name
  let subject ←
    match gather with
    | none => pure (Subject.attr key)
    | some kind => do
        let p ← readTestPattern key
        pure (Subject.gather kind p)
  match operand with
  | none => return ⟨subject, none⟩
  | some (kind, v) => do
      let comparison ← kind.withValue v
      return ⟨subject, some comparison⟩

/- Read the tests between double bars. -/
def Clause.ofChars
    (cs : List Char) : Except RequirementFault Clause := do
  let parts := Text.splitOutsideQuotes ['|', '|'] cs
  let tests ← parts.mapM Test.ofChars
  return ⟨String.ofList (Text.trimChars cs), tests⟩

namespace Requirement

/- The texts of the clauses between slashes. -/
def clauseTexts (cs : List Char) : List (List Char) :=
  (Text.splitOutsideQuotes ['/'] cs).filter fun part =>
    !(Text.trimChars part).isEmpty

/- The requirement that a text spells. -/
def ofText
    (text : String) : Except ContentError Requirement :=
  match (clauseTexts text.toList).mapM Clause.ofChars with
  | .error fault => .error (.requirement text fault)
  | .ok [] => .error (.requirement text .empty)
  | .ok clauses => .ok ⟨text, clauses⟩

/- The requirement of several texts, read as one. -/
def ofTexts
    (texts : List String) : Except ContentError Requirement :=
  ofText (Text.join "/" texts)

end Requirement

end CharSheet
