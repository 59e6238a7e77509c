import CharSheet.Error
import CharSheet.Formula.Eval
import CharSheet.Formula.Reading

/-
  Formulas: expressions with the text that describes them.

  Key definitions include:
    * `Formula`
    * `Formula.ofText`
    * `Formula.constant`, `Formula.negated`, `Formula.gated`
    * `Formula.eval`
    * `Formula.dependencies`
    * `Formula.patterns`
-/

namespace CharSheet

/- An expression, and the text that it is shown with. -/
structure Formula where
  text : String
  expr : Expr

namespace Formula

instance : Inhabited Formula := ⟨⟨"", .absent⟩⟩

/- The formula that a text spells. -/
def ofText (text : String) : Except ContentError Formula :=
  match Expr.ofText text with
  | .ok expr => .ok ⟨text, expr⟩
  | .error fault => .error (.formula text fault)

/- The formula that always has the given value. -/
def constant (v : Value) : Formula :=
  ⟨v.display, .literal v⟩

/- The formula that turns the sign of its source. -/
def negated : Formula :=
  ⟨"-source", .unary .neg .source⟩

/- The formula of an amount that depends on a truthy source. -/
def gated (amount : Number) : Formula :=
  ⟨"source ? " ++ amount.plain ++ " : null",
    .choose .source (.number amount) .absent⟩

/- The value of a formula for a source and a sheet. -/
def eval
    (f : Formula)
    (source : Option Value)
    (sheet : Store) : Option Value :=
  f.expr.eval source sheet

/- The attributes that a formula names, each one once. -/
def dependencies (f : Formula) : List Key :=
  f.expr.keys.eraseDups

/- The patterns by which a formula gathers attributes. -/
def patterns (f : Formula) : List Pattern :=
  f.expr.patterns

end Formula

end CharSheet
