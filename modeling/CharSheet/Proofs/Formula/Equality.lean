import CharSheet.Declaration
import CharSheet.Rule

/-
  Equality of expressions, and of what is made of them.

  Expressions stand in lists of arguments, so that they are
  compared together with such lists.

  Main declarations:
    * `Expr.isSame`, `Expr.areSame`
    * `Expr.isSame_iff`
-/

namespace CharSheet

namespace Expr

mutual

/- The expressions are the same. -/
def isSame : Expr → Expr → Bool
  | .literal v, .literal w => v = w
  | .absent, .absent => true
  | .source, .source => true
  | .attr key, .attr other => key = other
  | .unary op e, .unary op' e' => op = op' && isSame e e'
  | .binary op a b, .binary op' a' b' =>
      op = op' && isSame a a' && isSame b b'
  | .both a b, .both a' b' => isSame a a' && isSame b b'
  | .either a b, .either a' b' => isSame a a' && isSame b b'
  | .choose c a b, .choose c' a' b' =>
      isSame c c' && isSame a a' && isSame b b'
  | .call f es, .call f' es' => f = f' && areSame es es'
  | .occurrences e p, .occurrences e' p' =>
      isSame e e' && p = p'
  | .gather kind p, .gather kind' p' => kind = kind' && p = p'
  | _, _ => false

/- The lists have the same expressions in the same places. -/
def areSame : List Expr → List Expr → Bool
  | [], [] => true
  | e :: es, e' :: es' => isSame e e' && areSame es es'
  | _, _ => false

end

mutual

theorem isSame_iff : ∀ a b : Expr, isSame a b = true ↔ a = b
  | .literal _, b => by cases b <;> simp [isSame]
  | .absent, b => by cases b <;> simp [isSame]
  | .source, b => by cases b <;> simp [isSame]
  | .attr _, b => by cases b <;> simp [isSame]
  | .unary _ e, b => by cases b <;> simp [isSame, isSame_iff e]
  | .binary _ a a', b => by
      cases b <;>
        simp [isSame, isSame_iff a, isSame_iff a', and_assoc]
  | .both a a', b => by
      cases b <;> simp [isSame, isSame_iff a, isSame_iff a']
  | .either a a', b => by
      cases b <;> simp [isSame, isSame_iff a, isSame_iff a']
  | .choose c a a', b => by
      cases b <;>
        simp [isSame, isSame_iff c, isSame_iff a,
          isSame_iff a', and_assoc]
  | .call _ es, b => by cases b <;> simp [isSame, areSame_iff es]
  | .occurrences e _, b => by
      cases b <;> simp [isSame, isSame_iff e]
  | .gather _ _, b => by cases b <;> simp [isSame]

theorem areSame_iff :
    ∀ es fs : List Expr, areSame es fs = true ↔ es = fs
  | [], fs => by cases fs <;> simp [areSame]
  | e :: es, fs => by
      cases fs <;> simp [areSame, isSame_iff e, areSame_iff es]

end

instance : DecidableEq Expr := fun a b =>
  decidable_of_iff _ (isSame_iff a b)

end Expr

deriving instance DecidableEq for Formula, Rule, Declaration

end CharSheet
