import CharSheet.Key
import CharSheet.Value
import Std.Data.ExtTreeMap

/-
  The attributes of one character.

  A store maps names of attributes to values, in the order of
  the names.  The same type holds what a player entered and
  the sheet that is computed from it.

  Key definitions include:
    * `Store`
    * `Store.put`
    * `Store.number?`
    * `Store.truthy`
    * `Store.under`
    * `Store.sumUnder`
-/

namespace CharSheet

/- The attributes of a character, by name. -/
abbrev Store := Std.ExtTreeMap Key Value

namespace Store

/- Set an attribute, or remove it where there is no value. -/
def put
    (s : Store)
    (key : Key) : Option Value → Store
  | some v => s.insert key v
  | none => s.erase key

/- The numeric view of an attribute. -/
def number?
    (s : Store)
    (key : Key) : Option Number :=
  s[key]?.bind Value.number?

/- The attribute is present and truthy. -/
def truthy
    (s : Store)
    (key : Key) : Bool :=
  s[key]?.any Value.truthy

/- The attributes under a scope, in the order of names. -/
def under
    (s : Store)
    (scope : String) : List (Key × Value) :=
  s.toList.filter fun (key, _) => Key.isUnder key scope

/- The sum of the numeric attributes under a scope. -/
def sumUnder
    (s : Store)
    (scope : String) : Number :=
  Number.sum ((s.under scope).filterMap (·.2.number?))

end Store

end CharSheet
