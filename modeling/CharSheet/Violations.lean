import CharSheet.Store

/-
  Constraints that a sheet breaks.

  Key definitions include:
    * `Value.reports`
    * `violations`
-/

namespace CharSheet

/-
  A note with this value reports a broken constraint: it is a
  number other than zero, or a truthy word.
-/
def Value.reports (v : Value) : Bool :=
  match v.number? with
  | some n => !n.isZero
  | none => v.truthy

/-
  The notes that report broken constraints, in the order of
  their names.
-/
def violations (sheet : Store) : List Key :=
  (sheet.toList.filter fun (key, v) =>
    key.isConstraint && v.reports).map (·.1)

end CharSheet
