/-
  Sets of characters given by their edges.

  A set is the sorted list of the code points where
  membership changes: the first begins a span, the second
  ends it, and so on.

  Key definitions include:
    * `Spans.mem`, `Spans.memAny`
    * `Run`
    * `Run.applyFirst`
    * `Run.sources`
-/

namespace CharSheet

------------------------------------------------------------
-- Spans
------------------------------------------------------------

namespace Spans

/-
  A code point lies in a span: after an odd number of edges.
-/
def mem : List Nat → Nat → Bool
  | [], _ => false
  | [low], n => low ≤ n
  | low :: high :: rest, n =>
      if n < low then false
      else if n < high then true
      else mem rest n

/-
  A code point lies in a span of one of several pieces, of
  which each holds whole spans.
-/
def memAny
    (pieces : List (List Nat))
    (n : Nat) : Bool :=
  pieces.any fun piece =>
    match piece with
    | [] => false
    | low :: _ => low ≤ n && mem piece n

end Spans

------------------------------------------------------------
-- Runs
------------------------------------------------------------

/-
  A run of code points that all move by the same distance:
  from `first` to `last`, every `step`-th of them.
-/
structure Run where
  first : Nat
  last : Nat
  step : Nat
  distance : Int

namespace Run

/- The run holds the code point. -/
def covers
    (r : Run)
    (n : Nat) : Bool :=
  r.first ≤ n && n ≤ r.last && (n - r.first) % r.step == 0

/- Move a code point by the first run that holds it. -/
def applyFirst
    (runs : List Run)
    (n : Nat) : Nat :=
  match runs.find? (·.covers n) with
  | some r => ((n : Int) + r.distance).toNat
  | none => n

/- The code points that some run moves to the given one. -/
def sources
    (runs : List Run)
    (n : Nat) : List Nat :=
  runs.filterMap fun r =>
    let source := ((n : Int) - r.distance).toNat
    if r.covers source then some source else none

end Run

end CharSheet
