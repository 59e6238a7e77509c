import CharSheet.Graph
import CharSheet.Rulebook.Basic

/-
  Computing a character's sheet.

  The attributes are computed one after another, each after
  those that it depends on.  Attributes that depend on each
  other are computed in the order of their names, from what is
  known of the others by then.

  The plan of a rulebook is told from its rules each time.  A
  plan may be kept as long as no rule is added or taken back:
  nothing else that changes in a rulebook is a part of it, so
  that keeping it is left out here.

  Key definitions include:
    * `Rulebook.graph`
    * `Rulebook.rulesFor`
    * `Plan`
    * `Plan.sheet`
    * `Rulebook.plan`
    * `Rulebook.sheet`
    * `Breakdown`
    * `Rulebook.explain`
-/

namespace CharSheet

namespace Rulebook

------------------------------------------------------------
-- Dependencies
------------------------------------------------------------

/- The attributes that some rule has as its target. -/
def targets (book : Rulebook) : List Key :=
  ((book.rules.map (·.target)).mergeSort (· ≤ ·)).eraseReps

/- The targets other than a rule's own that a pattern finds. -/
def found
    (targets : List Key)
    (own : Key)
    (pattern : Pattern) : List Key :=
  targets.filter fun key => pattern.matchesIn key && key ≠ own

/- The attributes that a rule depends on. -/
def dependencies
    (targets : List Key)
    (r : Rule) : List Key :=
  r.source ::
    match r.formula with
    | none => []
    | some f =>
        f.dependencies ++
          f.patterns.flatMap (found targets r.target)

/- The dependencies of all rules. -/
def graph (book : Rulebook) : Graph :=
  let targets := book.targets
  book.rules.foldl
    (fun g r =>
      (dependencies targets r).foldl
        (fun g key => g.addEdge r.target key) g)
    .empty

/- The rules of an attribute, in the order of application. -/
def rulesFor (book : Rulebook) (key : Key) : List Rule :=
  (book.rules.filter (·.target = key)).mergeSort Rule.before

end Rulebook

------------------------------------------------------------
-- Plans
------------------------------------------------------------

/-
  The attributes that are computed, in the order of their
  computation, with the rules of each one.
-/
abbrev Plan := List (Key × List Rule)

namespace Plan

/-
  Compute an attribute from its input on a sheet that is not
  finished yet.
-/
def step
    (input sheet : Store)
    (key : Key)
    (rules : List Rule) : Store :=
  sheet.put key (Rule.joinAll sheet rules input[key]?)

/- The sheet that is computed from an input. -/
def sheet (plan : Plan) (input : Store) : Store :=
  plan.foldl
    (fun sheet (key, rules) => step input sheet key rules)
    input

end Plan

namespace Rulebook

/-
  The plan that follows an order of components: of each one
  the members that have rules.
-/
def planAlong
    (book : Rulebook)
    (order : List Graph.Component) : Plan :=
  order.flatMap fun c =>
    (c.members.map fun key => (key, book.rulesFor key)).filter
      fun (_, rules) => !rules.isEmpty

/- The plan that computes all attributes. -/
def plan (book : Rulebook) : Plan :=
  book.planAlong book.graph.components

/- The sheet of a character. -/
def sheet (book : Rulebook) (input : Store) : Store :=
  book.plan.sheet input

end Rulebook

------------------------------------------------------------
-- Breakdowns
------------------------------------------------------------

/-
  How an attribute gets its value: what it was set to, and
  what each rule contributes.
-/
structure Breakdown where
  key : Key
  value : Option Value
  input : Option Value
  contributions : List (String × Option Value)
deriving DecidableEq

namespace Breakdown

/- The line of a contribution. -/
def contributionLine
    (rule : String)
    (contribution : Option Value) : String :=
  "  " ++ rule ++ " -> " ++
    (contribution.map Value.display).getD "nothing" ++ "\n"

/- The text of a breakdown, one line for each entry. -/
def display (b : Breakdown) : String :=
  let heading :=
    match b.value with
    | some v => b.key ++ " = " ++ v.display ++ "\n"
    | none => b.key ++ " (absent)\n"
  let input :=
    match b.input with
    | some v => "  input: " ++ v.display ++ "\n"
    | none => ""
  heading ++ input ++
    String.join (b.contributions.map fun (rule, v) =>
      contributionLine rule v)

end Breakdown

namespace Rulebook

/-
  How an attribute gets its value.  The contributions are what
  the rules find on the finished sheet.
-/
def explain
    (book : Rulebook)
    (input : Store)
    (key : Key) : Breakdown :=
  let sheet := book.sheet input
  { key := key
    value := sheet[key]?
    input := input[key]?
    contributions :=
      (Rule.traceAll sheet (book.rulesFor key)).map
        fun (r, v) => (r.description, v) }

end Rulebook

end CharSheet
