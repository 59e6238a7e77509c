import CharSheet.Random.Words

/-
  Random draws.

  Draws are made by a generator, of which only little is known
  here: an index is below its range, an order has each index
  once, and a position is never that of a weight of zero.  A
  stream of words is such a generator.

  Key definitions include:
    * `Generator`
    * `Source`
    * `Source.ofSeed`
    * `Random`
    * `Random.below`
    * `Random.pick`
    * `Random.shuffle`
    * `Random.chance`
    * `Random.weighted`
-/

namespace CharSheet

------------------------------------------------------------
-- Generators
------------------------------------------------------------

/- Weights of which none is negative and that have a sum. -/
structure AreWeights (ws : List Number) : Prop where
  nonneg : ∀ w ∈ ws, Number.le 0 w = true
  sum : (Number.sum ws).isFinite = true

/-
  What is drawn after a number of words has been used, and how
  many have been used then.  Weights without a position are
  all zero, or they are no weights.
-/
structure Generator where
  index : Nat → StateM Nat Nat
  order : Nat → StateM Nat (List Nat)
  happens : Number → StateM Nat Bool
  position : List Number → StateM Nat (Option Nat)
  index_lt : ∀ {range : Nat}, 0 < range →
    ∀ used, ((index range).run used).1 < range
  order_perm : ∀ length used,
    ((order length).run used).1.Perm (List.range length)
  isZero_of_position : ∀ {ws : List Number} {used : Nat},
    AreWeights ws → ((position ws).run used).1 = none →
      ∀ w ∈ ws, w.isZero = true
  exists_of_position : ∀ {ws : List Number} {used i : Nat},
    ((position ws).run used).1 = some i →
      ∃ w, ws[i]? = some w ∧ w.isZero = false

/- The generator that draws from a stream of words. -/
def Words.generator (s : Words) : Generator where
  index := s.index
  order := s.order
  happens := s.happens
  position := s.position
  index_lt := s.index_lt
  order_perm := s.order_perm
  isZero_of_position := fun _ => s.isZero_of_position
  exists_of_position := s.exists_of_position

------------------------------------------------------------
-- Sources
------------------------------------------------------------

/- A generator, and the number of words that are used. -/
structure Source where
  generator : Generator
  used : Nat

/- The source of a list of words, and of those from a seed. -/
def Source.ofSeed
    (seed : UInt64)
    (words : Array UInt32) : Source where
  generator := (Words.ofSeed seed words).generator
  used := 0

/- A draw from a source, which leaves the source after it. -/
abbrev Random (α : Type) := StateM Source α

namespace Random

/- Draw something by the generator of the source. -/
def draw
    {α : Type}
    (f : Generator → StateM Nat α) : Random α := do
  let source ← get
  let (drawn, used) := (f source.generator).run source.used
  set { source with used }
  return drawn

------------------------------------------------------------
-- Indices
------------------------------------------------------------

/- Draw an index below a range. -/
def below (range : Nat) : Random Nat :=
  draw (·.index range)

/- Draw a number from the first one up to the last one. -/
def between (first last : Nat) : Random Nat := do
  let i ← below (last - first + 1)
  return first + i

------------------------------------------------------------
-- Lists
------------------------------------------------------------

/- Draw an item of a list; the empty list takes no word. -/
def pick {α : Type} : List α → Random (Option α)
  | [] => return none
  | x :: xs => do
      let i ← below (xs.length + 1)
      return (x :: xs)[i]?

/- Put a list in a random order. -/
def shuffle {α : Type} (xs : List α) : Random (List α) := do
  let order ← draw (·.order xs.length)
  return order.filterMap (xs[·]?)

------------------------------------------------------------
-- Chances
------------------------------------------------------------

/- Draw whether something of a given chance happens. -/
def chance (p : Number) : Random Bool :=
  draw (·.happens p)

/- Draw a position by weights, if they have one. -/
def weighted (ws : List Number) : Random (Option Nat) :=
  draw (·.position ws)

end Random

end CharSheet
