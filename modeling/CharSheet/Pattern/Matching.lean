import CharSheet.Pattern.Basic

/-
  Matching patterns against texts.

  A place in a text is a number of characters from its start.
  A tree is searched in the order of its preferences, and the
  first end that is found is the end of the match.  Where the
  search has to decide, it does so once for each place; this
  also ends rounds that take up no character.  The match of a
  pattern begins at the leftmost place that has one.

  Key definitions include:
    * `Assertion.holds`
    * `Pattern.Search`
    * `Pattern.Node.search`
    * `Pattern.endFrom?`
    * `Pattern.matchFrom?`
    * `Pattern.matchesIn`
    * `Pattern.count`
-/

namespace CharSheet

------------------------------------------------------------
-- Assertions
------------------------------------------------------------

/- The character before a place is a part of a word. -/
def wordBefore
    (text : Array Char)
    (place : Nat) : Bool :=
  0 < place && text[place - 1]?.any Text.isWordPart

/- The character after a place is a part of a word. -/
def wordAfter
    (text : Array Char)
    (place : Nat) : Bool :=
  text[place]?.any Text.isWordPart

/- A condition holds at a place of a text. -/
def Assertion.holds
    (a : Assertion)
    (text : Array Char)
    (place : Nat) : Bool :=
  match a with
  | .textStart => place = 0
  | .textEnd => place = text.size
  | .lineStart => place = 0 || text[place - 1]? = some '\n'
  | .lineEnd => place = text.size || text[place]? = some '\n'
  | .wordEdge => wordBefore text place != wordAfter text place
  | .noWordEdge =>
      wordBefore text place == wordAfter text place
  | .wordStart =>
      !wordBefore text place && wordAfter text place
  | .wordEnd =>
      wordBefore text place && !wordAfter text place
  | .noWordBefore => !wordBefore text place
  | .noWordAfter => !wordAfter text place

namespace Pattern

------------------------------------------------------------
-- Searching
------------------------------------------------------------

/-
  The parts of a tree where a search has to decide, each with
  the place it was at.  A part is named by the way to it from
  the root, the last turn first.
-/
abbrev Trail := List (List Nat × Nat)

/-
  A search for the end of a match, which keeps track of the
  decisions that it has come to.
-/
abbrev Search := StateM Trail (Option Nat)

/- What is searched from the end place of a part. -/
abbrev Next := Nat → Search

namespace Search

/- No match. -/
def fail : Search := return none

/- Search the second way if the first one fails. -/
def orElse (first second : Search) : Search := do
  match ← first with
  | some stop => return some stop
  | none => second

/- Search a part and what follows it, in an order of greed. -/
def prefer
    (greedy : Bool)
    (more rest : Search) : Search :=
  if greedy then more.orElse rest else rest.orElse more

/-
  Decide at a part and a place.  What was decided there before
  is never searched again.
-/
def once
    (part : List Nat)
    (place : Nat)
    (search : Search) : Search := do
  if (← get).contains (part, place) then fail
  else
    modify ((part, place) :: ·)
    search

/-
  Decide after a round whether to take one more.  No place is
  decided at twice, so there are at most as many rounds within
  each other as there are places.
-/
def rounds
    (round : Next → Next)
    (greedy : Bool)
    (part : List Nat)
    (next : Next) : Nat → Next
  | 0, _ => fail
  | fuel + 1, place =>
      once part place
        (prefer greedy
          (round (rounds round greedy part next fuel) place)
          (next place))

end Search

/-
  Search a tree from a place, and what follows it from each of
  its ends in the order of preference.
-/
def Node.search
    (text : Array Char) : Node → List Nat → Next → Next
  | .empty, _, next, place => next place
  | .set s, _, next, place =>
      if text[place]?.any s.holds then next (place + 1)
      else Search.fail
  | .anchor a, _, next, place =>
      if a.holds text place then next place else Search.fail
  | .sequence first second, part, next, place =>
      first.search text (0 :: part)
        (second.search text (1 :: part) next) place
  | .choice first second, part, next, place =>
      Search.once part place
        ((first.search text (0 :: part) next place).orElse
          (second.search text (1 :: part) next place))
  | .optional greedy body, part, next, place =>
      Search.once part place
        (Search.prefer greedy
          (body.search text (0 :: part) next place)
          (next place))
  | .many greedy body, part, next, place =>
      let round := body.search text (0 :: part)
      let again :=
        Search.rounds round greedy part next (text.size + 2)
      round again place

------------------------------------------------------------
-- Matches
------------------------------------------------------------

/- The end of the preferred match that begins at a place. -/
def endFrom?
    (p : Pattern)
    (text : Array Char)
    (place : Nat) : Option Nat :=
  let stop : Next := fun place => return some place
  ((p.node.search text [] stop place).run []).1

/-
  The leftmost match that begins at a place or after it, of
  at most `fuel` places that are tried.
-/
def matchFrom?
    (p : Pattern)
    (text : Array Char) : Nat → Nat → Option (Nat × Nat)
  | 0, _ => none
  | fuel + 1, place =>
      if text.size < place then none
      else
        match p.endFrom? text place with
        | some stop => some (place, stop)
        | none => matchFrom? p text fuel (place + 1)

/- A text has a match of the pattern. -/
def matchesIn
    (p : Pattern)
    (s : String) : Bool :=
  let text := s.toList.toArray
  (p.matchFrom? text (text.size + 1) 0).isSome

/-
  Count matches that do not overlap, from a place on.  An
  empty match right after the one before it is passed over.
-/
def countFrom
    (p : Pattern)
    (text : Array Char) : Nat → Option Nat → Nat → Nat
  | 0, _, _ => 0
  | fuel + 1, previous, place =>
      match p.matchFrom? text (text.size + 1) place with
      | none => 0
      | some (start, stop) =>
          if start = stop ∧ previous = some stop then
            countFrom p text fuel previous (place + 1)
          else 1 + countFrom p text fuel (some stop) stop

/- The number of matches in a text that do not overlap. -/
def count
    (p : Pattern)
    (s : String) : Nat :=
  let text := s.toList.toArray
  p.countFrom text (2 * text.size + 2) none 0

end Pattern

end CharSheet
