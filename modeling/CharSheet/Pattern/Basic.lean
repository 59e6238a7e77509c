import CharSheet.Pattern.CharSet

/-
  Patterns over texts.

  The tree of a pattern has what can be spelled by the part of
  the syntax that is read.

  Key definitions include:
    * `Assertion`
    * `Pattern.Node`
    * `Pattern.Node.repeated`
    * `Pattern`
-/

namespace CharSheet

/-
  A condition on a place in a text that takes up no
  character.
-/
inductive Assertion where
  | textStart
  | textEnd
  | lineStart
  | lineEnd
  | wordEdge
  | noWordEdge
  | wordStart
  | wordEnd
  | noWordBefore
  | noWordAfter
deriving DecidableEq

namespace Pattern

/-
  The tree of a pattern.  A part may be left out, or take one
  or more rounds; it prefers to take its parts and more rounds
  of them when it is greedy.
-/
inductive Node where
  | empty
  | set (s : CharSet)
  | anchor (a : Assertion)
  | sequence (first second : Node)
  | choice (first second : Node)
  | optional (greedy : Bool) (body : Node)
  | many (greedy : Bool) (body : Node)
deriving DecidableEq

namespace Node

/- The number of parts of a tree. -/
def size : Node → Nat
  | .empty => 1
  | .set _ => 1
  | .anchor _ => 1
  | .sequence first second => first.size + second.size + 1
  | .choice first second => first.size + second.size + 1
  | .optional _ body => body.size + 1
  | .many _ body => body.size + 1

/- A tree a number of times before another one. -/
def times (node : Node) : Nat → Node → Node
  | 0, rest => rest
  | n + 1, rest => .sequence node (node.times n rest)

/- A tree any number of times up to the given one. -/
def upTo
    (greedy : Bool)
    (node : Node) : Nat → Node
  | 0 => .empty
  | n + 1 =>
      .optional greedy (.sequence node (node.upTo greedy n))

/-
  A tree from a least number of times up to a greatest one,
  or without an end if there is none.
-/
def repeated
    (least : Nat)
    (most : Option Nat)
    (greedy : Bool)
    (node : Node) : Node :=
  match most, least with
  | some most, least =>
      node.times least (node.upTo greedy (most - least))
  | none, 0 => .optional greedy (.many greedy node)
  | none, least + 1 => node.times least (.many greedy node)

end Node

end Pattern

/- A pattern with the text that it was read from. -/
structure Pattern where
  source : String
  node : Pattern.Node
deriving DecidableEq

end CharSheet
