import CharSheet.Number.Decimal
import CharSheet.Pattern.Basic

/-
  Reading patterns from text.

  A text that is not a pattern is refused as a whole: an open
  bracket or group, a repetition of nothing, a range or a
  count in the wrong order, an escape without a meaning.

  Only a part of the usual syntax is read: characters and
  their escapes by code points, classes with their operators,
  the named ones of ASCII and `\d`, `\s` and `\w`, edges of
  words, anchors, groups, branches, repetitions, and the flags
  `i`, `m`, `s`, `U` and `u`.  Classes of properties such as
  `\pL` and `\p{Lu}`, the flags `x` and `R`, and turning `u`
  off are refused as well, though they have a meaning there.
  What is proved of patterns holds of any that are read.

  Key definitions include:
    * `Pattern.Flags`
    * `Pattern.readClass?`
    * `Pattern.readChoice?`
    * `Pattern.ofText?`
-/

namespace CharSheet

namespace Pattern

------------------------------------------------------------
-- Flags
------------------------------------------------------------

/-
  The flags in force at a place of a pattern: case ignored,
  `^` and `$` at every line, `.` for line ends too, and
  greed swapped.
-/
structure Flags where
  ignoreCase : Bool := false
  lines : Bool := false
  dotAll : Bool := false
  swapGreed : Bool := false

/- Set the flag of a letter, if there is one. -/
def Flags.set?
    (f : Flags)
    (letter : Char)
    (on : Bool) : Option Flags :=
  match letter with
  | 'i' => some { f with ignoreCase := on }
  | 'm' => some { f with lines := on }
  | 's' => some { f with dotAll := on }
  | 'U' => some { f with swapGreed := on }
  | 'u' => if on then some f else none
  | _ => none

/-
  Read letters of flags up to a colon or a closing bracket.
  A flag may stand once, one minus sign turns the flags after
  it off, and a flag has to follow it.
-/
def readFlags?
    (flags : Flags)
    (on : Bool)
    (seen : List Char) :
    List Char → Option (Flags × Char × List Char)
  | [] => none
  | c :: rest =>
      if c = ':' ∨ c = ')' then
        if seen.head? = some '-' then none
        else some (flags, c, rest)
      else if c ∈ seen then none
      else if c = '-' then
        readFlags? flags false ('-' :: seen) rest
      else
        match flags.set? c on with
        | some flags => readFlags? flags on (c :: seen) rest
        | none => none

------------------------------------------------------------
-- Characters and Escapes
------------------------------------------------------------

/- The tree of one character of a set. -/
def Flags.setNode (f : Flags) (s : CharSet) : Node :=
  .set (if f.ignoreCase then .folded s else s)

/- What an escape stands for. -/
inductive Escape where
  | char (c : Char)
  | set (s : CharSet)
  | anchor (a : Assertion)

/- The character of a code point, if there is one. -/
def charOf? (n : Nat) : Option Char :=
  if n.isValidChar then some (Char.ofNat n) else none

/- The value of a row of hexadecimal digits. -/
def codeOf? (digits : List Char) : Option Nat :=
  digits.foldlM
    (fun n c => (hexValue? c).map (16 * n + ·)) 0

/-
  Read the code point of an escape: a fixed number of
  hexadecimal digits, or any number of them in braces.
-/
def readCode?
    (width : Nat)
    (cs : List Char) : Option (Char × List Char) :=
  match cs with
  | '\x7b' :: rest => do
      let digits := rest.takeWhile (· ≠ '\x7d')
      let n ← codeOf? digits
      let c ← charOf? n
      match rest.drop digits.length with
      | _ :: after =>
          if digits.isEmpty then none else some (c, after)
      | [] => none
  | cs => do
      let digits := cs.take width
      let n ← codeOf? digits
      let c ← charOf? n
      if digits.length = width then
        some (c, cs.drop width)
      else none

/- The condition that a name after `\b` stands for. -/
def namedEdge? (name : String) : Option Assertion :=
  match name with
  | "start" => some .wordStart
  | "end" => some .wordEnd
  | "start-half" => some .noWordBefore
  | "end-half" => some .noWordAfter
  | _ => none

/- A character that may stand in the name of an edge. -/
def inEdgeName (c : Char) : Bool :=
  c.isAlpha || c = '-'

/-
  Read the edge of a word after `\b`, which may have a name in
  braces.  Braces around something else are a repetition.
-/
def readEdge? (cs : List Char) :
    Option (Assertion × List Char) :=
  match cs with
  | '\x7b' :: rest =>
      let name := rest.takeWhile inEdgeName
      if name.isEmpty then some (.wordEdge, cs)
      else
        match namedEdge? (String.ofList name),
            rest.drop name.length with
        | some a, '\x7d' :: after => some (a, after)
        | _, _ => none
  | cs => some (.wordEdge, cs)

/-
  Read what follows a backslash.  A character that is neither
  a letter nor a digit stands for itself.
-/
def readEscape? :
    List Char → Option (Escape × List Char)
  | [] => none
  | c :: rest =>
      match c with
      | 'd' => some (.set .digit, rest)
      | 'D' => some (.set (.complement .digit), rest)
      | 's' => some (.set .blank, rest)
      | 'S' => some (.set (.complement .blank), rest)
      | 'w' => some (.set .wordPart, rest)
      | 'W' => some (.set (.complement .wordPart), rest)
      | 'b' => (readEdge? rest).map fun (a, r) => (.anchor a, r)
      | 'B' => some (.anchor .noWordEdge, rest)
      | '<' => some (.anchor .wordStart, rest)
      | '>' => some (.anchor .wordEnd, rest)
      | 'A' => some (.anchor .textStart, rest)
      | 'z' => some (.anchor .textEnd, rest)
      | 'a' => some (.char (Char.ofNat 7), rest)
      | 'f' => some (.char (Char.ofNat 12), rest)
      | 't' => some (.char '\t', rest)
      | 'n' => some (.char '\n', rest)
      | 'r' => some (.char '\r', rest)
      | 'v' => some (.char (Char.ofNat 11), rest)
      | 'x' => (readCode? 2 rest).map fun (c, r) => (.char c, r)
      | 'u' => (readCode? 4 rest).map fun (c, r) => (.char c, r)
      | 'U' => (readCode? 8 rest).map fun (c, r) => (.char c, r)
      | c =>
          if c.toNat < 128 ∧ !c.isAlphanum then
            some (.char c, rest)
          else none

------------------------------------------------------------
-- Classes
------------------------------------------------------------

/- The set of a named class. -/
def namedClass? (name : String) : Option CharSet :=
  let upper := CharSet.range 'A' 'Z'
  let lower := CharSet.range 'a' 'z'
  let decimal := CharSet.range '0' '9'
  let alpha := upper.union lower
  let alnum := alpha.union decimal
  let graph := CharSet.range '!' '~'
  let space := (CharSet.range '\t' '\r').union (.single ' ')
  match name with
  | "alnum" => some alnum
  | "alpha" => some alpha
  | "ascii" => some (.range (Char.ofNat 0) (Char.ofNat 127))
  | "blank" => some ((CharSet.single '\t').union (.single ' '))
  | "cntrl" =>
      some ((CharSet.range (Char.ofNat 0) (Char.ofNat 31)).union
        (.single (Char.ofNat 127)))
  | "digit" => some decimal
  | "graph" => some graph
  | "lower" => some lower
  | "print" => some (.range ' ' '~')
  | "punct" => some (graph.diff alnum)
  | "space" => some space
  | "upper" => some upper
  | "word" => some (alnum.union (.single '_'))
  | "xdigit" =>
      some (decimal.union
        ((CharSet.range 'A' 'F').union (.range 'a' 'f')))
  | _ => none

/-
  Read a named class such as `[:alpha:]` after its first
  bracket and colon.
-/
def readNamed?
    (fold : CharSet → CharSet)
    (cs : List Char) : Option (CharSet × List Char) :=
  let (negated, cs) :=
    match cs with
    | '^' :: rest => (true, rest)
    | cs => (false, cs)
  let name := cs.takeWhile Char.isAlpha
  match cs.drop name.length, namedClass? (String.ofList name) with
  | ':' :: ']' :: rest, some s =>
      some (if negated then .complement (fold s) else fold s,
        rest)
  | _, _ => none

/- Read one member of a class: a character or an escape. -/
def readItem? :
    List Char → Option (Escape × List Char)
  | [] => none
  | '\\' :: rest => readEscape? rest
  | c :: rest => some (.char c, rest)

/- The set of a member of a class. -/
def Escape.set?
    (fold : CharSet → CharSet) : Escape → Option CharSet
  | .char c => some (fold (.single c))
  | .set s => some s
  | .anchor _ => none

/-
  Read a member of a class or a range of characters.  A minus
  sign before the end of the class stands for itself.
-/
def readRange?
    (fold : CharSet → CharSet)
    (cs : List Char) : Option (CharSet × List Char) := do
  let (first, rest) ← readItem? cs
  let alone := (first.set? fold).map (·, rest)
  match rest with
  | '-' :: ']' :: _ => alone
  | '-' :: '-' :: _ => alone
  | '-' :: rest => do
      let (last, rest) ← readItem? rest
      match first, last with
      | .char low, .char high =>
          if low ≤ high then some (fold (.range low high), rest)
          else none
      | _, _ => none
  | _ => alone

/- How a part of a class is joined to the parts before it. -/
inductive SetOperator where
  | inter
  | diff
  | symmDiff

/- Join two sets. -/
def SetOperator.join :
    SetOperator → CharSet → CharSet → CharSet
  | .inter => CharSet.inter
  | .diff => CharSet.diff
  | .symmDiff => CharSet.symmDiff

/- The set of the parts of a class that are already read. -/
def joinPending
    (pending : Option (SetOperator × CharSet))
    (s : CharSet) : CharSet :=
  match pending with
  | none => s
  | some (op, before) => op.join before s

mutual

/-
  Read a class after its opening bracket: a caret or none,
  then minus signs or one closing bracket that stand for
  themselves, then its members.
-/
def readClass?
    (fold : CharSet → CharSet) :
    Nat → List Char → Option (CharSet × List Char)
  | 0, _ => none
  | fuel + 1, cs => do
      let (negated, cs) :=
        match cs with
        | '^' :: rest => (true, rest)
        | cs => (false, cs)
      let dashes := cs.takeWhile (· = '-')
      let rest := cs.drop dashes.length
      let start : CharSet :=
        if dashes.isEmpty then .none else .single '-'
      let (s, rest) ←
        match rest with
        | ']' :: rest =>
            if dashes.isEmpty then
              readMembers? fold fuel none (.single ']') rest
            else readMembers? fold fuel none start (']' :: rest)
        | rest => readMembers? fold fuel none start rest
      return (if negated then .complement s else s, rest)

/- Read the members of a class up to its closing bracket. -/
def readMembers?
    (fold : CharSet → CharSet) :
    Nat → Option (SetOperator × CharSet) → CharSet →
      List Char → Option (CharSet × List Char)
  | 0, _, _, _ => none
  | fuel + 1, pending, s, cs =>
      let operator (op : SetOperator) (rest : List Char) :=
        readMembers? fold fuel
          (some (op, joinPending pending s)) .none rest
      match cs with
      | [] => none
      | ']' :: rest => some (joinPending pending s, rest)
      | '&' :: '&' :: rest => operator .inter rest
      | '-' :: '-' :: rest => operator .diff rest
      | '~' :: '~' :: rest => operator .symmDiff rest
      | '[' :: rest =>
          let named :=
            match rest with
            | ':' :: rest => readNamed? fold rest
            | _ => none
          let inner :=
            match named with
            | some found => some found
            | none => readClass? fold fuel rest
          match inner with
          | some (t, rest) =>
              readMembers? fold fuel pending (s.union t) rest
          | none => none
      | cs =>
          match readRange? fold cs with
          | some (t, rest) =>
              readMembers? fold fuel pending (s.union t) rest
          | none => none

end

------------------------------------------------------------
-- Counts
------------------------------------------------------------

/- Read a count with white space around it. -/
def readCount?
    (cs : List Char) : Option (Nat × List Char) :=
  let (digits, rest) := splitDigits (cs.dropWhile Text.isBlank)
  let n := digitsValue digits
  if digits.isEmpty || Nat.pow 2 32 ≤ n then none
  else some (n, rest.dropWhile Text.isBlank)

/-
  Read the counts of a repetition after the opening brace.
-/
def readCounts?
    (cs : List Char) :
    Option (Nat × Option Nat × List Char) := do
  let (least, rest) ← readCount? cs
  match rest with
  | '\x7d' :: rest => some (least, some least, rest)
  | ',' :: rest =>
      match rest with
      | '\x7d' :: rest => some (least, none, rest)
      | rest => do
          let (most, rest) ← readCount? rest
          match rest with
          | '\x7d' :: rest =>
              if least ≤ most then some (least, some most, rest)
              else none
          | _ => none
  | _ => none

/-
  Read a repetition mark: the least and the greatest count,
  and whether a question mark follows.
-/
def readRepeat?
    (cs : List Char) :
    Option (Nat × Option Nat × Bool × List Char) := do
  let (least, most, rest) ←
    match cs with
    | '*' :: rest => some (0, none, rest)
    | '+' :: rest => some (1, none, rest)
    | '?' :: rest => some (0, some 1, rest)
    | '\x7b' :: rest => readCounts? rest
    | _ => none
  match rest with
  | '?' :: rest => some (least, most, true, rest)
  | rest => some (least, most, false, rest)

/- Repetitions that unfold to more parts are refused. -/
def sizeLimit : Nat := 300000

/- A character that begins a repetition mark. -/
def beginsRepeat (c : Char) : Bool :=
  c = '*' || c = '+' || c = '?' || c = '\x7b'

------------------------------------------------------------
-- Groups
------------------------------------------------------------

/- What stands at the beginning of a group. -/
inductive GroupStart where
  | body (flags : Flags)
  | flagsOnly (flags : Flags)

/- A character that may begin the name of a group. -/
def beginsGroupName (c : Char) : Bool :=
  c = '_' || Text.isLetter c

/- A character that may stand in the name of a group. -/
def inGroupName (c : Char) : Bool :=
  c = '_' || c = '.' || c = '[' || c = ']' ||
    Text.isLetterOrNumeral c

/- Read the name of a group up to the closing bracket. -/
def readGroupName?
    (cs : List Char) : Option (List Char) :=
  let name := cs.takeWhile (· ≠ '>')
  match name, cs.drop name.length with
  | c :: more, _ :: rest =>
      if beginsGroupName c && more.all inGroupName then some rest
      else none
  | _, _ => none

/- Read the beginning of a group after its bracket. -/
def readGroup?
    (flags : Flags)
    (cs : List Char) : Option (GroupStart × List Char) :=
  match cs with
  | '?' :: 'P' :: '<' :: rest =>
      (readGroupName? rest).map (.body flags, ·)
  | '?' :: '<' :: '=' :: _ => none
  | '?' :: '<' :: '!' :: _ => none
  | '?' :: '<' :: rest =>
      (readGroupName? rest).map (.body flags, ·)
  | '?' :: ')' :: _ => none
  | '?' :: rest =>
      match readFlags? flags true [] rest with
      | some (inner, ':', rest) => some (.body inner, rest)
      | some (inner, _, rest) => some (.flagsOnly inner, rest)
      | none => none
  | rest => some (.body flags, rest)

------------------------------------------------------------
-- Trees
------------------------------------------------------------

/-
  The tree of a row of parts, given with the last one first.
  A part without a tree only set flags.
-/
def sequenceOf (parts : List (Option Node)) : Node :=
  match parts.filterMap id with
  | [] => .empty
  | last :: before =>
      before.foldl (fun node part => .sequence part node) last

/-
  Read one part that is no group: a class, an escape, a dot,
  an anchor or a character.
-/
def readPart?
    (flags : Flags)
    (cs : List Char) : Option (Node × List Char) :=
  match cs with
  | [] => none
  | '[' :: rest =>
      let fold (s : CharSet) : CharSet :=
        if flags.ignoreCase then .folded s else s
      (readClass? fold (2 * rest.length + 2) rest).map
        fun (s, rest) => (.set s, rest)
  | '\\' :: rest =>
      (readEscape? rest).map fun (e, rest) =>
        match e with
        | .char c => (flags.setNode (.single c), rest)
        | .set s => (.set s, rest)
        | .anchor a => (.anchor a, rest)
  | '.' :: rest =>
      let s : CharSet :=
        if flags.dotAll then .all
        else .complement (.single '\n')
      some (.set s, rest)
  | '^' :: rest =>
      some
        (.anchor (if flags.lines then .lineStart else .textStart),
          rest)
  | '$' :: rest =>
      some
        (.anchor (if flags.lines then .lineEnd else .textEnd),
          rest)
  | c :: rest => some (flags.setNode (.single c), rest)

mutual

/- Read branches between bars, up to the end of a group. -/
def readChoice? :
    Nat → Flags → List Char →
      Option (Node × Flags × List Char)
  | 0, _, _ => none
  | fuel + 1, flags, cs => do
      let (node, flags, rest) ← readRow? fuel flags [] cs
      match rest with
      | '|' :: rest => do
          let (other, flags, rest) ← readChoice? fuel flags rest
          return (.choice node other, flags, rest)
      | rest => return (node, flags, rest)

/- Read the parts of one branch. -/
def readRow? :
    Nat → Flags → List (Option Node) → List Char →
      Option (Node × Flags × List Char)
  | 0, _, _, _ => none
  | fuel + 1, flags, parts, cs =>
      match cs with
      | [] => some (sequenceOf parts, flags, [])
      | '|' :: _ => some (sequenceOf parts, flags, cs)
      | ')' :: _ => some (sequenceOf parts, flags, cs)
      | '(' :: rest => do
          let (start, rest) ← readGroup? flags rest
          match start with
          | .flagsOnly inner =>
              readRow? fuel inner (none :: parts) rest
          | .body inner =>
              let (node, _, rest) ← readChoice? fuel inner rest
              match rest with
              | ')' :: rest =>
                  readRow? fuel flags (some node :: parts) rest
              | _ => none
      | c :: _ =>
          if beginsRepeat c then
            match parts, readRepeat? cs with
            | some node :: parts,
              some (least, most, marked, rest) =>
                let greedy := marked == flags.swapGreed
                if sizeLimit < most.getD least * node.size then
                  none
                else
                  readRow? fuel flags
                    (some (node.repeated least most greedy) ::
                      parts)
                    rest
            | _, _ => none
          else
            match readPart? flags cs with
            | some (node, rest) =>
                readRow? fuel flags (some node :: parts) rest
            | none => none

end

/- The pattern that a text spells, if it is one. -/
def ofText? (s : String) : Option Pattern :=
  let cs := s.toList
  match readChoice? (2 * cs.length + 2) {} cs with
  | some (node, _, []) => some ⟨s, node⟩
  | _ => none

end Pattern

end CharSheet
