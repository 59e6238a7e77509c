import CharSheet.Number.Arithmetic
import CharSheet.Number.Decimal
import CharSheet.Pool
import CharSheet.Text.Capitals

/-
  Fragments of notes that have a meaning for the sheet.

  A grant such as `Skill Proficiency (Choose 2 from any)` and
  an adjustment such as `+%V Armor Class` are found anywhere
  in a note, except right after a letter or a numeral.  All
  other text is passed over.

  Key definitions include:
    * `Item`, `Adjustment`, `Amount`
    * `Fragment`
    * `Fragment.readGrant?`
    * `Fragment.readAdjustment?`
    * `Fragment.allIn`
-/

namespace CharSheet

------------------------------------------------------------
-- Fragments
------------------------------------------------------------

/-
  An item of a grant: a choice among options, of which none
  listed means any, or a thing that is granted.
-/
inductive Item where
  | choose (count : Nat) (options : Option (List String))
  | grant (name : String) (amount : Number)
deriving DecidableEq

/- How an adjustment changes its attribute. -/
inductive Adjustment where
  | add
  | subtract
  | multiply
deriving DecidableEq

/-
  The amount of an adjustment: a number, the value of the
  note, or one of its numbered parts.
-/
inductive Amount where
  | number (n : Number)
  | value
  | part (index : Nat)
deriving DecidableEq

/- A part of a note that has a meaning. -/
inductive Fragment where
  | grant (kind : PoolKind) (items : List Item)
  | adjust
      (op : Adjustment)
      (amount : Amount)
      (words : List String)
deriving DecidableEq

namespace Fragment

------------------------------------------------------------
-- Words and Numbers
------------------------------------------------------------

/- A character of a word. -/
def inWord (c : Char) : Bool :=
  Text.isLetterOrNumeral c || c = '\'' || c = '-'

/- Drop spaces. -/
def skipSpaces (cs : List Char) : List Char :=
  cs.dropWhile (· = ' ')

/-
  Read digits with a point between them or none.  A point
  that no digit follows is left alone.
-/
def readNumber? (cs : List Char) :
    Option (Number × List Char) :=
  let (whole, rest) := splitDigits cs
  let (literal, rest) :=
    match rest with
    | '.' :: c :: more =>
        if c.isDigit then
          let (fraction, after) := splitDigits (c :: more)
          (whole ++ '.' :: fraction, after)
        else (whole, rest)
    | _ => (whole, rest)
  if whole.isEmpty then none
  else (Number.ofChars? literal).map (·, rest)

/-
  The text up to the bracket that closes the given number of
  open ones, and what follows that bracket.
-/
def readInside? :
    Nat → List Char → Option (List Char × List Char)
  | _, [] => none
  | depth, c :: cs =>
      if c = ')' ∧ depth ≤ 1 then some ([], cs)
      else
        let depth :=
          if c = '(' then depth + 1
          else if c = ')' then depth - 1
          else depth
        (readInside? depth cs).map fun (inside, rest) =>
          (c :: inside, rest)

/- Read a text in brackets, which may hold more brackets. -/
def readBrackets? :
    List Char → Option (List Char × List Char)
  | '(' :: cs => readInside? 1 cs
  | _ => none

/- The parts of a text between slashes outside brackets. -/
def splitItems : Nat → List Char → List (List Char)
  | _, [] => [[]]
  | depth, c :: cs =>
      if c = '/' ∧ depth = 0 then [] :: splitItems 0 cs
      else
        let depth :=
          if c = '(' then depth + 1
          else if c = ')' then depth - 1
          else depth
        match splitItems depth cs with
        | [] => [[c]]
        | part :: parts => (c :: part) :: parts

------------------------------------------------------------
-- Items
------------------------------------------------------------

/- The trimmed parts of a list that are not empty. -/
def trimmedParts (parts : List (List Char)) : List String :=
  ((parts.map Text.trimChars).filter fun part =>
    !part.isEmpty).map String.ofList

/- Read the options of a choice, of which none means any. -/
def readOptions (list : List Char) : Option (List String) :=
  if equalIgnoringCase (String.ofList list) "any" then none
  else
    some (trimmedParts
      ((Text.splitAtChar ',' list).flatMap
        (Text.splitAtChar ';')))

/- The greatest count of a choice. -/
def countLimit : Nat := Nat.pow 2 32 - 1

/- Read a choice after the word `Choose`. -/
def readChoose? (cs : List Char) : Option Item := do
  let (count, rest) ← readNumber? (skipSpaces cs)
  let rest ← Text.after? "from".toList (skipSpaces rest)
  let list := Text.trimChars rest
  let whole ← count.integer?
  if list.isEmpty || whole < 1 then none
  else
    return .choose (count.clampToNat countLimit)
      (readOptions list)

/- Read a boost, whose amount may stand before its name. -/
def readBoost (cs : List Char) : Item :=
  let plain := Item.grant (String.ofList cs) 1
  match cs with
  | '+' :: rest =>
      match readNumber? rest with
      | some (amount, name) =>
          .grant (String.ofList (Text.trimChars name)) amount
      | none => plain
  | _ => plain

/- Read the items of one part of a grant. -/
def readItems
    (kind : PoolKind)
    (part : String) : List Item :=
  match Text.after? "Choose ".toList part.toList with
  | some rest => (readChoose? rest).toList
  | none =>
      (trimmedParts (Text.splitAtChar ';' part.toList)).map
        fun name =>
          if kind = .abilityBoost then readBoost name.toList
          else .grant name 1

/- Read all items of a grant. -/
def readAllItems
    (kind : PoolKind)
    (inside : List Char) : List Item :=
  (trimmedParts (splitItems 0 inside)).flatMap
    (readItems kind)

------------------------------------------------------------
-- Grants and Adjustments
------------------------------------------------------------

/- Read the kind of a grant. -/
def readKind? (cs : List Char) :
    Option (PoolKind × List Char) :=
  match Text.after? "Ability Boost".toList cs with
  | some rest => some (.abilityBoost, rest)
  | none =>
      match Text.after? "Language".toList cs with
      | some rest => some (.language, rest)
      | none => do
          let word := String.ofList (cs.takeWhile inWord)
          let kind ← PoolKind.ofProficiency? word
          let rest ← Text.after? "Proficiency".toList
            (skipSpaces (cs.dropWhile inWord))
          return (kind, rest)

/- Read a grant with at least one item. -/
def readGrant? (cs : List Char) :
    Option (Fragment × List Char) := do
  let (kind, rest) ← readKind? cs
  let (inside, rest) ← readBrackets? (skipSpaces rest)
  let items := readAllItems kind inside
  if items.isEmpty then none
  else return (.grant kind items, rest)

/- Read the sign of an adjustment. -/
def readSign? : List Char → Option (Adjustment × List Char)
  | '+' :: rest => some (.add, rest)
  | '-' :: rest => some (.subtract, rest)
  | 'x' :: rest => some (.multiply, rest)
  | _ => none

/- Read the amount of an adjustment. -/
def readAmount? (cs : List Char) :
    Option (Amount × List Char) :=
  match cs with
  | '%' :: 'V' :: rest => some (.value, rest)
  | '%' :: c :: rest =>
      if c.isDigit then some (.part (digitValue c), rest)
      else none
  | cs =>
      (readNumber? cs).map fun (n, rest) => (.number n, rest)

/-
  Read words that begin with a capital, with one space
  between two of them.  The first argument holds the word
  that is being read, its last character first.
-/
def readWords :
    List Char → List Char → List String × List Char
  | [], [] => ([], [])
  | word, [] => ([String.ofList word.reverse], [])
  | [], c :: cs =>
      if Text.isCapital c then readWords [c] cs
      else ([], c :: cs)
  | last :: word, c :: cs =>
      let done := String.ofList (last :: word).reverse
      if inWord c then readWords (c :: last :: word) cs
      else if c = ' ' ∧ cs.head?.any Text.isCapital then
        let (words, rest) := readWords [] cs
        (done :: words, rest)
      else ([done], c :: cs)

/- Read an adjustment with at least one word. -/
def readAdjustment? (cs : List Char) :
    Option (Fragment × List Char) := do
  let (op, rest) ← readSign? cs
  let (amount, rest) ← readAmount? rest
  match rest with
  | ' ' :: rest =>
      let (words, rest) := readWords [] rest
      if words.isEmpty then none
      else return (.adjust op amount words, rest)
  | _ => none

------------------------------------------------------------
-- Notes
------------------------------------------------------------

/- Read the fragment at the front of a text. -/
def read? (cs : List Char) : Option (Fragment × List Char) :=
  (readGrant? cs).or (readAdjustment? cs)

/-
  The fragments of a text.  The arguments are the character
  before the text, unless a fragment ended there, and the
  number of characters that a fragment still takes up.
-/
def scan :
    Option Char → Nat → List Char → List Fragment
  | _, _, [] => []
  | previous, skip + 1, _ :: cs => scan previous skip cs
  | previous, 0, c :: cs =>
      let found :=
        if previous.any Text.isLetterOrNumeral then none
        else read? (c :: cs)
      match found with
      | some (fragment, rest) =>
          fragment :: scan none (cs.length - rest.length) cs
      | none => scan (some c) 0 cs

/- All fragments of a note. -/
def allIn (note : String) : List Fragment :=
  scan none 0 note.toList

end Fragment

end CharSheet
