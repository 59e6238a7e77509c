import CharSheet.Text.Cut

/-
  Texts with quoted parts.

  A part in single or double quotes is passed over when a
  text is cut.

  Key definitions include:
    * `Text.isQuote`
    * `Text.quoteAfter`
    * `Text.splitOutsideQuotes`
    * `Text.findOutsideQuotes?`
    * `Text.unquote?`
-/

namespace CharSheet

namespace Text

/- The characters that open a quoted part. -/
def isQuote (c : Char) : Bool :=
  c = '"' || c = '\''

/-
  The quote that is open after a character: a quoted part ends
  with the quote that it began with.
-/
def quoteAfter
    (quote : Option Char)
    (c : Char) : Option Char :=
  match quote with
  | some q => if c = q then none else some q
  | none => if isQuote c then some c else none

/- Put a character in front of the first part. -/
def consFirst (c : Char) : List (List Char) → List (List Char)
  | [] => [[c]]
  | part :: parts => (c :: part) :: parts

/-
  The parts of a text between the separators that stand
  outside quotes.  The arguments are the quote that is open
  and the number of characters of a separator still to pass.
-/
def splitFrom
    (separator : List Char) :
    Option Char → Nat → List Char → List (List Char)
  | _, _, [] => [[]]
  | quote, skip + 1, _ :: cs =>
      splitFrom separator quote skip cs
  | some q, 0, c :: cs =>
      consFirst c
        (splitFrom separator (quoteAfter (some q) c) 0 cs)
  | none, 0, c :: cs =>
      if isQuote c then
        consFirst c (splitFrom separator (some c) 0 cs)
      else if beginsWith (c :: cs) separator then
        [] :: splitFrom separator none (separator.length - 1) cs
      else consFirst c (splitFrom separator none 0 cs)

/- The parts of a text between unquoted separators. -/
def splitOutsideQuotes
    (separator cs : List Char) : List (List Char) :=
  splitFrom separator none 0 cs

/-
  The text before the first unquoted place where one of
  several spellings begins, what the spelling means, and the
  text after it.  Earlier spellings are preferred.
-/
def findOutsideQuotes?
    {α : Type}
    (spellings : List (List Char × α)) :
    Option Char → List Char →
      Option (List Char × α × List Char)
  | _, [] => none
  | quote, c :: cs =>
      let found :=
        if quote.isSome || isQuote c then none
        else
          spellings.findSome? fun (spelling, meaning) =>
            (after? spelling (c :: cs)).map (meaning, ·)
      match found with
      | some (meaning, rest) => some ([], meaning, rest)
      | none =>
          let quote := quoteAfter quote c
          (findOutsideQuotes? spellings quote cs).map
            fun (before, meaning, rest) =>
              (c :: before, meaning, rest)

/-
  The text inside quotes, if the whole text stands in quotes
  of one kind.
-/
def unquote? (cs : List Char) : Option (List Char) :=
  match cs with
  | c :: d :: rest =>
      if isQuote c && (d :: rest).getLast? = some c then
        some (d :: rest).dropLast
      else none
  | _ => none

/- The text inside quotes, or the text itself. -/
def unquote (cs : List Char) : List Char :=
  (unquote? cs).getD cs

end Text

end CharSheet
