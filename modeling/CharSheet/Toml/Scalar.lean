import CharSheet.Number.Decimal
import CharSheet.Text.Cut
import CharSheet.Toml.Basic

/-
  Texts, numbers and dates of TOML documents.

  Key definitions include:
    * `Toml.readText?`
    * `Toml.integer?`
    * `Toml.float?`
    * `Toml.moment?`
    * `Toml.readScalar?`
-/

namespace CharSheet

namespace Toml

/- A character that may stand in a text, or in a comment. -/
def inText (c : Char) : Bool :=
  c = '\t' || (32 ≤ c.toNat && c.toNat ≠ 127)

/- A space or a tab. -/
def isGap (c : Char) : Bool :=
  c = ' ' || c = '\t'

------------------------------------------------------------
-- Escapes
------------------------------------------------------------

/-
  Where a reader of escapes stands: in plain text, after a
  backslash, within a code of so many more digits, or after a
  backslash that hides white space with a line end in it.
-/
inductive Escape where
  | plain
  | start
  | code (left value : Nat)
  | hidden (ended : Bool)

/- The character that a letter after a backslash stands for. -/
def escaped? (c : Char) : Option Char :=
  match c with
  | 'b' => some (Char.ofNat 8)
  | 't' => some '\t'
  | 'n' => some '\n'
  | 'f' => some (Char.ofNat 12)
  | 'r' => some '\r'
  | '"' => some '"'
  | '\\' => some '\\'
  | _ => none

/- The character of a code, if it has one. -/
def charOfCode? (n : Nat) : Option Char :=
  if n.isValidChar then some (Char.ofNat n) else none

/- The text that a text with escapes stands for. -/
def unescape? : Escape → List Char → Option (List Char)
  | .plain, [] => some []
  | .hidden true, [] => some []
  | _, [] => none
  | .plain, c :: cs =>
      if c = '\\' then unescape? .start cs
      else (unescape? .plain cs).map (c :: ·)
  | .start, c :: cs =>
      if c = 'u' then unescape? (.code 4 0) cs
      else if c = 'U' then unescape? (.code 8 0) cs
      else if isGap c then unescape? (.hidden false) cs
      else if c = '\n' then unescape? (.hidden true) cs
      else do
        let d ← escaped? c
        let rest ← unescape? .plain cs
        return d :: rest
  | .code left value, c :: cs => do
      let digit ← hexValue? c
      let value := 16 * value + digit
      if left ≤ 1 then
        let d ← charOfCode? value
        let rest ← unescape? .plain cs
        return d :: rest
      else unescape? (.code (left - 1) value) cs
  | .hidden ended, c :: cs =>
      if isGap c then unescape? (.hidden ended) cs
      else if c = '\n' then unescape? (.hidden true) cs
      else if !ended then none
      else if c = '\\' then unescape? .start cs
      else (unescape? .plain cs).map (c :: ·)

------------------------------------------------------------
-- Texts
------------------------------------------------------------

/-
  The characters up to a quote on the same line, and what
  follows it.  A backslash takes the next character with it if
  there are escapes.
-/
def readLine? (quote : Char) (escapes : Bool) :
    List Char → Option (List Char × List Char)
  | [] => none
  | c :: cs =>
      if c = quote then some ([], cs)
      else if !inText c then none
      else if escapes && c = '\\' then
        match cs with
        | [] => none
        | d :: rest =>
            if inText d then
              (readLine? quote escapes rest).map
                fun (s, after) => (c :: d :: s, after)
            else none
      else
        (readLine? quote escapes cs).map fun (s, after) =>
          (c :: s, after)

/-
  The quotes before the closing ones, where a text on several
  lines ends: at most two of them belong to the text.
-/
def closingQuotes?
    (quote : Char)
    (cs : List Char) : Option Nat :=
  let run := (cs.takeWhile (· = quote)).length
  if run < 3 then none else some (min (run - 3) 2)

/-
  The characters up to three quotes, which may stand on
  several lines, and what follows the quotes.
-/
def readLines? (quote : Char) (escapes : Bool) :
    List Char → Option (List Char × List Char)
  | [] => none
  | c :: cs =>
      match closingQuotes? quote (c :: cs) with
      | some n =>
          some (List.replicate n quote, (c :: cs).drop (n + 3))
      | none =>
          if !inText c && c ≠ '\n' then none
          else if escapes && c = '\\' then
            match cs with
            | [] => none
            | d :: rest =>
                if inText d || d = '\n' then
                  (readLines? quote escapes rest).map
                    fun (s, after) => (c :: d :: s, after)
                else none
          else
            (readLines? quote escapes cs).map fun (s, after) =>
              (c :: s, after)

/- Drop a line end at the front. -/
def dropLineEnd : List Char → List Char
  | '\n' :: cs => cs
  | cs => cs

/-
  Read a text on one line: in double quotes with escapes, in
  single ones without.
-/
def readShortText?
    (cs : List Char) : Option (String × List Char) :=
  match cs with
  | '"' :: cs => do
      let (s, after) ← readLine? '"' true cs
      let s ← unescape? .plain s
      return (String.ofList s, after)
  | '\'' :: cs => do
      let (s, after) ← readLine? '\'' false cs
      return (String.ofList s, after)
  | _ => none

/- Read a text, which three quotes let stand on several lines. -/
def readText?
    (cs : List Char) : Option (String × List Char) :=
  match cs with
  | '"' :: '"' :: '"' :: cs => do
      let (s, after) ← readLines? '"' true (dropLineEnd cs)
      let s ← unescape? .plain s
      return (String.ofList s, after)
  | '\'' :: '\'' :: '\'' :: cs => do
      let (s, after) ← readLines? '\'' false (dropLineEnd cs)
      return (String.ofList s, after)
  | cs => readShortText? cs

------------------------------------------------------------
-- Digits
------------------------------------------------------------

/-
  The digits of a row in which single underscores may stand
  between digits.
-/
def digits? (isDigit : Char → Bool) :
    List Char → Option (List Char)
  | [] => none
  | c :: cs =>
      if !isDigit c then none
      else
        match cs with
        | [] => some [c]
        | '_' :: rest => (digits? isDigit rest).map (c :: ·)
        | rest => (digits? isDigit rest).map (c :: ·)

/- The decimal digits of a row, of which the first counts. -/
def wholeDigits? (cs : List Char) : Option (List Char) := do
  let digits ← digits? Char.isDigit cs
  if digits.length ≠ 1 && digits.head? = some '0' then none
  else some digits

/- A sign at the front, and what follows it. -/
def splitSign : List Char → Option Char × List Char
  | '+' :: cs => (some '+', cs)
  | '-' :: cs => (some '-', cs)
  | cs => (none, cs)

------------------------------------------------------------
-- Integers
------------------------------------------------------------

/- The number of a row of digits in a base. -/
def digitsIn? (base : Nat) (cs : List Char) : Option Int := do
  let isDigit := fun c => (hexValue? c).any (· < base)
  let digits ← digits? isDigit cs
  return digits.foldl
    (fun n c => (base : Int) * n + ((hexValue? c).getD 0 : Nat)) 0

/- A decimal integer, or one of another base without a sign. -/
def integerValue? (cs : List Char) : Option Int :=
  match cs with
  | '0' :: 'x' :: rest => digitsIn? 16 rest
  | '0' :: 'o' :: rest => digitsIn? 8 rest
  | '0' :: 'b' :: rest => digitsIn? 2 rest
  | cs => do
      let (sign, rest) := splitSign cs
      let digits ← wholeDigits? rest
      let n : Int := digitsValue digits
      return if sign = some '-' then -n else n

/- An integer that fits into 64 bits with its sign. -/
def integer? (cs : List Char) : Option Toml := do
  let n ← integerValue? cs
  let limit : Int := Nat.pow 2 63
  if -limit ≤ n && n < limit then some (.integer n) else none

------------------------------------------------------------
-- Floats
------------------------------------------------------------

/- The digits after a point, with the point, if there is one. -/
def fraction? : Option (List Char) → Option (List Char)
  | none => some []
  | some cs => (digits? Char.isDigit cs).map ('.' :: ·)

/- An exponent with its letter, if there is one. -/
def exponent? : Option (List Char) → Option (List Char)
  | none => some []
  | some cs =>
      let (sign, rest) := splitSign cs
      (digits? Char.isDigit rest).map fun digits =>
        'e' :: (sign.toList ++ digits)

/- Cut a text at the first character of a kind. -/
def cutAtFirst
    (p : Char → Bool)
    (cs : List Char) : List Char × Option (List Char) :=
  match cs.dropWhile (!p ·) with
  | [] => (cs, none)
  | _ :: rest => (cs.takeWhile (!p ·), some rest)

/-
  A number with a point, an exponent or both.  One that is too
  large to be finite is refused.
-/
def decimalFloat? (cs : List Char) : Option Number := do
  let (mantissa, power) :=
    cutAtFirst (fun c => c = 'e' || c = 'E') cs
  let (whole, places) := cutAtFirst (· = '.') mantissa
  if power.isNone && places.isNone then none
  let (sign, wholePart) := splitSign whole
  let wholePart ← wholeDigits? wholePart
  let fraction ← fraction? places
  let exponent ← exponent? power
  let x ← Number.ofChars?
    (sign.toList ++ wholePart ++ fraction ++ exponent)
  if x = .infinite false then none else some x

/- A number, an infinity or `nan`. -/
def float? (cs : List Char) : Option Toml :=
  let (sign, rest) := splitSign cs
  let negative := sign = some '-'
  match rest with
  | ['i', 'n', 'f'] => some (.float (.infinite negative))
  | ['n', 'a', 'n'] => some (.float (.nan negative))
  | _ => (decimalFloat? cs).map .float

------------------------------------------------------------
-- Dates and Times
------------------------------------------------------------

/- The number of exactly so many digits, and what follows. -/
def fixedDigits?
    (count : Nat)
    (cs : List Char) : Option (Nat × List Char) :=
  let digits := cs.take count
  if digits.length = count && digits.all Char.isDigit then
    some (digitsValue digits, cs.drop count)
  else none

/- The number of days of a month. -/
def daysIn (year month : Nat) : Nat :=
  if month = 2 then
    if year % 4 = 0 && (year % 100 ≠ 0 || year % 400 = 0) then
      29
    else 28
  else if [4, 6, 9, 11].contains month then 30
  else 31

/- Two numbers around a mark, and what follows them. -/
def pair?
    (mark : Char)
    (cs : List Char) : Option (Nat × Nat × List Char) := do
  let (a, rest) ← fixedDigits? 2 cs
  match rest with
  | c :: rest =>
      if c = mark then
        let (b, rest) ← fixedDigits? 2 rest
        return (a, b, rest)
      else none
  | [] => none

/- Drop a date from the front. -/
def dropDate? (cs : List Char) : Option (List Char) := do
  let (year, rest) ← fixedDigits? 4 cs
  let some rest := Text.after? ['-'] rest | none
  let (month, day, rest) ← pair? '-' rest
  if 1 ≤ month && month ≤ 12 && 1 ≤ day &&
      day ≤ daysIn year month then some rest
  else none

/- Drop a part of a second from the front, if there is one. -/
def dropPart? : List Char → Option (List Char)
  | '.' :: cs =>
      if (cs.takeWhile Char.isDigit).isEmpty then none
      else some (cs.dropWhile Char.isDigit)
  | cs => some cs

/- Drop a time of day from the front. -/
def dropTime? (cs : List Char) : Option (List Char) := do
  let (hour, minute, rest) ← pair? ':' cs
  let some rest := Text.after? [':'] rest | none
  let (second, rest) ← fixedDigits? 2 rest
  if hour ≤ 23 && minute ≤ 59 && second ≤ 60 then
    dropPart? rest
  else none

/- The text is the offset of a time zone, or empty. -/
def isOffset (cs : List Char) : Bool :=
  match cs with
  | [] => true
  | ['Z'] => true
  | ['z'] => true
  | sign :: rest =>
      (sign = '+' || sign = '-') &&
        match pair? ':' rest with
        | some (hour, minute, []) => hour ≤ 23 && minute ≤ 59
        | _ => false

/- The text is a time of day with an offset or without. -/
def isZonedTime (cs : List Char) : Bool :=
  (dropTime? cs).any isOffset

/- A date, a time, or both of them around a mark. -/
def moment? (cs : List Char) : Option Toml :=
  let isMoment :=
    match dropDate? cs with
    | some [] => true
    | some (mark :: time) =>
        (mark = 'T' || mark = 't' || mark = ' ') &&
          isZonedTime time
    | none => dropTime? cs = some []
  if isMoment then some .moment else none

------------------------------------------------------------
-- Scalars
------------------------------------------------------------

/- A character of a number, a date or a name of a value. -/
def inWord (c : Char) : Bool :=
  c.isAlphanum || ['+', '-', '_', '.', ':'].contains c

/- The value that a word spells. -/
def ofWord? (cs : List Char) : Option Toml :=
  match String.ofList cs with
  | "true" => some (.bool true)
  | "false" => some (.bool false)
  | _ => moment? cs <|> float? cs <|> integer? cs

/-
  The word at the front, and what follows it.  A date and a
  time with a space between them are one word.
-/
def splitWord (cs : List Char) : List Char × List Char :=
  let word := cs.takeWhile inWord
  let rest := cs.dropWhile inWord
  match rest with
  | ' ' :: more =>
      let time := more.takeWhile inWord
      if dropDate? word = some [] && isZonedTime time then
        (word ++ ' ' :: time, more.dropWhile inWord)
      else (word, rest)
  | _ => (word, rest)

/- Read a text or a word. -/
def readScalar? (cs : List Char) : Option (Toml × List Char) :=
  match readText? cs with
  | some (s, after) => some (.text s, after)
  | none => do
      let (word, after) := splitWord cs
      let v ← ofWord? word
      return (v, after)

end Toml

end CharSheet
