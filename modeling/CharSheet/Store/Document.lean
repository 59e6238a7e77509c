import CharSheet.Store

/-
  Stores as documents: flat JSON objects of numbers, texts and
  truth values.

  A number in a document is scaled step by step with rounded
  powers of ten, so it need not be the nearest one to its
  digits.

  Key definitions include:
    * `Store.toDocument`
    * `Document.scale?`
    * `Document.readNumber?`
    * `Document.readText?`
    * `Store.ofDocument?`
-/

namespace CharSheet

namespace Document

------------------------------------------------------------
-- Writing
------------------------------------------------------------

/- A code point below 256 with two hexadecimal digits. -/
def hexPair (n : Nat) : List Char :=
  [Nat.digitChar (n / 16), Nat.digitChar (n % 16)]

/-
  One character of a quoted text.  Quotes, backslashes and
  control characters are escaped, all others stand for
  themselves.
-/
def escape (c : Char) : List Char :=
  if c = '"' then ['\\', '"']
  else if c = '\\' then ['\\', '\\']
  else if c.toNat = 8 then ['\\', 'b']
  else if c.toNat = 9 then ['\\', 't']
  else if c.toNat = 10 then ['\\', 'n']
  else if c.toNat = 12 then ['\\', 'f']
  else if c.toNat = 13 then ['\\', 'r']
  else if c.toNat < 32 then
    ['\\', 'u', '0', '0'] ++ hexPair c.toNat
  else [c]

/- A text in quotes. -/
def quote (s : String) : String :=
  String.ofList ('"' :: s.toList.flatMap escape ++ ['"'])

/- A value; a number that is not finite becomes `null`. -/
def writeValue : Value → String
  | .bool b => if b then "true" else "false"
  | .number n => n.document?.getD "null"
  | .text s => quote s

/- An attribute with its value. -/
def writeMember (member : Key × Value) : String :=
  quote member.1 ++ ":" ++ writeValue member.2

------------------------------------------------------------
-- Reading Numbers
------------------------------------------------------------

/- The greatest power of ten that is used in one step. -/
def largestPower : Nat := 308

/- The number nearest to a power of ten. -/
def rounded10 (e : Nat) : Number :=
  Number.ofRat (Nat.pow 10 e : Nat)

/-
  A number times a power of ten, by at most `fuel` steps of
  the largest power.  There is none when it grows beyond the
  finite numbers.
-/
def scaleStep? : Nat → Number → Int → Option Number
  | 0, x, _ => some x
  | fuel + 1, x, e =>
      if e.natAbs ≤ largestPower then
        if 0 ≤ e then
          let y := x.mul (rounded10 e.natAbs)
          if y.isFinite then some y else none
        else some (x.div (rounded10 e.natAbs))
      else if x.isZero then some x
      else if 0 ≤ e then none
      else
        scaleStep? fuel (x.div (rounded10 largestPower))
          (e + largestPower)

/-
  A number times a power of ten.  Three steps turn every
  number into zero, so four are enough.
-/
def scale? (x : Number) (e : Int) : Option Number :=
  scaleStep? 4 x e

/-
  The coefficient of a row of digits, which keeps as many of
  them as fit into 64 bits, and the digits that did not fit.
-/
def takeCoefficient (start : Nat) :
    List Char → Nat × List Char
  | [] => (start, [])
  | c :: cs =>
      let next := 10 * start + digitValue c
      if next < Nat.pow 2 64 then takeCoefficient next cs
      else (start, c :: cs)

/- An exponent is cut off where it would exceed 31 bits. -/
def exponentLimit : Nat := Nat.pow 2 31

/-
  The value of a coefficient with the exponent at the end of
  a number, and the text after it.
-/
def readExponent?
    (coefficient : Nat)
    (shift : Int)
    (cs : List Char) : Option (Number × List Char) :=
  let x := Number.ofRat coefficient
  match cs with
  | c :: cs =>
      if c = 'e' ∨ c = 'E' then
        let (negative, cs) :=
          match cs with
          | '-' :: cs => (true, cs)
          | '+' :: cs => (false, cs)
          | cs => (false, cs)
        let (digits, rest) := splitDigits cs
        if digits.isEmpty then none
        else
          let e := digitsValue digits
          if exponentLimit ≤ e then
            if coefficient = 0 || negative then some (0, rest)
            else none
          else
            let total : Int :=
              if negative then shift - e else shift + e
            (scale? x total).map (·, rest)
      else (scale? x shift).map (·, c :: cs)
  | [] => (scale? x shift).map (·, [])

/-
  Read a number without a sign: no zero before other digits,
  at least one digit after a point, an exponent or none.
-/
def readMagnitude?
    (cs : List Char) : Option (Number × List Char) :=
  let (whole, rest) := splitDigits cs
  let hasLeadingZero :=
    whole.length > 1 && whole.head? = some '0'
  if whole.isEmpty || hasLeadingZero then none
  else
    let (coefficient, dropped) := takeCoefficient 0 whole
    let shift : Int := dropped.length
    match rest with
    | '.' :: rest =>
        let (fraction, rest) := splitDigits rest
        if fraction.isEmpty then none
        else
          let (coefficient, unread) :=
            takeCoefficient coefficient fraction
          let kept : Int := fraction.length - unread.length
          readExponent? coefficient (shift - kept) rest
    | rest => readExponent? coefficient shift rest

/- Read a number with a minus sign or none. -/
def readNumber? : List Char → Option (Number × List Char)
  | '-' :: cs => (readMagnitude? cs).map fun (x, rest) =>
      (x.neg, rest)
  | cs => readMagnitude? cs

------------------------------------------------------------
-- Reading Texts
------------------------------------------------------------

/- A character of a quoted text, or an escaped 16-bit unit. -/
inductive Piece where
  | char (c : Char)
  | unit (n : Nat)

/- The value of four hexadecimal digits. -/
def unitOf? (a b c d : Char) : Option Nat := do
  let a ← hexValue? a
  let b ← hexValue? b
  let c ← hexValue? c
  let d ← hexValue? d
  return ((a * 16 + b) * 16 + c) * 16 + d

/- The character that follows a backslash. -/
def unescape? (c : Char) : Option Char :=
  match c with
  | '"' => some '"'
  | '\\' => some '\\'
  | '/' => some '/'
  | 'b' => some (Char.ofNat 8)
  | 'f' => some (Char.ofNat 12)
  | 'n' => some '\n'
  | 'r' => some '\r'
  | 't' => some '\t'
  | _ => none

/-
  The pieces of a quoted text after its first quote, and the
  text after its last quote.
-/
def readPieces? :
    List Char → Option (List Piece × List Char)
  | [] => none
  | '"' :: rest => some ([], rest)
  | '\\' :: 'u' :: a :: b :: c :: d :: rest => do
      let n ← unitOf? a b c d
      let (pieces, rest) ← readPieces? rest
      return (.unit n :: pieces, rest)
  | '\\' :: c :: rest => do
      let c ← unescape? c
      let (pieces, rest) ← readPieces? rest
      return (.char c :: pieces, rest)
  | c :: rest => do
      if c.toNat < 32 ∨ c = '\\' then none
      let (pieces, rest) ← readPieces? rest
      return (.char c :: pieces, rest)

/-
  The characters of a row of pieces.  A unit of the upper
  surrogates needs one of the lower right after it.
-/
def charsOf? : List Piece → Option (List Char)
  | [] => some []
  | .char c :: rest => (charsOf? rest).map (c :: ·)
  | .unit n :: .unit m :: rest =>
      if 0xd800 ≤ n ∧ n < 0xdc00 ∧ 0xdc00 ≤ m ∧ m < 0xe000 then
        let c :=
          0x10000 + (n - 0xd800) * 0x400 + (m - 0xdc00)
        (charsOf? rest).map (Char.ofNat c :: ·)
      else if 0xd800 ≤ n ∧ n < 0xe000 then none
      else (charsOf? (.unit m :: rest)).map (Char.ofNat n :: ·)
  | .unit n :: rest =>
      if 0xd800 ≤ n ∧ n < 0xe000 then none
      else (charsOf? rest).map (Char.ofNat n :: ·)

/- Read a quoted text. -/
def readText? :
    List Char → Option (String × List Char)
  | '"' :: cs => do
      let (pieces, rest) ← readPieces? cs
      let chars ← charsOf? pieces
      return (String.ofList chars, rest)
  | _ => none

------------------------------------------------------------
-- Reading Objects
------------------------------------------------------------

/- The white space of a document. -/
def isSpace (c : Char) : Bool :=
  c = ' ' || c = '\n' || c = '\t' || c = '\r'

/- Drop the white space at the front. -/
def skip (cs : List Char) : List Char :=
  cs.dropWhile isSpace

/- Read a value of an attribute. -/
def readValue?
    (cs : List Char) : Option (Value × List Char) :=
  match cs with
  | '"' :: _ =>
      (readText? cs).map fun (s, rest) => (.text s, rest)
  | 't' :: 'r' :: 'u' :: 'e' :: rest =>
      some (.bool true, rest)
  | 'f' :: 'a' :: 'l' :: 's' :: 'e' :: rest =>
      some (.bool false, rest)
  | cs =>
      (readNumber? cs).map fun (x, rest) => (.number x, rest)

/-
  Read attributes up to the closing brace.  A later value of
  an attribute replaces an earlier one.
-/
def readMembers? :
    Nat → Store → List Char → Option (Store × List Char)
  | 0, _, _ => none
  | fuel + 1, store, cs => do
      let (key, rest) ← readText? (skip cs)
      match skip rest with
      | ':' :: rest =>
          let (value, rest) ← readValue? (skip rest)
          let store := store.insert key value
          match skip rest with
          | ',' :: rest => readMembers? fuel store rest
          | '\x7d' :: rest => some (store, rest)
          | _ => none
      | _ => none

/- Read a whole object. -/
def readObject?
    (cs : List Char) : Option (Store × List Char) :=
  match skip cs with
  | '\x7b' :: rest =>
      match skip rest with
      | '\x7d' :: rest => some (∅, rest)
      | rest => readMembers? (rest.length + 1) ∅ rest
  | _ => none

end Document

namespace Store

/- The document of a store: its attributes in their order. -/
def toDocument (s : Store) : String :=
  "\x7b" ++
    Text.join "," (s.toList.map Document.writeMember) ++
    "\x7d"

/- The store of a document that holds one object. -/
def ofDocument? (text : String) : Option Store :=
  match Document.readObject? text.toList with
  | some (store, rest) =>
      if (Document.skip rest).isEmpty then some store else none
  | none => none

end Store

end CharSheet
