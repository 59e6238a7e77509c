import CharSheet.Number.Decimal
import CharSheet.Text.Cut
import CharSheet.Text.Numerals

/-
  The tokens of formulas.

  Key definitions include:
    * `Mark`
    * `Mark.text`
    * `Token`
    * `FormulaFault`
    * `FormulaFault.message`
    * `Token.scan`
-/

namespace CharSheet

------------------------------------------------------------
-- Tokens
------------------------------------------------------------

/- The punctuation of formulas. -/
inductive Mark where
  | identical
  | notIdentical
  | equal
  | notEqual
  | atMost
  | atLeast
  | both
  | either
  | openRound
  | closeRound
  | openSquare
  | closeSquare
  | comma
  | question
  | colon
  | plus
  | minus
  | star
  | slash
  | percent
  | less
  | greater
  | bang
deriving DecidableEq

namespace Mark

/- The spelling of a mark. -/
def text : Mark → String
  | .identical => "==="
  | .notIdentical => "!=="
  | .equal => "=="
  | .notEqual => "!="
  | .atMost => "<="
  | .atLeast => ">="
  | .both => "&&"
  | .either => "||"
  | .openRound => "("
  | .closeRound => ")"
  | .openSquare => "["
  | .closeSquare => "]"
  | .comma => ","
  | .question => "?"
  | .colon => ":"
  | .plus => "+"
  | .minus => "-"
  | .star => "*"
  | .slash => "/"
  | .percent => "%"
  | .less => "<"
  | .greater => ">"
  | .bang => "!"

/- All marks; of two with one beginning, the longer first. -/
def all : List Mark :=
  [.identical, .notIdentical, .equal, .notEqual, .atMost,
    .atLeast, .both, .either, .openRound, .closeRound,
    .openSquare, .closeSquare, .comma, .question, .colon,
    .plus, .minus, .star, .slash, .percent, .less, .greater,
    .bang]

/- The first mark that a text begins with, and the rest. -/
def read? (cs : List Char) : Option (Mark × List Char) :=
  all.findSome? fun m =>
    (Text.after? m.text.toList cs).map (m, ·)

end Mark

/- A token of a formula. -/
inductive Token where
  | number (n : Number)
  | text (s : String)
  | name (s : String)
  | mark (m : Mark)
deriving DecidableEq

------------------------------------------------------------
-- Faults
------------------------------------------------------------

/- Why a text is no formula. -/
inductive FormulaFault where
  | badNumber (literal : String)
  | unterminatedText
  | unexpectedCharacter (c : Char)
  | empty
  | expected (m : Mark)
  | expectedText
  | unknownName (name : String)
  | unknownFunction (name : String)
  | unexpectedMark (m : Mark)
  | unexpectedEnd
  | trailing (index : Nat)
  | badPattern (source : String)
deriving DecidableEq

/- The wording of a fault. -/
def FormulaFault.message : FormulaFault → String
  | .badNumber literal => "bad number `" ++ literal ++ "`"
  | .unterminatedText => "unterminated string"
  | .unexpectedCharacter c =>
      "unexpected character `" ++ c.toString ++ "`"
  | .empty => "empty formula"
  | .expected m => "expected `" ++ m.text ++ "`"
  | .expectedText => "expected a quoted string"
  | .unknownName name => "unknown identifier `" ++ name ++ "`"
  | .unknownFunction name =>
      "unknown function `" ++ name ++ "`"
  | .unexpectedMark m =>
      "unexpected token Punct(\"" ++ m.text ++ "\")"
  | .unexpectedEnd => "unexpected end of input"
  | .trailing index =>
      "trailing input at token " ++ toString index
  | .badPattern source => "bad pattern `" ++ source ++ "`"

------------------------------------------------------------
-- Reading One Token
------------------------------------------------------------

namespace Token

/- A character that may stand in a number. -/
def inNumber (c : Char) : Bool :=
  c.isDigit || c = '.'

/- A character that may begin a name. -/
def beginsName (c : Char) : Bool :=
  Text.isLetter c || c = '_' || c = '$'

/- A character that may stand in a name after its first. -/
def inName (c : Char) : Bool :=
  Text.isLetterOrNumeral c || c = '_' || c = '$' || c = '.'

/- A number begins: with a digit, or a point before one. -/
def beginsNumber (c : Char) (rest : List Char) : Bool :=
  c.isDigit || (c = '.' && rest.head?.any Char.isDigit)

/-
  What a backslash and a character stand for in a text.  Only
  quotes, backslashes and `n` lose the backslash.
-/
def unescape (c : Char) : List Char :=
  if c = '\\' ∨ c = '\'' ∨ c = '"' then [c]
  else if c = 'n' then ['\n']
  else ['\\', c]

/-
  The characters of a quoted text after its first quote, and
  what follows its last quote, if there is one.
-/
def readQuoted? (quote : Char) :
    List Char → Option (List Char × List Char)
  | [] => none
  | [c] => if c = quote then some ([], []) else none
  | c :: d :: rest =>
      if c = quote then some ([], d :: rest)
      else if c = '\\' then
        (readQuoted? quote rest).map fun (s, after) =>
          (unescape d ++ s, after)
      else
        (readQuoted? quote (d :: rest)).map fun (s, after) =>
          (c :: s, after)

/- What follows a quoted text is shorter than it. -/
theorem length_of_readQuoted?
    {quote : Char}
    {cs s after : List Char}
    (h : readQuoted? quote cs = some (s, after)) :
    after.length < cs.length := by
  fun_induction readQuoted? quote cs generalizing s after with
  | case1 => simp at h
  | case2 =>
      simp only [Option.some.injEq, Prod.mk.injEq] at h
      simp [← h.2]
  | case3 => simp at h
  | case4 =>
      simp only [Option.some.injEq, Prod.mk.injEq] at h
      simp [← h.2]
  | case5 d rest hq ih =>
      obtain ⟨⟨s', after'⟩, hr, he⟩ := Option.map_eq_some_iff.1 h
      simp only [Prod.mk.injEq] at he
      have := ih hr
      rw [← he.2]
      simp only [List.length_cons]
      omega
  | case6 c d rest hq hb ih =>
      obtain ⟨⟨s', after'⟩, hr, he⟩ := Option.map_eq_some_iff.1 h
      simp only [Prod.mk.injEq] at he
      have := ih hr
      rw [← he.2]
      simp only [List.length_cons] at this ⊢
      omega

/- A mark takes up at least one character. -/
theorem length_of_readMark?
    {cs rest : List Char}
    {m : Mark}
    (h : Mark.read? cs = some (m, rest)) :
    rest.length < cs.length := by
  obtain ⟨m', _, hm⟩ := List.exists_of_findSome?_eq_some h
  obtain ⟨rest', hr, he⟩ := Option.map_eq_some_iff.1 hm
  simp only [Prod.mk.injEq] at he
  have hlength := Text.length_of_after? hr
  have hpos : 0 < m'.text.toList.length := by
    cases m' <;> decide
  rw [← he.2]
  omega

/-
  Read the token that begins with a character which is no
  white space.
-/
def read
    (c : Char)
    (rest : List Char) :
    Except FormulaFault (Token × List Char) :=
  if beginsNumber c rest then
    let literal := c :: rest.takeWhile inNumber
    match Number.ofChars? literal with
    | some n => .ok (.number n, rest.dropWhile inNumber)
    | none => .error (.badNumber (String.ofList literal))
  else if c = '"' ∨ c = '\'' then
    match readQuoted? c rest with
    | some (s, after) => .ok (.text (String.ofList s), after)
    | none => .error .unterminatedText
  else if beginsName c then
    .ok (.name (String.ofList (c :: rest.takeWhile inName)),
      rest.dropWhile inName)
  else
    match Mark.read? (c :: rest) with
    | some (m, after) => .ok (.mark m, after)
    | none => .error (.unexpectedCharacter c)

/- What follows a token is shorter than the text. -/
theorem length_of_read
    {c : Char}
    {rest after : List Char}
    {t : Token}
    (h : read c rest = .ok (t, after)) :
    after.length ≤ rest.length := by
  unfold read at h
  split at h
  · dsimp only at h
    split at h
    · simp only [Except.ok.injEq, Prod.mk.injEq] at h
      rw [← h.2]
      exact (List.dropWhile_suffix inNumber).length_le
    · cases h
  · split at h
    · split at h
      · next hr =>
        simp only [Except.ok.injEq, Prod.mk.injEq] at h
        rw [← h.2]
        exact Nat.le_of_lt (length_of_readQuoted? hr)
      · cases h
    · split at h
      · simp only [Except.ok.injEq, Prod.mk.injEq] at h
        rw [← h.2]
        exact (List.dropWhile_suffix inName).length_le
      · split at h
        · next hr =>
          simp only [Except.ok.injEq, Prod.mk.injEq] at h
          rw [← h.2]
          exact Nat.le_of_lt_succ (length_of_readMark? hr)
        · cases h

------------------------------------------------------------
-- Reading All Tokens
------------------------------------------------------------

/- The tokens of a text, white space between them apart. -/
def scan : List Char → Except FormulaFault (List Token)
  | [] => .ok []
  | c :: rest =>
      if Text.isBlank c then scan rest
      else
        match h : read c rest with
        | .error e => .error e
        | .ok (t, after) =>
            have := length_of_read h
            match scan after with
            | .error e => .error e
            | .ok ts => .ok (t :: ts)
termination_by cs => cs.length

end Token

end CharSheet
