import CharSheet.Formula.Token
import CharSheet.Proofs.Number.Reading
import CharSheet.Proofs.Text.Stops

/-
  Tokens that are written out and scanned again.

  A token can be written in several ways: a number with its
  point in any place, a text in either kind of quotes.  Each
  way is scanned as the token again, if what follows cannot be
  taken for a part of it.  A blank never can, and a mark is
  only continued by an equals sign, so that no blank is needed
  behind a mark in front of a bracket or of another token.

  Main declarations:
    * `Token.Numeral`, `Token.Name`, `Token.Quote`
    * `Token.Written`
    * `Token.Written.scan_append`
    * `Token.IsLaidOut`
    * `Token.scan_of_isLaidOut`
    * `Token.scan_written`
-/

namespace CharSheet

------------------------------------------------------------
-- Classes Of Characters
------------------------------------------------------------

/- The code points of the spans that are closed. -/
def Spans.codes : List Nat → List Nat
  | [] => []
  | [_] => []
  | low :: high :: rest =>
      List.range' low (high - low) ++ codes rest

theorem Spans.mem_codes_of_mem
    {edges : List Nat}
    {n : Nat}
    (hClosed : edges.length % 2 = 0)
    (h : mem edges n = true) :
    n ∈ codes edges := by
  fun_induction mem edges n with
  | case1 => cases h
  | case2 => simp at hClosed
  | case3 => cases h
  | case4 low high rest n hNotBelow hBelow =>
      apply List.mem_append_left
      rw [List.mem_range'_1]
      omega
  | case5 low high rest n hNotBelow hNotBelow' ih =>
      apply List.mem_append_right
      apply ih _ h
      simp only [List.length_cons] at hClosed
      omega

/- White space is no letter. -/
theorem Text.isLetter_eq_false_of_isBlank
    {c : Char}
    (h : isBlank c = true) :
    isLetter c = false := by
  have hAll : ∀ n ∈ Spans.codes blankSpans,
      isLetter (Char.ofNat n) = false := by
    decide +kernel
  have hThis := hAll c.toNat (Spans.mem_codes_of_mem rfl h)
  rwa [Char.ofNat_toNat] at hThis

/- A digit is no white space. -/
theorem Text.isBlank_eq_false_of_isDigit
    {c : Char}
    (h : c.isDigit = true) :
    isBlank c = false := by
  rcases Number.exists_of_isDigit h with ⟨k, rfl⟩
  clear h
  revert k
  decide

namespace Token

/- A name begins with no other token, and with no blank. -/
theorem not_other_of_beginsName
    {c : Char}
    (h : beginsName c = true) :
    Text.isBlank c = false ∧ c.isDigit = false ∧ c ≠ '.' ∧
      c ≠ '"' ∧ c ≠ '\'' ∧ c ≠ '=' := by
  have hBlank : Text.isBlank c = false := by
    rw [Bool.eq_false_iff]
    intro hBlank
    have hLetter := Text.isLetter_eq_false_of_isBlank hBlank
    simp only [beginsName, hLetter, Bool.false_or, Bool.or_eq_true,
      decide_eq_true_eq] at h
    rcases h with rfl | rfl
    · revert hBlank
      decide
    · revert hBlank
      decide
  have hDigit : c.isDigit = false := by
    rw [Bool.eq_false_iff]
    intro hDigit
    rcases Number.exists_of_isDigit hDigit with ⟨k, rfl⟩
    revert h
    revert k
    decide
  refine ⟨hBlank, hDigit, ?_, ?_, ?_, ?_⟩
  all_goals
    rintro rfl
    revert h
    decide

------------------------------------------------------------
-- Numerals
------------------------------------------------------------

/-
  A number as it is written: digits with a point among them,
  or with none.
-/
structure Numeral where
  whole : List Char
  /- the digits after the point, if there is one -/
  fraction : Option (List Char)
  isDigit :
    ∀ c ∈ whole ++ fraction.getD [], c.isDigit = true
  nonempty : whole ++ fraction.getD [] ≠ []

namespace Numeral

/- The point with the digits behind it. -/
def tail (n : Numeral) : List Char :=
  n.fraction.elim [] ('.' :: ·)

/- The text of a numeral. -/
def chars (n : Numeral) : List Char :=
  n.whole ++ n.tail

/- The number that is nearest to what the digits spell. -/
def number (n : Numeral) : Number :=
  let fraction := n.fraction.getD []
  Decimal.toNumber
    ⟨digitsValue (n.whole ++ fraction), -(fraction.length : Int)⟩
    false

/- It has no characters but digits and points. -/
theorem inNumber_of_mem_chars
    (n : Numeral)
    {c : Char}
    (h : c ∈ n.chars) :
    inNumber c = true := by
  rcases n with ⟨whole, fraction, hDigits, _⟩
  have hDigit (hIn : c ∈ whole ++ fraction.getD []) :
      inNumber c = true := by
    rw [inNumber, hDigits c hIn]
    rfl
  rcases List.mem_append.mp h with hWhole | hTail
  · exact hDigit (List.mem_append_left _ hWhole)
  · cases fraction with
    | none => cases hTail
    | some ds =>
        rcases List.mem_cons.mp hTail with rfl | hFraction
        · rfl
        · exact hDigit (List.mem_append_right _ hFraction)

/- It begins with a digit, or with a point before one. -/
theorem exists_chars_eq (n : Numeral) :
    ∃ c cs, n.chars = c :: cs ∧
      (c.isDigit = true ∨
        (c = '.' ∧ cs.head?.any Char.isDigit = true)) := by
  rcases n with ⟨whole, fraction, hDigits, hSome⟩
  cases whole with
  | cons c whole =>
      exact ⟨c, _, rfl, Or.inl (hDigits c List.mem_cons_self)⟩
  | nil =>
      cases fraction with
      | none => exact absurd rfl hSome
      | some ds =>
          cases ds with
          | nil => exact absurd rfl hSome
          | cons d ds =>
              exact ⟨'.', d :: ds, rfl, Or.inr
                ⟨rfl, hDigits d List.mem_cons_self⟩⟩

/- The digits before the point are found. -/
theorem splitDigits_chars (n : Numeral) :
    splitDigits n.chars = (n.whole, n.tail) := by
  have hWhole : ∀ c ∈ n.whole, c.isDigit = true :=
    fun c hc => n.isDigit c (List.mem_append_left _ hc)
  have hTail : ∀ c ∈ n.tail.head?, c.isDigit = false := by
    unfold tail
    cases n.fraction with
    | none => simp
    | some ds => simp
  unfold splitDigits chars
  rw [Text.takeWhile_append_of_head? _ _ hWhole hTail,
    Text.dropWhile_append_of_head? _ _ hWhole hTail]

/- So are the digits behind it. -/
theorem splitFraction_tail (n : Numeral) :
    Decimal.splitFraction n.tail = (n.fraction.getD [], []) := by
  rcases n with ⟨whole, fraction, hDigits, _⟩
  cases fraction with
  | none => rfl
  | some ds =>
      have hFraction : ∀ c ∈ ds, c.isDigit = true :=
        fun c hc => hDigits c (List.mem_append_right _ hc)
      change (ds.takeWhile Char.isDigit,
        ds.dropWhile Char.isDigit) = (ds, [])
      rw [List.takeWhile_eq_self_iff.mpr hFraction,
        List.dropWhile_eq_nil_iff.mpr hFraction]

theorem decimal_ofChars?_chars (n : Numeral) :
    Decimal.ofChars? n.chars =
      some ⟨digitsValue (n.whole ++ n.fraction.getD []),
        -((n.fraction.getD []).length : Int)⟩ := by
  have hSome :
      (n.whole ++ n.fraction.getD []).isEmpty = false :=
    List.isEmpty_eq_false_iff.mpr n.nonempty
  unfold Decimal.ofChars?
  rw [n.splitDigits_chars]
  dsimp only
  rw [n.splitFraction_tail]
  simp only [hSome, Bool.false_eq_true, if_false]

/- A numeral is read as the number that it spells. -/
theorem ofChars?_chars (n : Numeral) :
    Number.ofChars? n.chars = some n.number := by
  have hDecimal :
      Number.ofChars? n.chars =
        (Decimal.ofChars? n.chars).map (·.toNumber false) := by
    rcases n.exists_chars_eq with
      ⟨c, cs, hEq, hDigit | ⟨rfl, _⟩⟩
    · rw [hEq, Number.ofChars?_of_isDigit hDigit]
    · rw [hEq]
      simp [Number.ofChars?, Number.ofUnsignedChars?]
  rw [hDecimal, n.decimal_ofChars?_chars]
  rfl

end Numeral

------------------------------------------------------------
-- Quoted Texts
------------------------------------------------------------

/- The two kinds of quotes. -/
inductive Quote where
  | single
  | double
deriving DecidableEq

/- The character of a quote. -/
def Quote.char : Quote → Char
  | .single => '\''
  | .double => '"'

/-
  The characters of a text between its quotes: backslashes and
  both kinds of quotes have a backslash before them.
-/
def escaped (cs : List Char) : List Char :=
  cs.flatMap fun c =>
    if c = '\\' ∨ c = '\'' ∨ c = '"' then ['\\', c] else [c]

/- A character that stands for itself is taken as it is. -/
theorem readQuoted?_cons
    {quote c : Char}
    {cs : List Char}
    (hQuote : c ≠ quote)
    (hEscape : c ≠ '\\')
    (hMore : cs ≠ []) :
    readQuoted? quote (c :: cs) =
      (readQuoted? quote cs).map fun (s, after) =>
        (c :: s, after) := by
  cases cs with
  | nil => exact absurd rfl hMore
  | cons d cs => simp [readQuoted?, hQuote, hEscape]

/- A quoted text is read up to its closing quote. -/
theorem readQuoted?_escaped
    (quote : Quote)
    (cs rest : List Char) :
    readQuoted? quote.char (escaped cs ++ quote.char :: rest) =
      some (cs, rest) := by
  have hEscape : '\\' ≠ quote.char := by cases quote <;> decide
  induction cs with
  | nil => cases rest <;> simp [escaped, readQuoted?]
  | cons c cs ih =>
      by_cases hSpecial : c = '\\' ∨ c = '\'' ∨ c = '"'
      · have hText :
            escaped (c :: cs) ++ quote.char :: rest =
              '\\' :: c :: (escaped cs ++ quote.char :: rest) := by
          simp [escaped, hSpecial]
        rw [hText]
        simp [readQuoted?, hEscape, ih, unescape, hSpecial]
      · have hText :
            escaped (c :: cs) ++ quote.char :: rest =
              c :: (escaped cs ++ quote.char :: rest) := by
          simp [escaped, hSpecial]
        rw [not_or, not_or] at hSpecial
        have hQuote : c ≠ quote.char := by
          cases quote
          · exact hSpecial.2.1
          · exact hSpecial.2.2
        rw [hText, readQuoted?_cons hQuote hSpecial.1 (by simp),
          ih]
        rfl

end Token

------------------------------------------------------------
-- Marks
------------------------------------------------------------

namespace Mark

/- No mark is continued except by an equals sign. -/
theorem read?_text_append
    (m : Mark)
    {rest : List Char}
    (h : rest.head? ≠ some '=') :
    read? (m.text.toList ++ rest) = some (m, rest) := by
  cases rest with
  | nil => cases m <;> decide
  | cons c rest =>
      have hNot : '=' ≠ c := by
        rintro rfl
        exact h rfl
      cases m <;> simp [read?, all, text, Text.after?, hNot]

/- The marks that open and close. -/
def isBracket : Mark → Bool
  | .openRound | .closeRound | .openSquare | .closeSquare =>
      true
  | _ => false

/- A mark begins with no other token, and with no blank. -/
theorem exists_text_eq (m : Mark) :
    ∃ c cs, m.text.toList = c :: cs ∧
      Text.isBlank c = false ∧ c.isDigit = false ∧ c ≠ '.' ∧
        ¬ (c = '"' ∨ c = '\'') ∧
          Token.beginsName c = false := by
  cases m <;>
    exact ⟨_, _, rfl, by decide, by decide, by decide, by decide,
      by decide⟩

/- A bracket continues no mark. -/
theorem head?_text_of_isBracket
    {m : Mark}
    (h : m.isBracket = true)
    (rest : List Char) :
    (m.text.toList ++ rest).head? ≠ some '=' := by
  cases m <;> simp [isBracket, text] at h ⊢

end Mark

------------------------------------------------------------
-- Written Tokens
------------------------------------------------------------

namespace Token

/- A name as it is written. -/
structure Name where
  first : Char
  rest : List Char
  beginsName : beginsName first = true
  inName : ∀ c ∈ rest, inName c = true

/- A token with the way in which it is written. -/
inductive Written where
  | number (n : Numeral)
  | text (quote : Quote) (s : String)
  | name (n : Name)
  | mark (m : Mark)

namespace Written

/- The token itself. -/
def token : Written → Token
  | .number n => .number n.number
  | .text _ s => .text s
  | .name n => .name (String.ofList (n.first :: n.rest))
  | .mark m => .mark m

/- The characters that it is written with. -/
def chars : Written → List Char
  | .number n => n.chars
  | .text quote s =>
      quote.char :: (escaped s.toList ++ [quote.char])
  | .name n => n.first :: n.rest
  | .mark m => m.text.toList

/- What follows cannot be taken for a part of the token. -/
def StopsAt : Written → List Char → Prop
  | .number _, rest => ∀ c ∈ rest.head?, Token.inNumber c = false
  | .text .., _ => True
  | .name _, rest => ∀ c ∈ rest.head?, Token.inName c = false
  | .mark _, rest => rest.head? ≠ some '='

/- A token ends with the text. -/
theorem stopsAt_nil (w : Written) : w.StopsAt [] := by
  cases w <;> simp [StopsAt]

/- Every token ends at a blank. -/
theorem stopsAt_blank
    (w : Written)
    (rest : List Char) :
    w.StopsAt (' ' :: rest) := by
  cases w with
  | number n => simp [StopsAt, inNumber]
  | text quote s => trivial
  | name n =>
      intro c hc
      obtain rfl : ' ' = c := Option.some.inj hc
      decide
  | mark m => simp [StopsAt]

/- A numeral is read up to where it stops. -/
theorem exists_read_number
    (n : Numeral)
    {rest : List Char}
    (h : (number n).StopsAt rest) :
    ∃ c cs, n.chars ++ rest = c :: cs ∧
      Text.isBlank c = false ∧
        read c cs = .ok (.number n.number, rest) := by
  rcases n.exists_chars_eq with ⟨c, cs, hChars, hFirst⟩
  have hBlank : Text.isBlank c = false := by
    rcases hFirst with hDigit | ⟨rfl, _⟩
    · exact Text.isBlank_eq_false_of_isDigit hDigit
    · decide
  have hBegins : beginsNumber c (cs ++ rest) = true := by
    rcases hFirst with hDigit | ⟨rfl, hNext⟩
    · simp [beginsNumber, hDigit]
    · cases cs with
      | nil => cases hNext
      | cons d cs =>
          have hDigit : d.isDigit = true := hNext
          simp [beginsNumber, hDigit]
  have hTaken : ∀ d ∈ cs, Token.inNumber d = true := by
    intro d hd
    apply n.inNumber_of_mem_chars
    rw [hChars]
    exact List.mem_cons_of_mem c hd
  refine ⟨c, cs ++ rest, by rw [hChars]; rfl, hBlank, ?_⟩
  unfold read
  rw [if_pos hBegins]
  dsimp only
  rw [Text.takeWhile_append_of_head? cs rest hTaken h,
    Text.dropWhile_append_of_head? cs rest hTaken h, ← hChars,
    n.ofChars?_chars]

/- A quoted text is read whatever follows it. -/
theorem read_text
    (quote : Quote)
    (s : String)
    (rest : List Char) :
    Text.isBlank quote.char = false ∧
      read quote.char
          (escaped s.toList ++ quote.char :: rest) =
        .ok (.text s, rest) := by
  have hQuote : quote.char = '"' ∨ quote.char = '\'' := by
    cases quote
    · exact Or.inr rfl
    · exact Or.inl rfl
  have hOther :
      Text.isBlank quote.char = false ∧
        quote.char.isDigit = false ∧ quote.char ≠ '.' := by
    cases quote <;> decide
  rcases hOther with ⟨hBlank, hDigit, hPoint⟩
  refine ⟨hBlank, ?_⟩
  unfold read
  rw [if_neg (by simp [beginsNumber, hDigit, hPoint]),
    if_pos hQuote, readQuoted?_escaped]
  simp

/- A name is read up to where it stops. -/
theorem read_name
    (n : Name)
    {rest : List Char}
    (h : (name n).StopsAt rest) :
    Text.isBlank n.first = false ∧
      read n.first (n.rest ++ rest) =
        .ok (.name (String.ofList (n.first :: n.rest)), rest) := by
  rcases not_other_of_beginsName n.beginsName with
    ⟨hBlank, hDigit, hPoint, hDouble, hSingle, _⟩
  refine ⟨hBlank, ?_⟩
  unfold read
  rw [if_neg (by simp [beginsNumber, hDigit, hPoint]),
    if_neg (by simp [hDouble, hSingle]), if_pos n.beginsName,
    Text.takeWhile_append_of_head? n.rest rest n.inName h,
    Text.dropWhile_append_of_head? n.rest rest n.inName h]

/- A mark is read if an equals sign does not continue it. -/
theorem exists_read_mark
    (m : Mark)
    {rest : List Char}
    (h : (mark m).StopsAt rest) :
    ∃ c cs, m.text.toList ++ rest = c :: cs ∧
      Text.isBlank c = false ∧
        read c cs = .ok (.mark m, rest) := by
  rcases m.exists_text_eq with
    ⟨c, cs, hText, hBlank, hDigit, hPoint, hQuote, hName⟩
  have hMark := m.read?_text_append h
  rw [hText] at hMark
  refine ⟨c, cs ++ rest, by rw [hText]; rfl, hBlank, ?_⟩
  unfold read
  rw [if_neg (by simp [beginsNumber, hDigit, hPoint]),
    if_neg hQuote, if_neg (by simp [hName]),
    ← List.cons_append, hMark]

/- A written token is read up to where it stops. -/
theorem exists_read_append
    (w : Written)
    {rest : List Char}
    (h : w.StopsAt rest) :
    ∃ c cs, w.chars ++ rest = c :: cs ∧
      Text.isBlank c = false ∧
        read c cs = .ok (w.token, rest) := by
  cases w with
  | number n => exact exists_read_number n h
  | text quote s =>
      rcases read_text quote s rest with ⟨hBlank, hRead⟩
      exact ⟨_, _, by simp [chars], hBlank, hRead⟩
  | name n =>
      rcases read_name n h with ⟨hBlank, hRead⟩
      exact ⟨_, _, rfl, hBlank, hRead⟩
  | mark m => exact exists_read_mark m h

end Written

/- Blanks in front of a token are passed over. -/
theorem scan_of_isBlank
    {c : Char}
    (h : Text.isBlank c = true)
    (rest : List Char) :
    scan (c :: rest) = scan rest := by
  rw [scan, if_pos h]

/- What is read first is scanned first. -/
theorem scan_of_read
    {c : Char}
    {rest after : List Char}
    {t : Token}
    (hBlank : Text.isBlank c = false)
    (hRead : read c rest = .ok (t, after)) :
    scan (c :: rest) = (scan after).map (t :: ·) := by
  rw [scan, if_neg (by simp [hBlank])]
  split
  · next hOther =>
      rw [hRead] at hOther
      cases hOther
  · next hOther =>
      rw [hRead] at hOther
      cases hOther
      cases scan after with
      | error e => rfl
      | ok ts => rfl

/-
  A written token is scanned as itself, and what follows it as
  if it stood alone.
-/
theorem Written.scan_append
    (w : Written)
    {rest : List Char}
    (h : w.StopsAt rest) :
    scan (w.chars ++ rest) = (scan rest).map (w.token :: ·) := by
  rcases w.exists_read_append h with
    ⟨c, cs, hEq, hBlank, hRead⟩
  rw [hEq]
  exact scan_of_read hBlank hRead

------------------------------------------------------------
-- Rows Of Tokens
------------------------------------------------------------

/-
  No blank is needed between a mark and a number, a text, a
  name or a bracket.
-/
def Written.mayTouch : Written → Written → Bool
  | .mark _, .mark m => m.isBracket
  | .mark _, _ => true
  | _, _ => false

/-
  Tokens are written one after another, with a blank between
  neighbours.  The blank may be missing where none is needed.
-/
inductive IsLaidOut : List Written → List Char → Prop where
  | nil : IsLaidOut [] []
  | last (w : Written) : IsLaidOut [w] w.chars
  | apart
      {w v : Written}
      {row : List Written}
      {cs : List Char}
      (hRest : IsLaidOut (v :: row) cs) :
      IsLaidOut (w :: v :: row) (w.chars ++ ' ' :: cs)
  | touching
      {w v : Written}
      {row : List Written}
      {cs : List Char}
      (hTouch : w.mayTouch v = true)
      (hRest : IsLaidOut (v :: row) cs) :
      IsLaidOut (w :: v :: row) (w.chars ++ cs)

/- With single blanks between them all, tokens are laid out. -/
theorem isLaidOut_intercalate (row : List Written) :
    IsLaidOut row ([' '].intercalate (row.map (·.chars))) := by
  induction row with
  | nil => exact .nil
  | cons w row ih =>
      cases row with
      | nil => simpa using IsLaidOut.last w
      | cons v row =>
          have hApart := IsLaidOut.apart (w := w) ih
          simpa [List.intercalate] using hApart

/- A row begins with its first token. -/
theorem IsLaidOut.exists_eq_append
    {w : Written}
    {row : List Written}
    {cs : List Char}
    (h : IsLaidOut (w :: row) cs) :
    ∃ rest, cs = w.chars ++ rest := by
  cases h with
  | last => exact ⟨[], (List.append_nil _).symm⟩
  | apart => exact ⟨_, rfl⟩
  | touching => exact ⟨_, rfl⟩

/- A mark stops at a token that it may touch. -/
theorem Written.stopsAt_of_mayTouch
    {w v : Written}
    (h : w.mayTouch v = true)
    (rest : List Char) :
    w.StopsAt (v.chars ++ rest) := by
  cases w with
  | mark m =>
      cases v with
      | number n =>
          rcases n.exists_chars_eq with ⟨c, cs, hChars, hFirst⟩
          change (n.chars ++ rest).head? ≠ some '='
          rw [hChars]
          rintro ⟨⟩
          rcases hFirst with hDigit | ⟨hPoint, _⟩
          · revert hDigit
            decide
          · revert hPoint
            decide
      | text quote s =>
          intro hEq
          have hQuote : quote.char = '=' := Option.some.inj hEq
          revert hQuote
          cases quote <;> decide
      | name n =>
          rcases not_other_of_beginsName n.beginsName with
            ⟨_, _, _, _, _, hEquals⟩
          exact fun hEq => hEquals (Option.some.inj hEq)
      | mark m' => exact Mark.head?_text_of_isBracket h rest
  | _ => cases h

/- A row that is laid out is scanned as its tokens. -/
theorem scan_of_isLaidOut
    {row : List Written}
    {cs : List Char}
    (h : IsLaidOut row cs) :
    scan cs = .ok (row.map (·.token)) := by
  induction h with
  | nil =>
      rw [scan]
      rfl
  | last w =>
      have hScan := w.scan_append w.stopsAt_nil
      rw [List.append_nil] at hScan
      rw [hScan, scan]
      rfl
  | @apart w v row cs hRest ih =>
      rw [w.scan_append (w.stopsAt_blank cs),
        scan_of_isBlank (by decide), ih]
      rfl
  | @touching w v row cs hTouch hRest ih =>
      rcases hRest.exists_eq_append with ⟨rest, hEq⟩
      have hStops : w.StopsAt cs := by
        rw [hEq]
        exact Written.stopsAt_of_mayTouch hTouch rest
      rw [w.scan_append hStops, ih]
      rfl

/-
  Tokens with single blanks between them are scanned as they
  are, and so they are without those blanks that are not
  needed.
-/
theorem scan_written (row : List Written) :
    scan ([' '].intercalate (row.map (·.chars))) =
        .ok (row.map (·.token)) ∧
      ∀ cs, IsLaidOut row cs →
        scan cs = .ok (row.map (·.token)) :=
  ⟨scan_of_isLaidOut (isLaidOut_intercalate row),
    fun _ => scan_of_isLaidOut⟩

/-
  Brackets, a number without digits before its point, and a
  text with a quote and a backslash, with few blanks.
-/
theorem scan_written_touching :
    let name : Name :=
      ⟨'x', ['.', 'y', '_', '1'], rfl, List.all_eq_true.mp rfl⟩
    let half : Numeral :=
      ⟨[], some ['5'], List.all_eq_true.mp rfl, by decide⟩
    let row : List Written :=
      [.mark .bang, .mark .openRound, .name name,
        .mark .atLeast, .number half, .mark .closeRound,
        .mark .both, .text .single "it's \\"]
    let text := "!(x.y_1 >=.5 ) &&'it\\'s \\\\'"
    IsLaidOut row text.toList ∧
      scan text.toList =
        .ok [.mark .bang, .mark .openRound, .name "x.y_1",
          .mark .atLeast, .number half.number,
          .mark .closeRound, .mark .both, .text "it's \\"] := by
  intro name half row text
  have hRow : IsLaidOut row _ :=
    .touching rfl (.touching rfl (.apart (.touching rfl
      (.apart (.apart (.touching rfl (.last _)))))))
  have hLaid : IsLaidOut row text.toList := by
    convert hRow using 1
    decide
  exact ⟨hLaid, (scan_written row).2 _ hLaid⟩

end Token

end CharSheet
