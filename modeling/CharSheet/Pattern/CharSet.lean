import CharSheet.Text.Blank
import CharSheet.Text.Folding
import CharSheet.Text.WordParts

/-
  Sets of characters, as the brackets and escapes of patterns
  describe them.

  Key definitions include:
    * `CharSet`
    * `CharSet.holds`
-/

namespace CharSheet

/- A description of a set of characters. -/
inductive CharSet where
  | none
  | range (low high : Char)
  | blank
  | digit
  | wordPart
  | folded (s : CharSet)
  | complement (s : CharSet)
  | union (s t : CharSet)
  | inter (s t : CharSet)
deriving DecidableEq

namespace CharSet

/-
  A character lies in a set.  It lies in a folded set when
  one of its case variants lies in the set below.
-/
def holds : CharSet → Char → Bool
  | .none, _ => false
  | .range low high, c => low ≤ c && c ≤ high
  | .blank, c => Text.isBlank c
  | .digit, c => Text.isDecimalDigit c
  | .wordPart, c => Text.isWordPart c
  | .folded s, c => (Text.variants c).any s.holds
  | .complement s, c => !s.holds c
  | .union s t, c => s.holds c || t.holds c
  | .inter s t, c => s.holds c && t.holds c

/- The set of one character. -/
def single (c : Char) : CharSet := .range c c

/- All characters. -/
def all : CharSet := .complement .none

/- All characters of the first set outside the second. -/
def diff (s t : CharSet) : CharSet :=
  .inter s (.complement t)

/- The characters that lie in one of the two sets only. -/
def symmDiff (s t : CharSet) : CharSet :=
  .union (s.diff t) (t.diff s)

end CharSet

end CharSheet
