import CharSheet.Text.Blank

/-
  Cutting texts: trimming, and splitting at separators.

  Key definitions include:
    * `Text.trimChars`, `Text.trim`
    * `Text.after?`, `Text.beginsWith`, `Text.endsWith`
    * `Text.cutAt?`
    * `Text.splitAtChar`
    * `Text.join`
-/

namespace CharSheet

namespace Text

------------------------------------------------------------
-- Trimming
------------------------------------------------------------

/- Drop the white space at the front. -/
def trimFront (cs : List Char) : List Char :=
  cs.dropWhile isBlank

/- Drop the white space at the end. -/
def trimBack (cs : List Char) : List Char :=
  (trimFront cs.reverse).reverse

/- Drop the white space at both ends. -/
def trimChars (cs : List Char) : List Char :=
  trimBack (trimFront cs)

/- Drop the white space at both ends of a text. -/
def trim (s : String) : String :=
  String.ofList (trimChars s.toList)

------------------------------------------------------------
-- Beginnings
------------------------------------------------------------

/- What follows a beginning, if the text has it. -/
def after? : List Char → List Char → Option (List Char)
  | [], cs => some cs
  | _ :: _, [] => none
  | d :: ds, c :: cs => if d = c then after? ds cs else none

/- A text is a beginning and what follows it. -/
theorem eq_append_of_after?
    {ds cs rest : List Char}
    (h : after? ds cs = some rest) :
    cs = ds ++ rest := by
  fun_induction after? ds cs with
  | case1 => simpa using h
  | case2 => simp at h
  | case3 d ds cs ih => simp [ih h]
  | case4 => simp at h

/- What follows a beginning is shorter by its length. -/
theorem length_of_after?
    {ds cs rest : List Char}
    (h : after? ds cs = some rest) :
    cs.length = ds.length + rest.length := by
  rw [eq_append_of_after? h, List.length_append]

/- A beginning is followed by what is put behind it. -/
theorem after?_append (ds rest : List Char) :
    after? ds (ds ++ rest) = some rest := by
  induction ds with
  | nil => cases rest <;> rfl
  | cons d ds ih => simp [after?, ih]

/- A text begins with another. -/
def beginsWith (cs beginning : List Char) : Bool :=
  (after? beginning cs).isSome

theorem beginsWith_iff
    {cs beginning : List Char} :
    beginsWith cs beginning = true ↔ beginning <+: cs := by
  rw [beginsWith, Option.isSome_iff_exists]
  constructor
  · rintro ⟨rest, hAfter⟩
    exact ⟨rest, (eq_append_of_after? hAfter).symm⟩
  · rintro ⟨rest, rfl⟩
    exact ⟨rest, after?_append beginning rest⟩

/- A text ends with another. -/
def endsWith (s ending : String) : Bool :=
  beginsWith s.toList.reverse ending.toList.reverse

------------------------------------------------------------
-- Separators
------------------------------------------------------------

/-
  The text before the first place where a separator stands,
  and the text after that separator.
-/
def cutAt?
    (separator : List Char) :
    List Char → Option (List Char × List Char)
  | [] =>
      if separator.isEmpty then some ([], []) else none
  | c :: cs =>
      match after? separator (c :: cs) with
      | some rest => some ([], rest)
      | none =>
          (cutAt? separator cs).map fun (before, rest) =>
            (c :: before, rest)

/- The parts of a text between all places of a character. -/
def splitAtChar (separator : Char) :
    List Char → List (List Char)
  | [] => [[]]
  | c :: cs =>
      match splitAtChar separator cs with
      | [] => [[c]]
      | part :: parts =>
          if c = separator then [] :: part :: parts
          else (c :: part) :: parts

/- Texts in a row, with a separator between neighbours. -/
def join (separator : String) (parts : List String) : String :=
  separator.intercalate parts

end Text

end CharSheet
