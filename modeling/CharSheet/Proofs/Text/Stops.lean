import CharSheet.Text.Cut

/-
  Characters at which the parts of a text stop.

  A part of a text that ends at a character it cannot hold is
  found by looking at the text before that character, whatever
  follows it.

  Main declarations:
    * `Text.takeWhile_append_stop`
    * `Text.dropWhile_append_stop`
    * `Text.takeWhile_append_of_head?`
    * `Text.dropWhile_append_of_head?`
    * `Text.after?_append_stop`
-/

namespace CharSheet

namespace Text

variable {stop : Char}
variable (cs rest : List Char)

/- What is taken from a text ends before a stop. -/
theorem takeWhile_append_stop
    {p : Char → Bool}
    (hStop : p stop = false) :
    (cs ++ stop :: rest).takeWhile p = cs.takeWhile p := by
  induction cs with
  | nil => simp [hStop]
  | cons c cs ih =>
      rw [List.cons_append, List.takeWhile_cons,
        List.takeWhile_cons, ih]

/- So nothing behind a stop is dropped. -/
theorem dropWhile_append_stop
    {p : Char → Bool}
    (hStop : p stop = false) :
    (cs ++ stop :: rest).dropWhile p =
      cs.dropWhile p ++ stop :: rest := by
  induction cs with
  | nil => simp [hStop]
  | cons c cs ih =>
      rw [List.cons_append, List.dropWhile_cons,
        List.dropWhile_cons, ih]
      split
      · rfl
      · rfl

/- What is taken ends where more characters than it stop it. -/
theorem takeWhile_append_of_head?
    {p : Char → Bool}
    (hTaken : ∀ c ∈ cs, p c = true)
    (hStops : ∀ c ∈ rest.head?, p c = false) :
    (cs ++ rest).takeWhile p = cs := by
  rw [List.takeWhile_append_of_pos hTaken]
  cases rest with
  | nil => simp
  | cons c rest => simp [hStops c rfl]

/- What is dropped ends there too. -/
theorem dropWhile_append_of_head?
    {p : Char → Bool}
    (hTaken : ∀ c ∈ cs, p c = true)
    (hStops : ∀ c ∈ rest.head?, p c = false) :
    (cs ++ rest).dropWhile p = rest := by
  rw [List.dropWhile_append_of_pos hTaken]
  cases rest with
  | nil => rfl
  | cons c rest => simp [hStops c rfl]

/- A beginning without the stop lies before it. -/
theorem after?_append_stop
    {ds : List Char}
    (hStop : stop ∉ ds) :
    after? ds (cs ++ stop :: rest) =
      (after? ds cs).map (· ++ stop :: rest) := by
  induction ds generalizing cs with
  | nil => simp [after?]
  | cons d ds ih =>
      rw [List.mem_cons, not_or] at hStop
      rcases hStop with ⟨hFirst, hRest⟩
      cases cs with
      | nil => simp [after?, Ne.symm hFirst]
      | cons c cs =>
          simp only [List.cons_append, after?]
          split
          · exact ih cs hRest
          · rfl

end Text

end CharSheet
