import CharSheet.Formula

/-
  Tables of spell slots such as `W1:1=2;2=3;3=4`.

  A table says how many slots a caster has from which level
  on.  Its steps are kept in the total order of their levels.

  Key definitions include:
    * `SlotTable`
    * `SlotTable.ofText`
    * `SlotTable.formula`
-/

namespace CharSheet

/- The slot of a table, and its steps of level and count. -/
structure SlotTable where
  slot : String
  steps : List (Number × Number)
deriving DecidableEq

namespace SlotTable

/- Read one step `level=count`. -/
def readStep
    (cs : List Char) :
    Except AttributeFault (Number × Number) := do
  let trimmed := Text.trimChars cs
  match Text.cutAt? ['='] trimmed with
  | none => throw (.badStep (String.ofList trimmed))
  | some (level, count) =>
      let some n := Number.ofChars? (Text.trimChars level)
        | throw (.badLevel (String.ofList level))
      let some m := Number.ofChars? (Text.trimChars count)
        | throw (.badCount (String.ofList count))
      return (n, m)

/- The texts of the steps between semicolons. -/
def stepTexts (cs : List Char) : List (List Char) :=
  (Text.splitAtChar ';' cs).filter fun part =>
    !(Text.trimChars part).isEmpty

/- Read a table. -/
def ofChars
    (cs : List Char) : Except AttributeFault SlotTable := do
  let some (slot, table) := Text.cutAt? [':'] cs
    | throw .noSlot
  let steps ← (stepTexts table).mapM readStep
  let name := Text.trimChars slot
  if name.isEmpty || steps.isEmpty then throw .emptySlots
  return ⟨String.ofList name,
    steps.mergeSort fun a b => a.1.totalLe b.1⟩

/- The table that a text spells. -/
def ofText (text : String) : Except ContentError SlotTable :=
  match ofChars text.toList with
  | .ok table => .ok table
  | .error fault => .error (.attributes text fault)

/-
  The expression of the count for a level: the highest step
  is asked first, and below the lowest there is none.
-/
def stepsExpr (steps : List (Number × Number)) : Expr :=
  steps.foldl
    (fun otherwise (level, count) =>
      .choose (.binary .ge .source (.number level))
        (.number count) otherwise)
    .absent

/- The formula of a table, shown with the table's text. -/
def formula (t : SlotTable) (text : String) : Formula :=
  ⟨text, stepsExpr t.steps⟩

end SlotTable

end CharSheet
