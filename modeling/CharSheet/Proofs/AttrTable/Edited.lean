import CharSheet.AttrTable
import Mathlib.Data.List.Nodup

/-
  Tables of attributes that come from a text and from edits.

  However a table is edited, no key is repeated, each key is
  spelled as a key of a text, and no key is without a value.

  Main declarations:
    * `AttrTable.IsEdited`
    * `AttrTable.IsWellFormed`
    * `AttrTable.IsEdited.isWellFormed`
-/

namespace CharSheet

namespace AttrTable

variable {t : AttrTable}
variable {key : String}
variable {values : List String}

------------------------------------------------------------
-- Edits
------------------------------------------------------------

/- The key has no white space and no equals sign. -/
def IsKey (key : String) : Prop :=
  ∀ c ∈ key.toList, inKey c = true

instance (key : String) : Decidable (IsKey key) :=
  decidable_of_iff (key.toList.all inKey = true) List.all_eq_true

/-
  A table that was read from a text without faults, and then
  edited by keys and lists of values that a text may have.
-/
inductive IsEdited : AttrTable → Prop where
  | read
      {text : String}
      {t : AttrTable}
      (h : ofText text = .ok t) : IsEdited t
  | set
      {t : AttrTable}
      {key : String}
      {values : List String}
      (h : IsEdited t)
      (hKey : IsKey key)
      (hValues : values ≠ []) : IsEdited (t.set key values)
  | append
      {t : AttrTable}
      {key : String}
      {values : List String}
      (h : IsEdited t)
      (hKey : IsKey key)
      (hValues : values ≠ []) : IsEdited (t.append key values)
  | remove
      {t : AttrTable}
      (h : IsEdited t)
      (key : String) : IsEdited (t.remove key)

/- Keys differ, are keys of a text, and have values. -/
structure IsWellFormed (t : AttrTable) : Prop where
  distinct : (t.entries.map (·.1)).Nodup
  isKey : ∀ entry ∈ t.entries, IsKey entry.1
  hasValues : ∀ entry ∈ t.entries, entry.2 ≠ []

theorem isWellFormed_empty : empty.IsWellFormed where
  distinct := List.nodup_nil
  isKey := nofun
  hasValues := nofun

------------------------------------------------------------
-- Updates
------------------------------------------------------------

theorem contains_iff :
    t.contains key = true ↔ key ∈ t.entries.map (·.1) := by
  simp [contains]

/- An update keeps the keys in their places. -/
theorem map_fst_update_of_contains
    {f : List String → List String}
    (h : t.contains key = true) :
    (t.update key f).entries.map (·.1) =
      t.entries.map (·.1) := by
  rw [update, if_pos h, List.map_map]
  apply List.map_congr_left
  intro entry _
  dsimp only [Function.comp_apply]
  split
  · next hSame => rfl
  · rfl

/- A table stays well-formed where an update has values. -/
theorem IsWellFormed.update
    {f : List String → List String}
    (h : t.IsWellFormed)
    (hKey : IsKey key)
    (hValues : ∀ values, f values ≠ []) :
    (t.update key f).IsWellFormed := by
  by_cases hContains : t.contains key = true
  · have hEntry : ∀ entry ∈ (t.update key f).entries,
        IsKey entry.1 ∧ entry.2 ≠ [] := by
      rw [AttrTable.update, if_pos hContains]
      intro entry hEntry
      rcases List.mem_map.mp hEntry with ⟨old, hOld, rfl⟩
      have hIsKey := h.isKey old hOld
      dsimp only
      split
      · exact ⟨hIsKey, hValues old.2⟩
      · exact ⟨hIsKey, h.hasValues old hOld⟩
    refine ⟨?_, fun entry hIn => (hEntry entry hIn).1,
      fun entry hIn => (hEntry entry hIn).2⟩
    rw [map_fst_update_of_contains hContains]
    exact h.distinct
  · have hNew := mt contains_iff.mpr hContains
    rw [AttrTable.update, if_neg hContains]
    refine ⟨?_, ?_, ?_⟩
    · rw [List.map_append, List.map_singleton,
        ← List.concat_eq_append, List.nodup_concat]
      exact ⟨hNew, h.distinct⟩
    · exact List.forall_mem_append.mpr
        ⟨h.isKey, List.forall_mem_singleton.mpr hKey⟩
    · exact List.forall_mem_append.mpr
        ⟨h.hasValues, List.forall_mem_singleton.mpr (hValues [])⟩

theorem IsWellFormed.append
    (h : t.IsWellFormed)
    (hKey : IsKey key)
    (hValues : values ≠ []) :
    (t.append key values).IsWellFormed :=
  h.update hKey fun _ => List.append_ne_nil_of_right_ne_nil _
    hValues

theorem IsWellFormed.remove
    (h : t.IsWellFormed)
    (key : String) :
    (t.remove key).IsWellFormed where
  distinct := h.distinct.sublist
    ((List.filter_sublist (l := t.entries)).map (·.1))
  isKey entry hEntry :=
    h.isKey entry (List.mem_of_mem_filter hEntry)
  hasValues entry hEntry :=
    h.hasValues entry (List.mem_of_mem_filter hEntry)

------------------------------------------------------------
-- Tables of Texts
------------------------------------------------------------

/- A key that is read has values. -/
theorem ne_nil_of_readValues?
    {cs after : List Char}
    (h : readValues? cs = some (values, after)) :
    values ≠ [] := by
  unfold readValues? at h
  split at h
  · cases h
  · rcases Option.map_eq_some_iff.mp h with ⟨_, _, hEq⟩
    cases hEq
    exact List.cons_ne_nil _ _
  · cases h
    exact List.cons_ne_nil _ _

/- What may be added to a well-formed table. -/
def Piece.IsWellFormed : Piece → Prop
  | .ok (key, values) => IsKey key ∧ values ≠ []
  | .error _ => True

theorem isWellFormed_readPair
    {key : List Char}
    (hKey : ∀ c ∈ key, inKey c = true)
    (cs : List Char) :
    (readPair key cs).1.IsWellFormed := by
  unfold readPair
  split
  · next h =>
      refine ⟨?_, ne_nil_of_readValues? h⟩
      rw [IsKey, String.toList_ofList]
      exact hKey
  · trivial

theorem isWellFormed_readPiece
    {c : Char}
    (hBlank : Text.isBlank c = false)
    (rest : List Char) :
    (readPiece c rest).1.IsWellFormed := by
  unfold readPiece
  split
  · exact isWellFormed_readPair (List.forall_mem_nil _) rest
  · next hEquals =>
      dsimp only
      split
      · apply isWellFormed_readPair
        intro d hIn
        rcases List.mem_cons.mp hIn with rfl | hIn
        · simp [inKey, hEquals, hBlank]
        · exact List.all_eq_true.mp List.all_takeWhile d hIn
      · trivial

theorem isWellFormed_of_mem_pieces
    {cs : List Char} :
    ∀ piece ∈ pieces cs, piece.IsWellFormed := by
  fun_induction pieces cs with
  | case1 => exact nofun
  | case2 c rest hBlank ih => exact ih
  | case3 c rest hBlank hLength ih =>
      have hFirst := isWellFormed_readPiece
        (Bool.eq_false_iff.mpr hBlank) rest
      exact List.forall_mem_cons.mpr ⟨hFirst, ih⟩

theorem IsWellFormed.addPieces
    {ps : List Piece}
    (h : t.IsWellFormed)
    (hPieces : ∀ piece ∈ ps, piece.IsWellFormed) :
    (t.addPieces ps).IsWellFormed := by
  fun_induction AttrTable.addPieces t ps with
  | case1 t => exact h
  | case2 t key values rest ih =>
      rcases List.forall_mem_cons.mp hPieces with
        ⟨hFirst, hRest⟩
      exact ih (h.append hFirst.1 hFirst.2) hRest
  | case3 t fault rest ih =>
      exact ih h (List.forall_mem_cons.mp hPieces).2

/- Without faults, a text has the table of its pieces. -/
theorem ofText_eq_ok_iff
    {text : String} :
    ofText text = .ok t ↔
      faults (pieces text.toList) = [] ∧
        empty.addPieces (pieces text.toList) = t := by
  unfold ofText ofTextLossy
  dsimp only
  cases faults (pieces text.toList) with
  | nil => simp
  | cons fault rest => simp

/- Every edited table is well-formed. -/
theorem IsEdited.isWellFormed
    (h : t.IsEdited) :
    t.IsWellFormed := by
  induction h with
  | read h =>
      rw [← (ofText_eq_ok_iff.mp h).2]
      exact isWellFormed_empty.addPieces
        isWellFormed_of_mem_pieces
  | set _ hKey hValues ih =>
      exact ih.update hKey fun _ => hValues
  | append _ hKey hValues ih => exact ih.append hKey hValues
  | remove _ key ih => exact ih.remove key

end AttrTable

end CharSheet
