import CharSheet.Abilities

/-
  Attributes and their scopes.

  A key without a dot has no scope.  Identifiers and lowered
  texts are such keys, or at least no capitals are in them, so
  that they are not mistaken for what lies under a scope or is
  named with capitals.

  Main declarations:
    * `Text.mem_lowerChar`
    * `Text.isUpper_of_mem_lower`
    * `Key.IsRoot`
    * `Key.under_inj`
    * `Key.isUnder_under`
    * `Key.eq_under_of_isUnder`
    * `Key.isRoot_camelCase`
-/

namespace CharSheet

------------------------------------------------------------
-- Lower Case
------------------------------------------------------------

namespace Text

/- No character is lowered to one among the ASCII capitals. -/
theorem lt_of_mem_loweringRuns :
    ∀ r ∈ loweringRuns, 90 < (r.first : Int) + r.distance := by
  decide +kernel

/- A character beyond ASCII stays beyond the capitals. -/
theorem lt_applyFirst_loweringRuns
    {n : Nat}
    (h : 90 < n) :
    90 < Run.applyFirst loweringRuns n := by
  unfold Run.applyFirst
  split
  · next r hFound =>
      have hCovers := List.find?_some hFound
      have hRun :=
        lt_of_mem_loweringRuns r (List.mem_of_find?_eq_some hFound)
      simp only [Run.covers, Bool.and_eq_true,
        decide_eq_true_eq] at hCovers
      omega
  · exact h

/- The code point of a number that is none is zero. -/
theorem toNat_ofNat (n : Nat) :
    (Char.ofNat n).toNat = n ∨ (Char.ofNat n).toNat = 0 := by
  by_cases hValid : n.isValidChar
  · exact .inl (congrArg Char.toNat (dif_pos hValid))
  · exact .inr (congrArg Char.toNat (dif_neg hValid))

/-
  A lowered character is that of ASCII, or beyond the capitals
  of ASCII.
-/
theorem mem_lowerChar
    {c d : Char}
    (h : d ∈ lowerChar c) :
    d = c.toLower ∨ d.toNat = 0 ∨ 90 < d.toNat := by
  unfold lowerChar at h
  split at h
  · exact .inl (List.mem_singleton.mp h)
  · next hBeyond =>
      right
      split at h
      · simp only [List.mem_cons, List.not_mem_nil,
          or_false] at h
        rcases h with rfl | rfl
        · right; decide
        · right; decide
      · have hRuns := lt_applyFirst_loweringRuns
          (n := c.toNat) (by omega)
        rw [List.mem_singleton.mp h]
        rcases toNat_ofNat
            (Run.applyFirst loweringRuns c.toNat) with
          hSame | hZero
        · rw [hSame]
          exact .inr hRuns
        · exact .inl hZero

theorem isUpper_iff_val
    {c : Char} :
    c.isUpper = true ↔
      c.val ≥ 'A'.val ∧ c.val ≤ 'Z'.val :=
  decide_eq_true_iff

theorem isUpper_iff
    {c : Char} :
    c.isUpper = true ↔ 65 ≤ c.toNat ∧ c.toNat ≤ 90 := by
  rw [isUpper_iff_val]
  simp [UInt32.le_iff_toNat_le, ← Char.toNat_val]

/- Capitals are lowered by 32 code points, nothing else is. -/
theorem toNat_toLower (c : Char) :
    c.toLower.toNat =
      if c.isUpper = true then c.toNat + 32 else c.toNat := by
  unfold Char.toLower
  split
  · next h =>
      have hLe := (isUpper_iff.mp (isUpper_iff_val.mpr h)).2
      rw [if_pos (isUpper_iff_val.mpr h)]
      change (c.val + 32).toNat = c.toNat + 32
      rw [UInt32.toNat_add, Char.toNat_val]
      change (c.toNat + 32) % 4294967296 = c.toNat + 32
      omega
  · next h => rw [if_neg fun hIs => h (isUpper_iff_val.mp hIs)]

/- No capital of ASCII is left when a text is lowered. -/
theorem isUpper_of_mem_lowerChar
    {c d : Char}
    (h : d ∈ lowerChar c) :
    d.isUpper = false := by
  rw [Bool.eq_false_iff, Ne, isUpper_iff]
  rcases mem_lowerChar h with rfl | hCode
  · rw [toNat_toLower]
    split
    · next hIs =>
        have hBounds := isUpper_iff.mp hIs
        omega
    · next hNot => exact fun hIs => hNot (isUpper_iff.mpr hIs)
  · omega

theorem isUpper_of_mem_lower
    {s : String}
    {c : Char}
    (h : c ∈ (lower s).toList) :
    c.isUpper = false := by
  have hAfter
      (passed cs : List Char)
      (hMem : c ∈ lowerAfter passed cs) :
      c.isUpper = false := by
    induction cs generalizing passed with
    | nil => cases hMem
    | cons d cs ih =>
        rw [lowerAfter] at hMem
        rcases List.mem_append.mp hMem with hFirst | hRest
        · split at hFirst
          · split at hFirst
            · rw [List.mem_singleton.mp hFirst]
              decide
            · rw [List.mem_singleton.mp hFirst]
              decide
          · exact isUpper_of_mem_lowerChar hFirst
        · exact ih _ hRest
  rw [lower, String.toList_ofList] at h
  exact hAfter [] s.toList h

end Text

------------------------------------------------------------
-- Scopes
------------------------------------------------------------

namespace Key

/- A key that lies under no scope. -/
def IsRoot (key : Key) : Prop :=
  '.' ∉ key.toList

instance (key : Key) : Decidable key.IsRoot :=
  inferInstanceAs (Decidable ('.' ∉ key.toList))

variable {scope scope' name name' key : String}

theorem toList_under (scope name : String) :
    (under scope name).toList =
      scope.toList ++ '.' :: name.toList := by
  simp [under]

/- What lies under a scope is not a root. -/
theorem not_isRoot_under (scope name : String) :
    ¬ (under scope name).IsRoot := by
  unfold IsRoot
  rw [toList_under]
  simp

theorem IsRoot.ne_under
    (h : IsRoot key)
    (scope name : String) :
    key ≠ under scope name := by
  rintro rfl
  exact not_isRoot_under scope name h

/- Scopes without dots can be told from their keys. -/
theorem under_inj
    (hScope : IsRoot scope)
    (hScope' : IsRoot scope')
    (h : under scope name = under scope' name') :
    scope = scope' ∧ name = name' := by
  have hList := congrArg String.toList h
  rw [toList_under, toList_under] at hList
  have hParts :
      scope.toList = scope'.toList ∧
        name.toList = name'.toList := by
    rcases List.append_eq_append_iff.mp hList with
      ⟨more, hLonger, hRest⟩ | ⟨more, hLonger, hRest⟩
    · cases more with
      | nil => simp_all
      | cons c more =>
          have hDot : c = '.' := (List.cons.inj hRest).1.symm
          refine absurd ?_ hScope'
          rw [hLonger, hDot]
          simp
    · cases more with
      | nil => simp_all
      | cons c more =>
          have hDot : c = '.' := (List.cons.inj hRest).1.symm
          refine absurd ?_ hScope
          rw [hLonger, hDot]
          simp
  exact ⟨String.toList_inj.mp hParts.1,
    String.toList_inj.mp hParts.2⟩

/- A text is cut at the dot after its scope. -/
theorem cutAt?_append
    {cs : List Char}
    (h : '.' ∉ cs)
    (rest : List Char) :
    Text.cutAt? ['.'] (cs ++ '.' :: rest) = some (cs, rest) := by
  induction cs with
  | nil => rfl
  | cons c cs ih =>
      have hApart : '.' ≠ c := List.ne_of_not_mem_cons h
      have hRest := ih (List.not_mem_of_not_mem_cons h)
      simp [Text.cutAt?, Text.after?, hApart, hRest]

theorem isUnder_under
    (h : IsRoot scope)
    (name : String) :
    isUnder (under scope name) scope = true := by
  rw [isUnder, scope?, split?, toList_under, cutAt?_append h]
  simp

/- What is under a scope has the name that it is put under. -/
theorem name_under
    (h : IsRoot scope)
    (name : String) :
    Key.name (under scope name) = name := by
  rw [Key.name, split?, toList_under, cutAt?_append h]
  simp

/- A text that is cut is put together again. -/
theorem eq_append_of_cutAt?
    {cs before rest : List Char}
    (h : Text.cutAt? ['.'] cs = some (before, rest)) :
    cs = before ++ '.' :: rest := by
  induction cs generalizing before with
  | nil => cases h
  | cons c cs ih =>
      rw [Text.cutAt?] at h
      split at h
      · next hAfter =>
          have hDot := Text.eq_append_of_after? hAfter
          cases h
          exact hDot
      · rcases Option.map_eq_some_iff.mp h with
          ⟨⟨before', rest'⟩, hCut, hEq⟩
        cases hEq
        rw [ih hCut]
        rfl

/- What lies under a scope is named by it. -/
theorem eq_under_of_isUnder
    (h : isUnder key scope = true) :
    key = under scope (Key.name key) := by
  rw [isUnder, beq_iff_eq, scope?, split?] at h
  cases hCut : Text.cutAt? ['.'] key.toList with
  | none =>
      rw [hCut] at h
      cases h
  | some parts =>
      rcases parts with ⟨before, rest⟩
      rw [hCut] at h
      cases h
      have hName : Key.name key = String.ofList rest := by
        rw [Key.name, split?, hCut]
        rfl
      apply String.toList_inj.mp
      rw [toList_under, hName, String.toList_ofList,
        String.toList_ofList]
      exact eq_append_of_cutAt? hCut

theorem IsRoot.append
    {tail : String}
    (h : IsRoot key)
    (hTail : IsRoot tail) :
    IsRoot (key ++ tail) := by
  unfold IsRoot at *
  rw [String.toList_append, List.mem_append]
  exact not_or.mpr ⟨h, hTail⟩

/- Identifiers have no dots. -/
theorem isRoot_camelCase (name : String) :
    IsRoot (camelCase name) := by
  have hKept :
      ∀ c ∈ name.toList.filter Text.isLetterOrNumeral, c ≠ '.' := by
    intro c hc
    rintro rfl
    have hNot := (List.mem_filter.mp hc).2
    revert hNot
    decide +kernel
  unfold camelCase
  split
  · decide
  · next c cs hSome =>
      rw [hSome] at hKept
      unfold IsRoot
      rw [String.toList_ofList, List.mem_append, not_or]
      refine ⟨fun hFirst => ?_, fun hRest => ?_⟩
      · rcases Text.mem_lowerChar hFirst with hLower | hCode
        · refine hKept c List.mem_cons_self ?_
          have hCode := Text.toNat_toLower c
          rw [← hLower] at hCode
          apply Char.toNat_inj.mp
          split at hCode
          · next hIs =>
              have hBounds := Text.isUpper_iff.mp hIs
              change 46 = c.toNat + 32 at hCode
              omega
          · exact hCode.symm
        · revert hCode
          decide
      · exact hKept '.' (List.mem_cons_of_mem c hRest) rfl

end Key

end CharSheet
