import CharSheet.Proofs.Content.Patches

/-
  Entries that a layer does not touch.

  A layer touches the entries of its own base and those that
  its patches name.  All other entries of the table below come
  out of the layer as they went in, whether the patches can be
  made or not.

  Main declarations:
    * `ContentTable.entriesOf`
    * `LayeredTable.Touches`
    * `LayeredTable.entriesOf_onTopOf`
-/

namespace CharSheet

variable {name other text : String}

------------------------------------------------------------
-- Tables
------------------------------------------------------------

namespace ContentTable

variable {t : ContentTable}

/- The entries of a name, in their order. -/
def entriesOf
    (t : ContentTable)
    (name : String) : List (String × String) :=
  t.entries.filter (·.1 = name)

/- A name that is contained has a last entry. -/
theorem exists_last_entry
    (h : t.contains name = true) :
    ∃ text, (t.entriesOf name).getLast? = some (name, text) ∧
      (name, text) ∈ t.entries := by
  rcases List.any_eq_true.mp h with ⟨e, he, hName⟩
  have hNotNil : t.entriesOf name ≠ [] :=
    List.ne_nil_of_mem (List.mem_filter.mpr ⟨he, hName⟩)
  have hLast := List.getLast?_eq_some_getLast hNotNil
  generalize (t.entriesOf name).getLast hNotNil = last at hLast
  rcases List.mem_filter.mp (List.mem_of_getLast? hLast) with
    ⟨hIn, hLastName⟩
  obtain rfl : last.1 = name := of_decide_eq_true hLastName
  exact ⟨last.2, hLast, hIn⟩

/- A change leaves the entries of other names alone. -/
theorem IsChange.entriesOf_eq
    {after : ContentTable}
    {text? : Option String}
    (h : IsChange other text? t after)
    (hOther : other ≠ name) :
    after.entriesOf name = t.entriesOf name :=
  h.filter_eq fun _ => decide_eq_false hOther

/- So do several insertions. -/
theorem entriesOf_insertAll
    {entries : List (String × String)}
    (hOther : ∀ e ∈ entries, e.1 ≠ name) :
    (t.insertAll entries).entriesOf name = t.entriesOf name := by
  induction entries generalizing t with
  | nil => rfl
  | cons e es ih =>
      have hRest := fun d hd =>
        hOther d (List.mem_cons_of_mem e hd)
      exact (ih hRest).trans
        ((isChange_put t e.1 (some e.2)).entriesOf_eq
          (hOther e List.mem_cons_self))

end ContentTable

------------------------------------------------------------
-- Layers
------------------------------------------------------------

namespace LayeredTable

variable {t : LayeredTable}

/- An entry of the layer's own, or one that a patch names. -/
def Touches (t : LayeredTable) (name : String) : Prop :=
  t.base.contains name = true ∨
    ∃ p ∈ t.patches, p.target = name

instance (t : LayeredTable) (name : String) :
    Decidable (t.Touches name) :=
  inferInstanceAs (Decidable (_ ∨ _))

/- All patches together leave other entries alone. -/
theorem entriesOf_merge
    {base : ContentTable}
    {patches : List Patch}
    (h : ∀ p ∈ patches, p.target ≠ name) :
    (merge ⟨base, patches⟩).entriesOf name =
      base.entriesOf name := by
  unfold merge
  induction patches generalizing base with
  | nil => rfl
  | cons p ps ih =>
      have hRest := fun q hq => h q (List.mem_cons_of_mem p hq)
      exact (ih hRest).trans (Patch.filter_apply fun _ =>
        decide_eq_false (h p List.mem_cons_self))

/- What a layer does not touch is as in the table below. -/
theorem entriesOf_onTopOf
    (h : ¬ t.Touches name)
    (lower : ContentTable) :
    (t.onTopOf lower).entriesOf name = lower.entriesOf name := by
  have hPatches : ∀ p ∈ t.patches, p.target ≠ name :=
    fun p hp hTarget => h (Or.inr ⟨p, hp, hTarget⟩)
  have hBase : ∀ e ∈ t.base.entries, e.1 ≠ name :=
    fun e he hName => h (Or.inl (List.any_eq_true.mpr
      ⟨e, he, decide_eq_true hName⟩))
  exact (entriesOf_merge hPatches).trans
    (ContentTable.entriesOf_insertAll hBase)

end LayeredTable

end CharSheet
