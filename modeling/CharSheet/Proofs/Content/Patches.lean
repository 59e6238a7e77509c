import CharSheet.Content.Table

/-
  Patches that are made, and patches that are not.

  A patch reads the first entry of its name and nothing else,
  and from it finds a new text, no text, or a reason why it
  cannot be made.  So every patch is one change of one entry
  in its place, or it leaves the table as it is.  A layer makes
  its patches one after another, from any table and at any
  point of the list.  Names of a table may be there twice.

  Main declarations:
    * `ContentTable.put`
    * `ContentTable.IsChange`
    * `ContentTable.isChange_put`
    * `Patch.outcome`
    * `Patch.CannotBeMade`
    * `Patch.apply_eq`
    * `Patch.IsAttempt`
    * `Patch.isAttempt_apply`
    * `LayeredTable.merge_append`
    * `LayeredTable.patches_one_after_another`
-/

namespace CharSheet

------------------------------------------------------------
-- Changes of One Entry
------------------------------------------------------------

namespace ContentTable

variable {t after : ContentTable}
variable {name text : String}
variable {text? : Option String}

/- The names of the entries, in their order. -/
def names (t : ContentTable) : List String :=
  t.entries.map (·.1)

/- The entries of all names but these, in their order. -/
def apartFrom
    (t : ContentTable)
    (touched : List String) : List (String × String) :=
  t.entries.filter (·.1 ∉ touched)

/- Give an entry a text, or take it out of the table. -/
def put
    (t : ContentTable)
    (name : String) : Option String → ContentTable
  | some text => t.insert name text
  | none => t.remove name

/- The entry of a name with a text, or no entry. -/
def entryWith
    (name : String)
    (text? : Option String) : List (String × String) :=
  text?.toList.map (name, ·)

/-
  One table comes from another by a change of the first entry
  of a name.  The entries before it and those behind it stay,
  each with its text, and an entry that is new comes last.
-/
def IsChange
    (name : String)
    (text? : Option String)
    (t after : ContentTable) : Prop :=
  ∃ front back : List (String × String),
    name ∉ front.map (·.1) ∧
      t.entries = front ++ entryWith name (t.get? name) ++ back ∧
      after.entries = front ++ entryWith name text? ++ back ∧
      (t.get? name = none → back = [])

/- A name is contained if it is among the names. -/
theorem contains_iff :
    t.contains name = true ↔ name ∈ t.names := by
  simp [contains, names]

/- A name is contained if it has a text. -/
theorem contains_eq_isSome :
    t.contains name = (t.get? name).isSome := by
  rw [Bool.eq_iff_iff]
  simp [contains, get?]

/- A name without a text is not among the names. -/
theorem get?_eq_none_iff :
    t.get? name = none ↔ name ∉ t.names := by
  rw [← contains_iff, contains_eq_isSome]
  simp

/- The text of a name is that of its first entry. -/
theorem exists_parts_of_get?
    (h : t.get? name = some text) :
    ∃ front back : List (String × String),
      name ∉ front.map (·.1) ∧
        t.entries = front ++ (name, text) :: back := by
  rcases Option.map_eq_some_iff.mp h with ⟨e, hFound, rfl⟩
  rcases List.find?_eq_some_iff_append.mp hFound with
    ⟨hName, front, back, hEntries, hFront⟩
  obtain rfl : e.1 = name := of_decide_eq_true hName
  refine ⟨front, back, ?_, hEntries⟩
  intro hIn
  rcases List.mem_map.mp hIn with ⟨d, hd, hSame⟩
  simpa [hSame] using hFront d hd

/- An insertion passes by the entries of other names. -/
theorem insertEntry_append
    {front : List (String × String)}
    (hFront : name ∉ front.map (·.1))
    (back : List (String × String)) :
    insertEntry name text (front ++ back) =
      front ++ insertEntry name text back := by
  induction front with
  | nil => rfl
  | cons e es ih =>
      rw [List.map_cons, List.mem_cons, not_or] at hFront
      rw [List.cons_append, insertEntry,
        if_neg (Ne.symm hFront.1), ih hFront.2,
        List.cons_append]

/- So does a removal. -/
theorem eraseP_append_of_notMem
    {front : List (String × String)}
    (hFront : name ∉ front.map (·.1))
    (back : List (String × String)) :
    (front ++ back).eraseP (·.1 = name) =
      front ++ back.eraseP (·.1 = name) := by
  apply List.eraseP_append_right
  intro e he hName
  exact hFront (List.mem_map.mpr
    ⟨e, he, of_decide_eq_true hName⟩)

/- To put a text, or none, is a change of the first entry. -/
theorem isChange_put
    (t : ContentTable)
    (name : String)
    (text? : Option String) :
    IsChange name text? t (t.put name text?) := by
  cases hText : t.get? name with
  | none =>
      have hNot := get?_eq_none_iff.mp hText
      refine ⟨t.entries, [], hNot, by simp [hText, entryWith], ?_,
        fun _ => rfl⟩
      cases text? with
      | none =>
          simpa [put, remove, entryWith] using
            eraseP_append_of_notMem hNot []
      | some text =>
          simpa [put, insert, entryWith, insertEntry] using
            insertEntry_append hNot []
  | some before =>
      rcases exists_parts_of_get? hText with
        ⟨front, back, hFront, hEntries⟩
      refine ⟨front, back, hFront, by simp [hText, entryWith,
        hEntries], ?_, fun h => by simp [hText] at h⟩
      cases text? with
      | none =>
          rw [put, remove, hEntries,
            eraseP_append_of_notMem hFront]
          simp [entryWith]
      | some text =>
          rw [put, insert, hEntries, insertEntry_append hFront]
          simp [insertEntry, entryWith]

/- A change leaves what is chosen from other names alone. -/
theorem IsChange.filter_eq
    {p : String × String → Bool}
    (h : IsChange name text? t after)
    (hOther : ∀ text, p (name, text) = false) :
    after.entries.filter p = t.entries.filter p := by
  have hNone (text? : Option String) :
      (entryWith name text?).filter p = [] := by
    cases text? <;> simp [entryWith, hOther]
  rcases h with ⟨front, back, _, hBefore, hAfter, _⟩
  rw [hBefore, hAfter]
  simp only [List.filter_append, hNone]

/- Names that are there once stay so. -/
theorem IsChange.nodup_names
    (h : IsChange name text? t after)
    (hNames : t.names.Nodup) :
    after.names.Nodup := by
  rcases h with ⟨front, back, hFront, hBefore, hAfter, hLast⟩
  unfold names at hNames ⊢
  rw [hBefore] at hNames
  rw [hAfter]
  cases hText : t.get? name with
  | none =>
      obtain rfl := hLast hText
      have hFrontOnce : (front.map (·.1)).Nodup := by
        simpa [hText, entryWith] using hNames
      cases text? with
      | none => simpa [entryWith] using hFrontOnce
      | some text =>
          rw [List.append_nil, List.map_append]
          refine List.nodup_append.mpr
            ⟨hFrontOnce, by simp [entryWith], ?_⟩
          intro other hOther last hLast hEq
          obtain rfl : last = name := by
            simpa [entryWith] using hLast
          exact hFront (hEq ▸ hOther)
  | some before =>
      rw [hText] at hNames
      cases text? with
      | none =>
          have hLess :
              (entryWith name none).Sublist
                (entryWith name (some before)) :=
            List.nil_sublist _
          exact hNames.sublist
            (((hLess.append_left front).append_right back).map _)
      | some text => simpa [entryWith] using hNames

/- So they do when entries are inserted one after another. -/
theorem nodup_names_insertAll
    {entries : List (String × String)}
    (h : t.names.Nodup) :
    (t.insertAll entries).names.Nodup := by
  unfold insertAll
  induction entries generalizing t with
  | nil => exact h
  | cons e es ih =>
      exact ih ((isChange_put t e.1 (some e.2)).nodup_names h)

/- The table of a list has no name twice. -/
theorem nodup_names_ofList
    (entries : List (String × String)) :
    (ofList entries).names.Nodup :=
  nodup_names_insertAll List.nodup_nil

/- The patches that add the entries of the table. -/
def additions (t : ContentTable) : List Patch :=
  t.entries.map fun e => .add e.1 e.2

end ContentTable

------------------------------------------------------------
-- Patches
------------------------------------------------------------

namespace Patch

open ContentTable

variable {t after : ContentTable}
variable {p : Patch}

/- The text after a change of the attributes that it spells. -/
def edited
    (text : String)
    (f : AttrTable → AttrTable) :
    Except ContentError (Option String) :=
  (AttrTable.ofText text).map fun attrs =>
    some (f attrs).display

/-
  The text that a patch leaves in its entry, or no text, given
  the text before; or the reason why it cannot be made.
-/
def outcome (p : Patch) (before : Option String) :
    Except ContentError (Option String) :=
  match p, before with
  | .add _ text, _ => .ok (some text)
  | .overrideField _ key values, some text =>
      edited text (·.set key values)
  | .appendToList _ key values, some text =>
      edited text (·.append key values)
  | .remove _, some _ => .ok none
  | p, none => .error (.missingEntry p.target)

/- The patch can be made without an entry of its name. -/
def isAddition : Patch → Bool
  | .add _ _ => true
  | .overrideField _ _ _ => false
  | .appendToList _ _ _ => false
  | .remove _ => false

/- The patch reads the attributes of its entry. -/
def isEdit : Patch → Bool
  | .add _ _ => false
  | .overrideField _ _ _ => true
  | .appendToList _ _ _ => true
  | .remove _ => false

/-
  Why a patch fails on a table: its entry is missing, or the
  text of its entry cannot be read.
-/
inductive CannotBeMade (t : ContentTable) (p : Patch) :
    ContentError → Prop
  | missing
      (hNeeded : p.isAddition = false)
      (hMissing : p.target ∉ t.names) :
      CannotBeMade t p (.missingEntry p.target)
  | unreadable {text : String} {e : ContentError}
      (hEdit : p.isEdit = true)
      (hText : t.get? p.target = some text)
      (hFault : AttrTable.ofText text = .error e) :
      CannotBeMade t p e

/-
  What becomes of a table when a patch has found its outcome:
  the outcome is put, or the table stays and the reason is
  told.
-/
def settle
    (t : ContentTable)
    (name : String) :
    Except ContentError (Option String) →
      ContentTable × Except ContentError Unit
  | .ok text? => (t.put name text?, .ok ())
  | .error e => (t, .error e)

/- An edit settles the text that it has found. -/
theorem editEntry_eq
    (t : ContentTable)
    (name : String)
    (f : AttrTable → AttrTable) :
    editEntry t name f =
      match t.get? name with
      | none => (t, .error (.missingEntry name))
      | some text => settle t name (edited text f) := by
  unfold editEntry edited
  cases t.get? name with
  | none => rfl
  | some text =>
      dsimp only
      cases AttrTable.ofText text <;> rfl

/-
  A patch finds its outcome from the text of its own entry and
  settles it there.
-/
theorem apply_eq (t : ContentTable) (p : Patch) :
    p.apply t =
      settle t p.target (p.outcome (t.get? p.target)) := by
  cases p with
  | add name text => rfl
  | overrideField name key values =>
      simp only [apply, editEntry_eq, target]
      cases t.get? name <;> rfl
  | appendToList name key values =>
      simp only [apply, editEntry_eq, target]
      cases t.get? name <;> rfl
  | remove name =>
      simp only [apply, target, contains_eq_isSome]
      cases t.get? name <;> rfl

/- Results that are changed have the errors from before. -/
theorem map_eq_error_iff
    {α β : Type}
    {result : Except ContentError α}
    {f : α → β}
    {e : ContentError} :
    result.map f = .error e ↔ result = .error e := by
  cases result <;> simp [Except.map]

/- Without an entry only additions have an outcome. -/
theorem outcome_none_eq_error_iff {e : ContentError} :
    p.outcome none = .error e ↔
      p.isAddition = false ∧ e = .missingEntry p.target := by
  cases p <;> simp [outcome, isAddition, eq_comm]

/- With an entry only edits may be without an outcome. -/
theorem outcome_some_eq_error_iff
    {text : String}
    {e : ContentError} :
    p.outcome (some text) = .error e ↔
      p.isEdit = true ∧ AttrTable.ofText text = .error e := by
  cases p <;> simp [outcome, isEdit, edited, map_eq_error_iff]

/- There is no outcome exactly if the patch fails. -/
theorem outcome_eq_error_iff {e : ContentError} :
    p.outcome (t.get? p.target) = .error e ↔
      CannotBeMade t p e := by
  constructor
  · intro h
    cases hText : t.get? p.target with
    | none =>
        rw [hText, outcome_none_eq_error_iff] at h
        rcases h with ⟨hNeeded, rfl⟩
        exact .missing hNeeded (get?_eq_none_iff.mp hText)
    | some text =>
        rw [hText, outcome_some_eq_error_iff] at h
        exact .unreadable h.1 hText h.2
  · intro h
    cases h with
    | missing hNeeded hMissing =>
        rw [get?_eq_none_iff.mpr hMissing]
        exact outcome_none_eq_error_iff.mpr ⟨hNeeded, rfl⟩
    | unreadable hEdit hText hFault =>
        rw [hText]
        exact outcome_some_eq_error_iff.mpr ⟨hEdit, hFault⟩

/- A patch fails for one of these reasons and no other. -/
theorem apply_eq_error_iff {e : ContentError} :
    (p.apply t).2 = .error e ↔ CannotBeMade t p e := by
  rw [apply_eq, ← outcome_eq_error_iff]
  cases p.outcome (t.get? p.target) <;> simp [settle]

/- A patch that fails leaves the table as it was. -/
theorem apply_of_error
    {e : ContentError}
    (h : (p.apply t).2 = .error e) :
    (p.apply t).1 = t := by
  rw [apply_eq] at h ⊢
  cases hOutcome : p.outcome (t.get? p.target) with
  | ok text? => simp [hOutcome, settle] at h
  | error e => rfl

/- A patch with an outcome changes the first entry it names. -/
theorem isChange_apply
    {text? : Option String}
    (h : p.outcome (t.get? p.target) = .ok text?) :
    IsChange p.target text? t (p.apply t).1 := by
  rw [apply_eq, h]
  exact isChange_put t p.target text?

/- A patch is a change of the entry that it names, or none. -/
theorem isChange_or_eq (t : ContentTable) (p : Patch) :
    (∃ text?, IsChange p.target text? t (p.apply t).1) ∨
      (p.apply t).1 = t := by
  cases hOutcome : p.outcome (t.get? p.target) with
  | ok text? => exact Or.inl ⟨text?, isChange_apply hOutcome⟩
  | error e =>
      exact Or.inr (apply_of_error (apply_eq_error_iff.mpr
        (outcome_eq_error_iff.mp hOutcome)))

/- What does not choose from its name finds what was there. -/
theorem filter_apply
    {q : String × String → Bool}
    (hOther : ∀ text, q (p.target, text) = false) :
    (p.apply t).1.entries.filter q = t.entries.filter q := by
  rcases isChange_or_eq t p with ⟨_, hChange⟩ | hSame
  · exact hChange.filter_eq hOther
  · rw [hSame]

/-
  What an attempt to make a patch does to a table.  With an
  outcome it is one change of the first entry of its name.
  If it fails, nothing has changed.
-/
structure IsAttempt
    (p : Patch)
    (t after : ContentTable) : Prop where
  table : (p.apply t).1 = after
  made : ∀ text?, p.outcome (t.get? p.target) = .ok text? →
    IsChange p.target text? t after
  fails : ∀ e, (p.apply t).2 = .error e ↔ CannotBeMade t p e
  unchanged : ∀ e, (p.apply t).2 = .error e → after = t
  others : ∀ touched, p.target ∈ touched →
    after.apartFrom touched = t.apartFrom touched
  unique : t.names.Nodup → after.names.Nodup

/- A patch is made in its own entry, or not at all. -/
theorem isAttempt_apply (t : ContentTable) (p : Patch) :
    p.IsAttempt t (p.apply t).1 where
  table := rfl
  made := fun _ => isChange_apply
  fails := fun _ => apply_eq_error_iff
  unchanged := fun _ => apply_of_error
  others := fun _ hTarget => filter_apply fun _ => by
    simp [hTarget]
  unique := fun hNames => by
    rcases isChange_or_eq t p with ⟨_, hChange⟩ | hSame
    · exact hChange.nodup_names hNames
    · rwa [hSame]

end Patch

------------------------------------------------------------
-- Layers
------------------------------------------------------------

namespace LayeredTable

open ContentTable Patch

variable {base : ContentTable}
variable {ps : List Patch}

/- Patches in two parts are made one part after the other. -/
theorem merge_append
    (base : ContentTable)
    (ps qs : List Patch) :
    merge ⟨base, ps ++ qs⟩ = merge ⟨merge ⟨base, ps⟩, qs⟩ :=
  List.foldl_append

/- What no patch names comes out as it went in. -/
theorem apartFrom_merge
    {touched : List String}
    (h : ∀ p ∈ ps, p.target ∈ touched) :
    (merge ⟨base, ps⟩).apartFrom touched =
      base.apartFrom touched := by
  unfold merge
  induction ps generalizing base with
  | nil => rfl
  | cons p ps ih =>
      have hRest := fun q hq => h q (List.mem_cons_of_mem p hq)
      exact (ih hRest).trans ((isAttempt_apply base p).others
        touched (h p List.mem_cons_self))

/- No name is there twice after patches. -/
theorem nodup_names_merge
    (ps : List Patch)
    (h : base.names.Nodup) :
    (merge ⟨base, ps⟩).names.Nodup := by
  unfold merge
  induction ps generalizing base with
  | nil => exact h
  | cons p ps ih => exact ih ((isAttempt_apply base p).unique h)

/- A layer on a table adds its entries and makes its patches. -/
theorem onTopOf_eq_merge
    (base lower : ContentTable)
    (ps : List Patch) :
    onTopOf ⟨base, ps⟩ lower =
      merge ⟨lower, base.additions ++ ps⟩ := by
  have hAdded :
      lower.insertAll base.entries =
        merge ⟨lower, base.additions⟩ := by
    unfold insertAll merge additions
    rw [List.foldl_map]
    rfl
  rw [merge_append, ← hAdded]
  rfl

/-
  Patches compose: they are made one after another, each in
  the entry that it names, or not at all.  Names stay unique,
  and the entries of a layer are additions before its patches.
-/
theorem patches_one_after_another
    (base : ContentTable)
    (ps qs : List Patch) :
    merge ⟨base, ps ++ qs⟩ = merge ⟨merge ⟨base, ps⟩, qs⟩ ∧
      (∀ p : Patch, p.IsAttempt (merge ⟨base, ps⟩)
        (merge ⟨base, ps ++ [p]⟩)) ∧
      (merge ⟨base, ps⟩).apartFrom (ps.map target) =
        base.apartFrom (ps.map target) ∧
      (base.names.Nodup → (merge ⟨base, ps⟩).names.Nodup) ∧
      ∀ lower, onTopOf ⟨base, ps⟩ lower =
        merge ⟨lower, base.additions ++ ps⟩ := by
  have hAttempt (p : Patch) :
      p.IsAttempt (merge ⟨base, ps⟩)
        (merge ⟨base, ps ++ [p]⟩) := by
    rw [merge_append]
    exact isAttempt_apply _ p
  exact ⟨merge_append base ps qs, hAttempt,
    apartFrom_merge fun _ => List.mem_map_of_mem,
    nodup_names_merge ps,
    fun lower => onTopOf_eq_merge base lower ps⟩

/-
  A patch of an entry that is missing, a change of one that is
  there, and an entry that is taken out and added again.
-/
theorem patches_one_after_another_backgrounds :
    let base := ofList
      [("Acolyte", "Languages=any,any"), ("Sage", "Tools=ink")]
    let ps : List Patch :=
      [.appendToList "Hermit" "Languages" ["Elvish"],
        .overrideField "Sage" "Tools" ["quill", "map"],
        .remove "Acolyte",
        .add "Acolyte" "Languages=Celestial"]
    base.names.Nodup ∧
      (merge ⟨base, ps⟩).names.Nodup ∧
      (merge ⟨base, ps⟩).entries =
        [("Sage", "Tools=quill,map"),
          ("Acolyte", "Languages=Celestial")] := by
  intro base ps
  have hBase : base.names.Nodup := nodup_names_ofList _
  have hMerged := (patches_one_after_another base ps []).2.2.2.1
  exact ⟨hBase, hMerged hBase, by decide +kernel⟩

end LayeredTable

end CharSheet
