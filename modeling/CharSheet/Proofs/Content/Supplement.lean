import CharSheet.Proofs.Content.Loading

/-
  Modules that are layered over others.

  A supplement registers all entries of the table that it is
  layered over once more, also those that it does not touch.
  These are declared as before, but the rules that the module
  below has added to them are not added again.

  Main declarations:
    * `ContentModule.layer?`
    * `ContentModule.tables_supplement`
    * `Library.IsUntouched`
    * `Library.taggedRules_load_supplement_iff`
-/

namespace CharSheet

namespace ContentModule

open Rulebook

variable {m base : ContentModule}
variable {kind : ChoiceKind}
variable {name : String}
variable {t : ModuleTable}

------------------------------------------------------------
-- Tables of Supplements
------------------------------------------------------------

/- The layer from which a module has its table of a kind. -/
def layer?
    (m : ContentModule)
    (kind : ChoiceKind) : Option ModuleTable :=
  m.layers.reverse.find? (·.kind = kind)

/- A table that is above another one is layered over it. -/
theorem tables_supplement
    {exports : Exports}
    {tables : Tables}
    {lower : ContentTable}
    (hLayer : m.layer? kind = some t)
    (hBelow : t.below = some base.name)
    (hLower : tables kind = some lower) :
    m.tables (exports.insert base.name tables) kind =
      some (t.layer.onTopOf lower) := by
  have hKind : t.kind = kind := by
    simpa using List.find?_some hLayer
  have hMerged :
      t.merged (exports.insert base.name tables) =
        t.layer.onTopOf lower := by
    unfold ModuleTable.merged
    rw [hBelow]
    simp [hKind, hLower]
  change (m.layer? kind).map _ = _
  rw [hLayer, Option.map_some, hMerged]

end ContentModule

namespace Library

open ContentModule Rulebook

variable {l l₁ : Library}
variable {book book₁ book₂ : Rulebook}
variable {base supplement : ContentModule}
variable {kind : ChoiceKind}
variable {name : String}
variable {lower : ContentTable}

------------------------------------------------------------
-- Untouched Entries
------------------------------------------------------------

/-
  A module is loaded, and then a supplement whose table of a
  kind is layered over the lower table, that of the module.
  The layer does not touch an entry of this table.
-/
structure IsUntouched
    (l : Library)
    (book : Rulebook)
    (base supplement : ContentModule)
    (kind : ChoiceKind)
    (name : String)
    (lower : ContentTable)
    (l₁ : Library)
    (book₁ book₂ : Rulebook) : Prop where
  load_base : ∃ n, l.load book base = .ok (l₁, book₁, n)
  needed : base.name ∈ supplement.needs
  load_supplement :
    ∃ l₂ n, l₁.load book₁ supplement = .ok (l₂, book₂, n)
  table : base.tables l.exports kind = some lower
  entry : lower.contains name = true
  layered : ∃ t, supplement.layer? kind = some t ∧
    t.below = some base.name ∧ ¬ t.layer.Touches name

/- A supplement is loaded that needs nothing but the module. -/
theorem isUntouched_of_needs
    (hBase : base.needs = [])
    (hNext : supplement.needs = [base.name])
    (book : Rulebook)
    (hTable : base.tables l.exports kind = some lower)
    (hEntry : lower.contains name = true)
    (hLayered : ∃ t, supplement.layer? kind = some t ∧
      t.below = some base.name ∧ ¬ t.layer.Touches name) :
    let exports :=
      l.exports.insert base.name (base.tables l.exports)
    let book₁ := base.register (base.tables l.exports) book
    IsUntouched l book base supplement kind name lower
      ⟨l.loaded ++ [base.name], exports⟩ book₁
      (supplement.register (supplement.tables exports) book₁) :=
  { load_base :=
      ⟨_, load_of_isLoaded (by simp [hBase]) book⟩
    needed := by simp [hNext]
    load_supplement :=
      ⟨_, _, load_of_isLoaded (by simp [hNext, isLoaded]) _⟩
    table := hTable
    entry := hEntry
    layered := hLayered }

/-
  An entry that a supplement does not touch keeps its rules
  exactly if the supplement adds the same to it as the module
  below, provided that adjustments find the same attributes in
  both loads.
-/
theorem taggedRules_load_supplement_iff
    (h : book.IsConsistent)
    (hTracked : book.IsTracked (Choice.originOf kind name))
    (hUntouched : IsUntouched l book base supplement kind name
      lower l₁ book₁ book₂)
    (hFound : ∀ text, (name, text) ∈ lower.entries →
      supplement.foundFor (supplement.tables l₁.exports) book₁
          (kind, name, text) =
        base.foundFor (base.tables l.exports) book
          (kind, name, text)) :
    book₂.taggedRules (Choice.originOf kind name) =
        book₁.taggedRules (Choice.originOf kind name) ↔
      supplement.extraDeclarations kind name =
        base.extraDeclarations kind name := by
  rcases hUntouched.load_base with ⟨_, hBase⟩
  rcases hUntouched.load_supplement with ⟨_, _, hNext⟩
  rcases hUntouched.layered with ⟨t, hLayer, hBelow, hNot⟩
  have hUpper : supplement.tables l₁.exports kind =
      some (t.layer.onTopOf lower) := by
    rw [(eq_of_load hBase).1]
    exact tables_supplement hLayer hBelow hUntouched.table
  rcases ContentTable.exists_last_entry hUntouched.entry with
    ⟨text, hLast, hIn⟩
  have hStill := hLast
  rw [← LayeredTable.entriesOf_onTopOf hNot lower] at hStill
  have hBefore :=
    taggedRules_load h hBase hTracked hUntouched.table hLast
  have hAfter := taggedRules_load (isConsistent_load h hBase)
    hNext (isTracked_load h hBase hTracked) hUpper hStill
  -- The entry declares the same itself both times.
  have hOwn :
      supplement.declaredRules (supplement.tables l₁.exports)
          book₁ (kind, name, text) =
        base.declaredRules (base.tables l.exports) book
          (kind, name, text) :=
    addedRules_congr (hFound text hIn)
  rw [hBefore, hAfter, hOwn, List.append_right_inj,
    extraRules_eq_iff]

/-
  A feature that a supplement does not touch is declared as
  before, and both modules add the same rule to it.
-/
theorem taggedRules_load_supplement_toughness :
    let extras : List ExtraRules :=
      [⟨.feature, "Toughness",
        [⟨"combatNotes.toughness", "level", "=", none⟩]⟩]
    let lower : ContentTable :=
      .ofList
        [("Toughness",
          "Section=combat Note=\"+%V Hit Points\"")]
    let layer : LayeredTable :=
      ⟨.ofList [("Rage", "Section=combat Note=Rage")],
        [.overrideField "Rage" "Note" ["+2 Speed"],
          .remove "Fury"]⟩
    let base : ContentModule :=
      ⟨"Base", [], [], [⟨.feature, ⟨lower, []⟩, none⟩], extras⟩
    let supplement : ContentModule :=
      ⟨"Supplement", ["Base"], [],
        [⟨.feature, layer, some "Base"⟩], extras⟩
    ∃ l₁ book₁ book₂,
      (Rulebook.empty .standard).IsConsistent ∧
        (Rulebook.empty .standard).IsTracked
          (Choice.originOf .feature "Toughness") ∧
        IsUntouched empty (Rulebook.empty .standard) base
          supplement .feature "Toughness" lower l₁ book₁ book₂ ∧
        (∀ text, ("Toughness", text) ∈ lower.entries →
          supplement.foundFor (supplement.tables l₁.exports)
              book₁ (.feature, "Toughness", text) =
            base.foundFor (base.tables empty.exports)
              (Rulebook.empty .standard)
              (.feature, "Toughness", text)) ∧
        book₂.taggedRules
            (Choice.originOf .feature "Toughness") =
          book₁.taggedRules
            (Choice.originOf .feature "Toughness") := by
  intro extras lower layer base supplement
  have hUntouched : IsUntouched empty (Rulebook.empty .standard)
      base supplement .feature "Toughness" lower _ _ _ :=
    isUntouched_of_needs rfl rfl _ (by decide +kernel)
      (by decide +kernel) ⟨_, rfl, rfl, by decide +kernel⟩
  have hFound : ∀ e ∈ lower.entries,
      supplement.foundFor
          (supplement.tables (empty.exports.insert "Base"
            (base.tables empty.exports)))
          (base.register (base.tables empty.exports)
            (Rulebook.empty .standard))
          (.feature, "Toughness", e.2) =
        base.foundFor (base.tables empty.exports)
          (Rulebook.empty .standard)
          (.feature, "Toughness", e.2) := by
    decide +kernel
  have hIff := taggedRules_load_supplement_iff
    (isConsistent_empty .standard) (Or.inl rfl) hUntouched
    fun text hIn => hFound ("Toughness", text) hIn
  exact ⟨_, _, _, isConsistent_empty .standard, Or.inl rfl,
    hUntouched, fun text hIn => hFound ("Toughness", text) hIn,
    hIff.mpr rfl⟩

/-
  The rule that a module adds to a feature is lost with a
  supplement that does not touch it.  Without such rules, an
  adjustment may still find an attribute that only entries
  after it have derived.
-/
theorem not_forall_taggedRules_load_supplement :
    (¬ ∀ (base supplement : ContentModule)
        (kind : ChoiceKind)
        (name : String)
        (lower : ContentTable)
        (l₁ : Library)
        (book₁ book₂ : Rulebook),
      IsUntouched empty (Rulebook.empty .standard) base
          supplement kind name lower l₁ book₁ book₂ →
        book₂.taggedRules (Choice.originOf kind name) =
          book₁.taggedRules (Choice.originOf kind name)) ∧
      ¬ ∀ (base supplement : ContentModule)
        (kind : ChoiceKind)
        (name : String)
        (lower : ContentTable)
        (l₁ : Library)
        (book₁ book₂ : Rulebook),
      base.extras = [] → supplement.extras = [] →
      IsUntouched empty (Rulebook.empty .standard) base
          supplement kind name lower l₁ book₁ book₂ →
        book₂.taggedRules (Choice.originOf kind name) =
          book₁.taggedRules (Choice.originOf kind name) := by
  constructor
  · intro h
    let lower : ContentTable :=
      .ofList
        [("Toughness",
          "Section=combat Note=\"+%V Hit Points\"")]
    let base : ContentModule :=
      ⟨"Base", [], [], [⟨.feature, ⟨lower, []⟩, none⟩],
        [⟨.feature, "Toughness",
          [⟨"combatNotes.toughness", "level", "=", none⟩]⟩]⟩
    let supplement : ContentModule :=
      ⟨"Supplement", ["Base"], [],
        [⟨.feature,
          ⟨.ofList [("Rage", "Section=combat Note=Rage")], []⟩,
          some "Base"⟩], []⟩
    have hUntouched :
        IsUntouched empty (Rulebook.empty .standard) base
          supplement .feature "Toughness" lower _ _ _ :=
      isUntouched_of_needs rfl rfl _ (by decide +kernel)
        (by decide +kernel) ⟨_, rfl, rfl, by decide +kernel⟩
    have hLength := congrArg List.length
      (h _ _ _ _ _ _ _ _ hUntouched)
    revert hLength
    decide +kernel
  · intro h
    let lower : ContentTable :=
      .ofList
        [("Keen",
          "Section=combat Note=\"+1 Dash Speed\"")]
    let boots : ContentTable :=
      .ofList
        [("Boots", "Pattern=boots Effect=set Value=30 " ++
          "Attribute=dashSpeed")]
    let base : ContentModule :=
      ⟨"Base", [], [],
        [⟨.feature, ⟨lower, []⟩, none⟩,
          ⟨.goody, ⟨boots, []⟩, none⟩], []⟩
    let supplement : ContentModule :=
      ⟨"Supplement", ["Base"], [],
        [⟨.feature, ⟨.empty, []⟩, some "Base"⟩], []⟩
    have hUntouched :
        IsUntouched empty (Rulebook.empty .standard) base
          supplement .feature "Keen" lower _ _ _ :=
      isUntouched_of_needs rfl rfl _ (by decide +kernel)
        (by decide +kernel) ⟨_, rfl, rfl, by decide +kernel⟩
    have hLength := congrArg List.length
      (h _ _ _ _ _ _ _ _ rfl rfl hUntouched)
    revert hLength
    decide +kernel

end Library

end CharSheet
