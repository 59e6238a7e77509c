import CharSheet.Proofs.Choice.Entries
import CharSheet.Proofs.Formula.Equality
import CharSheet.Proofs.Sheet.Acyclic

/-
  Selectable features, and the notes of selecting them.

  The level and the prerequisite of a feature are enforced
  twice, by gates and by a note.  Both come to the same if the
  name of the class stays whole in the text of the requirement,
  and if no other entry of the class makes the same names.

  Main declarations:
    * `Choice.Offers`, `Choice.Distinguishes`
    * `Rulebook.isOnlySource_ownedKey`
    * `Rulebook.isOnlySource_selectionKey`
    * `Rulebook.selectable_granted_iff`
-/

namespace CharSheet

------------------------------------------------------------
-- Selectable Features of a Class
------------------------------------------------------------

/- The text is an entry of the given name. -/
def Feature.isNamed (name text : String) : Bool :=
  (Feature.ofText text).toOption.any (·.name = name)

/- An entry that is read is read without a fault. -/
theorem Feature.ofText_of_toOption
    {text : String}
    {f : Feature}
    (h : (Feature.ofText text).toOption = some f) :
    Feature.ofText text = .ok f := by
  cases hRead : Feature.ofText text with
  | error e =>
      rw [hRead] at h
      cases h
  | ok g =>
      rw [hRead] at h
      rw [Option.some.inj h]

theorem Feature.name_ne_of_isNamed
    {text name : String}
    {g : Feature}
    (hRead : Feature.ofText text = .ok g)
    (hNot : Feature.isNamed name text = false) :
    g.name ≠ name := by
  rintro rfl
  unfold Feature.isNamed at hNot
  rw [hRead] at hNot
  simp [Except.toOption] at hNot

namespace Choice

/-
  A class offers a feature by an entry of its list, which is
  the only one of its name, and what the feature requires is
  asked of single attributes.
-/
structure Offers
    (c : Choice)
    (entry : String)
    (f : Feature) : Prop where
  kind : c.kind = .characterClass
  mem : entry ∈ c.list "Selectables"
  read : Feature.ofText entry = .ok f
  only : (c.list "Features" ++ c.list "Selectables").filter
    (Feature.isNamed f.name) = [entry]
  plain : f.IsPlain

/-
  The names that a class makes for a feature are not taken for
  others: its own name stays whole in requirements, no feature
  of another name has the same note, and none is what is set to
  select this one.
-/
structure Distinguishes (c : Choice) (f : Feature) : Prop where
  nameable : Requirement.isNameable c.name = true
  note : ∀ text ∈ c.list "Selectables", ∀ g,
    Feature.ofText text = .ok g →
      g.selectionNote c.name = f.selectionNote c.name →
        g.name = f.name
  chosen : ∀ text ∈ c.list "Features" ++ c.list "Selectables",
    ∀ g, Feature.ofText text = .ok g →
      g.ownedKey c.name ≠ selectableKey c.name f.name

section Offers

open Declaration

variable {c : Choice}
variable {entry : String}
variable {f : Feature}
variable {level key : Key}

/- An entry has no rules for what is not its own. -/
theorem rulesOn_entryDeclarations_eq_nil
    {text owner : String}
    {selectable : Bool}
    (hKey : ¬ key.IsCommon)
    (h : ∀ g, Feature.ofText text = .ok g →
      key ≠ g.ownedKey owner ∧
        (selectable = true → key ≠ g.selectionKey owner)) :
    rulesOn key (entryDeclarations owner level selectable text) =
      [] := by
  apply rulesOn_eq_nil
  intro d hd hIn
  unfold entryDeclarations at hd
  split at hd
  · cases hd
  · next g hRead =>
      rcases h g hRead with ⟨hOwned, hNote⟩
      rcases Feature.target_cases hd hIn with
        hCommon | ⟨_, hSame | ⟨hSelectable, hSame⟩⟩
      · exact hKey hCommon
      · exact hOwned hSame
      · exact hNote hSelectable hSame

theorem Offers.filter_lists
    (h : c.Offers entry f) :
    (c.list "Features").filter (Feature.isNamed f.name) = [] ∧
      (c.list "Selectables").filter (Feature.isNamed f.name) =
        [entry] := by
  have hOnly := h.only
  rw [List.filter_append, List.append_eq_singleton_iff] at hOnly
  rcases hOnly with hLast | ⟨_, hNone⟩
  · exact hLast
  · have hNamed : Feature.isNamed f.name entry = true := by
      unfold Feature.isNamed
      rw [h.read]
      exact decide_eq_true rfl
    have hThere := List.mem_filter.mpr ⟨h.mem, hNamed⟩
    rw [hNone] at hThere
    cases hThere

/- Entries of other names are left out. -/
theorem Offers.rulesOn_featureDeclarations
    (h : c.Offers entry f)
    (hFixed : ∀ text ∈ c.list "Features",
      Feature.isNamed f.name text = false →
        rulesOn key
          (entryDeclarations c.name level false text) = [])
    (hSelectable : ∀ text ∈ c.list "Selectables",
      Feature.isNamed f.name text = false →
        rulesOn key
          (entryDeclarations c.name level true text) = []) :
    rulesOn key (c.featureDeclarations level) =
      rulesOn key (f.declarations c.name level true) := by
  rcases h.filter_lists with ⟨hNone, hOne⟩
  unfold featureDeclarations featureListDeclarations
  rw [rulesOn_append, rulesOn_flatMap_filter _ hFixed,
    rulesOn_flatMap_filter _ hSelectable, hNone, hOne,
    List.flatMap_singleton, entryDeclarations, h.read]
  rfl

/- The rules of the feature are those of its entry. -/
theorem Offers.rulesOn_ownedKey
    (h : c.Offers entry f)
    (hText :
      Requirement.ofText (f.selectionText level) =
        .ok (f.selection level)) :
    rulesOn (f.ownedKey c.name) (c.featureDeclarations level) =
      (f.ownDeclarations c.name level).filterMap bareRule? := by
  have hOther {selectable : Bool} (text : String)
      (hNot : Feature.isNamed f.name text = false) :
      rulesOn (f.ownedKey c.name)
        (entryDeclarations c.name level selectable text) = [] :=
    rulesOn_entryDeclarations_eq_nil
      (f.not_isCommon_ownedKey c.name) fun g hRead =>
        ⟨fun hSame => Feature.name_ne_of_isNamed hRead hNot
            (Feature.ownedKey_inj hSame).symm,
          fun _ => f.ownedKey_ne_selectionKey g c.name⟩
  rw [h.rulesOn_featureDeclarations
      (fun text _ => hOther text) fun text _ => hOther text,
    Feature.rulesOn_ownedKey hText]

/- So are those of its note. -/
theorem Offers.rulesOn_selectionKey
    (h : c.Offers entry f)
    (hApart : c.Distinguishes f)
    (hText :
      Requirement.ofText (f.selectionText level) =
        .ok (f.selection level)) :
    rulesOn (f.selectionKey c.name)
        (c.featureDeclarations level) =
      (CharSheet.requirementDeclarations "validation"
        (f.selectionNote c.name) (selectableKey c.name f.name)
        (f.selection level)).filterMap bareRule? := by
  have hOther {selectable : Bool} (text : String)
      (hNote : selectable = true → ∀ g,
        Feature.ofText text = .ok g →
          f.selectionKey c.name ≠ g.selectionKey c.name) :
      rulesOn (f.selectionKey c.name)
        (entryDeclarations c.name level selectable text) = [] :=
    rulesOn_entryDeclarations_eq_nil
      (f.not_isCommon_selectionKey c.name) fun g hRead =>
        ⟨(g.ownedKey_ne_selectionKey f c.name).symm,
          fun hTrue => hNote hTrue g hRead⟩
  rw [h.rulesOn_featureDeclarations
      (fun text _ _ => hOther text nofun),
    Feature.rulesOn_selectionKey hText]
  intro text hIn hNot
  refine hOther text fun _ g hRead hSame => ?_
  refine Feature.name_ne_of_isNamed hRead hNot
    (hApart.note text hIn g hRead ?_)
  exact (Key.under_inj (by decide) (by decide) hSame).2.symm

/- What selects the feature is not a feature itself. -/
theorem not_isCommon_selectableKey (owner name : String) :
    ¬ Key.IsCommon (selectableKey owner name) :=
  Key.not_isCommon_under (by decide)
    ⟨'F', by decide, by decide⟩ (by decide)
    fun hSame => absurd hSame (by decide)

/- No entry has rules for it. -/
theorem Distinguishes.rulesOn_selectableKey
    (h : c.Distinguishes f) :
    rulesOn (selectableKey c.name f.name)
      (c.featureDeclarations level) = [] := by
  have hNote (g : Feature) :
      selectableKey c.name f.name ≠ g.selectionKey c.name :=
    fun hSame => absurd
      (Key.under_inj (by decide) (by decide) hSame).1
      (by decide)
  apply rulesOn_eq_nil
  intro d hd hIn
  rcases exists_entry_of_mem hd with
    ⟨g, selectable, hDeclared, text, hText, hRead⟩
  rcases Feature.target_cases hDeclared hIn with
    hCommon | ⟨_, hSame | ⟨_, hSame⟩⟩
  · exact not_isCommon_selectableKey c.name f.name hCommon
  · exact h.chosen text hText g hRead hSame.symm
  · exact hNote g hSame

end Offers

end Choice

------------------------------------------------------------
-- Features on the Sheet
------------------------------------------------------------

/- Counts are told apart. -/
theorem Value.ofNat_inj
    {m n : Nat}
    (h : Value.ofNat m = Value.ofNat n) :
    m = n := by
  have hInteger (k : Nat) :
      (Value.ofNat k).integer? = some (k : Int) :=
    Number.integer?_ofWhole (some k)
  have hSame := congrArg Value.integer? h
  rw [hInteger, hInteger] at hSame
  exact Int.ofNat_inj.mp (Option.some.inj hSame)

namespace Rulebook

section Alone

variable {settings : Settings}
variable {c : Choice}
variable {entry : String}
variable {f : Feature}
variable {input : Store}

variable (h : c.Offers entry f)
variable (hApart : c.Distinguishes f)

include h hApart

/- What selects the feature is taken from the input. -/
theorem getElem?_sheet_selectableKey (input : Store) :
    (((empty settings).registerChoice c).sheet
        input)[selectableKey c.name f.name]? =
      input[selectableKey c.name f.name]? := by
  apply getElem?_sheet_of_not_isTarget
  rintro ⟨r, hRule, hTarget⟩
  have hBare := map_bare_registerChoice_empty settings h.kind
    (Choice.not_isCommon_selectableKey c.name f.name)
  rw [hApart.rulesOn_selectableKey,
    List.map_eq_nil_iff, List.filter_eq_nil_iff] at hBare
  exact hBare r hRule (decide_eq_true hTarget)

/- The text of selecting is read as what it says. -/
theorem ofText_selectionText :
    Requirement.ofText
        (f.selectionText (.under "levels" c.name)) =
      .ok (f.selection (.under "levels" c.name)) :=
  Feature.ofText_selectionText h.read hApart.nameable

/- Only the entry has rules for the feature. -/
theorem isOnlySource_ownedKey :
    ((empty settings).registerChoice c).IsOnlySource
      (f.ownedKey c.name)
      (f.ownDeclarations c.name (.under "levels" c.name)) :=
  (map_bare_registerChoice_empty settings h.kind
    (f.not_isCommon_ownedKey c.name)).trans
      (h.rulesOn_ownedKey (ofText_selectionText h hApart))

/- Only it has rules for the note. -/
theorem isOnlySource_selectionKey :
    ((empty settings).registerChoice c).IsOnlySource
      (f.selectionKey c.name)
      (requirementDeclarations "validation"
        (f.selectionNote c.name) (selectableKey c.name f.name)
        (f.selection (.under "levels" c.name))) :=
  (map_bare_registerChoice_empty settings h.kind
    (f.not_isCommon_selectionKey c.name)).trans
      (h.rulesOn_selectionKey hApart
        (ofText_selectionText h hApart))

variable
  (hAcyclic : ∀ key,
    ¬ ((empty settings).registerChoice c).graph.Reaches key key)

include hAcyclic

/- The feature is granted where it is open. -/
theorem getElem?_sheet_ownedKey
    {chosen : Value}
    (hChosen :
      input[selectableKey c.name f.name]? = some chosen) :
    (((empty settings).registerChoice c).sheet
        input)[f.ownedKey c.name]? =
      if f.isOpen (.under "levels" c.name)
          (((empty settings).registerChoice c).sheet input) then
        some chosen
      else none := by
  have hOnly : IsOnlySource
      ((empty settings).registerChoice c) _ _ :=
    isOnlySource_ownedKey h hApart
  have hConsistent :=
    (isConsistent_empty settings).registerChoice c
  have hRules := hOnly.map_bare_rulesFor hConsistent.ordered
  rw [Feature.flatMap_filter_ownDeclarations] at hRules
  have hPatterns : ∀ r ∈ ((empty settings).registerChoice c).rules,
      r.target = f.ownedKey c.name →
        ∀ formula ∈ r.formula, ∀ p ∈ formula.patterns,
          p.matchesIn (f.ownedKey c.name) = false := by
    intro r hRule hTarget formula hFormula p hp
    have hBare : r.bare ∈
        (f.ownDeclarations c.name
          (.under "levels" c.name)).filterMap
            Declaration.bareRule? := by
      rw [← hOnly]
      exact List.mem_map_of_mem
        (List.mem_filter.mpr ⟨hRule, decide_eq_true hTarget⟩)
    rw [h.plain.patterns_ownDeclarations _ _ hBare formula
      hFormula] at hp
    cases hp
  have hTests : ∀ r ∈ f.prerequisite, ∀ c ∈ r.clauses,
      c.alternatives ≠ [] := fun r hr =>
    Requirement.alternatives_ne_nil_of_ofText
      (Feature.ofText_prerequisite h.read hr)
  rw [getElem?_sheet_of_not_reaches (hAcyclic _) hPatterns,
    ← Rule.joinAll_map_bare, hRules]
  refine Feature.joinAll_ownDeclarations hTests ?_ _
  rw [getElem?_sheet_selectableKey h hApart, hChosen]

/- The note counts what keeps the feature from being open. -/
theorem getElem?_sheet_selectionKey
    (hChosen :
      holds input[selectableKey c.name f.name]? = true) :
    (((empty settings).registerChoice c).sheet
        input)[f.selectionKey c.name]? =
      some (.ofNat
        (min ((f.selection (.under "levels" c.name)).unmet
          (((empty settings).registerChoice c).sheet
            input)).length Number.countLimit)) := by
  have hConsistent :=
    (isConsistent_empty settings).registerChoice c
  have hPatterns : ∀ p ∈
      (f.selection (.under "levels" c.name)).toExpr.patterns,
        p.matchesIn (f.selectionKey c.name) = false := by
    intro p hp
    rw [h.plain.patterns_selection] at hp
    cases hp
  have hTests := Requirement.alternatives_ne_nil_of_ofText
    (ofText_selectionText h hApart)
  have hOnly : IsOnlySource
      ((empty settings).registerChoice c) _ _ :=
    isOnlySource_selectionKey h hApart
  rw [Feature.selectionKey_eq] at hOnly hPatterns ⊢
  rw [Requirement.getElem?_sheet_note hOnly (hAcyclic _)
      hPatterns hConsistent.ordered hTests,
    getElem?_sheet_selectableKey h hApart, if_pos hChosen]

end Alone

/-
  A selectable feature that is chosen is granted exactly if
  nothing is wrong with the choice, where a class is the only
  content.  The class must make names for the feature that are
  not taken for others.
-/
theorem selectable_granted_iff
    (settings : Settings)
    (c : Choice)
    (entry : String)
    (f : Feature)
    (hOffers : c.Offers entry f)
    (hApart : c.Distinguishes f)
    (hAcyclic : ∀ key,
      ¬ ((empty settings).registerChoice c).graph.Reaches key
        key)
    (input : Store)
    (hChosen :
      holds input[selectableKey c.name f.name]? = true) :
    let sheet := ((empty settings).registerChoice c).sheet input
    sheet[f.ownedKey c.name]?.isSome = true ↔
      sheet[Key.under "validationNotes"
          (f.selectionNote c.name)]? =
        some (.ofNat 0) := by
  intro sheet
  cases hSome : input[selectableKey c.name f.name]? with
  | none =>
      rw [hSome] at hChosen
      cases hChosen
  | some chosen =>
      have hOwned := getElem?_sheet_ownedKey hOffers hApart
        hAcyclic hSome
      have hNote := getElem?_sheet_selectionKey hOffers hApart
        hAcyclic hChosen
      let r := f.selection (.under "levels" c.name)
      have hMet :
          f.isOpen (.under "levels" c.name) sheet = true ↔
            r.unmet sheet = [] := by
        rw [Requirement.unmet_eq_nil_iff,
          Feature.isMet_selection]
      have hZero :
          Value.ofNat
              (min (r.unmet sheet).length Number.countLimit) =
            .ofNat 0 ↔ r.unmet sheet = [] := by
        constructor
        · intro hSame
          rcases Nat.min_eq_zero_iff.mp (Value.ofNat_inj hSame)
            with hNone | hLimit
          · exact List.eq_nil_of_length_eq_zero hNone
          · cases hLimit
        · intro hNone
          rw [hNone]
          rfl
      change sheet[f.ownedKey c.name]? = _ at hOwned
      change sheet[Key.under "validationNotes" _]? = _ at hNote
      rw [hOwned, hNote, Option.some.injEq, hZero, ← hMet]
      cases f.isOpen (.under "levels" c.name) sheet with
      | true => simp
      | false => simp

end Rulebook

namespace Riposte

/- An entry of a list with all that it may say. -/
def entry : String :=
  "features.Toughness ? 3:Riposte:Maneuver"

def riposte : Feature :=
  ⟨some ⟨"features.Toughness",
      [⟨"features.Toughness",
        [⟨.attr "features.Toughness", none⟩]⟩]⟩,
    3, "Riposte", some "Maneuver"⟩

def fighter : Choice :=
  ⟨.characterClass, "Fighter", ⟨[("Selectables", [entry])]⟩⟩

theorem ofText_entry : Feature.ofText entry = .ok riposte :=
  Feature.ofText_of_toOption (by decide)

theorem lists_fighter :
    fighter.list "Features" = [] ∧
      fighter.list "Selectables" = [entry] := by
  decide

theorem offers_riposte : fighter.Offers entry riposte where
  kind := rfl
  mem := by decide
  read := ofText_entry
  only := by decide
  plain := by
    intro r hr c hc t ht
    cases hr
    cases List.mem_singleton.mp hc
    cases List.mem_singleton.mp ht
    rfl

theorem distinguishes_riposte : fighter.Distinguishes riposte := by
  have hSame {text : String} {g : Feature}
      (hText : text ∈ [entry])
      (hRead : Feature.ofText text = .ok g) :
      g = riposte := by
    rw [List.mem_singleton.mp hText, ofText_entry] at hRead
    exact (Except.ok.inj hRead).symm
  refine ⟨by decide, ?_, ?_⟩
  · intro text hText g hRead _
    rw [lists_fighter.2] at hText
    rw [hSame hText hRead]
  · intro text hText g hRead
    rw [lists_fighter.1, lists_fighter.2,
      List.nil_append] at hText
    rw [hSame hText hRead]
    decide

def book : Rulebook :=
  (Rulebook.empty .standard).registerChoice fighter

/- A tough fighter of the third level who chooses it. -/
def input : Store :=
  (((∅ : Store).put "levels.Fighter" (some (.number 3))).put
    "features.Toughness" (some (.number 1))).put
      "selectableFeatures.Fighter - Riposte" (some (.number 1))

/- A fighter's feature counts as a feature. -/
def rank (key : Key) : Nat :=
  if key = "features.Riposte" then 1 else 0

theorem not_reaches (key : Key) :
    ¬ book.graph.Reaches key key := by
  have hRules : ∀ r ∈ book.rules,
      (∀ f ∈ r.formula, f.patterns = []) ∧
        ∀ other ∈ r.source ::
          (r.formula.elim [] Formula.dependencies),
            (∃ s ∈ book.rules, s.target = other) →
              rank other < rank r.target := by
    decide
  exact Rulebook.not_reaches_of_rank rank hRules key

/- It is open to who is tough and of the third level. -/
theorem isOpen_riposte
    {sheet : Store}
    (hLevel :
      sheet["levels.Fighter"]? = some (.number 3))
    (hTough :
      sheet["features.Toughness"]? = some (.number 1)) :
    riposte.isOpen "levels.Fighter" sheet = true := by
  have hClause :
      (Requirement.levelClause "levels.Fighter"
        riposte.level).holds sheet = true := by
    rw [Feature.holds_levelClause, hLevel]
    decide
  have hHolds : holds (some (.number 1)) = true := by
    decide
  have hMet :
      riposte.prerequisite.all (·.isMet sheet) = true := by
    simp [riposte, Requirement.isMet, Clause.holds, Test.holds,
      Test.toExpr, Subject.toExpr, Expr.eval, hTough, hHolds]
  unfold Feature.isOpen
  rw [hClause, hMet]
  rfl

/- So the feature is granted, and nothing is wrong. -/
theorem selectable_granted_iff_riposte :
    fighter.Offers entry riposte ∧
      fighter.Distinguishes riposte ∧
      (∀ key, ¬ book.graph.Reaches key key) ∧
      (book.sheet input)["fighterFeatures.Riposte"]? =
        some (.number 1) ∧
      (book.sheet input)["validationNotes.fighterRiposteSelectableFeature"]? =
        some (.ofNat 0) := by
  have hLevels :
      Key.under "levels" fighter.name = "levels.Fighter" := by
    decide
  have hOwned :
      riposte.ownedKey fighter.name =
        "fighterFeatures.Riposte" := by
    decide
  have hNote :
      Key.under "validationNotes"
          (riposte.selectionNote fighter.name) =
        "validationNotes.fighterRiposteSelectableFeature" := by
    decide
  have hLevel :
      (book.sheet input)["levels.Fighter"]? =
        some (.number 3) :=
    Rulebook.getElem?_sheet_of_input (by decide)
      (by decide)
  have hTough :
      (book.sheet input)["features.Toughness"]? =
        some (.number 1) :=
    Rulebook.getElem?_sheet_of_input (by decide)
      (by decide)
  have hOpen :
      (book.sheet input)[riposte.ownedKey fighter.name]? =
        if riposte.isOpen (.under "levels" fighter.name)
            (book.sheet input) then
          some (.number 1)
        else none :=
    Rulebook.getElem?_sheet_ownedKey offers_riposte
      distinguishes_riposte not_reaches (by decide)
  have hIff :
      (book.sheet input)[riposte.ownedKey
            fighter.name]?.isSome = true ↔
        (book.sheet input)[Key.under "validationNotes"
            (riposte.selectionNote fighter.name)]? =
          some (.ofNat 0) :=
    Rulebook.selectable_granted_iff .standard fighter entry
      riposte offers_riposte distinguishes_riposte not_reaches
      input (by decide)
  -- What is on the sheet is known: it is not evaluated.
  generalize book.sheet input = sheet at *
  rw [hOwned, hLevels, if_pos (isOpen_riposte hLevel hTough)]
    at hOpen
  rw [hOwned, hNote, hOpen] at hIff
  exact ⟨offers_riposte, distinguishes_riposte, not_reaches,
    hOpen, hIff.mp rfl⟩

end Riposte

namespace DividedName

/- A class whose name is taken for two clauses. -/
def druid : Choice :=
  ⟨.characterClass, "Cleric/Druid",
    ⟨[("Selectables", ["1:Riposte"])]⟩⟩

def riposte : Feature :=
  ⟨none, 1, "Riposte", none⟩

def book : Rulebook :=
  (Rulebook.empty .standard).registerChoice druid

/- What is set to select the feature. -/
def chosen : Key :=
  "selectableFeatures.Cleric/Druid - Riposte"

/- The note of selecting it. -/
def note : Key :=
  "validationNotes.clericDruidRiposteSelectableFeature"

/- One who has the level and chooses the feature. -/
def input : Store :=
  ((∅ : Store).put "levels.Cleric/Druid" (some (.number 1))).put
    chosen (some (.number 1))

theorem isConsistent_book : book.IsConsistent :=
  (Rulebook.isConsistent_empty .standard).registerChoice druid

def rank (key : Key) : Nat :=
  if key = "features.Riposte" then 1 else 0

theorem ranked_book : ∀ r ∈ book.rules,
    (∀ f ∈ r.formula, f.patterns = []) ∧
      ∀ other ∈ r.source ::
        (r.formula.elim [] Formula.dependencies),
          (∃ s ∈ book.rules, s.target = other) →
            rank other < rank r.target := by
  decide

theorem getElem?_sheet (key : Key) :
    (book.sheet input)[key]? =
      Rule.joinAll (book.sheet input)
        (Operator.inOrder.flatMap (book.rulesOf key))
        input[key]? :=
  Rulebook.getElem?_sheet_of_rank rank ranked_book
    isConsistent_book.ordered input key

theorem sheet_chosen :
    (book.sheet input)[chosen]? = some (.number 1) :=
  Rulebook.getElem?_sheet_of_input (by decide)
    (by decide)

/- The gates hold, and the feature is granted. -/
theorem sheet_owned :
    (book.sheet input)["clericDruidFeatures.Riposte"]? =
      some (.number 1) := by
  have hRules :
      (Operator.inOrder.flatMap
          (book.rulesOf "clericDruidFeatures.Riposte")).map
        Rule.bare =
      (riposte.ownDeclarations "Cleric/Druid"
        "levels.Cleric/Druid").filterMap
          Declaration.bareRule? := by
    decide
  have hLevel :
      (book.sheet input)["levels.Cleric/Druid"]? =
        some (.number 1) :=
    Rulebook.getElem?_sheet_of_input (by decide)
      (by decide)
  have hOpen :
      riposte.isOpen "levels.Cleric/Druid" (book.sheet input) =
        true := by
    have hCompare :
        holds (compareWith (· != .lt) (some (.number 1))
          (some (.ofNat 1))) = true := by
      decide
    unfold Feature.isOpen
    rw [Feature.holds_levelClause, hLevel]
    exact (Bool.and_true _).trans hCompare
  have hTests : ∀ r ∈ riposte.prerequisite,
      ∀ c ∈ r.clauses, c.alternatives ≠ [] := by
    intro r hr
    cases hr
  rw [getElem?_sheet, ← Rule.joinAll_map_bare, hRules,
    Feature.joinAll_ownDeclarations hTests sheet_chosen,
    if_pos hOpen]

/- The requirement that is read instead of the level. -/
def requirement : Requirement :=
  ⟨"levels.Cleric/Druid >= 1",
    [⟨"levels.Cleric", [⟨.attr "levels.Cleric", none⟩]⟩,
      ⟨"Druid >= 1",
        [⟨.attr "Druid",
          some (.relation .atLeast (.number 1))⟩]⟩]⟩

/- Neither of its clauses holds. -/
theorem sheet_note :
    (book.sheet input)[note]? = some (.ofNat 2) := by
  have hRules :
      (Operator.inOrder.flatMap (book.rulesOf note)).map
          Rule.bare =
        requirement.noteRules note chosen := by
    decide +kernel
  have hTests : ∀ c ∈ requirement.clauses,
      c.alternatives ≠ [] := by
    decide
  have hCleric : (book.sheet input)["levels.Cleric"]? = none :=
    Rulebook.getElem?_sheet_of_input (by decide)
      (by decide)
  have hDruid : (book.sheet input)["Druid"]? = none :=
    Rulebook.getElem?_sheet_of_input (by decide)
      (by decide)
  have hUnmet :
      requirement.unmet (book.sheet input) =
        requirement.clauses := by
    rw [Requirement.unmet, List.filter_eq_self]
    intro c hc
    simp only [requirement, List.mem_cons, List.not_mem_nil,
      or_false] at hc
    rcases hc with rfl | rfl
    · simp [Clause.holds, Test.holds, Test.toExpr,
        Subject.toExpr, Expr.eval, hCleric, holds]
    · simp [Clause.holds, Test.holds, Test.toExpr,
        Subject.toExpr, Expr.eval, hDruid, holds,
        Relation.operator, BinaryOp.eval, compareWith,
        Value.truthy]
  have hChosen :
      holds (some (.number 1)) = true := by
    decide
  rw [getElem?_sheet, ← Rule.joinAll_map_bare, hRules,
    Requirement.joinAll_noteRules hTests, sheet_chosen,
    if_pos hChosen, hUnmet]
  rfl

/- So the note disagrees with what is granted. -/
theorem not_forall_selectable_granted_iff :
    ¬ ∀ (settings : Settings) (c : Choice) (entry : String)
      (f : Feature) (input : Store),
        let book := (Rulebook.empty settings).registerChoice c
        c.Offers entry f →
          (∀ key, ¬ book.graph.Reaches key key) →
            holds input[selectableKey c.name f.name]? = true →
              ((book.sheet input)[f.ownedKey
                    c.name]?.isSome = true ↔
                (book.sheet input)[Key.under "validationNotes"
                    (f.selectionNote c.name)]? =
                  some (.ofNat 0)) := by
  intro h
  have hOffers : druid.Offers "1:Riposte" riposte := {
    kind := rfl
    mem := by decide
    read := Feature.ofText_of_toOption (by decide)
    only := by decide
    plain := by
      intro r hr
      cases hr }
  have hOwned :
      riposte.ownedKey druid.name =
        "clericDruidFeatures.Riposte" := by
    decide
  have hNote :
      Key.under "validationNotes"
          (riposte.selectionNote druid.name) = note := by
    decide
  have hIff := h .standard druid "1:Riposte" riposte input
    hOffers (Rulebook.not_reaches_of_rank rank ranked_book)
    (by decide)
  rw [hOwned, hNote] at hIff
  have hGranted :
      (book.sheet input)["clericDruidFeatures.Riposte"]?.isSome =
        true := by
    rw [sheet_owned]
    rfl
  have hSame := sheet_note.symm.trans (hIff.mp hGranted)
  have hTwo := Value.ofNat_inj (Option.some.inj hSame)
  exact absurd hTwo (by decide)

end DividedName

end CharSheet
