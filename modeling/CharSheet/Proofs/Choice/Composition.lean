import CharSheet.Choice.Declarations
import CharSheet.Proofs.Key.Scopes

/-
  What the declarations of choices are composed of.

  Whatever its kind, a choice declares rules, granted items,
  allocations with a member each, options, adjustments, notes
  and requirements.  What is true of each of these, and of
  lists one after another, is true of all choices.

  Main declarations:
    * `Formula.IsGated`
    * `Declaration.IsComposed`
    * `Choice.HasLevel`, `Choice.MayTarget`
    * `Choice.isComposed_declarations`
-/

namespace CharSheet

/- The formula of an amount while its source is truthy. -/
def Formula.IsGated (f : Formula) : Prop :=
  ∃ n, f.expr = .choose .source (.number n) .absent

namespace Declaration

------------------------------------------------------------
-- Composed Lists
------------------------------------------------------------

/-
  Lists of declarations that are composed of those of content.
  Amounts are only added while a source is truthy by granted
  items.  Other rules have a target under a scope, or one of
  the given roots.
-/
inductive IsComposed
    (roots : Operator → Key → Prop) :
    List Declaration → Prop where
  | nil : IsComposed roots []
  | append
      {ds es : List Declaration}
      (h : IsComposed roots ds)
      (hNext : IsComposed roots es) :
      IsComposed roots (ds ++ es)
  | rule
      (target source : Key)
      (op : Operator)
      (formula : Option Formula)
      (hOwn : op = .add → ∀ f ∈ formula, ¬ f.IsGated)
      (hRoot : target.IsRoot → roots op target) :
      IsComposed roots [.rule target source op formula]
  | item
      (gate : Key)
      (kind : PoolKind)
      (item : Item) :
      IsComposed roots (item.declarations gate kind)
  | counted
      (note budget key : Key) :
      IsComposed roots
        [.allocation note budget, .member note key]
  | option
      (kind : PoolKind)
      (name : String) :
      IsComposed roots [.option kind name]
  | adjustment
      (gate : Key)
      (op : Adjustment)
      (amount : Amount)
      (words : List String) :
      IsComposed roots [.adjustment gate op amount words]
  | note
      (key : Key)
      (format : String) :
      IsComposed roots [.note key format]
  | requirement
      (note selector : Key)
      (r : Requirement) :
      IsComposed roots [.requirement note selector r]

variable {roots : Operator → Key → Prop}
variable {ds : List Declaration}
variable {op : Operator}
variable {formula : Option Formula}

/- A rule may stand before what is composed. -/
theorem IsComposed.cons
    (h : IsComposed roots ds)
    {target source : Key}
    (hOwn : op = .add → ∀ f ∈ formula, ¬ f.IsGated)
    (hRoot : target.IsRoot → roots op target) :
    IsComposed roots
      (.rule target source op formula :: ds) :=
  (IsComposed.rule target source op formula hOwn hRoot).append h

/- Its target may lie under any scope. -/
theorem IsComposed.scoped
    (h : IsComposed roots ds)
    {scope name : String}
    {source : Key}
    (hOwn : op = .add → ∀ f ∈ formula, ¬ f.IsGated) :
    IsComposed roots
      (.rule (.under scope name) source op formula :: ds) :=
  h.cons hOwn fun hRoot =>
    absurd hRoot (Key.not_isRoot_under scope name)

/- Lists of a family are composed one after another. -/
theorem isComposed_flatMap
    {α : Type}
    {xs : List α}
    {f : α → List Declaration}
    (h : ∀ x ∈ xs, IsComposed roots (f x)) :
    IsComposed roots (xs.flatMap f) := by
  induction xs with
  | nil => exact .nil
  | cons x xs ih =>
      rw [List.flatMap_cons]
      exact (h x List.mem_cons_self).append
        (ih fun y hy => h y (List.mem_cons_of_mem x hy))

/- More roots may be allowed. -/
theorem IsComposed.mono
    (h : IsComposed roots ds)
    {roots' : Operator → Key → Prop}
    (hRoots : ∀ op key, roots op key → roots' op key) :
    IsComposed roots' ds := by
  induction h with
  | nil => exact .nil
  | append _ _ ih ihNext => exact ih.append ihNext
  | rule target source op formula hOwn hRoot =>
      exact .rule target source op formula hOwn fun hIs =>
        hRoots op target (hRoot hIs)
  | item gate kind item => exact .item gate kind item
  | counted note budget key => exact .counted note budget key
  | option kind name => exact .option kind name
  | adjustment gate op amount words =>
      exact .adjustment gate op amount words
  | note key format => exact .note key format
  | requirement note selector r =>
      exact .requirement note selector r

end Declaration

open Declaration

variable {roots : Operator → Key → Prop}

------------------------------------------------------------
-- Grants, Notes and Requirements
------------------------------------------------------------

theorem isComposed_grantDeclarations
    (gate : Key)
    (kind : PoolKind)
    (items : List Item) :
    IsComposed roots (grantDeclarations gate kind items) :=
  isComposed_flatMap fun item _ => .item gate kind item

theorem isComposed_noteDeclarations
    (gate : Key)
    (text : String) :
    IsComposed roots (noteDeclarations gate text) := by
  apply isComposed_flatMap
  intro fragment _
  cases fragment with
  | grant kind items =>
      exact isComposed_grantDeclarations gate kind items
  | adjust op amount words =>
      exact .adjustment gate op amount words

theorem isComposed_requirementDeclarations
    (heading name : String)
    (selector : Key)
    (r : Requirement) :
    IsComposed roots
      (requirementDeclarations heading name selector r) := by
  have hUnmet (c : Clause) : ¬ c.unmetFormula.IsGated := by
    rintro ⟨n, hExpr⟩
    cases (Expr.choose.inj hExpr).2.2
  have hClauses (clauses : List Clause) :
      IsComposed roots
        (clauses.map fun c =>
          .rule (.under (heading ++ "Notes") name) selector .add
            (some c.unmetFormula)) := by
    induction clauses with
    | nil => exact .nil
    | cons c clauses ih =>
        refine .scoped ih fun _ f hf => ?_
        cases hf
        exact hUnmet c
  refine IsComposed.append
    (.scoped (.scoped (hClauses r.clauses) ?_) ?_)
    (.requirement _ selector r)
  · nofun
  · nofun

------------------------------------------------------------
-- Features
------------------------------------------------------------

theorem Feature.isComposed_selectableDeclarations
    (f : Feature)
    (owner : String)
    (level : Key) :
    IsComposed roots
      (f.selectableDeclarations owner (f.ownedKey owner)
        level) := by
  unfold Feature.selectableDeclarations Feature.ownedKey
  refine IsComposed.append ?_ ?_
  · refine .scoped (.scoped (.counted _ _ _) ?_) ?_ <;> nofun
  · split
    · exact .nil
    · exact isComposed_requirementDeclarations _ _ _ _

theorem Feature.isComposed_declarations
    (f : Feature)
    (owner : String)
    (level : Key)
    (selectable : Bool) :
    IsComposed roots (f.declarations owner level selectable) := by
  unfold Feature.declarations
  refine IsComposed.append (IsComposed.append ?_ ?_) ?_
  · unfold Feature.gateDeclarations Feature.ownedKey
    split
    · exact .nil
    · exact .scoped .nil nofun
  · cases selectable with
    | true =>
        exact f.isComposed_selectableDeclarations owner level
    | false => exact .scoped .nil nofun
  · exact .scoped (isComposed_noteDeclarations _ _) nofun

theorem isComposed_featureListDeclarations
    (owner : String)
    (level : Key)
    (features selectables : List String) :
    IsComposed roots
      (featureListDeclarations owner level features
        selectables) := by
  have hEntry (selectable : Bool) (text : String) :
      IsComposed roots
        (entryDeclarations owner level selectable text) := by
    unfold entryDeclarations
    split
    · exact .nil
    · exact Feature.isComposed_declarations _ _ _ _
  exact (isComposed_flatMap fun text _ => hEntry false text).append
    (isComposed_flatMap fun text _ => hEntry true text)

------------------------------------------------------------
-- Parts Shared by Kinds
------------------------------------------------------------

theorem isComposed_languageDeclarations
    (gate : Key)
    (languages : List String) :
    IsComposed roots (languageDeclarations gate languages) :=
  isComposed_grantDeclarations gate .language _

/- The steps of a table do not ask for the source itself. -/
theorem SlotTable.not_isGated_formula
    (table : SlotTable)
    (text : String) :
    ¬ (table.formula text).IsGated := by
  rintro ⟨n, hExpr⟩
  change stepsExpr table.steps = _ at hExpr
  cases hSteps : table.steps.reverse with
  | nil =>
      rw [List.reverse_eq_nil_iff.mp hSteps] at hExpr
      cases hExpr
  | cons step steps =>
      rw [List.reverse_eq_cons_iff.mp hSteps, stepsExpr,
        List.foldl_append] at hExpr
      cases hExpr

theorem isComposed_slotDeclarations
    (level : Key)
    (tables : List String) :
    IsComposed roots (slotDeclarations level tables) := by
  apply isComposed_flatMap
  intro text _
  split
  · exact .nil
  · next table _ =>
      refine .scoped .nil fun _ f hf => ?_
      cases hf
      exact table.not_isGated_formula text

theorem isComposed_spellcastingDeclarations
    (owner ability : String)
    (casterLevel : Key) :
    IsComposed roots
      (spellcastingDeclarations owner ability casterLevel) := by
  unfold spellcastingDeclarations
  refine .scoped (.scoped (.scoped (.scoped (.scoped .nil ?_) ?_)
    ?_) ?_) ?_ <;> nofun

namespace Choice

theorem isComposed_requirementDeclarations
    (c : Choice)
    (key heading suffix : String)
    (selector : Key) :
    IsComposed roots
      (c.requirementDeclarations key heading suffix
        selector) := by
  unfold requirementDeclarations
  split
  · exact .nil
  · split
    · exact .nil
    · exact CharSheet.isComposed_requirementDeclarations _ _ _ _

theorem isComposed_featureDeclarations
    (c : Choice)
    (level : Key) :
    IsComposed roots (c.featureDeclarations level) :=
  isComposed_featureListDeclarations _ _ _ _

------------------------------------------------------------
-- Identities
------------------------------------------------------------

/- The choice has a level of its own. -/
def HasLevel (c : Choice) : Prop :=
  c.kind = .background ∨ c.kind = .path ∨ c.kind = .race

instance (c : Choice) : Decidable c.HasLevel := by
  unfold HasLevel
  infer_instance

/- What gives a choice its level. -/
theorem isComposed_levelDeclarations
    (c : Choice)
    (hLevel : ∀ op, roots op c.levelKey)
    (selector source : Key)
    (condition : Option Formula) :
    IsComposed roots
      [.rule c.levelKey selector .gate condition,
        .rule c.levelKey source .set none] := by
  refine .cons (.rule _ _ _ _ ?_ fun _ => hLevel .set) ?_
    fun _ => hLevel .gate
  · nofun
  · nofun

/- Apart from its level, no root is a target of a background. -/
theorem exists_backgroundDeclarations_eq (c : Choice) :
    ∃ rest,
      c.backgroundDeclarations =
          c.identityDeclarations "background" ++ rest ∧
        IsComposed (fun _ _ => False) rest := by
  refine ⟨_, List.append_assoc _ _ _, ?_⟩
  exact (isComposed_featureListDeclarations _ _ _ _).append
    (isComposed_languageDeclarations _ _)

/- Nor is one of a race. -/
theorem exists_raceDeclarations_eq (c : Choice) :
    ∃ rest,
      c.raceDeclarations =
          c.identityDeclarations "race" ++ rest ∧
        IsComposed (fun _ _ => False) rest := by
  refine ⟨c.requirementDeclarations "Require" "validation" "Race"
      c.levelKey ++
    c.featureDeclarations c.levelKey ++
    languageDeclarations c.levelKey (c.list "Languages") ++
    slotDeclarations c.levelKey (c.list "SpellSlots"), ?_, ?_⟩
  · simp only [raceDeclarations, List.append_assoc]
  · exact (((c.isComposed_requirementDeclarations _ _ _
      _).append (c.isComposed_featureDeclarations _)).append
      (isComposed_languageDeclarations _ _)).append
      (isComposed_slotDeclarations _ _)

theorem isComposed_backgroundDeclarations
    (c : Choice)
    (hLevel : ∀ op, roots op c.levelKey) :
    IsComposed roots c.backgroundDeclarations := by
  rcases c.exists_backgroundDeclarations_eq with
    ⟨rest, hEq, hRest⟩
  rw [hEq]
  exact (c.isComposed_levelDeclarations hLevel _ _ _).append
    (hRest.mono fun _ _ => False.elim)

theorem isComposed_raceDeclarations
    (c : Choice)
    (hLevel : ∀ op, roots op c.levelKey) :
    IsComposed roots c.raceDeclarations := by
  rcases c.exists_raceDeclarations_eq with ⟨rest, hEq, hRest⟩
  rw [hEq]
  exact (c.isComposed_levelDeclarations hLevel _ _ _).append
    (hRest.mono fun _ _ => False.elim)

/- What a text is worth is a rule that sets. -/
theorem exists_of_valueDeclaration?
    {target source : Key}
    {text : String}
    {d : Declaration}
    (hSome : valueDeclaration? target source text = some d) :
    ∃ source formula, d = .rule target source .set formula := by
  unfold valueDeclaration? at hSome
  split at hSome
  · cases hSome
    exact ⟨_, _, rfl⟩
  · split at hSome
    · cases hSome
    · cases hSome
      exact ⟨_, _, rfl⟩

theorem isComposed_casterDeclarations
    (c : Choice)
    (hAdd : ∀ key, roots .add key)
    (key total : String)
    (level : Key) :
    IsComposed roots
      (c.casterDeclarations key total
        (.under "casterLevels" c.name) level) := by
  unfold casterDeclarations
  split
  · exact .nil
  · split
    · exact .nil
    · next hSome =>
        rcases exists_of_valueDeclaration? hSome with
          ⟨source, formula, rfl⟩
        refine .scoped (.rule _ _ _ _ ?_ fun _ => hAdd _) ?_ <;>
          nofun

theorem isComposed_classDeclarations
    (c : Choice)
    (hAdd : ∀ key, roots .add key) :
    IsComposed roots c.classDeclarations := by
  unfold classDeclarations
  refine .cons (IsComposed.append (IsComposed.append ?_ ?_) ?_)
    nofun fun _ => hAdd _
  · exact ((((c.isComposed_requirementDeclarations _ _ _
      _).append (c.isComposed_featureDeclarations _)).append
      (isComposed_languageDeclarations _ _)).append
      (c.isComposed_casterDeclarations hAdd _ _ _)).append
      (c.isComposed_casterDeclarations hAdd _ _ _)
  · split
    · exact .nil
    · exact isComposed_spellcastingDeclarations _ _ _
  · exact isComposed_slotDeclarations _ _

/- Apart from its level, no root is a target of a path. -/
theorem exists_pathDeclarations_eq (c : Choice) :
    ∃ rest,
      c.pathDeclarations =
          [.rule c.levelKey (.under "features" c.name) .gate none,
            .rule c.levelKey c.pathSource .set none] ++ rest ∧
        IsComposed (fun _ _ => False) rest := by
  unfold pathDeclarations
  simp only [List.append_assoc]
  refine ⟨_, rfl, (c.isComposed_featureDeclarations _).append
    (IsComposed.append ?_ (isComposed_slotDeclarations _ _))⟩
  split
  · exact .nil
  · exact .scoped (isComposed_spellcastingDeclarations _ _ _)
      nofun

theorem isComposed_pathDeclarations
    (c : Choice)
    (hLevel : ∀ op, roots op c.levelKey) :
    IsComposed roots c.pathDeclarations := by
  rcases c.exists_pathDeclarations_eq with ⟨rest, hEq, hRest⟩
  rw [hEq]
  exact (c.isComposed_levelDeclarations hLevel _ _ _).append
    (hRest.mono fun _ _ => False.elim)

------------------------------------------------------------
-- Talents and Equipment
------------------------------------------------------------

theorem isComposed_featDeclarations (c : Choice) :
    IsComposed roots c.featDeclarations := by
  unfold featDeclarations
  refine IsComposed.append
    (IsComposed.append
      (c.isComposed_requirementDeclarations _ _ _ _)
      (c.isComposed_requirementDeclarations _ _ _ _)) ?_
  refine .scoped (isComposed_flatMap ?_) nofun
  intro type _
  exact .counted _ _ _

theorem isComposed_noteSectionDeclarations (c : Choice) :
    IsComposed roots c.noteSectionDeclarations := by
  apply isComposed_flatMap
  rintro ⟨name, text⟩ _
  refine .scoped ((IsComposed.note _ _).append
    (isComposed_noteDeclarations _ _)) ?_
  split
  · nofun
  · nofun

theorem isComposed_skillDeclarations (c : Choice) :
    IsComposed roots c.skillDeclarations := by
  have hProficient : ¬ Formula.whenProficient.IsGated := by
    rintro ⟨n, hExpr⟩
    cases hExpr
  have hOption :
      IsComposed roots
        [.rule (.under "skillModifier" c.name)
            (.under "skillProficiency" c.name) .add
            (some .whenProficient),
          .option .skill c.name] :=
    .scoped (.option .skill c.name) fun _ f hf => by
      cases hf
      exact hProficient
  unfold skillDeclarations
  cases c.first? "Ability" with
  | none => exact hOption
  | some ability => exact .scoped hOption nofun

theorem isComposed_armorDeclarations
    (c : Choice)
    (hAdd : ∀ key, roots .add key)
    (selector : Key) :
    IsComposed roots (c.armorDeclarations selector) := by
  unfold armorDeclarations
  split
  · exact .nil
  · refine .rule _ _ _ _ (fun _ f hf => ?_) fun _ => hAdd _
    cases hf
    rintro ⟨n, hExpr⟩
    cases hExpr

theorem isComposed_goodyNoteDeclarations
    (c : Choice)
    (count : Key) :
    IsComposed roots (c.goodyNoteDeclarations count) := by
  unfold goodyNoteDeclarations
  split
  · exact .scoped (.note _ _) nofun
  · exact .nil

/- An effect does not depend on whether its source is truthy. -/
theorem expr_ne_choose_of_goodyEffect?
    {effect : String}
    {value n : Number}
    {op : Operator}
    {expr : Expr}
    (h : goodyEffect? effect value = some (op, expr)) :
    expr ≠ .choose .source (.number n) .absent := by
  unfold goodyEffect? at h
  split at h <;> cases h <;> nofun

/- Nor is it a gate. -/
theorem ne_gate_of_goodyEffect?
    {effect : String}
    {value : Number}
    {op : Operator}
    {expr : Expr}
    (h : goodyEffect? effect value = some (op, expr)) :
    op ≠ .gate := by
  unfold goodyEffect? at h
  split at h <;> cases h <;> nofun

theorem isComposed_goodyDeclarations
    (c : Choice)
    (hRoots : ∀ op key, op ≠ .gate → roots op key) :
    IsComposed roots c.goodyDeclarations := by
  unfold goodyDeclarations
  split
  · split
    · exact .nil
    · refine .scoped ?_ nofun
      simp only [goodyEffectDeclarations]
      split
      · exact .nil
      · next hEffect =>
          refine .cons (c.isComposed_goodyNoteDeclarations _)
            (fun _ f hf => ?_)
            fun _ => hRoots _ _ (ne_gate_of_goodyEffect? hEffect)
          cases hf
          rintro ⟨n, hExpr⟩
          exact expr_ne_choose_of_goodyEffect? hEffect hExpr
  · exact .nil

------------------------------------------------------------
-- All Kinds
------------------------------------------------------------

/- A gate on a root gives a choice with a level its level. -/
def MayTarget
    (c : Choice)
    (op : Operator)
    (key : Key) : Prop :=
  op = .gate → c.HasLevel ∧ key = c.levelKey

/- All that choices declare is composed alike. -/
theorem isComposed_declarations (c : Choice) :
    IsComposed c.MayTarget c.declarations := by
  have hElse (op : Operator) (key : Key) (hOp : op ≠ .gate) :
      c.MayTarget op key :=
    fun hGate => absurd hGate hOp
  have hLevel (hKind : c.HasLevel) (op : Operator) :
      c.MayTarget op c.levelKey :=
    fun _ => ⟨hKind, rfl⟩
  have hAdd (key : Key) : c.MayTarget .add key :=
    hElse .add key nofun
  unfold declarations
  split
  · exact c.isComposed_armorDeclarations hAdd _
  · next hKind =>
      exact c.isComposed_backgroundDeclarations
        (hLevel (.inl hKind))
  · exact c.isComposed_classDeclarations hAdd
  · exact .nil
  · exact c.isComposed_featDeclarations
  · exact c.isComposed_noteSectionDeclarations
  · exact c.isComposed_goodyDeclarations hElse
  · exact .option _ _
  · next hKind =>
      exact c.isComposed_pathDeclarations
        (hLevel (.inr (.inl hKind)))
  · next hKind =>
      exact c.isComposed_raceDeclarations
        (hLevel (.inr (.inr hKind)))
  · exact .nil
  · exact c.isComposed_armorDeclarations hAdd _
  · exact c.isComposed_skillDeclarations
  · exact .nil
  · exact .option _ _
  · exact .option _ _

end Choice

end CharSheet
