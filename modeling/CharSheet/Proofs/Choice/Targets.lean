import CharSheet.Proofs.Choice.Composition
import CharSheet.Proofs.Choice.Pools
import CharSheet.Proofs.Requirement.Note
import CharSheet.Proofs.Rulebook.Parallel

/-
  What content has rules for.

  Much of what a class declares is about attributes that other
  content is about as well.  The features of its own and the
  notes of selecting them can be told from these, so that all
  rules for them are found among the entries of its lists.

  Main declarations:
    * `Key.IsCommon`
    * `Declaration.AreCommon`
    * `Declaration.rulesOn`
    * `Rulebook.map_bare_declareAll_eq`
    * `Feature.target_cases`
    * `Choice.rulesOn_classDeclarations`
-/

namespace CharSheet

------------------------------------------------------------
-- Common Attributes
------------------------------------------------------------

namespace Key

variable {scope name : String}

/- The scopes that content of all kinds has rules for. -/
def commonScopes : List String :=
  ["features", "languages", "casterLevels", "spellSlots",
    "spellAttackModifier", "spellDifficultyClass",
    "armorProficiency", "saveProficiency", "skillProficiency",
    "toolProficiency", "weaponProficiency", "abilityBoosts"]

/-
  An attribute that need not belong to a single owner.  The
  notes of allocations and of whole choices are among these,
  and do not end as those of selectable features do.
-/
inductive IsCommon : Key → Prop where
  | root {key : Key} (h : IsRoot key) : IsCommon key
  | lowered (text : String) : IsCommon (Text.lower text)
  | shared {scope : String}
      (h : scope ∈ commonScopes)
      (name : String) : IsCommon (under scope name)
  | note {name : String}
      (h : name.toList.getLast? ≠ some 'e') :
      IsCommon (under "validationNotes" name)

/- Other scopes with a capital have attributes that are not. -/
theorem not_isCommon_under
    (hScope : IsRoot scope)
    (hCapital : ∃ c ∈ scope.toList, c.isUpper = true)
    (hOther : scope ∉ commonScopes)
    (hNote : scope = "validationNotes" →
      name.toList.getLast? = some 'e') :
    ¬ IsCommon (under scope name) := by
  have hRoots : ∀ scope ∈ commonScopes, IsRoot scope := by
    decide
  intro h
  generalize hKey : under scope name = key at h
  cases h with
  | root h => exact h.ne_under _ _ hKey.symm
  | lowered text =>
      rcases hCapital with ⟨c, hIn, hUpper⟩
      have hThere : c ∈ (Text.lower text).toList := by
        rw [← hKey, toList_under]
        exact List.mem_append_left _ hIn
      rw [Text.isUpper_of_mem_lower hThere] at hUpper
      cases hUpper
  | shared h other =>
      exact hOther ((under_inj hScope (hRoots _ h) hKey).1 ▸ h)
  | note h =>
      rcases under_inj hScope (by decide) hKey with ⟨hSame, rfl⟩
      exact h (hNote hSame)

end Key

------------------------------------------------------------
-- Rules for One Attribute
------------------------------------------------------------

namespace Declaration

variable {key : Key}
variable {ds others : List Declaration}

/- The rules for an attribute that declarations add. -/
def rulesOn (key : Key) (ds : List Declaration) : List Rule :=
  (ds.filterMap bareRule?).filter (·.target = key)

theorem rulesOn_append :
    rulesOn key (ds ++ others) =
      rulesOn key ds ++ rulesOn key others := by
  simp only [rulesOn, List.filterMap_append,
    List.filter_append]

/- None has a target that the declarations do not have. -/
theorem rulesOn_eq_nil
    (h : ∀ d ∈ ds, key ∉ d.targets) :
    rulesOn key ds = [] := by
  unfold rulesOn
  rw [List.filter_eq_nil_iff]
  intro r hr hTarget
  rcases List.mem_filterMap.mp hr with ⟨d, hd, hRule⟩
  cases d with
  | rule target source op formula =>
      cases hRule
      exact h _ hd (List.mem_singleton.mpr
        (of_decide_eq_true hTarget).symm)
  | _ => cases hRule

/- Declarations of that target alone add all their rules. -/
theorem rulesOn_eq_self
    (h : ∀ r ∈ ds.filterMap bareRule?, r.target = key) :
    rulesOn key ds = ds.filterMap bareRule? := by
  unfold rulesOn
  rw [List.filter_eq_self]
  exact fun r hr => decide_eq_true (h r hr)

/- Entries without such rules may be left out. -/
theorem rulesOn_flatMap_filter
    {α : Type}
    {g : α → List Declaration}
    (p : α → Bool)
    {xs : List α}
    (h : ∀ x ∈ xs, p x = false → rulesOn key (g x) = []) :
    rulesOn key (xs.flatMap g) =
      rulesOn key ((xs.filter p).flatMap g) := by
  induction xs with
  | nil => rfl
  | cons x xs ih =>
      have hRest := ih fun y hy =>
        h y (List.mem_cons_of_mem x hy)
      cases hp : p x with
      | true =>
          rw [List.filter_cons_of_pos hp, List.flatMap_cons,
            List.flatMap_cons, rulesOn_append, rulesOn_append,
            hRest]
      | false =>
          rw [List.filter_cons_of_neg (by simp [hp]),
            List.flatMap_cons, rulesOn_append,
            h x List.mem_cons_self hp, List.nil_append, hRest]

end Declaration

namespace Rulebook

variable {book : Rulebook}
variable {key : Key}

/- What is declared adds its rules for what is scoped. -/
theorem map_bare_declare_eq
    (h : book.IsConsistent)
    (owner : Owner)
    (d : Declaration)
    (hKey : ¬ key.IsRoot)
    (hJoint : key ∉ d.jointTargets) :
    ((book.declare owner d).rules.filter
        (·.target = key)).map Rule.bare =
      (book.rules.filter (·.target = key)).map Rule.bare ++
        Declaration.rulesOn key [d] := by
  have hAdds := adds_declare h owner d
  have hBare (rules : List Rule) :
      (rules.filter (·.target = key)).map Rule.bare =
        ((rules.map Rule.unnumbered).filter
          (·.target = key)).map Rule.bare := by
    rw [List.filter_map, List.map_map]
    rfl
  have hNew :
      ((book.newParts (d.takenParts book)).map
        RuleParts.standing).filter (·.target = key) = [] := by
    rw [List.filter_eq_nil_iff]
    intro r hr hTarget
    rcases List.mem_map.mp hr with ⟨p, hp, rfl⟩
    have hPart := Declaration.mem_parts_of_mem_takenParts
      (List.mem_filter.mp hp).1
    have hSame : p.target = key := of_decide_eq_true hTarget
    exact hJoint (hSame ▸ List.mem_map_of_mem hPart)
  have hOwn :
      ((d.ownRule? book owner).toList.filter
          (·.target = key)).map Rule.bare =
        Declaration.rulesOn key [d] := by
    cases d with
    | rule target source op formula =>
        by_cases hSame : target = key
        · simp [Declaration.ownRule?, Declaration.rulesOn,
            Declaration.bareRule?, Rule.bare, hSame]
        · simp [Declaration.ownRule?, Declaration.rulesOn,
            Declaration.bareRule?, hSame]
    | adjustment gate op amount words =>
        have hNone :
            (Declaration.ownRule? book owner
              (.adjustment gate op amount words)).toList.filter
                (·.target = key) = [] := by
          rw [List.filter_eq_nil_iff]
          intro r hr hTarget
          have hIn := Declaration.target_mem_of_ownRule?
            (Option.mem_toList.mp hr)
          rcases List.mem_map.mp hIn with ⟨n, _, hName⟩
          refine hKey ?_
          rw [← of_decide_eq_true hTarget, ← hName]
          exact Key.isRoot_camelCase _
        rw [hNone]
        rfl
    | _ => rfl
  rw [hBare, hAdds.rules_eq, List.filter_append,
    List.filter_append, List.map_append, List.map_append,
    ← hBare, hNew, hOwn, List.map_nil, List.append_nil]

/- So do several declarations, one after another. -/
theorem map_bare_declareAll_eq
    (h : book.IsConsistent)
    (owner : Owner)
    {ds : List Declaration}
    (hKey : ¬ key.IsRoot)
    (hJoint : ∀ d ∈ ds, key ∉ d.jointTargets) :
    ((book.declareAll owner ds).rules.filter
        (·.target = key)).map Rule.bare =
      (book.rules.filter (·.target = key)).map Rule.bare ++
        Declaration.rulesOn key ds := by
  induction ds generalizing book with
  | nil => exact (List.append_nil _).symm
  | cons d ds ih =>
      refine (ih (h.declare owner d) fun e he =>
        hJoint e (List.mem_cons_of_mem d he)).trans ?_
      rw [map_bare_declare_eq h owner d hKey
          (hJoint d List.mem_cons_self),
        List.append_assoc, ← Declaration.rulesOn_append]
      rfl

end Rulebook

------------------------------------------------------------
-- Declarations About Common Attributes
------------------------------------------------------------

namespace Declaration

/- The declarations are about nothing else. -/
def AreCommon (ds : List Declaration) : Prop :=
  ∀ d ∈ ds, ∀ key ∈ d.targets, key.IsCommon

variable {ds others : List Declaration}

theorem AreCommon.append
    (h : AreCommon ds)
    (hOthers : AreCommon others) :
    AreCommon (ds ++ others) := by
  intro d hd
  rcases List.mem_append.mp hd with hFirst | hRest
  · exact h d hFirst
  · exact hOthers d hRest

theorem AreCommon.rule
    {target : Key}
    (hTarget : target.IsCommon)
    (source : Key)
    (op : Operator)
    (formula : Option Formula)
    (h : AreCommon ds) :
    AreCommon (.rule target source op formula :: ds) := by
  intro d hd key hKey
  rcases List.mem_cons.mp hd with rfl | hRest
  · exact List.mem_singleton.mp hKey ▸ hTarget
  · exact h d hRest key hKey

theorem areCommon_nil : AreCommon [] := nofun

theorem areCommon_flatMap
    {α : Type}
    {xs : List α}
    {g : α → List Declaration}
    (h : ∀ x ∈ xs, AreCommon (g x)) :
    AreCommon (xs.flatMap g) := by
  intro d hd
  rcases List.mem_flatMap.mp hd with ⟨x, hx, hIn⟩
  exact h x hx d hIn

end Declaration

open Declaration

theorem PoolKind.isCommon_grantScope
    (kind : PoolKind)
    (name : String) :
    Key.IsCommon (.under kind.grantScope name) :=
  .shared (by cases kind <;> decide) name

theorem PoolKind.isCommon_allocation (kind : PoolKind) :
    Key.IsCommon kind.allocation :=
  .note (by cases kind <;> decide)

theorem areCommon_item
    (gate : Key)
    (kind : PoolKind)
    (item : Item) :
    AreCommon (item.declarations gate kind) := by
  cases item with
  | choose count options =>
      refine AreCommon.rule (.root (isRoot_budget kind)) _ _ _ ?_
      refine AreCommon.append ?_ nofun
      intro d hd key hKey
      rcases List.mem_map.mp hd with ⟨name, _, rfl⟩
      rcases List.mem_cons.mp hKey with rfl | hGrant
      · exact kind.isCommon_allocation
      · rcases List.mem_map.mp hGrant with ⟨p, hp, rfl⟩
        cases kind with
        | abilityBoost => cases hp
        | _ =>
            rw [List.mem_singleton.mp hp]
            exact PoolKind.isCommon_grantScope _ _
  | grant name amount =>
      cases kind with
      | abilityBoost =>
          exact .rule (.lowered name) _ _ _ areCommon_nil
      | _ =>
          exact .rule (PoolKind.isCommon_grantScope _ _) _ _ _
            areCommon_nil

theorem areCommon_grantDeclarations
    (gate : Key)
    (kind : PoolKind)
    (items : List Item) :
    AreCommon (grantDeclarations gate kind items) :=
  areCommon_flatMap fun item _ => areCommon_item gate kind item

theorem areCommon_noteDeclarations
    (gate : Key)
    (text : String) :
    AreCommon (noteDeclarations gate text) := by
  apply areCommon_flatMap
  intro fragment _
  cases fragment with
  | grant kind items =>
      exact areCommon_grantDeclarations gate kind items
  | adjust op amount words =>
      intro d hd key hKey
      rw [List.mem_singleton.mp hd] at hKey
      rcases List.mem_map.mp hKey with ⟨n, _, rfl⟩
      exact .root (Key.isRoot_camelCase _)

/- A requirement is about its note. -/
theorem target_of_mem_requirementDeclarations
    {heading name : String}
    {selector key : Key}
    {r : Requirement}
    {d : Declaration}
    (hd : d ∈ requirementDeclarations heading name selector r)
    (hKey : key ∈ d.targets) :
    d.jointTargets = [] ∧
      key = .under (heading ++ "Notes") name := by
  simp only [requirementDeclarations, List.cons_append,
    List.mem_cons, List.mem_append, List.mem_map,
    List.not_mem_nil, or_false] at hd
  rcases hd with rfl | rfl | ⟨c, _, rfl⟩ | rfl
  · exact ⟨rfl, List.mem_singleton.mp hKey⟩
  · exact ⟨rfl, List.mem_singleton.mp hKey⟩
  · exact ⟨rfl, List.mem_singleton.mp hKey⟩
  · cases hKey

theorem areCommon_slotDeclarations
    (level : Key)
    (tables : List String) :
    AreCommon (slotDeclarations level tables) := by
  apply areCommon_flatMap
  intro text _
  split
  · exact areCommon_nil
  · exact .rule (.shared (by decide) _) _ _ _ areCommon_nil

theorem areCommon_spellcastingDeclarations
    (owner ability : String)
    (casterLevel : Key) :
    AreCommon
      (spellcastingDeclarations owner ability casterLevel) := by
  have hAttack :
      Key.IsCommon (.under "spellAttackModifier" owner) :=
    .shared (by decide) owner
  have hDifficulty :
      Key.IsCommon (.under "spellDifficultyClass" owner) :=
    .shared (by decide) owner
  exact .rule hAttack _ _ _ (.rule hAttack _ _ _
    (.rule hAttack _ _ _ (.rule hDifficulty _ _ _
      (.rule hDifficulty _ _ _ areCommon_nil))))

------------------------------------------------------------
-- Entries
------------------------------------------------------------

namespace Feature

variable {owner : String}

/- The note of selecting a feature. -/
def selectionKey (f : Feature) (owner : String) : Key :=
  .under "validationNotes" (f.selectionNote owner)

theorem selectionKey_eq
    (f : Feature)
    (owner : String) :
    f.selectionKey owner =
      .under ("validation" ++ "Notes") (f.selectionNote owner) :=
  rfl

/- What it counts for is common. -/
theorem areCommon_sharedDeclarations
    (f : Feature)
    (owner : String) :
    AreCommon
      (.rule (.under "features" f.name) (f.ownedKey owner) .add
          none ::
        noteDeclarations (f.ownedKey owner) f.name) :=
  .rule (.shared (by decide) _) _ _ _
    (areCommon_noteDeclarations _ _)

/- An entry adds rules for its feature and for its note. -/
theorem target_cases
    {f : Feature}
    {level key : Key}
    {selectable : Bool}
    {d : Declaration}
    (hd : d ∈ f.declarations owner level selectable)
    (hKey : key ∈ d.targets) :
    key.IsCommon ∨ d.jointTargets = [] ∧
      (key = f.ownedKey owner ∨
        (selectable = true ∧ key = f.selectionKey owner)) := by
  have hAllocation :
      Key.IsCommon (selectableAllocation owner f.group) := by
    refine .note ?_
    cases f.group with
    | none =>
        rw [withGroup, String.toList_append,
          List.getLast?_append]
        nofun
    | some group =>
        rw [withGroup, String.toList_append,
          List.getLast?_append]
        nofun
  unfold declarations at hd
  rcases List.mem_append.mp hd with hOwn | hMem
  · rcases List.mem_append.mp hOwn with hGate | hFixed
    · unfold gateDeclarations at hGate
      split at hGate
      · cases hGate
      · cases List.mem_singleton.mp hGate
        exact .inr ⟨rfl, .inl (List.mem_singleton.mp hKey)⟩
    · cases selectable with
      | false =>
          cases List.mem_singleton.mp hFixed
          exact .inr ⟨rfl, .inl (List.mem_singleton.mp hKey)⟩
      | true =>
          rcases List.mem_append.mp hFixed with hFour | hNote
          · simp only [List.mem_cons, List.not_mem_nil,
              or_false] at hFour
            rcases hFour with rfl | rfl | rfl | rfl
            · exact .inr ⟨rfl, .inl (List.mem_singleton.mp hKey)⟩
            · exact .inr ⟨rfl, .inl (List.mem_singleton.mp hKey)⟩
            · rw [List.mem_singleton.mp hKey]
              exact .inl hAllocation
            · rw [List.mem_singleton.mp hKey]
              exact .inl hAllocation
          · split at hNote
            · cases hNote
            · rcases target_of_mem_requirementDeclarations hNote
                  hKey with
                ⟨hJoint, hSame⟩
              exact .inr ⟨hJoint, .inr ⟨rfl, hSame⟩⟩
  · exact .inl
      (f.areCommon_sharedDeclarations owner d hMem key hKey)

/- Features of an owner are not common. -/
theorem isRoot_ownScope (owner : String) :
    Key.IsRoot (camelCase owner ++ "Features") :=
  (Key.isRoot_camelCase owner).append (by decide)

theorem ownScope_ne
    {scope : String}
    (h : ¬ "Features".toList <:+ scope.toList) :
    camelCase owner ++ "Features" ≠ scope := by
  rintro rfl
  rw [String.toList_append] at h
  exact h (List.suffix_append _ _)

theorem not_isCommon_ownedKey
    (f : Feature)
    (owner : String) :
    ¬ (f.ownedKey owner).IsCommon := by
  refine Key.not_isCommon_under (isRoot_ownScope owner)
    ⟨'F', ?_, by decide⟩ ?_ fun hSame => absurd hSame ?_
  · rw [String.toList_append]
    exact List.mem_append_right _ (by decide)
  · have hAll : ∀ scope ∈ Key.commonScopes,
        ¬ "Features".toList <:+ scope.toList := by
      decide
    exact fun hIn => ownScope_ne (hAll _ hIn) rfl
  · exact ownScope_ne (by decide)

/- Nor are the notes of selecting them. -/
theorem not_isCommon_selectionKey
    (f : Feature)
    (owner : String) :
    ¬ (f.selectionKey owner).IsCommon := by
  refine Key.not_isCommon_under (by decide)
    ⟨'N', by decide, by decide⟩ (by decide) fun _ => ?_
  rw [selectionNote, String.toList_append,
    List.getLast?_append]
  rfl

/- Features are told apart by their names, and from notes. -/
theorem ownedKey_inj
    {f g : Feature}
    (h : f.ownedKey owner = g.ownedKey owner) :
    f.name = g.name :=
  (Key.under_inj (isRoot_ownScope owner) (isRoot_ownScope owner)
    h).2

theorem ownedKey_ne_selectionKey
    (f g : Feature)
    (owner : String) :
    f.ownedKey owner ≠ g.selectionKey owner := fun hSame =>
  ownScope_ne (by decide)
    (Key.under_inj (isRoot_ownScope owner) (by decide) hSame).1

end Feature

------------------------------------------------------------
-- Classes
------------------------------------------------------------

namespace Choice

theorem areCommon_casterDeclarations
    (c : Choice)
    (key : String)
    {total : String}
    (hTotal : Key.IsRoot total)
    (level : Key) :
    AreCommon
      (c.casterDeclarations key total
        (.under "casterLevels" c.name) level) := by
  unfold casterDeclarations
  split
  · exact areCommon_nil
  · split
    · exact areCommon_nil
    · next hSome =>
        rcases exists_of_valueDeclaration? hSome with
          ⟨source, formula, rfl⟩
        exact .rule (.shared (by decide) _) _ _ _
          (.rule (.root hTotal) _ _ _ areCommon_nil)

theorem areCommon_classRequirement
    (c : Choice)
    (level : Key) :
    AreCommon
      (c.requirementDeclarations "Require" "validation" "Class"
        level) := by
  have hLast :
      (camelCase c.name ++ "Class").toList.getLast? ≠
        some 'e' := by
    rw [String.toList_append, List.getLast?_append]
    nofun
  unfold requirementDeclarations
  split
  · exact areCommon_nil
  · split
    · exact areCommon_nil
    · intro d hd key hKey
      rw [(target_of_mem_requirementDeclarations hd hKey).2]
      exact .note hLast

/- All but the lists of a class are about common attributes. -/
theorem exists_classDeclarations_eq (c : Choice) :
    ∃ before after,
      c.classDeclarations =
          before ++
            (c.featureDeclarations (.under "levels" c.name) ++
              after) ∧
        AreCommon before ∧ AreCommon after := by
  let level := Key.under "levels" c.name
  let casterLevel := Key.under "casterLevels" c.name
  refine ⟨.rule "level" level .add none ::
      c.requirementDeclarations "Require" "validation" "Class"
        level,
    languageDeclarations level (c.list "Languages") ++
      (c.casterDeclarations "CasterLevelArcane"
          "casterLevelArcane" casterLevel level ++
        (c.casterDeclarations "CasterLevelDivine"
            "casterLevelDivine" casterLevel level ++
          ((c.first? "SpellAbility").elim []
              (spellcastingDeclarations c.name · casterLevel) ++
            slotDeclarations level (c.list "SpellSlots")))),
    ?_, ?_, ?_⟩
  · simp only [classDeclarations, List.append_assoc,
      List.cons_append]
    cases c.first? "SpellAbility" <;> rfl
  · exact .rule (.root (by decide)) _ _ _
      (c.areCommon_classRequirement level)
  · refine (areCommon_grantDeclarations _ _ _).append
      ((c.areCommon_casterDeclarations _ (by decide) _).append
        ((c.areCommon_casterDeclarations _ (by decide) _).append
          (AreCommon.append ?_
            (areCommon_slotDeclarations _ _))))
    cases c.first? "SpellAbility" with
    | none => exact areCommon_nil
    | some ability =>
        exact areCommon_spellcastingDeclarations _ _ _

section Lists

variable {c : Choice}
variable {key : Key}

/- An entry of the lists declares what is in them. -/
theorem exists_entry_of_mem
    {level : Key}
    {d : Declaration}
    (hd : d ∈ c.featureDeclarations level) :
    ∃ f selectable,
      d ∈ Feature.declarations f c.name level selectable ∧
        ∃ text ∈ c.list "Features" ++ c.list "Selectables",
          Feature.ofText text = .ok f := by
  have hEntry
      {selectable : Bool}
      {text : String}
      (hMem : d ∈
        entryDeclarations c.name level selectable text) :
      ∃ f, d ∈ f.declarations c.name level selectable ∧
        Feature.ofText text = .ok f := by
    unfold entryDeclarations at hMem
    split at hMem
    · cases hMem
    · next f hRead => exact ⟨f, hMem, hRead⟩
  rcases List.mem_append.mp hd with hFixed | hSelectable
  · rcases List.mem_flatMap.mp hFixed with ⟨text, hText, hMem⟩
    rcases hEntry hMem with ⟨f, hDeclared, hRead⟩
    exact ⟨f, false, hDeclared, text,
      List.mem_append_left _ hText, hRead⟩
  · rcases List.mem_flatMap.mp hSelectable with
      ⟨text, hText, hMem⟩
    rcases hEntry hMem with ⟨f, hDeclared, hRead⟩
    exact ⟨f, true, hDeclared, text,
      List.mem_append_right _ hText, hRead⟩

variable (hKey : ¬ key.IsCommon)

include hKey

/- Rules for what is not common are those of the lists. -/
theorem rulesOn_classDeclarations :
    rulesOn key c.classDeclarations =
      rulesOn key
        (c.featureDeclarations (.under "levels" c.name)) := by
  rcases c.exists_classDeclarations_eq with
    ⟨before, after, hEq, hBefore, hAfter⟩
  have hNone {ds : List Declaration} (h : AreCommon ds) :
      rulesOn key ds = [] :=
    rulesOn_eq_nil fun d hd hIn => hKey (h d hd key hIn)
  rw [hEq, rulesOn_append, rulesOn_append, hNone hBefore,
    hNone hAfter, List.nil_append, List.append_nil]

/- No class has joint rules for it. -/
theorem notMem_jointTargets
    {d : Declaration}
    (hd : d ∈ c.classDeclarations) :
    key ∉ d.jointTargets := by
  intro hJoint
  have hTarget : key ∈ d.targets := by
    rcases List.mem_map.mp hJoint with ⟨p, hp, rfl⟩
    exact target_mem_of_mem_parts hp
  rcases c.exists_classDeclarations_eq with
    ⟨before, after, hEq, hBefore, hAfter⟩
  rw [hEq] at hd
  rcases List.mem_append.mp hd with hFirst | hRest
  · exact hKey (hBefore d hFirst key hTarget)
  · rcases List.mem_append.mp hRest with hMem | hLast
    · rcases exists_entry_of_mem hMem with
        ⟨f, selectable, hDeclared, _⟩
      rcases Feature.target_cases hDeclared hTarget with
        hCommon | ⟨hNone, _⟩
      · exact hKey hCommon
      · rw [hNone] at hJoint
        cases hJoint
    · exact hKey (hAfter d hLast key hTarget)

end Lists

end Choice

------------------------------------------------------------
-- Registered Classes
------------------------------------------------------------

namespace Rulebook

/-
  A class that is registered alone has the rules of its lists
  for what is not common.
-/
theorem map_bare_registerChoice_empty
    (settings : Settings)
    {c : Choice}
    (hKind : c.kind = .characterClass)
    {key : Key}
    (hKey : ¬ key.IsCommon) :
    (((empty settings).registerChoice c).rules.filter
        (·.target = key)).map Rule.bare =
      rulesOn key
        (c.featureDeclarations (.under "levels" c.name)) := by
  have hOrigin : c.origin ∉ (empty settings).origins :=
    List.not_mem_nil
  have hDeclared : c.declarations = c.classDeclarations := by
    unfold Choice.declarations
    rw [hKind]
  have hRules :
      ((empty settings).registerChoice c).rules =
        ((empty settings).declareAll (some c.origin)
          c.classDeclarations).rules := by
    rw [registerChoice, removeChoice_of_notMem hOrigin,
      hDeclared]
  rw [hRules, map_bare_declareAll_eq
      (isConsistent_empty settings) _
      (fun hRoot => hKey (.root hRoot))
      (fun d hd => Choice.notMem_jointTargets hKey hd),
    Choice.rulesOn_classDeclarations hKey]
  rfl

end Rulebook

end CharSheet
