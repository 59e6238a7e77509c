import CharSheet.Proofs.Choice.Composition
import CharSheet.Proofs.Choice.Registry
import CharSheet.Proofs.Sheet.Acyclic

/-
  The levels of races and backgrounds.

  A race or a background takes the level of the character by a
  rule of its own, and notes and goodies may change the level
  afterwards like any other attribute.  All choices whose names
  make the same identifier open the same level, so it is there
  only while all of them are selected.

  Main declarations:
    * `Declaration.IsComposed.roots_of_mem`
    * `Choice.levelDeclarations`
    * `Choice.exists_levelDeclarations_eq`
    * `Choice.IsChosen`, `Rulebook.AllChosen`
    * `Rule.joinAll_append_of_gates`, `Rule.joinAll_of_set`
    * `Rulebook.IsRegistry.holds_gates_iff`
    * `Rulebook.LevelRules`
    * `Rulebook.level_of_identity`
-/

namespace CharSheet

------------------------------------------------------------
-- Rules of Roots
------------------------------------------------------------

/- A rule of a root that does not add is one that may be. -/
theorem Declaration.IsComposed.roots_of_mem
    {roots : Operator → Key → Prop}
    {ds : List Declaration}
    (h : IsComposed roots ds)
    {target source : Key}
    {op : Operator}
    {formula : Option Formula}
    (hMem : .rule target source op formula ∈ ds)
    (hRoot : target.IsRoot)
    (hOp : op ≠ .add) :
    roots op target := by
  induction h with
  | nil => cases hMem
  | append _ _ ih ihNext =>
      rcases List.mem_append.mp hMem with hFirst | hRest
      · exact ih hFirst
      · exact ihNext hRest
  | rule _ _ _ _ _ hAllowed =>
      cases List.mem_singleton.mp hMem
      exact hAllowed hRoot
  | item gate kind item =>
      cases item with
      | choose count options =>
          simp only [Item.declarations, List.cons_append,
            List.mem_cons, List.mem_append, List.mem_map,
            List.not_mem_nil, reduceCtorEq, and_false,
            exists_false, or_false] at hMem
          cases hMem
          exact absurd rfl hOp
      | grant name amount =>
          cases kind with
          | abilityBoost =>
              cases List.mem_singleton.mp hMem
              exact absurd rfl hOp
          | _ =>
              cases List.mem_singleton.mp hMem
              exact absurd hRoot (Key.not_isRoot_under _ _)
  | counted =>
      simp at hMem
  | _ => cases List.mem_singleton.mp hMem

namespace Choice

variable {c : Choice}

theorem isRoot_levelKey (c : Choice) : c.levelKey.IsRoot :=
  (Key.isRoot_camelCase c.name).append (by decide)

/- The attribute that a choice with a level is selected by. -/
def levelSelector (c : Choice) : Key :=
  c.kind.selector?.getD (.under "features" c.name)

/- What this attribute has to fulfil, besides being truthy. -/
def levelCondition (c : Choice) : Option Formula :=
  c.kind.selector?.map fun _ => c.isSelected

/- The attribute that a choice takes its level from. -/
def levelSource (c : Choice) : Key :=
  if c.kind = .path then c.pathSource else "level"

/- The rules that open and set the level of a choice. -/
def levelDeclarations (c : Choice) : List Declaration :=
  [.rule c.levelKey c.levelSelector .gate c.levelCondition,
    .rule c.levelKey c.levelSource .set none]

/-
  The choice is selected: the attribute of its kind is equal to
  its name, or its feature is truthy if the kind has none.
-/
def IsChosen (c : Choice) (sheet : Store) : Prop :=
  match c.kind.selector? with
  | some selector =>
      ∃ v, sheet[selector]? = some v ∧
        v.looseEq (.text c.name) = true
  | none => sheet.truthy (.under "features" c.name) = true

/- No other root is a target of a choice with a level. -/
theorem exists_levelDeclarations_eq (h : c.HasLevel) :
    ∃ rest,
      c.declarations = c.levelDeclarations ++ rest ∧
        Declaration.IsComposed (fun _ _ => False) rest := by
  unfold declarations levelDeclarations levelSelector
    levelCondition levelSource
  rcases h with hBackground | hPath | hRace
  · rw [hBackground]
    exact c.exists_backgroundDeclarations_eq
  · rw [hPath]
    exact c.exists_pathDeclarations_eq
  · rw [hRace]
    exact c.exists_raceDeclarations_eq

/- It opens and sets its level by these rules alone. -/
theorem mem_declarations_level_iff
    (h : c.HasLevel)
    {source : Key}
    {op : Operator}
    {formula : Option Formula}
    (hOp : op ≠ .add) :
    .rule c.levelKey source op formula ∈ c.declarations ↔
      .rule c.levelKey source op formula ∈
        c.levelDeclarations := by
  rcases exists_levelDeclarations_eq h with ⟨rest, hEq, hRest⟩
  rw [hEq, List.mem_append]
  exact or_iff_left fun hMem =>
    hRest.roots_of_mem hMem c.isRoot_levelKey hOp

/- Its gate holds where it is selected. -/
theorem holds_gate_iff
    {r : Rule}
    (hSource : r.source = c.levelSelector)
    (hFormula : r.formula = c.levelCondition)
    (sheet : Store) :
    holds (r.contribution sheet) = true ↔ c.IsChosen sheet := by
  unfold Rule.contribution IsChosen
  rw [hSource, hFormula, levelSelector, levelCondition]
  cases c.kind.selector? with
  | none =>
      dsimp only [Option.getD_none, Option.map_none]
      unfold Store.truthy
      cases sheet[Key.under "features" c.name]? <;> rfl
  | some selector =>
      dsimp only [Option.getD_some, Option.map_some]
      cases sheet[selector]? with
      | none => simp [holds]
      | some v =>
          change v.looseEq (.text c.name) = true ↔ _
          simp

end Choice

------------------------------------------------------------
-- Joining
------------------------------------------------------------

namespace Rule

variable {sheet : Store}
variable {rules rest : List Rule}

/- Gates let all other rules through, or nothing at all. -/
theorem joinAll_append_of_gates
    (h : ∀ r ∈ rules, r.op = .gate)
    (v : Option Value) :
    joinAll sheet (rules ++ rest) v =
      if rules.all fun r => holds (r.contribution sheet) then
        joinAll sheet rest v
      else none := by
  induction rules with
  | nil => rfl
  | cons r rules ih =>
      rcases List.forall_mem_cons.mp h with ⟨hGate, hGates⟩
      rw [List.cons_append, joinAll_cons_gate hGate, ih hGates,
        List.all_cons]
      cases holds (r.contribution sheet) with
      | false => rfl
      | true => rfl

/- What is set replaces whatever was joined before. -/
theorem joinAll_of_set
    {r : Rule}
    {v : Value}
    (hBefore : ∀ s ∈ rules, s.op ≠ .gate)
    (hSet : r.op = .set)
    (hValue : r.contribution sheet = some v)
    (w : Option Value) :
    joinAll sheet (rules ++ r :: rest) w =
      joinAll sheet rest (some v) := by
  have hReplaced (u : Option Value) :
      Operator.set.combine u v = some v := by
    cases u <;> rfl
  rw [joinAll_append_of_ne hBefore, joinAll, hSet,
    if_neg Operator.noConfusion, hValue]
  exact congrArg (joinAll sheet rest) (hReplaced _)

/- The last of some rules comes before others only. -/
theorem exists_last_eq
    (p : Rule → Prop)
    [DecidablePred p]
    (h : ∃ r ∈ rules, p r) :
    ∃ before r after, rules = before ++ r :: after ∧
      p r ∧ ∀ s ∈ after, ¬ p s := by
  induction rules with
  | nil =>
      rcases h with ⟨r, hr, _⟩
      cases hr
  | cons r rules ih =>
      by_cases hLater : ∃ s ∈ rules, p s
      · rcases ih hLater with ⟨before, s, after, rfl, hs, hNone⟩
        exact ⟨r :: before, s, after, rfl, hs, hNone⟩
      · rcases h with ⟨s, hs, hp⟩
        rcases List.mem_cons.mp hs with rfl | hRest
        · exact ⟨[], s, rules, rfl, hp,
            fun t ht hpt => hLater ⟨t, ht, hpt⟩⟩
        · exact absurd ⟨s, hRest, hp⟩ hLater

end Rule

------------------------------------------------------------
-- Rules of a Level
------------------------------------------------------------

namespace Rulebook

variable {book : Rulebook}
variable {c : Choice}
variable {input dict : Store}

/- All choices with this level are selected. -/
def AllChosen
    (book : Rulebook)
    (key : Key)
    (sheet : Store) : Prop :=
  ∀ d ∈ book.choices, d.HasLevel → d.levelKey = key →
    d.IsChosen sheet

/-
  The rules of the level of a choice: first all gates, then
  rules that set it, the last one of the choice's own, which
  sets it to the level of the character, and then all others.
-/
structure LevelRules
    (book : Rulebook)
    (c : Choice)
    (before : List Rule)
    (own : Rule)
    (later : List Rule) : Prop where
  rules :
    book.rulesFor c.levelKey =
      book.rulesOf c.levelKey .gate ++ (before ++ own :: later)
  before : ∀ r ∈ before, r.op = .set
  own : own.owner = some c.origin ∧ own.op = .set ∧
    own.source = "level" ∧ own.formula = none
  later : ∀ r ∈ later, r.op ≠ .gate ∧
    (r.op = .set → r.owner ≠ some c.origin)

section Registered

variable (hRegistry : book.IsRegistry)

include hRegistry

/- The own rules that open or set the level are known. -/
theorem IsRegistry.mem_levelDeclarations
    (hIn : c ∈ book.choices)
    (hLevel : c.HasLevel)
    {r : Rule}
    (hRule : r ∈ book.rules)
    (hTarget : r.target = c.levelKey)
    (hOwner : r.owner = some c.origin)
    (hFirm : r.op.IsFirm) :
    .rule c.levelKey r.source r.op r.formula ∈
      c.levelDeclarations := by
  have hMem :
      .rule r.target r.source r.op r.formula ∈
        c.declarations := by
    refine (hRegistry.mem_declarations_iff hIn hFirm).mpr
      ⟨r, hRule, ?_⟩
    rw [Rule.unnumbered, hOwner]
  rw [hTarget] at hMem
  exact (Choice.mem_declarations_level_iff hLevel hFirm.1).mp
    hMem

/- All gates hold where all choices with them are selected. -/
theorem IsRegistry.holds_gates_iff
    {key : Key}
    (hRoot : key.IsRoot)
    (dict : Store) :
    ((book.rulesOf key .gate).all fun r =>
        holds (r.contribution dict)) = true ↔
      book.AllChosen key dict := by
  rw [List.all_eq_true]
  constructor
  · rintro hAll d hd hLevel rfl
    have hDeclared :
        .rule d.levelKey d.levelSelector .gate
          d.levelCondition ∈ d.declarations :=
      (Choice.mem_declarations_level_iff hLevel (by nofun)).mpr
        List.mem_cons_self
    rcases (hRegistry.mem_declarations_iff hd
        Operator.isFirm_gate).mp hDeclared with
      ⟨r, hRule, hEq⟩
    have hGate : r ∈ book.rulesOf d.levelKey .gate :=
      mem_rulesOf_iff.mpr ⟨hRule, congrArg Rule.target hEq,
        congrArg Rule.op hEq⟩
    exact (Choice.holds_gate_iff (congrArg Rule.source hEq)
      (congrArg Rule.formula hEq) dict).mp (hAll r hGate)
  · intro hChosen r hr
    rcases mem_rulesOf_iff.mp hr with ⟨hRule, hTarget, hGate⟩
    rcases hRegistry.exists_of_gate hRule hGate with
      ⟨d, hd, hOwner, hDeclared⟩
    rcases d.isComposed_declarations.roots_of_mem hDeclared
        (hTarget ▸ hRoot) nofun rfl with
      ⟨hLevel, hSame⟩
    have hMem := hRegistry.mem_levelDeclarations hd hLevel hRule
      hSame hOwner (hGate ▸ Operator.isFirm_gate)
    rw [hGate] at hMem
    rcases List.mem_cons.mp hMem with hEq | hSet
    · injection hEq with _ hSource _ hFormula
      exact (Choice.holds_gate_iff hSource hFormula dict).mpr
        (hChosen d hd hLevel (hSame.symm.trans hTarget))
    · injection List.mem_singleton.mp hSet with _ _ hOp
      cases hOp

variable (hIn : c ∈ book.choices)
variable (hKind : c.kind = .race ∨ c.kind = .background)

include hIn hKind

/- The level is set last by a rule of its own. -/
theorem IsRegistry.exists_own_rule :
    ∃ before own after,
      book.rulesOf c.levelKey .set = before ++ own :: after ∧
        (own.owner = some c.origin ∧ own.op = .set ∧
          own.source = "level" ∧ own.formula = none) ∧
        ∀ r ∈ after, r.owner ≠ some c.origin := by
  have hLevel : c.HasLevel := by
    rcases hKind with hRace | hBackground
    · exact .inr (.inr hRace)
    · exact .inl hBackground
  have hCharacter : c.levelSource = "level" := by
    rcases hKind with hKind | hKind <;> simp [Choice.levelSource,
      hKind]
  have hDeclared :
      .rule c.levelKey c.levelSource .set none ∈
        c.declarations :=
    (Choice.mem_declarations_level_iff hLevel (by nofun)).mpr
      (List.mem_cons_of_mem _ List.mem_cons_self)
  rcases (hRegistry.mem_declarations_iff hIn
      Operator.isFirm_set).mp hDeclared with
    ⟨r, hRule, hEq⟩
  have hThere :
      ∃ r ∈ book.rulesOf c.levelKey .set,
        r.owner = some c.origin :=
    ⟨r, mem_rulesOf_iff.mpr ⟨hRule, congrArg Rule.target hEq,
      congrArg Rule.op hEq⟩, congrArg Rule.owner hEq⟩
  rcases Rule.exists_last_eq (fun r => r.owner = some c.origin)
      hThere with
    ⟨before, own, after, hSplit, hOwner, hAfter⟩
  have hLast : own ∈ book.rulesOf c.levelKey .set := by
    rw [hSplit]
    exact List.mem_append_right _ List.mem_cons_self
  rcases mem_rulesOf_iff.mp hLast with ⟨hOwn, hTarget, hSet⟩
  have hMem := hRegistry.mem_levelDeclarations hIn hLevel hOwn
    hTarget hOwner (hSet ▸ Operator.isFirm_set)
  rw [hSet] at hMem
  rcases List.mem_cons.mp hMem with hGate | hEq
  · injection hGate with _ _ hOp
    cases hOp
  · injection List.mem_singleton.mp hEq with _ hSource _ hFormula
    exact ⟨before, own, after, hSplit,
      ⟨hOwner, hSet, hSource.trans hCharacter, hFormula⟩, hAfter⟩

/- It stands between the gates and what comes later. -/
theorem IsRegistry.exists_levelRules
    (hOrdered : book.rules.Pairwise fun r s => r.seq < s.seq) :
    ∃ before own later, book.LevelRules c before own later := by
  rcases hRegistry.exists_own_rule hIn hKind with
    ⟨before, own, after, hSets, hOwn, hAfter⟩
  have hSet (r : Rule) (hr : r ∈ before ++ own :: after) :
      r.op = .set :=
    (mem_rulesOf_iff.mp (hSets ▸ hr)).2.2
  let others :=
    [Operator.add, .multiply, .max, .min].flatMap
      (book.rulesOf c.levelKey)
  refine ⟨before, own, after ++ others, ?_, ?_, hOwn, ?_⟩
  · rw [rulesFor_eq_flatMap hOrdered]
    simp [Operator.inOrder, hSets, others]
  · exact fun r hr => hSet r (List.mem_append_left _ hr)
  · intro r hr
    rcases List.mem_append.mp hr with hLater | hOther
    · have hOp := hSet r (List.mem_append_right _
        (List.mem_cons_of_mem own hLater))
      rw [hOp]
      exact ⟨Operator.noConfusion, fun _ => hAfter r hLater⟩
    · rcases List.mem_flatMap.mp hOther with ⟨op, hOp, hr⟩
      rcases mem_rulesOf_iff.mp hr with ⟨_, _, rfl⟩
      have hNeither : ∀ op ∈
          [Operator.add, .multiply, .max, .min],
            op ≠ .gate ∧ op ≠ .set := by
        decide
      rcases hNeither r.op hOp with ⟨hGate, hSet⟩
      exact ⟨hGate, fun hSame => absurd hSame hSet⟩

end Registered

/- What the rules of a level come to on a sheet. -/
theorem LevelRules.joinAll_eq
    {before later : List Rule}
    {own : Rule}
    (h : book.LevelRules c before own later)
    {v : Value}
    (hLevel : dict["level"]? = some v)
    (w : Option Value) :
    Rule.joinAll dict (before ++ own :: later) w =
      Rule.joinAll dict later (some v) := by
  rcases h.own with ⟨_, hSet, hSource, hFormula⟩
  have hBefore : ∀ r ∈ before, r.op ≠ .gate := by
    intro r hr hGate
    cases (h.before r hr).symm.trans hGate
  have hValue : own.contribution dict = some v := by
    unfold Rule.contribution
    rw [hSource, hFormula, hLevel]
  exact Rule.joinAll_of_set hBefore hSet hValue w

------------------------------------------------------------
-- Levels of Identities
------------------------------------------------------------

/-
  Of a race or a background that is registered, the level is
  open on a sheet exactly if all choices with this level are
  selected.  It is then the level of the character, to which
  the rules after the last own one are joined.
-/
theorem IsRegistry.level_of_choice
    (hRegistry : book.IsRegistry)
    (hOrdered : book.rules.Pairwise fun r s => r.seq < s.seq)
    (hIn : c ∈ book.choices)
    (hKind : c.kind = .race ∨ c.kind = .background)
    (input : Store) :
    ∃ dict before own later,
      book.IsDictionary input (book.sheet input) c.levelKey
          dict ∧
        book.LevelRules c before own later ∧
        (¬ book.AllChosen c.levelKey dict →
          (book.sheet input)[c.levelKey]? = none) ∧
        (book.AllChosen c.levelKey dict →
          ∀ v, dict["level"]? = some v →
            (book.sheet input)[c.levelKey]? =
              Rule.joinAll dict later (some v)) := by
  rcases hRegistry.exists_levelRules hIn hKind hOrdered with
    ⟨before, own, later, hRules⟩
  have hTarget : book.IsTarget c.levelKey := by
    have hThere : own ∈ book.rulesFor c.levelKey := by
      rw [hRules.rules]
      simp
    exact ⟨own, mem_rulesFor_iff.mp hThere⟩
  rcases (isSnapshot_sheet book input).computed c.levelKey
      hTarget with
    ⟨dict, hDict, hValue⟩
  have hGates : ∀ r ∈ book.rulesOf c.levelKey .gate,
      r.op = .gate :=
    fun r hr => (mem_rulesOf_iff.mp hr).2.2
  rw [hRules.rules, Rule.joinAll_append_of_gates hGates] at hValue
  have hIff := hRegistry.holds_gates_iff c.isRoot_levelKey dict
  refine ⟨dict, before, own, later, hDict, hRules, ?_, ?_⟩
  · intro hNot
    rw [hValue, if_neg (mt hIff.mp hNot)]
  · intro hAll v hLevel
    rw [hValue, if_pos (hIff.mpr hAll), hRules.joinAll_eq hLevel]

/- What calls lead to is registered and in order. -/
theorem isRegistry_callAll
    (settings : Settings)
    (start : Rulebook)
    (hStart : start = empty settings ∨ start = core settings)
    (calls : List ChoiceCall) :
    (start.callAll calls).IsRegistry ∧
      (start.callAll calls).IsConsistent := by
  have hBoth : start.IsRegistry ∧ start.IsConsistent := by
    rcases hStart with hEmpty | hCore
    · rw [hEmpty]
      exact ⟨isRegistry_empty settings,
        isConsistent_empty settings⟩
    · rw [hCore]
      exact ⟨isRegistry_core settings,
        isConsistent_core settings⟩
  exact ⟨hBoth.1.callAll hBoth.2 calls, hBoth.2.callAll calls⟩

/-
  Whatever choices are registered and removed, the level of a
  race or a background is there exactly if all registered
  choices whose names make the same identifier are selected.
  It is the level of the character if, besides, the rules that
  come after its own one leave that level as it is.
-/
theorem level_of_identity
    (settings : Settings)
    (start : Rulebook)
    (hStart : start = empty settings ∨ start = core settings)
    (calls : List ChoiceCall)
    (c : Choice)
    (hIn : c ∈ (start.callAll calls).choices)
    (hKind : c.kind = .race ∨ c.kind = .background)
    (input : Store) :
    let book := start.callAll calls
    ∃ dict before own later,
      book.IsDictionary input (book.sheet input) c.levelKey
          dict ∧
        book.LevelRules c before own later ∧
        (¬ book.AllChosen c.levelKey dict →
          (book.sheet input)[c.levelKey]? = none) ∧
        ∀ v, dict["level"]? = some v →
          (book.AllChosen c.levelKey dict →
            (book.sheet input)[c.levelKey]? =
              Rule.joinAll dict later (some v)) ∧
          ((book.sheet input)[c.levelKey]? = some v ↔
            book.AllChosen c.levelKey dict ∧
              Rule.joinAll dict later (some v) = some v) := by
  intro book
  rcases isRegistry_callAll settings start hStart calls with
    ⟨hRegistry, hBook⟩
  rcases hRegistry.level_of_choice hBook.ordered hIn hKind
      input with
    ⟨dict, before, own, later, hDict, hRules, hClosed, hOpen⟩
  refine ⟨dict, before, own, later, hDict, hRules, hClosed, ?_⟩
  intro v hLevel
  refine ⟨fun hAll => hOpen hAll v hLevel, ?_⟩
  constructor
  · intro hSame
    have hAll : book.AllChosen c.levelKey dict := by
      by_contra hNot
      cases hSame.symm.trans (hClosed hNot)
    exact ⟨hAll, (hOpen hAll v hLevel).symm.trans hSame⟩
  · rintro ⟨hAll, hLeft⟩
    exact (hOpen hAll v hLevel).trans hLeft

end Rulebook

------------------------------------------------------------
-- High Elves
------------------------------------------------------------

namespace HighElves

open Rulebook

def highElf : Choice :=
  ⟨.race, "High Elf", ⟨[]⟩⟩

/- A background, which has a level of its own. -/
def acolyte : Choice :=
  ⟨.background, "Acolyte", ⟨[]⟩⟩

/- Another race whose name makes the same identifier. -/
def hyphened : Choice :=
  ⟨.race, "High-Elf", ⟨[]⟩⟩

/- A high elf of the third level who is an acolyte. -/
def input : Store :=
  ((((∅ : Store).put "race" (some (.text "High Elf"))).put
    "background" (some (.text "Acolyte"))).put
      "level" (some (.number 3)))

/- An input that no rule computes is on all dictionaries. -/
theorem getElem?_dictionary
    {book : Rulebook}
    {key other : Key}
    {dict : Store}
    (hDict :
      book.IsDictionary input (book.sheet input) key dict)
    (hNot : ¬ book.IsTarget other)
    (hOther : other ≠ key) :
    dict[other]? = input[other]? := by
  have hSettled : ¬ book.IsPending key other := by
    rintro (hSame | ⟨hTarget, _⟩)
    · exact hOther hSame
    · exact hNot hTarget
  rw [hDict.settled other hSettled,
    getElem?_sheet_of_not_isTarget hNot]

/- Where the identifiers differ, the high elf has its level. -/
theorem level_of_identity_highElf :
    let book :=
      (empty .standard).callAll
        [.register highElf, .register acolyte]
    highElf ∈ book.choices ∧ highElf.kind = .race ∧
      (book.sheet input)["highElfLevel"]? =
        some (.number 3) := by
  intro book
  have hIn : highElf ∈ book.choices := by decide
  have hRace : ¬ book.IsTarget "race" := by decide
  have hLevel : ¬ book.IsTarget "level" := by decide
  rcases level_of_identity .standard (empty .standard) (.inl rfl)
      [.register highElf, .register acolyte] highElf hIn
      (.inl rfl) input with
    ⟨dict, before, own, later, hDict, hRules, -, hOpen⟩
  have hAll : book.AllChosen highElf.levelKey dict := by
    intro d hd _ hSame
    have hSelected : dict["race"]? = some (.text "High Elf") :=
      (getElem?_dictionary hDict hRace (by decide)).trans
        (by decide)
    have hChosen : highElf.IsChosen dict :=
      ⟨_, hSelected, by decide⟩
    have hThere : d ∈ [highElf, acolyte] := hd
    rcases List.mem_pair.mp hThere with rfl | rfl
    · exact hChosen
    · exact absurd hSame (by decide)
  have hNone : later = [] := by
    have hTwo : (book.rulesFor highElf.levelKey).length = 2 := by
      rw [rulesFor, List.length_mergeSort]
      decide
    have hOne :
        (book.rulesOf highElf.levelKey .gate).length = 1 := by
      decide
    rw [hRules.rules, List.length_append, hOne,
      List.length_append, List.length_cons] at hTwo
    exact List.eq_nil_of_length_eq_zero (by omega)
  have hThree : dict["level"]? = some (.number 3) :=
    (getElem?_dictionary hDict hLevel (by decide)).trans
      (by decide)
  have hValue := (hOpen _ hThree).1 hAll
  rw [hNone] at hValue
  exact ⟨hIn, rfl, hValue⟩

/-
  A race that is selected has no level at all while another
  one whose name makes the same identifier is registered.
-/
theorem not_forall_level_of_identity :
    ¬ ∀ (settings : Settings) (calls : List ChoiceCall)
      (c : Choice) (selector : Key) (input : Store)
      (v : Value),
        let book := (empty settings).callAll calls
        c ∈ book.choices →
          c.kind = .race ∨ c.kind = .background →
            c.kind.selector? = some selector →
              input[selector]? = some (.text c.name) →
                (book.sheet input)["level"]? = some v →
                  (book.sheet input)[c.levelKey]? =
                    some v := by
  intro h
  let calls : List ChoiceCall :=
    [.register highElf, .register hyphened]
  let book := (empty .standard).callAll calls
  have hIn : highElf ∈ book.choices := by decide
  have hLevel :
      (book.sheet input)["level"]? = some (.number 3) :=
    getElem?_sheet_of_input (by decide) (by decide)
  have hSame := h .standard calls highElf "race" input _ hIn
    (.inl rfl) rfl (by decide) hLevel
  rcases isRegistry_callAll .standard (empty .standard)
      (.inl rfl) calls with
    ⟨hRegistry, hBook⟩
  rcases hRegistry.level_of_choice hBook.ordered hIn (.inl rfl)
      input with
    ⟨dict, _, _, _, hDict, -, hClosed, -⟩
  have hRace : dict["race"]? = some (.text "High Elf") :=
    (getElem?_dictionary hDict (by decide) (by decide)).trans
      (by decide)
  have hNotAll : ¬ book.AllChosen highElf.levelKey dict := by
    intro hAll
    rcases hAll hyphened (by decide) (by decide) (by decide) with
      ⟨v, hv, hEqual⟩
    cases hRace.symm.trans hv
    revert hEqual
    decide
  cases hSame.symm.trans (hClosed hNotAll)

end HighElves

end CharSheet
