import CharSheet.Proofs.Choice.Targets
import CharSheet.Proofs.Requirement.Reading

/-
  Entries of the lists of selectable features.

  An entry has rules for a feature and for the note of
  selecting it.  The gates of the feature are built from its
  level and its prerequisite, while the requirement of the note
  is put together as a text and read again.  Both say that the
  feature is open.

  Main declarations:
    * `Feature.selection`, `Feature.ofText_selectionText`
    * `Feature.isOpen`, `Feature.isMet_selection`
    * `Feature.joinAll_ownDeclarations`
    * `Feature.IsPlain`
    * `Feature.rulesOn_ownedKey`, `Feature.rulesOn_selectionKey`
-/

namespace CharSheet

------------------------------------------------------------
-- Requirements of Selecting
------------------------------------------------------------

namespace Feature

variable {f : Feature}
variable {text owner : String}

/- The requirement of selecting a feature, as it is read. -/
def selection (f : Feature) (level : Key) : Requirement :=
  ⟨f.selectionText level,
    Requirement.levelClause level f.level ::
      f.prerequisite.elim [] Requirement.clauses⟩

/- An entry is read by its parts. -/
theorem exists_split_of_ofText
    (h : ofText text = .ok f) :
    ∃ rest,
      splitPrerequisite text.toList =
          .ok (f.prerequisite, rest) ∧
        (splitEntry rest).1 = f.level := by
  unfold ofText at h
  cases hSplit : splitPrerequisite text.toList with
  | error e =>
      rw [hSplit] at h
      cases h
  | ok parts =>
      rw [hSplit] at h
      simp only [bind, Except.bind] at h
      split at h
      · cases h
      · cases h
        exact ⟨parts.2, rfl, rfl⟩

/- Levels that are read are small. -/
theorem level_lt
    (h : ofText text = .ok f) :
    f.level < 2 ^ 32 := by
  have hWord {s : String} {n : Nat}
      (hRead : wordOfText? s = some n) :
      n < 2 ^ 32 := by
    rcases Option.ite_none_left_eq_some.mp hRead with
      ⟨_, hSome⟩
    rcases Option.ite_none_right_eq_some.mp hSome with
      ⟨hLt, hEq⟩
    rw [← Option.some.inj hEq]
    exact hLt
  have hOne : 1 < 2 ^ 32 := by decide
  rcases exists_split_of_ofText h with ⟨rest, _, hLevel⟩
  rw [← hLevel]
  unfold splitEntry
  dsimp only
  split
  · next hRead => exact hWord hRead
  · exact hOne

/- A prerequisite is read from the text that it shows. -/
theorem ofText_prerequisite
    (h : ofText text = .ok f)
    {r : Requirement}
    (hSome : f.prerequisite = some r) :
    Requirement.ofText r.text = .ok r := by
  rcases exists_split_of_ofText h with ⟨rest, hSplit, _⟩
  rw [hSome] at hSplit
  unfold splitPrerequisite at hSplit
  split at hSplit
  · cases hSplit
  · next before rest' _ =>
      cases hRead : Requirement.ofText (String.ofList before) with
      | error e =>
          rw [hRead] at hSplit
          cases hSplit
      | ok r' =>
          rw [hRead] at hSplit
          cases hSplit
          rw [Requirement.text_of_ofText hRead]
          exact hRead

/- So the text of selecting is read as what it says. -/
theorem ofText_selectionText
    (h : ofText text = .ok f)
    (hName : Requirement.isNameable owner = true) :
    Requirement.ofText
        (f.selectionText (.under "levels" owner)) =
      .ok (f.selection (.under "levels" owner)) := by
  have hLimit : f.level < 2 ^ Number.precision :=
    Nat.lt_trans (level_lt h) (by decide)
  have hText {r : Requirement} (hSome : f.prerequisite = some r) :=
    ofText_prerequisite h hSome
  rcases f with ⟨prerequisite, level, name, group⟩
  cases prerequisite with
  | none => exact Requirement.ofText_levelText hName hLimit
  | some r =>
      exact Requirement.ofText_levelText_append hName hLimit
        (hText rfl)

/- The feature's level is had, and what it requires is met. -/
def isOpen
    (f : Feature)
    (level : Key)
    (sheet : Store) : Bool :=
  (Requirement.levelClause level f.level).holds sheet &&
    f.prerequisite.all (·.isMet sheet)

theorem isMet_selection
    (f : Feature)
    (level : Key)
    (sheet : Store) :
    (f.selection level).isMet sheet = f.isOpen level sheet := by
  unfold selection isOpen Requirement.isMet
  rw [List.all_cons]
  cases f.prerequisite with
  | none => rfl
  | some r => rfl

/- The clause of a level holds from that level on. -/
theorem holds_levelClause
    (level : Key)
    (n : Nat)
    (sheet : Store) :
    (Requirement.levelClause level n).holds sheet =
      holds (compareWith (· != .lt) sheet[level]?
        (some (.ofNat n))) := by
  exact Bool.or_false _

------------------------------------------------------------
-- Features That Are Granted
------------------------------------------------------------

/- What a selectable feature declares about itself. -/
def ownDeclarations
    (f : Feature)
    (owner : String)
    (level : Key) : List Declaration :=
  f.gateDeclarations (f.ownedKey owner) level ++
    [.rule (f.ownedKey owner) level .gate
        (some ⟨f.levelText, f.hasLevel⟩),
      .rule (f.ownedKey owner) (selectableKey owner f.name) .set
        none]

/- The gates stand before what is set. -/
theorem flatMap_filter_ownDeclarations
    (f : Feature)
    (owner : String)
    (level : Key) :
    (Operator.inOrder.flatMap fun op =>
      ((f.ownDeclarations owner level).filterMap
        Declaration.bareRule?).filter (·.op = op)) =
      (f.ownDeclarations owner level).filterMap
        Declaration.bareRule? := by
  unfold ownDeclarations gateDeclarations
  cases f.prerequisite with
  | none =>
      simp [Operator.inOrder, Declaration.bareRule?]
  | some r =>
      simp [Operator.inOrder, Declaration.bareRule?]

section Gates

variable {level : Key}
variable {sheet : Store}

/- One of them holds from the feature's level on. -/
theorem holds_contribution_level
    (f : Feature)
    (target : Key) :
    holds (Rule.contribution
        ⟨target, level, .gate, some ⟨f.levelText, f.hasLevel⟩,
          none, 0⟩ sheet) =
      (Requirement.levelClause level f.level).holds sheet := by
  rw [holds_levelClause]
  unfold Rule.contribution
  cases sheet[level]? with
  | none => rfl
  | some v => rfl

/- The other one if the prerequisite is met besides. -/
theorem holds_contribution_prerequisite
    {r : Requirement}
    (hTests : ∀ c ∈ r.clauses, c.alternatives ≠ [])
    (target : Key) :
    holds (Rule.contribution
        ⟨target, level, .gate, some ⟨r.text, r.toExpr⟩, none,
          0⟩ sheet) =
      (sheet[level]?.isSome && r.isMet sheet) := by
  unfold Rule.contribution
  cases sheet[level]? with
  | none => rfl
  | some v => exact Requirement.holds_toExpr hTests (some v) sheet

theorem isSome_of_holds_levelClause
    {n : Nat}
    (h : (Requirement.levelClause level n).holds sheet = true) :
    sheet[level]?.isSome = true := by
  rw [holds_levelClause] at h
  cases hLevel : sheet[level]? with
  | none =>
      rw [hLevel] at h
      cases h
  | some v => rfl

/- So what is chosen is set where the feature is open. -/
theorem joinAll_ownDeclarations
    (hTests : ∀ r ∈ f.prerequisite, ∀ c ∈ r.clauses,
      c.alternatives ≠ [])
    {chosen : Value}
    (hChosen : sheet[selectableKey owner f.name]? = some chosen)
    (v : Option Value) :
    Rule.joinAll sheet
        ((f.ownDeclarations owner level).filterMap
          Declaration.bareRule?) v =
      if f.isOpen level sheet then some chosen else none := by
  let opening : Rule :=
    ⟨f.ownedKey owner, level, .gate,
      some ⟨f.levelText, f.hasLevel⟩, none, 0⟩
  let setting : Rule :=
    ⟨f.ownedKey owner, selectableKey owner f.name, .set, none,
      none, 0⟩
  have hSet : setting.contribution sheet = some chosen := by
    unfold Rule.contribution
    rw [hChosen]
  have hOther : setting.op ≠ .gate := Operator.noConfusion
  have hLast :
      Rule.joinAll sheet [opening, setting] v =
        if (Requirement.levelClause level f.level).holds sheet
        then some chosen else none := by
    rw [Rule.joinAll_cons_gate rfl, holds_contribution_level,
      Rule.joinAll_cons_of_ne hOther hSet]
    cases v <;> rfl
  unfold ownDeclarations gateDeclarations isOpen
  cases hSome : f.prerequisite with
  | none =>
      rw [Option.all_none, Bool.and_true]
      exact hLast
  | some r =>
      have hFirst :
          Rule.joinAll sheet
              (⟨f.ownedKey owner, level, .gate,
                some ⟨r.text, r.toExpr⟩, none, 0⟩ ::
                  [opening, setting]) v =
            if sheet[level]?.isSome && r.isMet sheet then
              Rule.joinAll sheet [opening, setting] v
            else none := by
        rw [Rule.joinAll_cons_gate rfl,
          holds_contribution_prerequisite (hTests r hSome)]
      refine hFirst.trans ?_
      rw [hLast, Option.all_some]
      cases hLevel :
          (Requirement.levelClause level f.level).holds sheet with
      | false => simp
      | true => simp [isSome_of_holds_levelClause hLevel]

end Gates

------------------------------------------------------------
-- Features Without Patterns
------------------------------------------------------------

/- What a feature requires is asked of single attributes. -/
def IsPlain (f : Feature) : Prop :=
  ∀ r ∈ f.prerequisite, ∀ c ∈ r.clauses,
    ∀ t ∈ c.alternatives, t.attr?.isSome = true

/- Joined expressions gather nothing if none of them does. -/
theorem patterns_joinExprs_eq_nil
    {op : Expr → Expr → Expr}
    (hOp : ∀ a b, (op a b).patterns = a.patterns ++ b.patterns)
    {es : List Expr}
    (h : ∀ e ∈ es, e.patterns = []) :
    (joinExprs op es).patterns = [] := by
  have hFold (first : Expr) (rest : List Expr)
      (hFirst : first.patterns = [])
      (hRest : ∀ e ∈ rest, e.patterns = []) :
      (rest.foldl op first).patterns = [] := by
    induction rest generalizing first with
    | nil => exact hFirst
    | cons e rest ih =>
        refine ih (op first e) ?_ fun e' he' =>
          hRest e' (List.mem_cons_of_mem e he')
        rw [hOp, hFirst, hRest e List.mem_cons_self]
        rfl
  cases es with
  | nil => rfl
  | cons first rest =>
      exact hFold first rest (h first List.mem_cons_self)
        fun e he => h e (List.mem_cons_of_mem first he)

theorem patterns_test_eq_nil
    {t : Test}
    (h : t.attr?.isSome = true) :
    t.toExpr.patterns = [] := by
  rcases t with ⟨subject, comparison⟩
  cases subject with
  | gather kind p => cases h
  | attr key =>
      match comparison with
      | none => rfl
      | some (.relation r v) => rfl
      | some (.match true v p) => rfl
      | some (.match false v p) => rfl

theorem patterns_requirement_eq_nil
    {r : Requirement}
    (h : ∀ c ∈ r.clauses, ∀ t ∈ c.alternatives,
      t.attr?.isSome = true) :
    r.toExpr.patterns = [] := by
  apply patterns_joinExprs_eq_nil fun _ _ => rfl
  intro e he
  rcases List.mem_map.mp he with ⟨c, hc, rfl⟩
  apply patterns_joinExprs_eq_nil fun _ _ => rfl
  intro e he
  rcases List.mem_map.mp he with ⟨t, ht, rfl⟩
  exact patterns_test_eq_nil (h c hc t ht)

theorem IsPlain.patterns_selection
    (h : f.IsPlain)
    (level : Key) :
    (f.selection level).toExpr.patterns = [] := by
  apply patterns_requirement_eq_nil
  intro c hc t ht
  rcases List.mem_cons.mp hc with rfl | hRest
  · rw [List.mem_singleton.mp ht]
    rfl
  · cases hSome : f.prerequisite with
    | none =>
        rw [hSome] at hRest
        cases hRest
    | some r =>
        rw [hSome] at hRest
        exact h r hSome c hRest t ht

/- Nor do the gates of the feature gather anything. -/
theorem IsPlain.patterns_ownDeclarations
    (h : f.IsPlain)
    (level : Key) :
    ∀ r ∈ (f.ownDeclarations owner level).filterMap
        Declaration.bareRule?,
      ∀ formula ∈ r.formula, formula.patterns = [] := by
  have hGate (r : Requirement) (hSome : f.prerequisite = some r) :
      r.toExpr.patterns = [] :=
    patterns_requirement_eq_nil (h r hSome)
  unfold ownDeclarations gateDeclarations
  cases hSome : f.prerequisite with
  | none =>
      simp [Declaration.bareRule?, Formula.patterns, hasLevel,
        Expr.number, Expr.patterns]
  | some r =>
      simp [Declaration.bareRule?, Formula.patterns, hasLevel,
        Expr.number, Expr.patterns, hGate r hSome]

------------------------------------------------------------
-- Rules of an Entry
------------------------------------------------------------

open Declaration

section Entry

variable {level key : Key}
variable {r : Requirement}

/-
  Of what is not common, a selectable feature has rules for
  itself and for the note of selecting it.
-/
theorem rulesOn_declarations
    (hText : Requirement.ofText (f.selectionText level) = .ok r)
    (owner : String)
    (hKey : ¬ key.IsCommon) :
    rulesOn key (f.declarations owner level true) =
      rulesOn key (f.ownDeclarations owner level) ++
        rulesOn key
          (requirementDeclarations "validation"
            (f.selectionNote owner)
            (selectableKey owner f.name) r) := by
  have hShared := rulesOn_eq_nil fun d hd hIn =>
    hKey (f.areCommon_sharedDeclarations owner d hd key hIn)
  unfold declarations
  rw [rulesOn_append, hShared, List.append_nil]
  simp only [selectableDeclarations, if_true, hText,
    ownDeclarations, rulesOn, List.filterMap_append,
    List.filter_append, List.filterMap_cons, bareRule?,
    List.append_assoc]

theorem target_of_mem_ownDeclarations
    {rule : Rule}
    (h : rule ∈
      (f.ownDeclarations owner level).filterMap bareRule?) :
    rule.target = f.ownedKey owner := by
  unfold ownDeclarations gateDeclarations at h
  cases hSome : f.prerequisite with
  | none =>
      rw [hSome] at h
      simp only [List.nil_append, List.filterMap_cons,
        List.filterMap_nil, bareRule?, List.mem_cons,
        List.not_mem_nil, or_false] at h
      rcases h with rfl | rfl <;> rfl
  | some r =>
      rw [hSome] at h
      simp only [List.cons_append, List.nil_append,
        List.filterMap_cons, List.filterMap_nil, bareRule?,
        List.mem_cons, List.not_mem_nil, or_false] at h
      rcases h with rfl | rfl | rfl <;> rfl

variable
  (hText : Requirement.ofText (f.selectionText level) = .ok r)

include hText

theorem rulesOn_ownedKey (owner : String) :
    rulesOn (f.ownedKey owner)
        (f.declarations owner level true) =
      (f.ownDeclarations owner level).filterMap bareRule? := by
  have hNote :
      rulesOn (f.ownedKey owner)
        (requirementDeclarations "validation"
          (f.selectionNote owner)
          (selectableKey owner f.name) r) = [] :=
    rulesOn_eq_nil fun d hd hIn =>
      f.ownedKey_ne_selectionKey f owner
        (target_of_mem_requirementDeclarations hd hIn).2
  rw [rulesOn_declarations hText owner
      (f.not_isCommon_ownedKey owner),
    hNote, List.append_nil, rulesOn_eq_self]
  exact fun rule hRule => target_of_mem_ownDeclarations hRule

theorem rulesOn_selectionKey (owner : String) :
    rulesOn (f.selectionKey owner)
        (f.declarations owner level true) =
      (requirementDeclarations "validation"
        (f.selectionNote owner) (selectableKey owner f.name)
        r).filterMap bareRule? := by
  have hOwn :
      rulesOn (f.selectionKey owner)
        (f.ownDeclarations owner level) = [] := by
    unfold rulesOn
    rw [List.filter_eq_nil_iff]
    intro rule hRule hTarget
    refine f.ownedKey_ne_selectionKey f owner ?_
    rw [← target_of_mem_ownDeclarations hRule]
    exact of_decide_eq_true hTarget
  rw [rulesOn_declarations hText owner
      (f.not_isCommon_selectionKey owner),
    hOwn, List.nil_append, rulesOn_eq_self]
  intro rule hRule
  rcases List.mem_filterMap.mp hRule with ⟨d, hd, hBare⟩
  cases d with
  | rule target source op formula =>
      cases hBare
      exact (target_of_mem_requirementDeclarations hd
        List.mem_cons_self).2
  | _ => cases hBare

end Entry

end Feature

end CharSheet
