import CharSheet.Proofs.Rulebook.Steps
import CharSheet.Proofs.Rulebook.Withdrawal

/-
  Rules of one declaration, and rules of several.

  A rulebook is known by the rules that are not shared, in
  their order, and by who owns which shared rule.  All that
  declarations and withdrawals do is told in these terms.

  Main declarations:
    * `Rulebook.ownRules`, `Rulebook.jointRules`
    * `Rulebook.jointParts`
    * `Rulebook.IsPlain`
    * `Rulebook.Adds`
    * `Declaration.ownRule?`, `Declaration.takenParts`
    * `Rulebook.adds_declare`
    * `Rulebook.IsConsistent.ownRules_withdraw`
    * `Rulebook.jointRules_withdraw`
-/

namespace CharSheet

/- A rule apart from its number. -/
def Rule.unnumbered (r : Rule) : Rule :=
  { r with seq := 0 }

------------------------------------------------------------
-- Declarations
------------------------------------------------------------

/- The bare rule of given parts, whose formula turns a sign. -/
def RuleParts.standing (p : RuleParts) : Rule :=
  ⟨p.target, p.source, p.op, p.formula.map fun _ => .negated,
    none, 0⟩

/- The attributes that an adjustment may find in words. -/
def adjustmentNames (words : List String) : List Key :=
  (List.range words.length).reverse.map fun n =>
    camelCase (Text.join " " (words.take (n + 1)))

/- The rule by which what is chosen is granted. -/
def PoolKind.grantParts
    (kind : PoolKind)
    (name : String) : List RuleParts :=
  match kind with
  | .abilityBoost => []
  | kind =>
      [⟨.under kind.grantScope name, .under kind.chosenScope name,
        .max, none⟩]

namespace Declaration

open Rulebook

/- The own rule that a declaration adds to a rulebook. -/
def ownRule?
    (book : Rulebook)
    (owner : Owner) : Declaration → Option Rule
  | .rule target source op formula =>
      some ⟨target, source, op, formula, owner, 0⟩
  | .adjustment gate op amount words =>
      (book.adjusted? words).map fun target =>
        ⟨target, (adjustmentParts gate op amount).1,
          if op = .multiply then .multiply else .add,
          (adjustmentParts gate op amount).2, owner, 0⟩
  | _ => none

/- The joint rules that a declaration is about. -/
def parts : Declaration → List RuleParts
  | .allocation n budget => [.ofBudget n budget]
  | .member n key => [.ofMember n key]
  | .option kind name =>
      .ofMember kind.allocation (.under kind.chosenScope name) ::
        kind.grantParts name
  | _ => []

/-
  A budget must not differ from one that is declared already,
  and a member needs an allocation.
-/
def isTaken (book : Rulebook) : Declaration → Bool
  | .allocation n budget =>
      !book.allocations[n]?.any (·.budget ≠ budget)
  | .member n _ => book.allocations.contains n
  | .option kind _ => book.allocations.contains kind.allocation
  | _ => true

/- The joint rules that a declaration has a part in. -/
def takenParts
    (book : Rulebook)
    (d : Declaration) : List RuleParts :=
  if d.isTaken book then d.parts else []

section Taken

variable {book : Rulebook}
variable {n key budget : Key}
variable {kind : PoolKind}
variable {name : String}

theorem isTaken_allocation_iff :
    (Declaration.allocation n budget).isTaken book = true ↔
      ∀ a, book.allocations[n]? = some a → a.budget = budget := by
  simp only [isTaken]
  cases hThere : book.allocations[n]? with
  | none => simp
  | some a => simp

theorem isTaken_member_iff :
    (Declaration.member n key).isTaken book = true ↔
      ∃ a, book.allocations[n]? = some a := by
  rw [isTaken, Std.ExtTreeMap.contains_eq_isSome_getElem?,
    Option.isSome_iff_exists]

theorem isTaken_option_iff :
    (Declaration.option kind name).isTaken book = true ↔
      ∃ a, book.allocations[kind.allocation]? = some a := by
  rw [isTaken, Std.ExtTreeMap.contains_eq_isSome_getElem?,
    Option.isSome_iff_exists]

end Taken

end Declaration

namespace Rulebook

variable {book middle other : Rulebook}
variable {owner : Owner}
variable {origin : Origin}

------------------------------------------------------------
-- Own Rules and Joint Rules
------------------------------------------------------------

/- The rule is that of a shared rule. -/
def isJoint (book : Rulebook) (r : Rule) : Bool :=
  (book.shared.map (·.seq)).contains r.seq

/- The rules that were declared for one owner alone. -/
def ownRules (book : Rulebook) : List Rule :=
  book.rules.filter fun r => !book.isJoint r

/- The rules that were declared to be shared. -/
def jointRules (book : Rulebook) : List Rule :=
  book.rules.filter book.isJoint

/- What the joint rules are made of. -/
def jointParts (book : Rulebook) : List RuleParts :=
  book.jointRules.map Rule.parts

theorem isJoint_iff
    {r : Rule} :
    book.isJoint r = true ↔ ∃ s ∈ book.shared, s.seq = r.seq := by
  simp [isJoint]

theorem mem_jointRules_iff
    {r : Rule} :
    r ∈ book.jointRules ↔
      r ∈ book.rules ∧ book.isJoint r = true :=
  List.mem_filter

/- A joint rule is the one that its shared rule stands for. -/
theorem IsNumbered.shares_of_mem_jointRules
    (h : book.IsNumbered)
    {r : Rule}
    (hr : r ∈ book.jointRules) :
    book.Shares r.parts r.seq ∧ r.owner = none := by
  rcases mem_jointRules_iff.mp hr with ⟨hRule, hJoint⟩
  rcases isJoint_iff.mp hJoint with ⟨s, hs, hSeq⟩
  have hShares : book.Shares s.parts s.seq := ⟨s, hs, rfl, rfl⟩
  rcases h.exists_rule hShares with
    ⟨r', hOnly, _, _, hParts, hOwner⟩
  have hIn : r ∈ book.rules.filter (·.seq = s.seq) :=
    List.mem_filter.mpr ⟨hRule, decide_eq_true hSeq.symm⟩
  rw [hOnly, List.mem_singleton] at hIn
  subst hIn
  rw [hParts, ← hSeq]
  exact ⟨hShares, hOwner⟩

/- Joint rules are made of what is owned. -/
theorem IsNumbered.mem_jointParts_iff
    (h : book.IsNumbered)
    {p : RuleParts} :
    p ∈ book.jointParts ↔ ∃ w, book.Owns w p := by
  constructor
  · intro hSome
    rcases List.mem_map.mp hSome with ⟨r, hr, rfl⟩
    exact h.exists_owns (h.shares_of_mem_jointRules hr).1
  · intro hSome
    rcases hSome with ⟨w, hOwns⟩
    rcases hOwns.exists_shares with ⟨seq, s, hs, rfl, rfl⟩
    rcases h.exists_rule ⟨s, hs, rfl, rfl⟩ with
      ⟨r, _, hr, hSeq, hParts, _⟩
    exact List.mem_map.mpr ⟨r, mem_jointRules_iff.mpr
      ⟨hr, isJoint_iff.mpr ⟨s, hs, hSeq.symm⟩⟩, hParts⟩

/- No two joint rules are made of the same. -/
theorem IsNumbered.nodup_jointParts
    (h : book.IsNumbered) :
    book.jointParts.Nodup := by
  refine List.pairwise_map.mpr
    ((h.ordered.filter _).imp_of_mem ?_)
  intro r r' hr hr' hLt hParts
  have hShares := (h.shares_of_mem_jointRules hr).1
  have hOther := (h.shares_of_mem_jointRules hr').1
  rw [← hParts] at hOther
  exact Nat.ne_of_lt hLt (h.seq_eq hShares hOther)

/-
  The formula of a joint rule is determined by its text, and
  such rules either add or raise.
-/
def IsPlain (book : Rulebook) : Prop :=
  ∀ r ∈ book.jointRules,
    r.formula = r.parts.formula.map (fun _ => .negated) ∧
      (r.op = .add ∨ r.op = .max)

------------------------------------------------------------
-- Additions
------------------------------------------------------------

/- The parts that no joint rule is made of. -/
def newParts
    (book : Rulebook)
    (parts : List RuleParts) : List RuleParts :=
  parts.filter (· ∉ book.jointParts)

/-
  The second rulebook has some own rules more, and an owner of
  some joint rules.  Those that are new come last.
-/
structure Adds
    (book other : Rulebook)
    (owner : Owner)
    (own : List Rule)
    (parts : List RuleParts) : Prop where
  settings_eq : other.settings = book.settings
  ownRules_eq : other.ownRules.map Rule.unnumbered =
    book.ownRules.map Rule.unnumbered ++ own
  owner_eq : ∀ r ∈ own, r.owner = owner
  owns_iff : ∀ w p,
    other.Owns w p ↔ book.Owns w p ∨ (w = owner ∧ p ∈ parts)
  rules_eq : other.rules.map Rule.unnumbered =
    book.rules.map Rule.unnumbered ++
      (own ++ (book.newParts parts).map RuleParts.standing)
  isPlain : book.IsPlain → other.IsPlain

/- Nothing is added where rules stay as they are. -/
theorem adds_of_eq
    (hSettings : other.settings = book.settings)
    (hRules : other.rules = book.rules)
    (hShared : other.shared = book.shared)
    (owner : Owner) :
    Adds book other owner [] [] := by
  cases book
  cases other
  cases hSettings
  cases hRules
  cases hShared
  refine ⟨rfl, (List.append_nil _).symm, by simp, ?_,
    (List.append_nil _).symm, id⟩
  intro w p
  simp [Owns]

/- Other joint rules are new after an addition as before. -/
theorem Adds.newParts_eq
    {own : List Rule}
    {parts parts' : List RuleParts}
    (h : Adds book middle owner own parts)
    (hBook : book.IsNumbered)
    (hMiddle : middle.IsNumbered)
    (hApart : ∀ p ∈ parts', p ∉ parts) :
    middle.newParts parts' = book.newParts parts' := by
  apply List.filter_congr
  intro p hp
  have hSame : p ∈ middle.jointParts ↔ p ∈ book.jointParts := by
    rw [hMiddle.mem_jointParts_iff, hBook.mem_jointParts_iff]
    constructor
    · intro hSome
      rcases hSome with ⟨w, hOwns⟩
      rcases (h.owns_iff w p).mp hOwns with hOld | ⟨_, hIn⟩
      · exact ⟨w, hOld⟩
      · exact absurd hIn (hApart p hp)
    · intro hSome
      rcases hSome with ⟨w, hOwns⟩
      exact ⟨w, (h.owns_iff w p).mpr (Or.inl hOwns)⟩
  exact decide_eq_decide.mpr (not_congr hSame)

/- Joint rules are added one after another. -/
theorem Adds.trans
    {parts parts' : List RuleParts}
    (h : Adds book middle owner [] parts)
    (hNext : Adds middle other owner [] parts')
    (hBook : book.IsNumbered)
    (hMiddle : middle.IsNumbered)
    (hApart : ∀ p ∈ parts', p ∉ parts) :
    Adds book other owner [] (parts ++ parts') where
  settings_eq := hNext.settings_eq.trans h.settings_eq
  ownRules_eq := by
    rw [hNext.ownRules_eq, h.ownRules_eq, List.append_assoc]
    rfl
  owner_eq := h.owner_eq
  owns_iff := by
    intro w p
    rw [hNext.owns_iff, h.owns_iff, List.mem_append, or_assoc,
      ← and_or_left]
  rules_eq := by
    have hNew := h.newParts_eq hBook hMiddle hApart
    rw [hNext.rules_eq, h.rules_eq, hNew, List.append_assoc,
      newParts, newParts, newParts, List.filter_append,
      List.map_append]
    rfl
  isPlain := hNext.isPlain ∘ h.isPlain

/- An own rule is added at the end. -/
theorem adds_addRule
    (h : book.IsNumbered)
    (owner : Owner)
    (target source : Key)
    (op : Operator)
    (formula : Option Formula) :
    Adds book (book.addRule owner target source op formula)
      owner [⟨target, source, op, formula, owner, 0⟩] [] := by
  let r : Rule :=
    ⟨target, source, op, formula, owner, book.nextSeq⟩
  have hNew : book.isJoint r = false := by
    rw [Bool.eq_false_iff, Ne, isJoint_iff]
    intro hSome
    rcases hSome with ⟨s, hs, hSeq⟩
    have hLt := h.seq_lt ⟨s, hs, rfl, rfl⟩
    rw [hSeq] at hLt
    exact Nat.lt_irrefl _ hLt
  have hOwn :
      (book.addRule owner target source op formula).ownRules =
        book.ownRules ++ [r] := by
    change (book.rules ++ [r]).filter (fun r => !book.isJoint r)
      = _
    rw [List.filter_append, List.filter_singleton, hNew]
    rfl
  have hJoint :
      (book.addRule owner target source op formula).jointRules =
        book.jointRules := by
    change (book.rules ++ [r]).filter book.isJoint = _
    rw [List.filter_append, List.filter_singleton, hNew]
    exact List.append_nil _
  refine ⟨rfl, ?_, by simp, ?_, List.map_append, ?_⟩
  · rw [hOwn, List.map_append]
    rfl
  · intro w p
    simp [Owns, addRule]
  · intro hPlain
    unfold IsPlain
    rw [hJoint]
    exact hPlain

/- An owner is added to a joint rule that is there. -/
theorem adds_gainOwner
    (h : book.IsNumbered)
    {parts : RuleParts}
    {seq : Nat}
    (hShares : book.Shares parts seq)
    (owner : Owner) :
    Adds book (book.gainOwner owner parts) owner [] [parts] := by
  have hJoint : (book.gainOwner owner parts).isJoint =
      book.isJoint := by
    funext r
    unfold isJoint gainOwner
    rw [List.map_map]
    congr 1
    apply List.map_congr_left
    intro s _
    rw [Function.comp_apply]
    split
    · exact s.seq_addOwner owner
    · rfl
  have hKnown : parts ∈ book.jointParts :=
    h.mem_jointParts_iff.mpr (h.exists_owns hShares)
  refine ⟨rfl, ?_, by simp, ?_, ?_, ?_⟩
  · unfold ownRules
    rw [hJoint]
    exact (List.append_nil _).symm
  · intro w p
    rw [owns_gainOwner hShares, List.mem_singleton]
  · have hNone : book.newParts [parts] = [] := by
      simp [newParts, hKnown]
    rw [hNone]
    exact (List.append_nil _).symm
  · intro hPlain
    unfold IsPlain jointRules
    rw [hJoint]
    exact hPlain

section Shared

variable (h : book.IsNumbered)
variable (owner : Owner)
variable (target source : Key)
variable (op : Operator)
variable (formula : Option Formula)

/- The rule of a shared rule that is added is joint. -/
theorem isJoint_addShared_self :
    (book.addShared owner target source op formula).isJoint
      ⟨target, source, op, formula, none, book.nextSeq⟩ =
        true :=
  isJoint_iff.mpr
    ⟨_, List.mem_append_right _ (List.mem_singleton_self _), rfl⟩

include h

/- Other rules are joint as before. -/
theorem isJoint_addShared
    {r : Rule}
    (hr : r ∈ book.rules) :
    (book.addShared owner target source op formula).isJoint r =
      book.isJoint r := by
  have hNe : r.seq ≠ book.nextSeq :=
    Nat.ne_of_lt (h.numbered r hr)
  simp [isJoint, addShared, hNe]

/- A shared rule that is added is no own rule. -/
theorem ownRules_addShared :
    (book.addShared owner target source op formula).ownRules =
      book.ownRules := by
  change (book.rules ++ [_]).filter _ = _
  rw [List.filter_append, List.filter_singleton,
    isJoint_addShared_self]
  refine (List.append_nil _).trans (List.filter_congr ?_)
  intro r hr
  rw [isJoint_addShared h owner target source op formula hr]

/- It is the last of the joint rules. -/
theorem jointRules_addShared :
    (book.addShared owner target source op formula).jointRules =
      book.jointRules ++
        [⟨target, source, op, formula, none, book.nextSeq⟩] := by
  have hOld : ∀ r ∈ book.rules,
      (book.addShared owner target source op formula).isJoint r =
        book.isJoint r :=
    fun _ => isJoint_addShared h owner target source op formula
  change (book.rules ++ [_]).filter _ = _
  rw [List.filter_append, List.filter_singleton,
    isJoint_addShared_self, List.filter_congr hOld]
  rfl

/- A joint rule is added for its first owner. -/
theorem adds_addShared
    (hFresh : ∀ seq, ¬ book.Shares
      ⟨target, source, op, formula.map (·.text)⟩ seq)
    (hFormula :
      formula = (formula.map (·.text)).map fun _ => .negated)
    (hOp : op = .add ∨ op = .max) :
    Adds book (book.addShared owner target source op formula)
      owner [] [⟨target, source, op, formula.map (·.text)⟩] := by
  let r : Rule :=
    ⟨target, source, op, formula, none, book.nextSeq⟩
  have hUnknown : r.parts ∉ book.jointParts := by
    rw [h.mem_jointParts_iff]
    intro hSome
    rcases hSome with ⟨w, hOwns⟩
    rcases hOwns.exists_shares with ⟨seq, hShares⟩
    exact hFresh seq hShares
  have hNew : book.newParts [r.parts] = [r.parts] := by
    simp [newParts, hUnknown]
  have hStanding : r.parts.standing = r.unnumbered :=
    congrArg (Rule.mk target source op · none 0) hFormula.symm
  refine ⟨rfl, ?_, by simp, ?_, ?_, ?_⟩
  · rw [ownRules_addShared h, List.append_nil]
  · intro w p
    rw [owns_addShared, List.mem_singleton]
  · change (book.rules ++ [r]).map Rule.unnumbered =
      _ ++ ([] ++ (book.newParts [r.parts]).map _)
    rw [hNew, List.map_append, List.map_singleton,
      List.map_singleton, hStanding]
    rfl
  · intro hPlain r' hr'
    rw [jointRules_addShared h] at hr'
    rcases List.mem_append.mp hr' with hThere | hLast
    · exact hPlain r' hThere
    · rw [List.mem_singleton.mp hLast]
      exact ⟨hFormula, hOp⟩

end Shared

/- A joint rule is declared once, and belongs to all. -/
theorem adds_share
    (h : book.IsNumbered)
    (owner : Owner)
    (target source : Key)
    (op : Operator)
    (formula : Option Formula)
    (hFormula :
      formula = (formula.map (·.text)).map fun _ => .negated)
    (hOp : op = .add ∨ op = .max) :
    Adds book (book.share owner target source op formula).1
      owner [] [⟨target, source, op, formula.map (·.text)⟩] := by
  by_cases hShared : ∃ seq,
      book.Shares ⟨target, source, op, formula.map (·.text)⟩ seq
  · rcases hShared with ⟨seq, hShares⟩
    rw [share_of_shares hShares]
    exact adds_gainOwner h hShares owner
  · have hFresh := not_exists.mp hShared
    rw [share_of_fresh hFresh]
    exact adds_addShared h owner target source op formula hFresh
      hFormula hOp

/- What is added does not tell of allocations. -/
theorem Adds.of_eq
    {third : Rulebook}
    {own : List Rule}
    {parts : List RuleParts}
    (h : Adds book other owner own parts)
    (hSettings : third.settings = other.settings)
    (hRules : third.rules = other.rules)
    (hShared : third.shared = other.shared) :
    Adds book third owner own parts := by
  cases third
  cases other
  cases hSettings
  cases hRules
  cases hShared
  exact ⟨h.settings_eq, h.ownRules_eq, h.owner_eq, h.owns_iff,
    h.rules_eq, h.isPlain⟩

------------------------------------------------------------
-- What Declarations Add
------------------------------------------------------------

/- A budget is added to a note that has no other one. -/
theorem adds_declareAllocation
    (h : book.IsConsistent)
    (owner : Owner)
    (note budget : Key) :
    Adds book (book.declareAllocation owner note budget) owner []
      (Declaration.takenParts book (.allocation note budget)) := by
  unfold Declaration.takenParts
  rcases declareAllocation_cases h owner note budget with
    ⟨⟨a, ha, hNe⟩, hSame⟩ | ⟨⟨seq, hShares⟩, hGain⟩ |
      ⟨hNew, hFresh, hAdd⟩
  · have hNot := mt Declaration.isTaken_allocation_iff.mp
      fun hAll => hNe (hAll a ha)
    rw [hSame, if_neg hNot]
    exact adds_of_eq rfl rfl rfl owner
  · have hOnly : ∀ a, book.allocations[note]? = some a →
        a.budget = budget := by
      intro a ha
      rcases h.budget note budget seq hShares with
        ⟨b, hb, hBudget, _⟩
      rw [ha, Option.some.injEq] at hb
      rw [hb, hBudget]
    rw [hGain,
      if_pos (Declaration.isTaken_allocation_iff.mpr hOnly)]
    exact adds_gainOwner h.toIsNumbered hShares owner
  · have hOnly : ∀ a, book.allocations[note]? = some a →
        a.budget = budget := by
      rw [hNew]
      simp
    rw [hAdd,
      if_pos (Declaration.isTaken_allocation_iff.mpr hOnly)]
    exact (adds_addShared h.toIsNumbered owner note budget .add
      (some .negated) hFresh rfl (Or.inl rfl)).of_eq rfl rfl rfl

/- A member is added to a note that has an allocation. -/
theorem adds_declareMember
    (h : book.IsNumbered)
    (owner : Owner)
    (note key : Key) :
    Adds book (book.declareMember owner note key) owner []
      (Declaration.takenParts book (.member note key)) := by
  unfold Declaration.takenParts
  rcases declareMember_cases book owner note key with
    ⟨hNone, hSame⟩ | ⟨a, ha, ⟨⟨seq, hShares⟩, hGain⟩ | hAdd⟩
  · have hNot :
        ¬ (Declaration.member note key).isTaken book = true := by
      rw [Declaration.isTaken_member_iff, hNone]
      simp
    rw [hSame, if_neg hNot]
    exact adds_of_eq rfl rfl rfl owner
  · rw [hGain, if_pos (Declaration.isTaken_member_iff.mpr ⟨a, ha⟩)]
    exact adds_gainOwner h hShares owner
  · rw [hAdd.2,
      if_pos (Declaration.isTaken_member_iff.mpr ⟨a, ha⟩)]
    exact (adds_addShared h owner note key .add none hAdd.1 rfl
      (Or.inl rfl)).of_eq rfl rfl rfl

/- An option is a member, and may be granted as well. -/
theorem adds_declareOption
    (h : book.IsConsistent)
    (owner : Owner)
    (kind : PoolKind)
    (name : String) :
    Adds book (book.declareOption owner kind name) owner []
      (Declaration.takenParts book (.option kind name)) := by
  unfold declareOption
  have hMember :=
    adds_declareMember h.toIsNumbered owner kind.allocation
      (.under kind.chosenScope name)
  have hCounted :=
    h.steps (steps_declareMember book owner kind.allocation
      (.under kind.chosenScope name))
  unfold Declaration.takenParts at hMember ⊢
  cases hThere : book.allocations.contains kind.allocation with
  | false =>
      have hTaken :
          (Declaration.option kind name).isTaken book = false :=
        hThere
      rw [hTaken]
      exact adds_of_eq rfl rfl rfl owner
  | true =>
      have hTaken :
          (Declaration.option kind name).isTaken book = true :=
        hThere
      have hSame :
          (Declaration.member kind.allocation
            (.under kind.chosenScope name)).isTaken book = true :=
        hThere
      rw [hSame] at hMember
      rw [hTaken]
      have hGrant :=
        adds_share hCounted.toIsNumbered owner
          (.under kind.grantScope name)
          (.under kind.chosenScope name) .max none rfl
          (Or.inr rfl)
      have hApart : ∀ p ∈ [RuleParts.mk
          (.under kind.grantScope name)
          (.under kind.chosenScope name) .max none],
          p ∉ (Declaration.member kind.allocation
            (.under kind.chosenScope name)).parts := by
        intro p hp hIn
        rw [List.mem_singleton.mp hp] at hIn
        have hEq := List.mem_singleton.mp hIn
        cases congrArg RuleParts.op hEq
      cases kind with
      | abilityBoost => exact hMember
      | _ =>
          exact hMember.trans hGrant h.toIsNumbered
            hCounted.toIsNumbered hApart

/- Each declaration adds an own rule, or joint ones. -/
theorem adds_declare
    (h : book.IsConsistent)
    (owner : Owner)
    (d : Declaration) :
    Adds book (book.declare owner d) owner
      (d.ownRule? book owner).toList (d.takenParts book) := by
  cases d with
  | rule target source op formula =>
      exact adds_addRule h.toIsNumbered owner target source op
        formula
  | allocation note budget =>
      exact adds_declareAllocation h owner note budget
  | member note key =>
      exact adds_declareMember h.toIsNumbered owner note key
  | option kind name => exact adds_declareOption h owner kind name
  | adjustment gate op amount words =>
      rw [declare, declareAdjustment, Declaration.ownRule?]
      cases book.adjusted? words with
      | none => exact adds_of_eq rfl rfl rfl owner
      | some target =>
          exact adds_addRule h.toIsNumbered owner target _ _ _
  | pool kind count gate options =>
      apply adds_of_eq
      all_goals rfl
  | note key format =>
      apply adds_of_eq
      all_goals rfl
  | requirement note selector requirement =>
      apply adds_of_eq
      all_goals rfl

------------------------------------------------------------
-- What Withdrawals Leave
------------------------------------------------------------

/- A joint rule is dropped, or stays joint. -/
theorem isJoint_withdraw
    {r : Rule}
    (hKept : r.seq ∉ book.dropped origin) :
    (book.withdraw origin).isJoint r = book.isJoint r := by
  rw [Bool.eq_iff_iff, isJoint_iff, isJoint_iff]
  constructor
  · intro hSome
    rcases hSome with ⟨s, hs, hSeq⟩
    rcases mem_shared_withdraw_iff.mp hs with ⟨t, ht, _, rfl⟩
    exact ⟨t, ht, hSeq⟩
  · intro hSome
    rcases hSome with ⟨t, ht, hSeq⟩
    rw [← hSeq] at hKept
    exact ⟨_, mem_shared_withdraw_iff.mpr ⟨t, ht, hKept, rfl⟩,
      hSeq⟩

/- Only joint rules are dropped. -/
theorem IsConsistent.isJoint_of_mem_dropped
    (h : book.IsConsistent)
    {r : Rule}
    (hDropped : r.seq ∈ book.dropped origin) :
    book.isJoint r = true := by
  rw [isJoint_iff]
  have hShares : ∃ parts, book.Shares parts r.seq := by
    rcases h.mem_dropped_iff.mp hDropped with
      hLeft | ⟨note, a, ha, _, hNumber⟩
    · exact exists_shares_of_mem_left hLeft
    · rcases Allocation.mem_numbers_iff.mp hNumber with ⟨key, hIn⟩
      exact ⟨_, ((h.allocation note a ha).members key _).mp hIn⟩
  rcases hShares with ⟨_, s, hs, _, hSeq⟩
  exact ⟨s, hs, hSeq⟩

/- The own rules of all other owners stay. -/
theorem IsConsistent.ownRules_withdraw
    (h : book.IsConsistent)
    (origin : Origin) :
    (book.withdraw origin).ownRules =
      book.ownRules.filter fun r => r.owner ≠ some origin := by
  unfold ownRules
  rw [rules_withdraw, List.filter_filter, List.filter_filter]
  apply List.filter_congr
  intro r _
  by_cases hDropped : r.seq ∈ book.dropped origin
  · have hJoint := h.isJoint_of_mem_dropped hDropped
    simp [hDropped, hJoint]
  · rw [isJoint_withdraw hDropped]
    simp [hDropped, Bool.and_comm]

/- Joint rules stay in their order, as far as they stay. -/
theorem jointRules_withdraw
    (book : Rulebook)
    (origin : Origin) :
    (book.withdraw origin).jointRules.Sublist
      book.jointRules := by
  have hEq :
      (book.withdraw origin).jointRules =
        book.jointRules.filter fun r =>
          decide (r.owner ≠ some origin) &&
            !(book.dropped origin).contains r.seq := by
    unfold jointRules
    rw [rules_withdraw, List.filter_filter, List.filter_filter]
    apply List.filter_congr
    intro r _
    by_cases hDropped : r.seq ∈ book.dropped origin
    · simp [hDropped]
    · rw [isJoint_withdraw hDropped, Bool.and_comm]
  rw [hEq]
  exact List.filter_sublist

/- So they are what they were. -/
theorem IsPlain.withdraw
    (h : book.IsPlain)
    (origin : Origin) :
    (book.withdraw origin).IsPlain :=
  fun r hr => h r ((jointRules_withdraw book origin).mem hr)

end Rulebook

end CharSheet
