import CharSheet.Proofs.Formula.Grammar

/-
  What each reader of formulas takes, and what it leaves.

  Reading gives a result and leaves some tokens.  Each reader
  is described once, by the results of the readers it calls,
  so that the places where tokens were counted to see that
  reading ends are not looked at again.

  Main declarations:
    * `Expr.Gives`
    * `Expr.Continues`
    * `Expr.gives_readChoice_iff`
    * `Expr.gives_readTier_iff`
    * `Expr.gives_readUnary_iff`
    * `Expr.ReadsArguments`, `Expr.ReadsCall`,
      `Expr.ReadsPrimary`
-/

namespace CharSheet

namespace Expr

variable {α β : Type}
variable {P Q : List Token → Prop}
variable {ts us rest : List Token}
variable {m : Mark}
variable {e e' : Expr}

/- Reading gives a result, and leaves the given tokens. -/
def Gives
    (outcome : Except FormulaFault (α × { r // P r }))
    (a : α)
    (rest : List Token) : Prop :=
  ∃ h, outcome = .ok (a, ⟨rest, h⟩)

theorem gives_ok_iff
    {a b : α}
    {left : { r // P r }} :
    Gives (.ok (a, left)) b rest ↔ b = a ∧ rest = left.1 := by
  constructor
  · rintro ⟨h, hEq⟩
    cases hEq
    exact ⟨rfl, rfl⟩
  · rintro ⟨rfl, rfl⟩
    exact ⟨left.2, rfl⟩

theorem not_gives_error
    {fault : FormulaFault}
    {a : α} :
    ¬ Gives (P := P) (.error fault) a rest := by
  rintro ⟨h, hEq⟩
  cases hEq

theorem gives_pure_iff
    {a b : α}
    {left : { r // P r }} :
    Gives (pure (a, left)) b rest ↔ b = a ∧ rest = left.1 :=
  gives_ok_iff

/- What is read after another thing depends on both. -/
theorem gives_bind_iff
    {outcome : Except FormulaFault (α × { r // P r })}
    {next :
      α × { r // P r } →
        Except FormulaFault (β × { r // Q r })}
    {b : β} :
    Gives (outcome >>= next) b rest ↔
      ∃ a us h, Gives outcome a us ∧
        Gives (next (a, ⟨us, h⟩)) b rest := by
  cases outcome with
  | error fault =>
      constructor
      · exact fun h => absurd h not_gives_error
      · rintro ⟨a, us, h, hFirst, hNext⟩
        exact absurd hFirst not_gives_error
  | ok result =>
      rcases result with ⟨a, us, h⟩
      constructor
      · exact fun hNext => ⟨a, us, h, ⟨h, rfl⟩, hNext⟩
      · rintro ⟨a', us', h', hFirst, hNext⟩
        rcases gives_ok_iff.mp hFirst with ⟨rfl, rfl⟩
        exact hNext

theorem Gives.bind
    {outcome : Except FormulaFault (α × { r // P r })}
    {next :
      α × { r // P r } →
        Except FormulaFault (β × { r // Q r })}
    {a : α}
    {b : β}
    (hFirst : Gives outcome a us)
    (hNext : ∀ h, Gives (next (a, ⟨us, h⟩)) b rest) :
    Gives (outcome >>= next) b rest :=
  gives_bind_iff.mpr
    ⟨a, us, hFirst.1, hFirst, hNext hFirst.1⟩

------------------------------------------------------------
-- Single Tokens
------------------------------------------------------------

theorem takeMark?_eq_some_iff
    {left : Left ts} :
    takeMark? m ts = some left ↔ ts = .mark m :: left.1 := by
  rcases left with ⟨us, h⟩
  unfold takeMark?
  split
  · rename_i m' rest
    split
    · rename_i hMark
      subst hMark
      simp
    · rename_i hMark
      simp [Ne.symm hMark]
  · rename_i hNone
    constructor
    · intro hEq
      cases hEq
    · exact fun hEq => absurd hEq (hNone m us)

theorem takeMark?_eq_none_iff :
    takeMark? m ts = none ↔ ts.head? ≠ some (.mark m) := by
  unfold takeMark?
  split
  · split
    · rename_i hMark
      simp [hMark]
    · rename_i hMark
      simp [Ne.symm hMark]
  · rename_i hNone
    cases ts with
    | nil => simp
    | cons t ts =>
        simp only [List.head?_cons, true_iff]
        rintro hEq
        cases hEq
        exact hNone m ts rfl

theorem takeMark?_cons :
    takeMark? m (.mark m :: us) =
      some ⟨us, Nat.lt_succ_self us.length⟩ :=
  takeMark?_eq_some_iff.mpr rfl

/- A mark is read where it stands, and nowhere else. -/
theorem gives_readMark_bind_iff
    {next :
      Left ts → Except FormulaFault (β × { r // Q r })}
    {b : β} :
    Gives (readMark m ts >>= next) b rest ↔
      ∃ us h, ts = .mark m :: us ∧
        Gives (next ⟨us, h⟩) b rest := by
  unfold readMark
  cases hMark : takeMark? m ts with
  | none =>
      constructor
      · exact fun h => absurd h not_gives_error
      · rintro ⟨us, h, hEq, hNext⟩
        rw [takeMark?_eq_none_iff, hEq] at hMark
        exact absurd rfl hMark
  | some left =>
      have hTs := takeMark?_eq_some_iff.mp hMark
      constructor
      · exact fun hNext => ⟨left.1, left.2, hTs, hNext⟩
      · rintro ⟨us, h, hEq, hNext⟩
        have hLeft : left = ⟨us, h⟩ := by
          rw [hTs] at hEq
          exact Subtype.ext (List.cons.inj hEq).2
        rw [hLeft]
        exact hNext

theorem gives_readMark_cons_iff
    {next :
      Left (.mark m :: us) →
        Except FormulaFault (β × { r // Q r })}
    {b : β} :
    Gives (readMark m (.mark m :: us) >>= next) b rest ↔
      Gives (next ⟨us, Nat.lt_succ_self us.length⟩) b rest := by
  rw [readMark, takeMark?_cons]
  exact Iff.rfl

/- What a mark that stands first means, and what is left. -/
def takeMeaning?
    (meaning? : Mark → Option α)
    (ts : List Token) : Option (α × Left ts) :=
  match ts with
  | .mark m :: rest =>
      (meaning? m).map (·, ⟨rest, Nat.lt_succ_self rest.length⟩)
  | _ => none

theorem takeMeaning?_eq_some_iff
    {meaning? : Mark → Option α}
    {a : α}
    {left : Left ts} :
    takeMeaning? meaning? ts = some (a, left) ↔
      ∃ m, meaning? m = some a ∧ ts = .mark m :: left.1 := by
  rcases left with ⟨us, h⟩
  unfold takeMeaning?
  split
  · rename_i m rest
    simp only [Option.map_eq_some_iff, Prod.mk.injEq,
      Subtype.mk.injEq, List.cons.injEq, Token.mark.injEq]
    constructor
    · rintro ⟨a', hMeaning, rfl, rfl⟩
      exact ⟨m, hMeaning, rfl, rfl⟩
    · rintro ⟨m', hMeaning, rfl, rfl⟩
      exact ⟨a, hMeaning, rfl, rfl⟩
  · rename_i hNone
    constructor
    · intro hEq
      cases hEq
    · rintro ⟨m, hMeaning, hEq⟩
      exact absurd hEq (hNone m us)

theorem takeMeaning?_eq_none_iff
    {meaning? : Mark → Option α} :
    takeMeaning? meaning? ts = none ↔
      ∀ m a us, meaning? m = some a → ts ≠ .mark m :: us := by
  rw [Option.eq_none_iff_forall_ne_some]
  constructor
  · intro h m a us hMeaning hTs
    subst hTs
    exact h (a, ⟨us, by simp⟩)
      (takeMeaning?_eq_some_iff.mpr ⟨m, hMeaning, rfl⟩)
  · rintro h ⟨a, left⟩ hSome
    rcases takeMeaning?_eq_some_iff.mp hSome with
      ⟨m, hMeaning, hTs⟩
    exact h m a left.1 hMeaning hTs

/- No operator of a tier stands first. -/
def NoOperator (tier : Tier) (ts : List Token) : Prop :=
  ∀ m build us, tier.IsOperator m build → ts ≠ .mark m :: us

/- No operator of one operand stands first. -/
def NoUnary (ts : List Token) : Prop :=
  ∀ m op us, UnaryOp.IsSpelled op m → ts ≠ .mark m :: us

section Operators

variable {tier : Tier}
variable {build : Expr → Expr → Expr}
variable {op : UnaryOp}
variable {left : Left ts}

theorem takeOperator?_eq_some_iff :
    takeOperator? tier ts = some (build, left) ↔
      ∃ m, tier.IsOperator m build ∧
        ts = .mark m :: left.1 := by
  simp only [← Tier.operator?_eq_some_iff]
  exact takeMeaning?_eq_some_iff

theorem takeOperator?_eq_none_iff :
    takeOperator? tier ts = none ↔ NoOperator tier ts := by
  simp only [NoOperator, ← Tier.operator?_eq_some_iff]
  exact takeMeaning?_eq_none_iff

theorem takeUnary?_eq_some_iff :
    takeUnary? ts = some (op, left) ↔
      ∃ m, op.IsSpelled m ∧ ts = .mark m :: left.1 := by
  simp only [← UnaryOp.ofMark?_eq_some_iff]
  exact takeMeaning?_eq_some_iff

theorem takeUnary?_eq_none_iff :
    takeUnary? ts = none ↔ NoUnary ts := by
  simp only [NoUnary, ← UnaryOp.ofMark?_eq_some_iff]
  exact takeMeaning?_eq_none_iff

end Operators

theorem gives_readText_iff
    {s : String} :
    Gives (readText ts) s rest ↔ ts = .text s :: rest := by
  unfold readText
  split
  · rw [gives_ok_iff]
    simp [eq_comm]
  · rename_i hNone
    constructor
    · exact fun h => absurd h not_gives_error
    · exact fun hEq => absurd hEq (hNone s rest)

theorem gives_readPattern_iff
    {p : Pattern} :
    Gives (readPattern ts) p rest ↔
      ∃ s, Pattern.ofText? s = some p ∧
        ts = .text s :: rest := by
  unfold readPattern
  split
  · rename_i s left hText
    have hTs := gives_readText_iff.mp ⟨left.2, hText⟩
    split
    · rename_i p' hPattern
      rw [gives_ok_iff]
      constructor
      · rintro ⟨rfl, rfl⟩
        exact ⟨s, hPattern, hTs⟩
      · rintro ⟨s', hPattern', hEq⟩
        rw [hTs] at hEq
        cases hEq
        rw [hPattern] at hPattern'
        exact ⟨(Option.some.inj hPattern').symm, rfl⟩
    · rename_i hPattern
      constructor
      · exact fun h => absurd h not_gives_error
      · rintro ⟨s', hPattern', hEq⟩
        rw [hTs] at hEq
        cases hEq
        rw [hPattern] at hPattern'
        cases hPattern'
  · rename_i fault hText
    constructor
    · exact fun h => absurd h not_gives_error
    · rintro ⟨s, hPattern, hEq⟩
      rcases gives_readText_iff.mpr hEq with ⟨h, hGives⟩
      rw [hText] at hGives
      cases hGives

theorem gives_readAttr_iff :
    Gives (readAttr ts) e rest ↔
      ∃ key, e = .attr key ∧
        ts =
          .mark .openSquare :: .text key ::
            .mark .closeSquare :: rest := by
  rw [readAttr, gives_readMark_bind_iff]
  constructor
  · rintro ⟨us, h, rfl, hKey⟩
    rcases gives_bind_iff.mp hKey with ⟨key, vs, hVs, hText, hClose⟩
    rcases gives_readMark_bind_iff.mp hClose with
      ⟨ws, hWs, rfl, hDone⟩
    rcases gives_pure_iff.mp hDone with ⟨rfl, rfl⟩
    rw [gives_readText_iff] at hText
    exact ⟨key, rfl, by rw [hText]⟩
  · rintro ⟨key, rfl, rfl⟩
    refine ⟨_, by simp, rfl, ?_⟩
    apply (gives_readText_iff.mpr rfl).bind
    intro h
    rw [gives_readMark_cons_iff]
    exact gives_pure_iff.mpr ⟨rfl, rfl⟩

------------------------------------------------------------
-- Expressions
------------------------------------------------------------

/-
  A choice is read if a question mark follows its condition.
-/
theorem gives_readChoice_iff :
    Gives (readChoice ts) e rest ↔
      ∃ c us, Gives (readTier .either ts) c us ∧
        ((us.head? ≠ some (.mark .question) ∧ e = c ∧
            rest = us) ∨
          ∃ vs a ws b, us = .mark .question :: vs ∧
            Gives (readChoice vs) a (.mark .colon :: ws) ∧
            Gives (readChoice ws) b rest ∧
            e = .choose c a b) := by
  rw [readChoice]
  constructor
  · intro h
    rcases gives_bind_iff.mp h with ⟨c, us, hUs, hFirst, hNext⟩
    refine ⟨c, us, hFirst, ?_⟩
    dsimp only at hNext
    split at hNext
    · rename_i vs hVs hMark
      rcases gives_bind_iff.mp hNext with
        ⟨a, us', hUs', hYes, hNext⟩
      rcases gives_readMark_bind_iff.mp hNext with
        ⟨ws, hWs, rfl, hNext⟩
      rcases gives_bind_iff.mp hNext with ⟨b, ws', hWs', hNo, hDone⟩
      rcases gives_pure_iff.mp hDone with ⟨rfl, rfl⟩
      exact .inr ⟨vs, a, ws, b,
        takeMark?_eq_some_iff.mp hMark, hYes, hNo, rfl⟩
    · rename_i hMark
      rcases gives_pure_iff.mp hNext with ⟨rfl, rfl⟩
      exact .inl ⟨takeMark?_eq_none_iff.mp hMark, rfl, rfl⟩
  · rintro ⟨c, us, hFirst, hRest⟩
    apply hFirst.bind
    intro hUs
    dsimp only
    rcases hRest with
      ⟨hMark, rfl, rfl⟩ | ⟨vs, a, ws, b, rfl, hYes, hNo, rfl⟩
    · rw [takeMark?_eq_none_iff.mpr hMark]
      exact gives_pure_iff.mpr ⟨rfl, rfl⟩
    · rw [takeMark?_cons]
      apply hYes.bind
      intro hUs'
      rw [gives_readMark_cons_iff]
      apply hNo.bind
      intro hRest
      exact gives_pure_iff.mpr ⟨rfl, rfl⟩

/- Reading as a part of the grammar. -/
def read
    (part : Grammar.Part)
    (ts : List Token) : Outcome Expr ts :=
  match part with
  | .choice => readChoice ts
  | .tier t => readTier t ts
  | .unary => readUnary ts
  | .primary => readPrimary ts

theorem readOperand_eq_read
    (tier : Tier) :
    readOperand tier ts = read (.operand tier) ts := by
  rw [readOperand]
  cases tier <;> rfl

/-
  The operators of a tier that follow an operand are read with
  their other operands, until none follows.
-/
inductive Continues (tier : Tier) :
    Expr → List Token → Expr → List Token → Prop where
  | stop
      {e : Expr}
      {ts : List Token}
      (hNone : NoOperator tier ts) : Continues tier e ts e ts
  | step
      {a b e : Expr}
      {m : Mark}
      {build : Expr → Expr → Expr}
      {ts us rest : List Token}
      (hOperator : tier.IsOperator m build)
      (hSecond : Gives (read (.operand tier) ts) b us)
      (hNext : Continues tier (build a b) us e rest) :
      Continues tier a (.mark m :: ts) e rest

/- Only what is left counts for the operators that follow. -/
theorem gives_readChain_iff
    {tier : Tier}
    {a : Expr}
    {left : Left ts} :
    Gives (readChain tier ts a left) e rest ↔
      Continues tier a left.1 e rest := by
  induction hLength : left.1.length using Nat.strongRecOn
    generalizing a left with
  | _ n ih =>
  subst hLength
  rw [readChain]
  split
  · rename_i build us hUs hTake
    rcases takeOperator?_eq_some_iff.mp hTake with
      ⟨m, hOperator, hLeft⟩
    constructor
    · intro h
      rcases gives_bind_iff.mp h with ⟨b, vs, hVs, hSecond, hNext⟩
      rw [readOperand_eq_read] at hSecond
      rw [hLeft]
      refine .step hOperator hSecond ?_
      exact (ih _ (Nat.lt_trans hVs hUs) rfl).mp hNext
    · intro h
      rw [hLeft] at h
      cases h with
      | stop hNone => exact absurd rfl (hNone m build us hOperator)
      | step hOperator' hSecond hNext =>
          cases hOperator.build_eq hOperator'
          rw [readOperand_eq_read]
          apply hSecond.bind
          intro hVs
          exact (ih _ (Nat.lt_trans hVs hUs) rfl).mpr hNext
  · rename_i hTake
    have hNone := takeOperator?_eq_none_iff.mp hTake
    rw [gives_pure_iff]
    constructor
    · rintro ⟨rfl, rfl⟩
      exact .stop hNone
    · intro h
      generalize left.1 = us at h hNone
      cases h with
      | stop => exact ⟨rfl, rfl⟩
      | step hOperator => exact absurd rfl (hNone _ _ _ hOperator)

theorem gives_readTier_iff
    {tier : Tier} :
    Gives (readTier tier ts) e rest ↔
      ∃ a us, Gives (read (.operand tier) ts) a us ∧
        Continues tier a us e rest := by
  rw [readTier, readOperand_eq_read]
  constructor
  · intro h
    rcases gives_bind_iff.mp h with ⟨a, us, hUs, hFirst, hNext⟩
    exact ⟨a, us, hFirst, gives_readChain_iff.mp hNext⟩
  · rintro ⟨a, us, hFirst, hNext⟩
    apply hFirst.bind
    intro hUs
    exact gives_readChain_iff.mpr hNext

theorem gives_readUnary_iff :
    Gives (readUnary ts) e rest ↔
      (∃ op m us a, UnaryOp.IsSpelled op m ∧
          ts = .mark m :: us ∧ Gives (readUnary us) a rest ∧
          e = .unary op a) ∨
        (NoUnary ts ∧ Gives (readPrimary ts) e rest) := by
  rw [readUnary]
  split
  · rename_i op us hUs hTake
    rcases takeUnary?_eq_some_iff.mp hTake with ⟨m, hOperator, hTs⟩
    constructor
    · intro h
      rcases gives_bind_iff.mp h with ⟨a, vs, hVs, hOperand, hDone⟩
      rcases gives_pure_iff.mp hDone with ⟨rfl, rfl⟩
      exact .inl ⟨op, m, us, a, hOperator, hTs, hOperand, rfl⟩
    · rintro (⟨op', m', us', a, hOperator', hTs', hOperand, rfl⟩ | h)
      · rw [hTs] at hTs'
        cases hTs'
        cases hOperator.op_eq hOperator'
        apply hOperand.bind
        intro hRest
        exact gives_pure_iff.mpr ⟨rfl, rfl⟩
      · exact absurd hTs (h.1 m op us hOperator)
  · rename_i hTake
    have hNone := takeUnary?_eq_none_iff.mp hTake
    constructor
    · exact fun h => .inr ⟨hNone, h⟩
    · rintro (⟨op, m, us, a, hOperator, hTs, hOperand⟩ | h)
      · exact absurd hTs (hNone m op us hOperator)
      · exact h.2

------------------------------------------------------------
-- Names and Brackets
------------------------------------------------------------

/- Expressions are read with a comma after each but the last. -/
inductive ReadsArguments :
    List Token → List Expr → List Token → Prop where
  | last
      {ts rest : List Token}
      {e : Expr}
      (h : Gives (readChoice ts) e rest)
      (hNone : rest.head? ≠ some (.mark .comma)) :
      ReadsArguments ts [e] rest
  | more
      {ts us rest : List Token}
      {e : Expr}
      {es : List Expr}
      (h : Gives (readChoice ts) e (.mark .comma :: us))
      (hMore : ReadsArguments us es rest) :
      ReadsArguments ts (e :: es) rest

theorem gives_readArguments_iff
    {es : List Expr} :
    Gives (readArguments ts) es rest ↔
      ReadsArguments ts es rest := by
  have ⟨n, hLength⟩ : ∃ n, ts.length = n := ⟨_, rfl⟩
  induction n using Nat.strongRecOn generalizing ts es with
  | _ n ih =>
  subst hLength
  rw [readArguments]
  constructor
  · intro h
    rcases gives_bind_iff.mp h with ⟨e, us, hUs, hFirst, hNext⟩
    dsimp only at hNext
    split at hNext
    · rename_i vs hVs hMark
      rcases gives_bind_iff.mp hNext with
        ⟨es', us', hUs', hMore, hDone⟩
      rcases gives_pure_iff.mp hDone with ⟨rfl, rfl⟩
      rw [takeMark?_eq_some_iff.mp hMark] at hFirst
      refine .more hFirst ?_
      exact (ih _ (Nat.lt_trans hVs hUs) rfl).mp hMore
    · rename_i hMark
      rcases gives_pure_iff.mp hNext with ⟨rfl, rfl⟩
      exact .last hFirst (takeMark?_eq_none_iff.mp hMark)
  · intro h
    cases h with
    | last hLast hNone =>
        apply hLast.bind
        intro hRest
        dsimp only
        rw [takeMark?_eq_none_iff.mpr hNone]
        exact gives_pure_iff.mpr ⟨rfl, rfl⟩
    | more hFirst hMore =>
        rename_i us e es
        apply hFirst.bind
        intro hUs
        dsimp only
        rw [takeMark?_cons]
        have hLess : us.length < ts.length := by
          simp only [List.length_cons] at hUs
          omega
        apply ((ih _ hLess rfl).mpr hMore).bind
        intro hRest
        exact gives_pure_iff.mpr ⟨rfl, rfl⟩

/- What stands between the brackets after a name is read. -/
inductive ReadsCall :
    String → List Token → Expr → List Token → Prop where
  | gather
      {kind : Gather}
      {name s : String}
      {p : Pattern}
      {rest : List Token}
      (hName : kind.IsNamed name)
      (hPattern : Pattern.ofText? s = some p) :
      ReadsCall name (.text s :: rest) (.gather kind p) rest
  | occurrences
      {s : String}
      {p : Pattern}
      {ts rest : List Token}
      {e : Expr}
      (h :
        Gives (readChoice ts) e (.mark .comma :: .text s :: rest))
      (hPattern : Pattern.ofText? s = some p) :
      ReadsCall "matches" ts (.occurrences e p) rest
  | empty
      {f : Func}
      {name : String}
      {rest : List Token}
      (hName : f.IsNamed name) :
      ReadsCall name (.mark .closeRound :: rest) (.call f [])
        (.mark .closeRound :: rest)
  | arguments
      {f : Func}
      {name : String}
      {ts rest : List Token}
      {es : List Expr}
      (hName : f.IsNamed name)
      (hFirst : ts.head? ≠ some (.mark .closeRound))
      (h : ReadsArguments ts es rest) :
      ReadsCall name ts (.call f es) rest

theorem ReadsCall.is_free
    {name : String}
    (h : ReadsCall name ts e rest) :
    ofName? name = none ∧ name ≠ "dict" := by
  cases h with
  | gather hName => exact hName.is_free
  | occurrences => decide
  | empty hName => exact ⟨hName.is_free.1, hName.is_free.2.1⟩
  | arguments hName =>
      exact ⟨hName.is_free.1, hName.is_free.2.1⟩

theorem ReadsCall.of_gives
    {name : String}
    (h : Gives (readCall name ts) e rest) :
    ReadsCall name ts e rest := by
  rw [readCall] at h
  split at h
  · rename_i kind hKind
    rcases gives_bind_iff.mp h with ⟨p, us, hUs, hPattern, hDone⟩
    rcases gives_pure_iff.mp hDone with ⟨rfl, rfl⟩
    rcases gives_readPattern_iff.mp hPattern with ⟨s, hText, rfl⟩
    exact .gather (gatherOfName?_eq_some_iff.mp hKind) hText
  · split at h
    · rename_i hMatches
      subst hMatches
      rcases gives_bind_iff.mp h with ⟨a, us, hUs, hFirst, hNext⟩
      rcases gives_readMark_bind_iff.mp hNext with
        ⟨vs, hVs, rfl, hNext⟩
      rcases gives_bind_iff.mp hNext with
        ⟨p, ws, hWs, hPattern, hDone⟩
      rcases gives_pure_iff.mp hDone with ⟨rfl, rfl⟩
      rcases gives_readPattern_iff.mp hPattern with ⟨s, hText, rfl⟩
      exact .occurrences hFirst hText
    · split at h
      · exact absurd h not_gives_error
      · rename_i f hName
        rw [Func.ofName?_eq_some_iff] at hName
        split at h
        · rename_i hClose
          rcases gives_ok_iff.mp h with ⟨rfl, rfl⟩
          cases rest with
          | nil => cases hClose
          | cons t us =>
              cases hClose
              exact .empty hName
        · rename_i hClose
          rcases gives_bind_iff.mp h with
            ⟨es, us, hUs, hArgs, hDone⟩
          rcases gives_pure_iff.mp hDone with ⟨rfl, rfl⟩
          exact .arguments hName hClose
            (gives_readArguments_iff.mp hArgs)

theorem ReadsCall.gives
    {name : String}
    (h : ReadsCall name ts e rest) :
    Gives (readCall name ts) e rest := by
  rw [readCall]
  cases h with
  | gather hName hPattern =>
      rw [gatherOfName?_eq_some_iff.mpr hName]
      apply (gives_readPattern_iff.mpr
        ⟨_, hPattern, rfl⟩).bind
      intro hRest
      exact gives_pure_iff.mpr ⟨rfl, rfl⟩
  | occurrences hFirst hPattern =>
      apply hFirst.bind
      intro hUs
      rw [gives_readMark_cons_iff]
      apply (gives_readPattern_iff.mpr
        ⟨_, hPattern, rfl⟩).bind
      intro hRest
      exact gives_pure_iff.mpr ⟨rfl, rfl⟩
  | empty hName =>
      rcases hName.is_free with ⟨-, -, hGather, hMatches⟩
      rw [hGather]
      simp only [if_neg hMatches]
      rw [Func.ofName?_eq_some_iff.mpr hName]
      exact gives_ok_iff.mpr ⟨rfl, rfl⟩
  | arguments hName hClose hArgs =>
      rcases hName.is_free with ⟨-, -, hGather, hMatches⟩
      rw [hGather]
      simp only [if_neg hMatches]
      rw [Func.ofName?_eq_some_iff.mpr hName]
      simp only [if_neg hClose]
      apply (gives_readArguments_iff.mpr hArgs).bind
      intro hRest
      exact gives_pure_iff.mpr ⟨rfl, rfl⟩

/- An expression without operators outside brackets is read. -/
inductive ReadsPrimary :
    List Token → Expr → List Token → Prop where
  | number
      (n : Number)
      (rest : List Token) :
      ReadsPrimary (.number n :: rest) (.number n) rest
  | text
      (s : String)
      (rest : List Token) :
      ReadsPrimary (.text s :: rest) (.text s) rest
  | round
      {ts rest : List Token}
      {e : Expr}
      (h : Gives (readChoice ts) e (.mark .closeRound :: rest)) :
      ReadsPrimary (.mark .openRound :: ts) e rest
  | word
      {name : String}
      {e : Expr}
      {rest : List Token}
      (h : IsWord name e) :
      ReadsPrimary (.name name :: rest) e rest
  | attr
      (key : String)
      (rest : List Token) :
      ReadsPrimary
        (.name "dict" :: .mark .openSquare :: .text key ::
          .mark .closeSquare :: rest)
        (.attr key) rest
  | call
      {name : String}
      {ts rest : List Token}
      {e : Expr}
      (h : ReadsCall name ts e (.mark .closeRound :: rest)) :
      ReadsPrimary (.name name :: .mark .openRound :: ts) e rest

theorem ReadsPrimary.of_gives
    (h : Gives (readPrimary ts) e rest) :
    ReadsPrimary ts e rest := by
  rw [readPrimary.eq_def] at h
  split at h
  · exact absurd h not_gives_error
  · rcases gives_ok_iff.mp h with ⟨rfl, rfl⟩
    exact .number _ _
  · rcases gives_ok_iff.mp h with ⟨rfl, rfl⟩
    exact .text _ _
  · rcases gives_bind_iff.mp h with ⟨a, us, hUs, hFirst, hNext⟩
    rcases gives_readMark_bind_iff.mp hNext with
      ⟨vs, hVs, rfl, hDone⟩
    rcases gives_pure_iff.mp hDone with ⟨rfl, rfl⟩
    exact .round hFirst
  · exact absurd h not_gives_error
  · rename_i name us
    split at h
    · rename_i a hWord
      rcases gives_ok_iff.mp h with ⟨rfl, rfl⟩
      exact .word (ofName?_eq_some_iff.mp hWord)
    · split at h
      · rename_i hDict
        subst hDict
        rcases gives_bind_iff.mp h with ⟨a, vs, hVs, hAttr, hDone⟩
        rcases gives_pure_iff.mp hDone with ⟨rfl, rfl⟩
        rcases gives_readAttr_iff.mp hAttr with ⟨key, rfl, rfl⟩
        exact .attr key _
      · split at h
        · rcases gives_bind_iff.mp h with ⟨a, vs, hVs, hCall, hNext⟩
          rcases gives_readMark_bind_iff.mp hNext with
            ⟨ws, hWs, rfl, hDone⟩
          rcases gives_pure_iff.mp hDone with ⟨rfl, rfl⟩
          exact .call (.of_gives hCall)
        · exact absurd h not_gives_error

theorem ReadsPrimary.gives
    (h : ReadsPrimary ts e rest) :
    Gives (readPrimary ts) e rest := by
  rw [readPrimary.eq_def]
  cases h with
  | number n => exact gives_ok_iff.mpr ⟨rfl, rfl⟩
  | text s => exact gives_ok_iff.mpr ⟨rfl, rfl⟩
  | round h =>
      apply h.bind
      intro hUs
      rw [gives_readMark_cons_iff]
      exact gives_pure_iff.mpr ⟨rfl, rfl⟩
  | word h =>
      dsimp only
      rw [ofName?_eq_some_iff.mpr h]
      exact gives_ok_iff.mpr ⟨rfl, rfl⟩
  | attr key =>
      apply (gives_readAttr_iff.mpr ⟨key, rfl, rfl⟩).bind
      intro hRest
      exact gives_pure_iff.mpr ⟨rfl, rfl⟩
  | call h =>
      dsimp only
      rw [h.is_free.1]
      simp only [if_neg h.is_free.2]
      apply h.gives.bind
      intro hUs
      rw [gives_readMark_cons_iff]
      exact gives_pure_iff.mpr ⟨rfl, rfl⟩

end Expr

end CharSheet
