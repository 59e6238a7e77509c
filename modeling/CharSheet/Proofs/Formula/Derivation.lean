import CharSheet.Proofs.Formula.Readers

/-
  Formulas are read as their grammar says.

  What is read is derived from the grammar: this is shown for
  ever longer lists of tokens, and for each list from the
  tightest part of the grammar to the weakest.  Conversely, a
  derivation is followed by the readers, which take all that
  is derived and then stop where nothing continues it.

  Main declarations:
    * `Grammar.IsRead`, `Grammar.Spells.isRead`
    * `Expr.Sound`, `Expr.sound_read`
    * `Expr.ofTokens_eq_ok_iff_spells`
-/

namespace CharSheet

open Grammar

variable {ts us rest : List Token}
variable {e e' : Expr}
variable {part : Part}
variable {tier : Tier}

------------------------------------------------------------
-- From Derivations to Readings
------------------------------------------------------------

namespace Grammar

/- No operator of a tighter tier stands first. -/
def Settled (tier : Tier) (ts : List Token) : Prop :=
  ∀ tighter : Tier, tighter.height < tier.height →
    Expr.NoOperator tighter ts

/- Nothing stands first that would continue a choice. -/
def Ends (ts : List Token) : Prop :=
  ts.head? ≠ some (.mark .question) ∧
    ∀ tier, Expr.NoOperator tier ts

/-
  Whatever follows tokens that are derived, they are read as
  derived, unless it continues them.  The operands of a tier
  are then continued by the operators that follow.
-/
def IsRead : Part → List Token → Expr → Prop
  | .choice, ts, e =>
      ∀ rest, Ends rest →
        Expr.Gives (Expr.readChoice (ts ++ rest)) e rest
  | .tier tier, ts, e =>
      ∀ us e' rest, Settled tier us →
        Expr.Continues tier e us e' rest →
        Expr.Gives (Expr.readTier tier (ts ++ us)) e' rest
  | .unary, ts, e =>
      ∀ rest, Expr.Gives (Expr.readUnary (ts ++ rest)) e rest
  | .primary, ts, e =>
      ∀ rest, Expr.Gives (Expr.readPrimary (ts ++ rest)) e rest

variable {m : Mark}
variable {build : Expr → Expr → Expr}

theorem noOperator_mark
    (h : ∀ build, ¬ tier.IsOperator m build) :
    Expr.NoOperator tier (.mark m :: us) := by
  intro m' build vs hOperator hEq
  cases hEq
  exact h build hOperator

/- An operator of a tier belongs to no tighter one. -/
theorem settled_operator
    (h : tier.IsOperator m build) :
    Settled tier (.mark m :: us) := by
  intro tighter hTighter
  apply noOperator_mark
  intro build' h'
  rw [h.tier_eq h'] at hTighter
  exact Nat.lt_irrefl _ hTighter

theorem noOperator_question :
    Expr.NoOperator tier (.mark .question :: us) :=
  noOperator_mark (by rintro _ ⟨⟩)

theorem ends_nil : Ends [] :=
  ⟨by simp, fun _ _ _ _ _ => List.cons_ne_nil _ _ ∘ Eq.symm⟩

theorem ends_mark
    (hMark : m ≠ .question)
    (h : ∀ tier build, ¬ Tier.IsOperator tier m build) :
    Ends (.mark m :: us) :=
  ⟨by simpa using hMark, fun tier => noOperator_mark (h tier)⟩

theorem ends_closeRound : Ends (.mark .closeRound :: us) :=
  ends_mark (by decide) (by rintro _ _ ⟨⟩)

theorem ends_comma : Ends (.mark .comma :: us) :=
  ends_mark (by decide) (by rintro _ _ ⟨⟩)

theorem ends_colon : Ends (.mark .colon :: us) :=
  ends_mark (by decide) (by rintro _ _ ⟨⟩)

/- The operands of a tier are of a tighter one, or unary. -/
theorem Part.operand_cases (tier : Tier) :
    (∃ tighter, tighter.height < tier.height ∧
        Part.operand tier = .tier tighter) ∨
      Part.operand tier = .unary := by
  cases tier with
  | either => exact .inl ⟨.both, by decide, rfl⟩
  | both => exact .inl ⟨.equality, by decide, rfl⟩
  | equality => exact .inl ⟨.comparison, by decide, rfl⟩
  | comparison => exact .inl ⟨.sum, by decide, rfl⟩
  | sum => exact .inl ⟨.product, by decide, rfl⟩
  | product => exact .inr rfl

/- An operand is read if no tighter operator follows. -/
theorem IsRead.gives_operand
    (h : IsRead (.operand tier) ts e)
    (hSettled : Settled tier rest) :
    Expr.Gives (Expr.read (.operand tier) (ts ++ rest)) e
      rest := by
  rcases Part.operand_cases tier with
    ⟨tighter, hTighter, hPart⟩ | hPart
  · rw [hPart] at h ⊢
    apply h rest e rest
    · intro other hOther
      exact hSettled other (Nat.lt_trans hOther hTighter)
    · exact .stop (hSettled tighter hTighter)
  · rw [hPart] at h ⊢
    exact h rest

/- A condition is read up to its question mark. -/
theorem IsRead.gives_either
    (h : IsRead (.tier .either) ts e)
    (hNone : ∀ tier, Expr.NoOperator tier rest) :
    Expr.Gives (Expr.readTier .either (ts ++ rest)) e rest :=
  h rest e rest (fun tier _ => hNone tier)
    (.stop (hNone .either))

/- Nothing that is derived begins with a closing bracket. -/
theorem Spells.exists_cons
    (h : Spells part ts e) :
    ∃ t us, ts = t :: us ∧ t ≠ .mark .closeRound := by
  induction h with
  | always h ih => exact ih
  | choose hCondition hYes hNo ih =>
      rcases ih with ⟨t, us, rfl, hFirst⟩
      exact ⟨t, _, rfl, hFirst⟩
  | operand h ih => exact ih
  | operate hFirst hOperator hSecond ih =>
      rcases ih with ⟨t, us, rfl, hToken⟩
      exact ⟨t, _, rfl, hToken⟩
  | bare h ih => exact ih
  | sign hOperator h ih =>
      refine ⟨_, _, rfl, ?_⟩
      cases hOperator <;> decide
  | number n => exact ⟨_, _, rfl, nofun⟩
  | text s => exact ⟨_, _, rfl, nofun⟩
  | round h ih => exact ⟨_, _, rfl, by decide⟩
  | word h => exact ⟨_, _, rfl, nofun⟩
  | attr key => exact ⟨_, _, rfl, nofun⟩
  | gather hName hPattern => exact ⟨_, _, rfl, nofun⟩
  | occurrences h hPattern ih => exact ⟨_, _, rfl, nofun⟩
  | call hName hArgs ih => exact ⟨_, _, rfl, nofun⟩

theorem head?_arguments_ne
    {args : List (List Token × Expr)}
    (hNe : args ≠ [])
    (h : ∀ arg ∈ args, Spells .choice arg.1 arg.2) :
    ([.mark .comma].intercalate (args.map (·.1)) ++
        rest).head? ≠
      some (.mark .closeRound) := by
  cases args with
  | nil => exact absurd rfl hNe
  | cons arg args =>
      rcases (h arg List.mem_cons_self).exists_cons with
        ⟨t, us, hTs, hToken⟩
      cases args with
      | nil => simpa [hTs] using hToken
      | cons next args => simpa [hTs] using hToken

/- A primary expression begins with no operator. -/
theorem Spells.noUnary
    (h : Spells .primary ts e) :
    Expr.NoUnary (ts ++ rest) := by
  intro m op us hOperator hEq
  cases h <;> cases hEq
  cases hOperator

theorem readsArguments_of_isRead
    {args : List (List Token × Expr)}
    (hNe : args ≠ [])
    (h : ∀ arg ∈ args, IsRead .choice arg.1 arg.2) :
    Expr.ReadsArguments
      ([.mark .comma].intercalate (args.map (·.1)) ++
        .mark .closeRound :: rest)
      (args.map (·.2)) (.mark .closeRound :: rest) := by
  induction args with
  | nil => exact absurd rfl hNe
  | cons arg args ih =>
      have hFirst := h arg List.mem_cons_self
      cases args with
      | nil =>
          simp only [List.map_cons, List.map_nil,
            List.intercalate_singleton]
          exact .last (hFirst _ ends_closeRound) (by simp)
      | cons next args =>
          simp only [List.map_cons,
            List.intercalate_cons_cons, List.append_assoc,
            List.cons_append, List.nil_append] at ih ⊢
          refine .more (hFirst _ ends_comma) ?_
          apply ih (List.cons_ne_nil next args)
          intro arg' hArg
          exact h arg' (List.mem_cons_of_mem arg hArg)

/- What is derived is read. -/
theorem Spells.isRead
    (h : Spells part ts e) :
    IsRead part ts e := by
  induction h with
  | always h ih =>
      intro rest hEnds
      exact Expr.gives_readChoice_iff.mpr
        ⟨_, rest, ih.gives_either hEnds.2,
          .inl ⟨hEnds.1, rfl, rfl⟩⟩
  | choose hCondition hYes hNo ihCondition ihYes ihNo =>
      intro rest hEnds
      rw [List.append_assoc, List.cons_append,
        List.append_assoc, List.cons_append]
      exact Expr.gives_readChoice_iff.mpr
        ⟨_, _,
          ihCondition.gives_either fun _ => noOperator_question,
          .inr ⟨_, _, _, _, rfl, ihYes _ ends_colon,
            ihNo rest hEnds, rfl⟩⟩
  | operand h ih =>
      intro us e' rest hSettled hNext
      exact Expr.gives_readTier_iff.mpr
        ⟨_, us, ih.gives_operand hSettled, hNext⟩
  | operate hFirst hOperator hSecond ihFirst ihSecond =>
      intro us e' rest hSettled hNext
      rw [List.append_assoc, List.cons_append]
      apply ihFirst _ _ _ (settled_operator hOperator)
      exact .step hOperator (ihSecond.gives_operand hSettled)
        hNext
  | bare h ih =>
      intro rest
      exact Expr.gives_readUnary_iff.mpr
        (.inr ⟨h.noUnary, ih rest⟩)
  | sign hOperator h ih =>
      intro rest
      exact Expr.gives_readUnary_iff.mpr
        (.inl ⟨_, _, _, _, hOperator, rfl, ih rest, rfl⟩)
  | number n =>
      intro rest
      exact (Expr.ReadsPrimary.number n rest).gives
  | text s =>
      intro rest
      exact (Expr.ReadsPrimary.text s rest).gives
  | round h ih =>
      intro rest
      rw [List.cons_append, List.append_assoc,
        List.singleton_append]
      exact (Expr.ReadsPrimary.round
        (ih _ ends_closeRound)).gives
  | word h =>
      intro rest
      exact (Expr.ReadsPrimary.word h).gives
  | attr key =>
      intro rest
      exact (Expr.ReadsPrimary.attr key rest).gives
  | gather hName hPattern =>
      intro rest
      exact (Expr.ReadsPrimary.call
        (.gather hName hPattern)).gives
  | occurrences h hPattern ih =>
      intro rest
      rw [List.cons_append, List.cons_append,
        List.append_assoc]
      exact (Expr.ReadsPrimary.call
        (.occurrences (ih _ ends_comma) hPattern)).gives
  | @call f name args hName hArgs ih =>
      intro rest
      rw [List.cons_append, List.cons_append,
        List.append_assoc, List.singleton_append]
      apply Expr.ReadsPrimary.gives
      by_cases hEmpty : args = []
      · subst hEmpty
        exact .call (.empty hName)
      · exact .call (.arguments hName
          (head?_arguments_ne hEmpty hArgs)
          (readsArguments_of_isRead hEmpty ih))

end Grammar

------------------------------------------------------------
-- From Readings to Derivations
------------------------------------------------------------

namespace Expr

/- All that is read from some tokens is derived. -/
def Sound (part : Part) (ts : List Token) : Prop :=
  ∀ e rest, Gives (read part ts) e rest →
    ∃ us, ts = us ++ rest ∧ Spells part us e

/- All that is read from fewer tokens is derived. -/
def SoundBelow (n : Nat) : Prop :=
  ∀ us : List Token, us.length < n → ∀ part, Sound part us

theorem SoundBelow.mono
    {n n' : Nat}
    (h : SoundBelow n)
    (hLe : n' ≤ n) :
    SoundBelow n' :=
  fun us hUs => h us (Nat.lt_of_lt_of_le hUs hLe)

theorem ReadsArguments.exists_args
    {es : List Expr}
    (h : ReadsArguments ts es rest)
    (hBelow : SoundBelow (ts.length + 1)) :
    ∃ args : List (List Token × Expr), args ≠ [] ∧
      ts =
        [.mark .comma].intercalate (args.map (·.1)) ++ rest ∧
      es = args.map (·.2) ∧
      ∀ arg ∈ args, Spells .choice arg.1 arg.2 := by
  induction h with
  | @last ts rest e h hNone =>
      rcases hBelow _ (Nat.lt_succ_self _) .choice e _ h with
        ⟨us, rfl, hSpells⟩
      refine ⟨[(us, e)], List.cons_ne_nil _ _, ?_, rfl, ?_⟩
      · simp
      · simpa using hSpells
  | @more ts us rest e es h hMore ih =>
      rcases hBelow _ (Nat.lt_succ_self _) .choice e _ h with
        ⟨vs, rfl, hSpells⟩
      rcases ih (hBelow.mono (by simp; omega)) with
        ⟨args, hNe, rfl, rfl, hArgs⟩
      refine ⟨(vs, e) :: args, List.cons_ne_nil _ _, ?_, rfl,
        List.forall_mem_cons.mpr ⟨hSpells, hArgs⟩⟩
      cases args with
      | nil => exact absurd rfl hNe
      | cons next args => simp

theorem ReadsCall.spells
    {name : String}
    (h : ReadsCall name ts e (.mark .closeRound :: rest))
    (hBelow : SoundBelow (ts.length + 1)) :
    ∃ us, ts = us ++ rest ∧
      Spells .primary (.name name :: .mark .openRound :: us)
        e := by
  cases h with
  | gather hName hPattern =>
      exact ⟨_, rfl, .gather hName hPattern⟩
  | occurrences h hPattern =>
      rcases hBelow _ (Nat.lt_succ_self _) .choice _ _ h with
        ⟨us, rfl, hSpells⟩
      exact ⟨_, by simp, .occurrences hSpells hPattern⟩
  | empty hName =>
      exact ⟨_, rfl, @Spells.call _ _ [] hName (by simp)⟩
  | arguments hName hFirst h =>
      rcases h.exists_args hBelow with ⟨args, hNe, rfl, rfl, hArgs⟩
      exact ⟨_, by simp, .call hName hArgs⟩

theorem sound_primary
    (hBelow : SoundBelow ts.length) :
    Sound .primary ts := by
  intro e rest h
  cases ReadsPrimary.of_gives h with
  | number n => exact ⟨[.number n], rfl, .number n⟩
  | text s => exact ⟨[.text s], rfl, .text s⟩
  | round h =>
      rcases hBelow _ (Nat.lt_succ_self _) .choice _ _ h with
        ⟨vs, rfl, hSpells⟩
      exact ⟨_, by simp, .round hSpells⟩
  | word hWord => exact ⟨_, rfl, .word hWord⟩
  | attr key => exact ⟨_, rfl, .attr key⟩
  | call h =>
      rcases h.spells (hBelow.mono (by simp)) with
        ⟨us, rfl, hSpells⟩
      exact ⟨_, rfl, hSpells⟩

theorem sound_unary
    (hBelow : SoundBelow ts.length) :
    Sound .unary ts := by
  intro e rest h
  rcases gives_readUnary_iff.mp h with
    ⟨op, m, us, a, hOperator, rfl, hOperand, rfl⟩ |
      ⟨-, hPrimary⟩
  · rcases hBelow us (Nat.lt_succ_self _) .unary _ _ hOperand with
      ⟨vs, rfl, hSpells⟩
    exact ⟨_, rfl, .sign hOperator hSpells⟩
  · rcases sound_primary hBelow e rest hPrimary with
      ⟨us, hTs, hSpells⟩
    exact ⟨us, hTs, .bare hSpells⟩

/- The operators that follow an operand extend what it is. -/
theorem Continues.spells
    {n : Nat}
    (h : Continues tier e us e' rest)
    (hBelow : SoundBelow n)
    (hLength : us.length < n) :
    ∃ vs, us = vs ++ rest ∧
      ∀ ws, Spells (.tier tier) ws e →
        Spells (.tier tier) (ws ++ vs) e' := by
  induction h with
  | stop => exact ⟨[], rfl, fun ws h => by simpa using h⟩
  | @step a b e m build us vs rest hOperator hSecond hNext
      ih =>
      simp only [List.length_cons] at hLength
      rcases hBelow us (by omega) _ _ _ hSecond with
        ⟨xs, rfl, hSpells⟩
      simp only [List.length_append] at hLength
      rcases ih (by omega) with ⟨ys, rfl, hExtends⟩
      refine ⟨.mark m :: (xs ++ ys), by simp, ?_⟩
      intro ws hWs
      have hAll := hExtends _ (.operate hWs hOperator hSpells)
      rwa [List.append_assoc] at hAll

theorem sound_tier
    (tier : Tier)
    (hBelow : SoundBelow ts.length)
    (hOperand : Sound (.operand tier) ts) :
    Sound (.tier tier) ts := by
  intro e rest h
  rcases gives_readTier_iff.mp h with ⟨a, us, hFirst, hNext⟩
  rcases hOperand a us hFirst with ⟨ws, hTs, hSpells⟩
  rcases hNext.spells hBelow hFirst.1 with ⟨vs, rfl, hExtends⟩
  refine ⟨ws ++ vs, ?_, hExtends ws (.operand hSpells)⟩
  rw [hTs, List.append_assoc]

theorem sound_choice
    (hBelow : SoundBelow ts.length)
    (hEither : Sound (.tier .either) ts) :
    Sound .choice ts := by
  intro e rest h
  rcases gives_readChoice_iff.mp h with ⟨c, us, hFirst, hNext⟩
  have hUs := hFirst.1
  rcases hEither c us hFirst with ⟨xs, rfl, hCondition⟩
  rcases hNext with
    ⟨-, rfl, rfl⟩ | ⟨vs, a, ws, b, rfl, hYes, hNo, rfl⟩
  · exact ⟨xs, rfl, .always hCondition⟩
  · have hWs := hYes.1
    simp only [List.length_cons] at hUs hWs
    rcases hBelow vs (by omega) .choice _ _ hYes with
      ⟨ys, rfl, hSpells⟩
    rcases hBelow ws (by omega) .choice _ _ hNo with
      ⟨zs, rfl, hSpells'⟩
    refine ⟨_, ?_, .choose hCondition hSpells hSpells'⟩
    simp

/-
  All that is read is derived.  A part is read from the same
  tokens as its operands, so the tightest part comes first.
-/
theorem sound_read (part : Part) : Sound part ts := by
  induction hLength : ts.length using Nat.strongRecOn
    generalizing ts part with
  | _ n ih =>
  subst hLength
  have hBelow : SoundBelow ts.length :=
    fun us hUs part => ih _ hUs part rfl
  have hUnary := sound_unary hBelow
  have hProduct := sound_tier .product hBelow hUnary
  have hSum := sound_tier .sum hBelow hProduct
  have hComparison := sound_tier .comparison hBelow hSum
  have hEquality := sound_tier .equality hBelow hComparison
  have hBoth := sound_tier .both hBelow hEquality
  have hEither := sound_tier .either hBelow hBoth
  cases part with
  | choice => exact sound_choice hBelow hEither
  | tier t =>
      cases t with
      | either => exact hEither
      | both => exact hBoth
      | equality => exact hEquality
      | comparison => exact hComparison
      | sum => exact hSum
      | product => exact hProduct
  | unary => exact hUnary
  | primary => exact sound_primary hBelow

------------------------------------------------------------
-- Whole Formulas
------------------------------------------------------------

theorem ofTokens_eq_ok_iff_gives :
    ofTokens ts = .ok e ↔ Gives (readChoice ts) e [] := by
  unfold ofTokens
  split
  · rename_i hEmpty
    rw [List.isEmpty_iff] at hEmpty
    subst hEmpty
    constructor
    · intro h
      cases h
    · rintro ⟨h, -⟩
      exact absurd h (Nat.not_lt_zero _)
  · split
    · rename_i fault hRead
      rw [hRead]
      constructor
      · intro h
        cases h
      · exact fun h => absurd h not_gives_error
    · rename_i a hLess hRead
      rw [hRead, gives_ok_iff]
      constructor
      · intro h
        cases h
        exact ⟨rfl, rfl⟩
      · rintro ⟨rfl, -⟩
        rfl
    · rename_i a us hLess hNe hRead
      rw [hRead, gives_ok_iff]
      constructor
      · intro h
        cases h
      · rintro ⟨-, hNil⟩
        exact absurd hNil.symm hNe

/-
  Tokens are read as an expression exactly if all of them
  together are derived as it from the grammar, and no tokens
  are derived as two expressions.
-/
theorem ofTokens_eq_ok_iff_spells (ts : List Token) :
    (∀ e, ofTokens ts = .ok e ↔ Spells .choice ts e) ∧
      ∀ e e', Spells .choice ts e → Spells .choice ts e' →
        e = e' := by
  have hIff (e : Expr) :
      ofTokens ts = .ok e ↔ Spells .choice ts e := by
    rw [ofTokens_eq_ok_iff_gives]
    constructor
    · intro h
      rcases sound_read .choice e [] h with ⟨us, hTs, hSpells⟩
      rw [List.append_nil] at hTs
      rwa [hTs]
    · intro h
      have hRead := h.isRead [] ends_nil
      rwa [List.append_nil] at hRead
  refine ⟨hIff, ?_⟩
  intro e e' h h'
  have hEq := ((hIff e).mpr h).symm.trans ((hIff e').mpr h')
  exact Except.ok.inj hEq

end Expr

end CharSheet
