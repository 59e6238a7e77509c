import CharSheet.Proofs.Random.Budgets
import CharSheet.Proofs.Random.Levels
import CharSheet.Proofs.Random.Spells

/-
  Inputs that filling a part leaves alone.

  Each part of a character is a family of inputs.  While a
  part is filled at random, values are tried, kept, replaced
  and taken back, but all of them are values of the family:
  every other input is there afterwards as it was before.

  Main declarations:
    * `Store.AgreeOutside`
    * `Rulebook.IsMemberUnder`, `Rulebook.IsMemberOf`
    * `Rulebook.IsInputOf`
    * `Random.ensures_agreeOutside_fillAllocation`
    * `Random.ensures_agreeOutside_spend`
    * `Random.ensures_agreeOutside_divideLevels`
    * `Rulebook.ensures_agreeOutside_fill_part`
    * `Rulebook.ensures_agreeOutside_fillAll`
    * `Rulebook.ensures_fill_disturbs_no_other`
-/

namespace CharSheet

------------------------------------------------------------
-- Families
------------------------------------------------------------

namespace Store

variable {family wider : Key → Prop}
variable {s t : Store}
variable {key : Key}

/-
  An attribute that is not of the family is in the second
  store what it is in the first one, or absent from both.
-/
def AgreeOutside
    (s t : Store)
    (family : Key → Prop) : Prop :=
  ∀ key, ¬ family key → t[key]? = s[key]?

theorem AgreeOutside.refl
    (s : Store)
    (family : Key → Prop) :
    s.AgreeOutside s family :=
  fun _ _ => rfl

/- Setting an attribute of the family keeps the others. -/
theorem AgreeOutside.insert
    (h : s.AgreeOutside t family)
    (hKey : family key)
    (v : Value) :
    s.AgreeOutside (t.insert key v) family := by
  intro other hOther
  have hApart : other ≠ key := by
    rintro rfl
    exact hOther hKey
  exact (agreeOff_insert t key v other hApart).symm.trans
    (h other hOther)

/- So does taking it out. -/
theorem AgreeOutside.erase
    (h : s.AgreeOutside t family)
    (hKey : family key) :
    s.AgreeOutside (t.erase key) family := by
  intro other hOther
  have hApart : other ≠ key := by
    rintro rfl
    exact hOther hKey
  exact (agreeOff_erase t key other hApart).symm.trans
    (h other hOther)

/- A wider family leaves fewer attributes to agree on. -/
theorem AgreeOutside.mono
    (h : s.AgreeOutside t family)
    (hWider : ∀ key, family key → wider key) :
    s.AgreeOutside t wider :=
  fun key hKey => h key fun hIn => hKey (hWider key hIn)

theorem AgreeOutside.trans
    {u : Store}
    (h : s.AgreeOutside t family)
    (hNext : t.AgreeOutside u family) :
    s.AgreeOutside u family :=
  fun key hKey => (hNext key hKey).trans (h key hKey)

end Store

namespace Rulebook

/- A member of an allocation whose budget is under a scope. -/
def IsMemberUnder
    (book : Rulebook)
    (scope : String)
    (key : Key) : Prop :=
  ∃ (note : Key) (a : Allocation),
    book.allocations[note]? = some a ∧
      Key.isUnder a.budget scope = true ∧ key ∈ a.keys

/- A member of the allocation of a kind. -/
def IsMemberOf
    (book : Rulebook)
    (kind : PoolKind)
    (key : Key) : Prop :=
  ∃ a, book.allocations[kind.allocation]? = some a ∧
    key ∈ a.keys

/- The family of inputs that is filled with a part. -/
def IsInputOf
    (book : Rulebook)
    (part : RandomAttribute)
    (key : Key) : Prop :=
  match part with
  | .abilities => ∃ a ∈ abilities, key = abilityKey a
  | .abilityBoosts =>
      ∃ a ∈ abilities, key = .under "abilityBoosts" a
  | .armor => key = "armor"
  | .background => key = "background"
  | .deity => key = "deity"
  | .feats => book.IsMemberUnder "featCount" key
  | .gender => key = "gender"
  | .hitPoints => key = "hitPoints"
  | .languages => book.IsMemberOf .language key
  | .levels => key = "level" ∨ Key.isUnder key "levels" = true
  | .race => key = "race"
  | .selectableFeatures =>
      book.IsMemberUnder "selectableFeatureCount" key
  | .shield => key = "shield"
  | .skills => book.IsMemberOf .skill key
  | .spells =>
      ∃ c ∈ book.choices, c.kind = .spell ∧ key ∈ c.spellKeys
  | .tools => book.IsMemberOf .tool key
  | .weapons => book.IsMemberOf .weapon key

end Rulebook

namespace Random

variable {book : Rulebook}
variable {plan : Plan}
variable {family : Key → Prop}
variable {before store : Store}

------------------------------------------------------------
-- Members
------------------------------------------------------------

/- Members are tried and taken back, nothing else. -/
theorem ensures_agreeOutside_fillAllocation
    {a : Allocation}
    (hMembers : ∀ key ∈ a.keys, family key)
    (h : before.AgreeOutside store family)
    (allowed : Key → Bool)
    (note : Key) :
    Ensures (fillAllocation book plan allowed store note a)
      fun selection =>
        before.AgreeOutside selection.store family := by
  refine ensures_fillAllocation
    (P := fun s => before.AgreeOutside s family) h ?_
  intro excess keys _ hPerm
  have hKeys : ∀ key ∈ keys, family key := by
    intro key hKey
    have hOpen := hPerm.mem_iff.mp hKey
    exact hMembers key (List.mem_of_mem_filter hOpen)
  refine Rulebook.tryMembers_keeps
    (P := fun s => before.AgreeOutside s family) _ 0 ?_ ?_ h
  · intro key hKey s hs
    exact hs.insert (hKeys key hKey) _
  · intro key hKey s hs
    exact hs.erase (hKeys key hKey)

theorem ensures_agreeOutside_fillBudgets
    (scope : String)
    (store : Store) :
    Ensures (fillBudgets book plan scope store) fun after =>
      store.AgreeOutside after (book.IsMemberUnder scope) := by
  apply ensures_foldlM
  · intro s entry hEntry hs
    rcases List.mem_filter.mp hEntry with ⟨hIn, hUnder⟩
    have hThere :=
      Std.ExtTreeMap.mem_toList_iff_getElem?_eq_some.mp hIn
    have hMembers :
        ∀ key ∈ entry.2.keys, book.IsMemberUnder scope key :=
      fun key hKey => ⟨entry.1, entry.2, hThere, hUnder, hKey⟩
    refine (ensures_agreeOutside_fillAllocation hMembers hs
      _ entry.1).bind ?_
    intro selection hSelection
    exact ensures_pure hSelection
  · exact .refl store _

theorem ensures_agreeOutside_fillPool
    (kind : PoolKind)
    (store : Store) :
    Ensures (fillPool book plan kind store) fun after =>
      store.AgreeOutside after (book.IsMemberOf kind) := by
  unfold fillPool
  cases hNote : book.allocations[kind.allocation]? with
  | none => exact ensures_pure (.refl store _)
  | some a =>
      have hMembers : ∀ key ∈ a.keys, book.IsMemberOf kind key :=
        fun key hKey => ⟨a, hNote, hKey⟩
      refine (ensures_agreeOutside_fillAllocation hMembers
        (.refl store _) _ kind.allocation).bind ?_
      intro selection hSelection
      exact ensures_pure hSelection

------------------------------------------------------------
-- Scores and Boosts
------------------------------------------------------------

theorem ensures_agreeOutside_abilityScores
    (hScores : ∀ a ∈ abilities, family (abilityKey a))
    (store : Store) :
    Ensures (abilityScores store) fun after =>
      store.AgreeOutside after family := by
  apply ensures_foldlM
  · intro s ability hAbility hs
    refine (ensures_true abilityScore).bind ?_
    intro score _
    exact ensures_pure (hs.insert (hScores ability hAbility) _)
  · exact .refl store family

/- Whatever the weights are, the position is one of theirs. -/
theorem ensures_weighted_lt (ws : List Number) :
    Ensures (weighted ws) fun drawn =>
      ∀ i ∈ drawn, i < ws.length := by
  refine ensures_draw fun generator used i hDrawn => ?_
  rcases generator.exists_of_position hDrawn with ⟨w, hAt, -⟩
  exact (List.getElem?_eq_some_iff.mp hAt).1

/-
  By induction on the boosts that are left: each one is given
  to an ability, since there are no more weights than
  abilities.
-/
theorem ensures_agreeOutside_spend
    (hBoosts : ∀ a ∈ abilities, family (Boosts.key a))
    {weights : List Number}
    (hWeights : weights.length = abilities.length)
    (highest : Number)
    (n : Nat)
    (scores : List Number)
    (h : before.AgreeOutside store family) :
    Ensures (Boosts.spend highest weights n scores store)
      fun after => before.AgreeOutside after family := by
  induction n generalizing scores store with
  | zero => exact ensures_pure h
  | succ n ih =>
      refine (ensures_weighted_lt _).bind ?_
      intro drawn hDrawn
      cases drawn with
      | none => exact ensures_pure h
      | some i =>
          have hOpen := hDrawn i rfl
          rw [Boosts.openWeights, List.length_zipWith,
            hWeights] at hOpen
          have hAbility : i < abilities.length :=
            lt_of_lt_of_le hOpen (Nat.min_le_left _ _)
          apply ih
          rw [List.getElem?_eq_getElem hAbility]
          exact h.insert (hBoosts _ (List.getElem_mem _)) _

theorem ensures_agreeOutside_boosts
    (hBoosts : ∀ a ∈ abilities, family (Boosts.key a))
    (store : Store) :
    Ensures (boosts book plan store) fun after =>
      store.AgreeOutside after family := by
  have hWeights (sheet : Store) :
      (Boosts.weights book.pools sheet).length =
        abilities.length := by
    unfold Boosts.weights
    dsimp only
    split
    · exact List.length_map ..
    · exact List.length_map ..
  exact ensures_agreeOutside_spend hBoosts (hWeights _) _ _ _
    (.refl store family)

------------------------------------------------------------
-- Identity
------------------------------------------------------------

/- Only the selector of the kind is set. -/
theorem ensures_agreeOutside_identity
    {kind : ChoiceKind}
    {key : Key}
    (hSelector : kind.selector? = some key)
    (store : Store) :
    Ensures (identity book plan kind store) fun after =>
      store.AgreeOutside after (· = key) := by
  have hSame := Store.AgreeOutside.refl store (· = key)
  unfold identity
  simp only [hSelector]
  refine (ensures_shuffle _).bind ?_
  intro names _
  split
  · exact ensures_pure hSame
  · exact ensures_pure (hSame.insert rfl _)

theorem ensures_agreeOutside_gender (store : Store) :
    Ensures (gender book store) fun after =>
      store.AgreeOutside after (· = "gender") := by
  have hSame := Store.AgreeOutside.refl store (· = "gender")
  refine (ensures_true _).bind ?_
  intro picked _
  cases picked with
  | none => exact ensures_pure hSame
  | some gender => exact ensures_pure (hSame.insert rfl _)

theorem ensures_agreeOutside_hitPoints (store : Store) :
    Ensures (hitPoints book store) fun after =>
      store.AgreeOutside after (· = "hitPoints") := by
  have hSame := Store.AgreeOutside.refl store (· = "hitPoints")
  refine (ensures_true _).bind ?_
  intro total _
  split
  · exact ensures_pure hSame
  · exact ensures_pure (hSame.insert rfl _)

------------------------------------------------------------
-- Levels
------------------------------------------------------------

section Levels

variable (hLevels : ∀ name, family (classKey name))

include hLevels

/- Trial levels are replaced by those that are kept. -/
theorem ensures_agreeOutside_addSecondClass
    (h : before.AgreeOutside store family)
    (first : String)
    (others : List String)
    (total : Nat) :
    Ensures (addSecondClass book plan first others total store)
      fun after => before.AgreeOutside after family := by
  have hReduced := h.insert (hLevels first) (.ofNat (total - 1))
  unfold addSecondClass
  dsimp only
  split
  · exact ensures_pure (hReduced.insert (hLevels first) _)
  · next second _ =>
      refine (ensures_true _).bind ?_
      intro n _
      exact ensures_pure ((hReduced.insert (hLevels first)
        _).insert (hLevels second) _)

theorem ensures_agreeOutside_divideLevels
    (h : before.AgreeOutside store family)
    (classes : List String)
    (total : Nat) :
    Ensures (divideLevels book plan classes total store)
      fun after => before.AgreeOutside after family := by
  refine (ensures_shuffle _).bind ?_
  intro shuffled _
  have hFirst (name : String) :=
    h.insert (hLevels name) (.ofNat total)
  dsimp only
  split
  · exact ensures_pure (hFirst _)
  · refine (ensures_true _).bind ?_
    intro chosen _
    split
    · exact ensures_agreeOutside_addSecondClass hLevels
        (hFirst _) _ _ total
    · exact ensures_pure (hFirst _)

end Levels

/- The levels that were set are levels, too. -/
theorem agreeOutside_withoutLevels
    (hLevel : family "level")
    (hUnder : ∀ key, Key.isUnder key "levels" = true → family key)
    (store : Store) :
    store.AgreeOutside (withoutLevels store) family := by
  intro key hKey
  apply getElem?_withoutLevels
  · rintro rfl
    exact hKey hLevel
  · rw [Bool.eq_false_iff]
    exact fun hIn => hKey (hUnder key hIn)

theorem ensures_agreeOutside_levels
    (hLevel : family "level")
    (hUnder : ∀ key, Key.isUnder key "levels" = true → family key)
    (store : Store) :
    Ensures (levels book plan store) fun after =>
      store.AgreeOutside after family := by
  unfold levels
  dsimp only
  split
  · exact ensures_pure (.refl store family)
  · refine (ensures_true _).bind ?_
    intro total _
    exact ensures_agreeOutside_divideLevels
      (fun name => hUnder _ (isUnder_classKey name))
      (agreeOutside_withoutLevels hLevel hUnder store) _ total

/- Where no class is registered, there is nothing to give. -/
theorem ensures_levels_of_no_class
    (h : ∀ c ∈ book.choices, c.kind ≠ .characterClass)
    (store : Store) :
    Ensures (levels book plan store) fun after =>
      after = store := by
  have hNone : book.choiceNames .characterClass = [] := by
    have hFilter :
        book.choices.filter (·.kind = .characterClass) = [] := by
      simpa using h
    simp [Rulebook.choiceNames, Rulebook.choicesOf, hFilter]
  unfold levels
  simp only [hNone]
  exact ensures_pure rfl

------------------------------------------------------------
-- Spells
------------------------------------------------------------

theorem ensures_agreeOutside_learnSpells
    {spells : List Key}
    (hSpells : ∀ key ∈ spells, family key)
    (h : before.AgreeOutside store family)
    (slot : String)
    (count : Number) :
    Ensures (learnSpells spells store slot count) fun after =>
      before.AgreeOutside after family := by
  refine (ensures_shuffle _).bind ?_
  intro unknown hPerm
  apply ensures_pure
  intro key hKey
  rw [Store.getElem?_learned]
  split
  · next hLearned =>
      have hUnknown := List.mem_of_mem_take hLearned
      have hListed :=
        List.mem_of_mem_filter (hPerm.mem_iff.mp hUnknown)
      exact absurd (hSpells key (List.mem_of_mem_filter hListed))
        hKey
  · exact h key hKey

theorem ensures_agreeOutside_spells
    (hSpells : ∀ c ∈ book.choices, c.kind = .spell →
      ∀ key ∈ c.spellKeys, family key)
    (store : Store) :
    Ensures (spells book plan store) fun after =>
      store.AgreeOutside after family := by
  have hKeys :
      ∀ key ∈ (book.choicesOf .spell).flatMap Choice.spellKeys,
        family key := by
    intro key hKey
    rcases List.mem_flatMap.mp hKey with ⟨c, hChoice, hKey⟩
    rw [Rulebook.choicesOf, List.mem_mergeSort, List.mem_filter,
      decide_eq_true_eq] at hChoice
    exact hSpells c hChoice.1 hChoice.2 key hKey
  apply ensures_foldlM
  · intro s entry _ hs
    dsimp only
    split
    · exact ensures_pure hs
    · exact ensures_agreeOutside_learnSpells hKeys hs _ _
  · exact .refl store family

end Random

------------------------------------------------------------
-- All Parts
------------------------------------------------------------

namespace Rulebook

/- Each part is filled within its own family. -/
theorem ensures_agreeOutside_fill_part
    (book : Rulebook)
    (part : RandomAttribute)
    (store : Store) :
    Random.Ensures (book.fill part store) fun after =>
      store.AgreeOutside after (book.IsInputOf part) := by
  have hSelector
      (kind : ChoiceKind)
      (key : Key)
      (h : kind.selector? = some key) :
      Random.Ensures (Random.identity book book.plan kind store)
        fun after => store.AgreeOutside after (· = key) :=
    Random.ensures_agreeOutside_identity h store
  cases part with
  | abilities =>
      exact Random.ensures_agreeOutside_abilityScores
        (fun a hIn => ⟨a, hIn, rfl⟩) store
  | abilityBoosts =>
      exact Random.ensures_agreeOutside_boosts
        (fun a hIn => ⟨a, hIn, rfl⟩) store
  | armor => exact hSelector .armor _ rfl
  | background => exact hSelector .background _ rfl
  | deity => exact hSelector .deity _ rfl
  | feats => exact Random.ensures_agreeOutside_fillBudgets _ store
  | gender => exact Random.ensures_agreeOutside_gender store
  | hitPoints => exact Random.ensures_agreeOutside_hitPoints store
  | languages => exact Random.ensures_agreeOutside_fillPool _ store
  | levels =>
      exact Random.ensures_agreeOutside_levels (.inl rfl)
        (fun _ => .inr) store
  | race => exact hSelector .race _ rfl
  | selectableFeatures =>
      exact Random.ensures_agreeOutside_fillBudgets _ store
  | shield => exact hSelector .shield _ rfl
  | skills => exact Random.ensures_agreeOutside_fillPool _ store
  | spells =>
      exact Random.ensures_agreeOutside_spells
        (fun c hIn hKind key hKey => ⟨c, hIn, hKind, hKey⟩) store
  | tools => exact Random.ensures_agreeOutside_fillPool _ store
  | weapons => exact Random.ensures_agreeOutside_fillPool _ store

/- So several parts are filled within all their families. -/
theorem ensures_agreeOutside_fillAll
    (book : Rulebook)
    (parts : List RandomAttribute)
    (store : Store) :
    Random.Ensures (book.fillAll parts store) fun after =>
      store.AgreeOutside after fun key =>
        ∃ part ∈ parts, book.IsInputOf part key := by
  apply Random.ensures_foldlM
  · intro s part hPart hs
    refine (book.ensures_agreeOutside_fill_part part s).mono ?_
    intro after hAfter
    exact hs.trans (hAfter.mono fun key hKey => ⟨part, hPart, hKey⟩)
  · exact .refl store _

/-
  Whatever is registered, whatever the inputs and whatever the
  source: filling a part changes none but its own inputs, and
  without a class the levels stay as they are.
-/
theorem ensures_fill_disturbs_no_other
    (book : Rulebook)
    (part : RandomAttribute)
    (store : Store) :
    Random.Ensures (book.fill part store) fun after =>
      (∀ key, ¬ book.IsInputOf part key →
        after[key]? = store[key]?) ∧
        (part = .levels →
          (∀ c ∈ book.choices, c.kind ≠ .characterClass) →
            after = store) := by
  intro source
  refine ⟨book.ensures_agreeOutside_fill_part part store source, ?_⟩
  rintro rfl hNone
  exact Random.ensures_levels_of_no_class hNone store source

end Rulebook

end CharSheet
