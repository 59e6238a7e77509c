import CharSheet.Proofs.Key.Scopes
import CharSheet.Proofs.Number.Floor
import CharSheet.Proofs.Random.Outcome
import CharSheet.Random.Fill
import Mathlib.Data.List.Perm.Basic

/-
  Levels that are given at random.

  A total is drawn, or taken from the level that was set, and
  one or two classes have all of it between them.  The second
  class is one whose requirement is met with one of the levels
  while the first class has the others.

  Main declarations:
    * `Store.perm_under_insert`
    * `Store.HoldsLevels`
    * `Store.HoldsLevels.insert`
    * `Rulebook.IsLevelTotal`
    * `Rulebook.IsDivided`
    * `Rulebook.ensures_isDivided_divideLevels`
    * `Rulebook.ensures_isDivided_fill_levels`
-/

namespace CharSheet

------------------------------------------------------------
-- Attributes under a Scope
------------------------------------------------------------

namespace Store

variable {store : Store}
variable {scope : String}
variable {key : Key}
variable {v : Value}

theorem mem_under_iff
    {entry : Key × Value} :
    entry ∈ store.under scope ↔
      store[entry.1]? = some entry.2 ∧
        Key.isUnder entry.1 scope = true := by
  rw [under, List.mem_filter,
    Std.ExtTreeMap.mem_toList_iff_getElem?_eq_some]

theorem nodup_under (store : Store) (scope : String) :
    (store.under scope).Nodup := by
  have hToList : store.toList.Nodup := by
    refine Std.ExtTreeMap.distinct_keys_toList.imp ?_
    rintro a b hApart rfl
    exact hApart Std.ReflCmp.compare_self
  exact hToList.filter _

/- A new attribute under a scope joins those there. -/
theorem perm_under_insert
    (hUnder : Key.isUnder key scope = true)
    (hNew : store[key]? = none) :
    (Store.under (store.insert key v) scope).Perm
      ((key, v) :: store.under scope) := by
  have hNotMem : (key, v) ∉ store.under scope := by
    rw [mem_under_iff, hNew]
    nofun
  rw [List.perm_ext_iff_of_nodup (nodup_under _ scope)
    (List.nodup_cons.mpr ⟨hNotMem, nodup_under store scope⟩)]
  rintro ⟨k, w⟩
  rw [List.mem_cons, mem_under_iff, mem_under_iff]
  by_cases hEq : k = key
  · subst hEq
    simp [hNew, hUnder, eq_comm]
  · simp [hEq, Std.ExtTreeMap.getElem?_insert, Ne.symm hEq]

/- What is set again has the later value. -/
theorem insert_insert_self
    (store : Store)
    (key : Key)
    (v w : Value) :
    (store.insert key v).insert key w = store.insert key w := by
  apply Std.ExtTreeMap.ext_getElem?
  intro k
  simp only [Std.ExtTreeMap.getElem?_insert]
  split
  · rfl
  · rfl

theorem insert_insert_insert_insert
    (store : Store)
    (key key' : Key)
    (v v' w w' : Value) :
    (((store.insert key v).insert key' v').insert key w).insert
        key' w' =
      (store.insert key w).insert key' w' := by
  apply Std.ExtTreeMap.ext_getElem?
  intro k
  simp only [Std.ExtTreeMap.getElem?_insert]
  split
  · rfl
  · split
    · rfl
    · rfl

end Store

------------------------------------------------------------
-- Levels of Classes
------------------------------------------------------------

theorem isUnder_classKey (name : String) :
    Key.isUnder (classKey name) "levels" = true :=
  Key.isUnder_under (by decide) name

theorem classKey_inj
    {name name' : String}
    (h : classKey name = classKey name') :
    name = name' :=
  (Key.under_inj (by decide) (by decide) h).2

theorem classKey_ne_level (name : String) :
    classKey name ≠ "level" := by
  apply Ne.symm
  apply Key.IsRoot.ne_under
  decide

variable {store : Store}
variable {key : Key}

/- Inputs that are no levels are kept. -/
theorem getElem?_withoutLevels
    (hLevel : key ≠ "level")
    (hUnder : Key.isUnder key "levels" = false) :
    (withoutLevels store)[key]? = store[key]? := by
  rw [withoutLevels, Std.ExtTreeMap.getElem?_filter', hUnder,
    Std.ExtTreeMap.getElem?_erase]
  cases hSome : store[key]? with
  | none => simp
  | some v => simp [hLevel.symm]

/- Levels in classes are not. -/
theorem getElem?_withoutLevels_of_isUnder
    (hUnder : Key.isUnder key "levels" = true) :
    (withoutLevels store)[key]? = none := by
  rw [withoutLevels, Std.ExtTreeMap.getElem?_filter', hUnder]
  simp

theorem getElem?_withoutLevels_level :
    (withoutLevels store)["level"]? = none := by
  rw [withoutLevels, Std.ExtTreeMap.getElem?_filter',
    Std.ExtTreeMap.getElem?_erase_self]
  rfl

theorem under_withoutLevels :
    (withoutLevels store).under "levels" = [] := by
  rw [List.eq_nil_iff_forall_not_mem]
  intro entry hEntry
  rcases Store.mem_under_iff.mp hEntry with ⟨hSome, hUnder⟩
  rw [getElem?_withoutLevels_of_isUnder hUnder] at hSome
  cases hSome

/-
  So many levels in each class are all levels of a store, in
  which all other inputs are those from before.
-/
structure Store.HoldsLevels
    (before : Store)
    (levels : List (String × Nat))
    (after : Store) : Prop where
  stored : (after.under "levels").Perm
    (levels.map fun (name, n) => (classKey name, .ofNat n))
  distinct : (levels.map (·.1)).Nodup
  taken : after["level"]? = none
  others : ∀ key, key ≠ "level" →
    Key.isUnder key "levels" = false → after[key]? = before[key]?

theorem holdsLevels_withoutLevels (store : Store) :
    store.HoldsLevels [] (withoutLevels store) where
  stored := by
    rw [under_withoutLevels]
    exact .nil
  distinct := List.nodup_nil
  taken := getElem?_withoutLevels_level
  others _ := getElem?_withoutLevels

/- Levels in one more class are held with the others. -/
theorem Store.HoldsLevels.insert
    {levels : List (String × Nat)}
    {after : Store}
    {name : String}
    (h : store.HoldsLevels levels after)
    (hNew : name ∉ levels.map (·.1))
    (n : Nat) :
    store.HoldsLevels (levels ++ [(name, n)])
      (after.insert (classKey name) (.ofNat n)) where
  stored := by
    have hAbsent : after[classKey name]? = none := by
      cases hSome : after[classKey name]? with
      | none => rfl
      | some v =>
          have hEntry :
              (classKey name, v) ∈ after.under "levels" :=
            mem_under_iff.mpr ⟨hSome, isUnder_classKey name⟩
          rw [h.stored.mem_iff, List.mem_map] at hEntry
          rcases hEntry with ⟨⟨other, m⟩, hIn, hEq⟩
          have hName : other = name :=
            classKey_inj (congrArg Prod.fst hEq)
          exact absurd (List.mem_map.mpr ⟨_, hIn, hName⟩) hNew
    refine (perm_under_insert (isUnder_classKey name)
      hAbsent).trans ?_
    rw [List.map_append]
    exact (h.stored.cons _).trans
      (List.perm_append_singleton _ _).symm
  distinct := by
    rw [List.map_append, List.map_singleton,
      List.nodup_append_comm, List.singleton_append]
    exact List.nodup_cons.mpr ⟨hNew, h.distinct⟩
  taken := by
    rw [Std.ExtTreeMap.getElem?_insert]
    simp [classKey_ne_level, h.taken]
  others key hLevel hUnder := by
    have hApart : classKey name ≠ key := by
      rintro rfl
      rw [isUnder_classKey] at hUnder
      cases hUnder
    rw [Std.ExtTreeMap.getElem?_insert]
    simp [hApart, h.others key hLevel hUnder]

------------------------------------------------------------
-- Totals
------------------------------------------------------------

namespace Rulebook

variable {book : Rulebook}
variable {plan : Plan}
variable {total : Nat}

/-
  A total of levels that may be given: the whole part of the
  level that was set to a number from one on, but no more than
  the highest level, or else any number up to the highest one.
-/
structure IsLevelTotal
    (book : Rulebook)
    (store : Store)
    (total : Nat) : Prop where
  given : ∀ n, store.number? "level" = some n →
    Number.le 1 n = true →
      Number.ofNat total =
        n.floor.min (.ofNat (max 1 book.settings.maxRandomLevel))
  positive : 1 ≤ total
  bounded : total ≤ max 1 book.settings.maxRandomLevel

/- The level that was set may be given, up to the highest. -/
theorem isLevelTotal_clampToNat
    {n : Number}
    (hLevel : store.number? "level" = some n)
    (hOne : Number.le 1 n = true) :
    book.IsLevelTotal store
      (n.clampToNat (highestLevel book)) where
  given m hSome _ := by
    rw [hLevel] at hSome
    cases hSome
    exact Number.ofNat_clampToNat hOne (highestLevel book)
  positive := Number.one_le_clampToNat hOne (Nat.le_max_left 1 _)
  bounded := Number.clampToNat_le n (highestLevel book)

theorem isLevelTotal_of_not_given
    (hNot : ∀ n, store.number? "level" = some n →
      Number.le 1 n = false)
    (h : 1 ≤ total ∧ total ≤ highestLevel book) :
    book.IsLevelTotal store total where
  given n hLevel hOne := by
    rw [hNot n hLevel] at hOne
    cases hOne
  positive := h.1
  bounded := h.2

theorem ensures_isLevelTotal (store : Store) :
    Random.Ensures (Random.totalLevel book store)
      (book.IsLevelTotal store) := by
  have hDrawn := Random.ensures_between
    (Nat.le_max_left 1 book.settings.maxRandomLevel)
  unfold Random.totalLevel
  cases hLevel : store.number? "level" with
  | none =>
      refine hDrawn.mono fun total h => ?_
      apply isLevelTotal_of_not_given _ h
      rw [hLevel]
      nofun
  | some n =>
      dsimp only
      split
      · next hOne =>
          exact Random.ensures_pure
            (isLevelTotal_clampToNat hLevel hOne)
      · next hLess =>
          refine hDrawn.mono fun total h => ?_
          apply isLevelTotal_of_not_given _ h
          rintro m hSome
          rw [hLevel] at hSome
          cases hSome
          exact Bool.eq_false_iff.mpr hLess

------------------------------------------------------------
-- Divisions
------------------------------------------------------------

/-
  A total of levels is divided among one registered class or
  two of them.  The note of the second class is not truthy on
  the sheet for one level there, with the others in the first
  class.
-/
structure IsDivided
    (book : Rulebook)
    (store : Store)
    (total : Nat)
    (levels : List (String × Nat))
    (final : Store) : Prop where
  held : store.HoldsLevels levels final
  few : levels.length = 1 ∨ levels.length = 2
  registered : ∀ entry ∈ levels,
    entry.1 ∈ book.choiceNames .characterClass ∧ 0 < entry.2
  sum : (levels.map (·.2)).sum = total
  qualified : ∀ first second, levels = [first, second] →
    (book.sheet
      ((final.insert (classKey first.1) (.ofNat (total - 1))).insert
        (classKey second.1) (.ofNat 1))).truthy
          (classNote second.1) = false

/- One class has all levels. -/
theorem isDivided_one
    {first : String}
    (hFirst : first ∈ book.choiceNames .characterClass)
    (hTotal : 1 ≤ total) :
    book.IsDivided store total [(first, total)]
      ((withoutLevels store).insert (classKey first)
        (.ofNat total)) where
  held := (holdsLevels_withoutLevels store).insert nofun total
  few := .inl rfl
  registered entry hEntry := by
    rw [List.mem_singleton.mp hEntry]
    exact ⟨hFirst, hTotal⟩
  sum := List.sum_singleton
  qualified first second hPair := by cases hPair

/- Two classes have all levels between them. -/
theorem isDivided_two
    {first second : String}
    {n : Nat}
    (hFirst : first ∈ book.choiceNames .characterClass)
    (hSecond : second ∈ book.choiceNames .characterClass)
    (hApart : second ≠ first)
    (hPositive : 1 ≤ n)
    (hLess : n < total)
    (hQualifies :
      (book.sheet
        (((withoutLevels store).insert (classKey first)
          (.ofNat (total - 1))).insert (classKey second)
            (.ofNat 1))).truthy (classNote second) = false) :
    book.IsDivided store total
      [(first, n), (second, total - n)]
      (((withoutLevels store).insert (classKey first)
        (.ofNat n)).insert (classKey second)
          (.ofNat (total - n))) where
  held := by
    have hOne : store.HoldsLevels [(first, n)]
        ((withoutLevels store).insert (classKey first)
          (.ofNat n)) :=
      (holdsLevels_withoutLevels store).insert nofun n
    apply hOne.insert
    simpa using hApart
  few := .inr rfl
  registered := by
    simp only [List.forall_mem_cons]
    exact ⟨⟨hFirst, hPositive⟩, ⟨hSecond, by omega⟩, nofun⟩
  sum := by
    change n + (total - n + 0) = total
    omega
  qualified _ _ hPair := by
    cases hPair
    rw [Store.insert_insert_insert_insert]
    exact hQualifies

------------------------------------------------------------
-- Random Divisions
------------------------------------------------------------

theorem qualifies_of_qualifyingClass?
    {classes : List String}
    {name : String}
    (h : qualifyingClass? book plan store classes = some name) :
    name ∈ classes ∧
      (plan.sheet
        (store.insert (classKey name) (.ofNat 1))).truthy
          (classNote name) = false := by
  have hFound := List.find?_some h
  have hTaken := List.mem_of_find?_eq_some h
  exact ⟨List.mem_of_mem_take hTaken, by simpa using hFound⟩

/- Where a second class is tried, all levels are divided. -/
theorem ensures_isDivided_addSecondClass
    {first : String}
    {others : List String}
    (hFirst : first ∈ book.choiceNames .characterClass)
    (hOthers : ∀ name ∈ others,
      name ∈ book.choiceNames .characterClass ∧ name ≠ first)
    (hTotal : 2 ≤ total) :
    Random.Ensures
      (Random.addSecondClass book book.plan first others total
        ((withoutLevels store).insert (classKey first)
          (.ofNat total)))
      fun final => ∃ levels,
        book.IsDivided store total levels final := by
  unfold Random.addSecondClass
  dsimp only
  rw [Store.insert_insert_self]
  split
  · rw [Store.insert_insert_self]
    exact Random.ensures_pure ⟨_, isDivided_one hFirst (by omega)⟩
  · next second hSome =>
      rcases qualifies_of_qualifyingClass? hSome with
        ⟨hSecond, hQualifies⟩
      rcases hOthers second hSecond with ⟨hName, hApart⟩
      have hBound : 1 ≤ total - 1 := by omega
      refine (Random.ensures_between hBound).bind ?_
      intro n hn
      rw [Store.insert_insert_self]
      exact Random.ensures_pure ⟨_,
        isDivided_two hFirst hName hApart hn.1 (by omega)
          hQualifies⟩

/- So they are in any case, whichever class comes first. -/
theorem ensures_isDivided_divideLevels
    (hClasses : book.choiceNames .characterClass ≠ [])
    (hTotal : 1 ≤ total) :
    Random.Ensures
      (Random.divideLevels book book.plan
        (book.choiceNames .characterClass) total
        (withoutLevels store))
      fun final => ∃ levels,
        book.IsDivided store total levels final := by
  refine (Random.ensures_shuffle _).bind ?_
  intro classes hPerm
  have hFirst :
      (qualifyingClass? book book.plan (withoutLevels store)
        classes).getD (classes.headD "") ∈
          book.choiceNames .characterClass := by
    apply hPerm.subset
    cases hSome : qualifyingClass? book book.plan
        (withoutLevels store) classes with
    | some name => exact (qualifies_of_qualifyingClass? hSome).1
    | none =>
        cases classes with
        | nil => exact absurd hPerm.nil_eq.symm hClasses
        | cons name names => exact List.mem_cons_self
  dsimp only
  split
  · exact Random.ensures_pure ⟨_, isDivided_one hFirst hTotal⟩
  · next hTwo =>
      refine (Random.ensures_true _).bind ?_
      intro chosen _
      split
      · apply ensures_isDivided_addSecondClass hFirst
        · intro name hName
          rcases List.mem_filter.mp hName with ⟨hIn, hApart⟩
          exact ⟨hPerm.subset hIn, of_decide_eq_true hApart⟩
        · omega
      · exact Random.ensures_pure ⟨_, isDivided_one hFirst hTotal⟩

/-
  Where a class is registered, the levels that are given at
  random come to the level that was set, or to a total drawn,
  and are those of one class or two, whatever the source.
-/
theorem ensures_isDivided_fill_levels
    (hClasses : book.choiceNames .characterClass ≠ [])
    (store : Store) :
    Random.Ensures (book.fill .levels store) fun final =>
      ∃ total levels, book.IsLevelTotal store total ∧
        book.IsDivided store total levels final := by
  change Random.Ensures (Random.levels book book.plan store) _
  rw [Random.levels, if_neg (by simpa using hClasses)]
  refine (ensures_isLevelTotal store).bind ?_
  intro total hTotal
  refine (ensures_isDivided_divideLevels hClasses
    hTotal.positive).mono ?_
  intro final hDivided
  exact ⟨total, hDivided.choose, hTotal, hDivided.choose_spec⟩

/-
  Five levels, and others in a class that is unknown, become
  five levels of the one class that is registered.
-/
theorem levels_fighter :
    let book :=
      (Rulebook.empty .standard).registerText .characterClass
        "Fighter" ""
    let store : Store :=
      .ofList [("level", Value.ofNat 5),
        ("levels.Rogue", .ofNat 2), ("strength", .ofNat 14)]
    book.choiceNames .characterClass ≠ [] ∧
      ∀ source,
        let final := ((book.fill .levels store).run source).1
        final.under "levels" = [("levels.Fighter", .ofNat 5)] ∧
          final["level"]? = none ∧
            final["strength"]? = store["strength"]? := by
  intro book store
  have hNames : book.choiceNames .characterClass = ["Fighter"] := by
    decide +kernel
  have hClasses : book.choiceNames .characterClass ≠ [] := by
    rw [hNames]
    nofun
  refine ⟨hClasses, ?_⟩
  intro source final
  rcases ensures_isDivided_fill_levels hClasses store source with
    ⟨total, levels, hTotal, hDivided⟩
  have hFive : total = 5 := by
    have hGiven := hTotal.given (.ofNat 5) (by decide +kernel)
      (by decide)
    have hLimit : book.settings.maxRandomLevel = 20 := by
      decide +kernel
    rw [hLimit] at hGiven
    have hInteger := congrArg Number.integer? hGiven
    have hLeft := Number.integer?_ofWhole (some (total : Int))
    have hRight :
        ((Number.ofNat 5).floor.min (.ofNat 20)).integer? =
          some 5 := by
      decide +kernel
    have hCast : (total : Int) = 5 :=
      Option.some.inj (hLeft.symm.trans (hInteger.trans hRight))
    exact_mod_cast hCast
  have hFighter : ∀ entry ∈ levels, entry.1 = "Fighter" := by
    intro entry hEntry
    have hName := (hDivided.registered entry hEntry).1
    rwa [hNames, List.mem_singleton] at hName
  have hLevels : levels = [("Fighter", 5)] := by
    match levels, hDivided.few, hDivided.held.distinct,
      hDivided.sum, hFighter with
    | [(name, n)], _, _, hSum, hFighter =>
        have hName : name = "Fighter" :=
          hFighter (name, n) List.mem_cons_self
        have hSum : n + 0 = total := hSum
        rw [hName, ← hFive, ← hSum]
        rfl
    | [(name, n), (name', n')], _, hDistinct, _, hFighter =>
        simp_all
  have hStored := hDivided.held.stored
  rw [hLevels] at hStored
  refine ⟨List.perm_singleton.mp hStored, hDivided.held.taken, ?_⟩
  exact hDivided.held.others "strength" (by decide)
    (by decide +kernel)

end Rulebook

end CharSheet
