import CharSheet.Proofs.Choice.Registry
import CharSheet.Proofs.Number.Floor
import CharSheet.Proofs.Random.Levels
import CharSheet.Proofs.Sheet.Locality

/-
  Spells that are learned at random.

  The spells of a slot are those whose keys end with the name
  of the slot in brackets.  Where no level of a spell has a
  bracket, these are the spells that are listed there, and no
  spell is listed at two slots under one key.  So each slot is
  filled on its own.

  Main declarations:
    * `Text.endsWith_iff`
    * `Rulebook.spellsAt`
    * `Rulebook.HasPlainLevels`
    * `Rulebook.filter_spellKeys`
    * `Store.Learns`
    * `Random.ensures_learnSpells`
    * `Rulebook.FillsSlots`
    * `Command.ensures_filled_fill_spells`
-/

namespace CharSheet

------------------------------------------------------------
-- Endings
------------------------------------------------------------

namespace Text

theorem endsWith_iff
    {s ending : String} :
    endsWith s ending = true ↔ ending.toList <:+ s.toList := by
  rw [endsWith, beginsWith_iff, List.reverse_prefix]

/- What stands after the last place of a character. -/
theorem eq_of_append_cons_eq
    {c : Char}
    {as bs cs ds : List Char}
    (hBs : c ∉ bs)
    (hDs : c ∉ ds)
    (h : as ++ c :: bs = cs ++ c :: ds) :
    bs = ds := by
  have hLast
      {more bs ds : List Char}
      (hBs : c ∉ bs)
      (h : c :: bs = more ++ c :: ds) :
      bs = ds := by
    cases more with
    | nil => exact (List.cons.inj h).2
    | cons d more =>
        rw [(List.cons.inj h).2] at hBs
        simp at hBs
  rcases List.append_eq_append_iff.mp h with
    ⟨more, -, hRest⟩ | ⟨more, -, hRest⟩
  · exact hLast hBs hRest
  · exact (hLast hDs hRest).symm

/- A group in brackets is all that a name with it ends in. -/
theorem endsWith_withGroup_iff
    {scope name group slot : String}
    (hGroup : '(' ∉ group.toList)
    (hSlot : '(' ∉ slot.toList) :
    endsWith (Key.under scope (withGroup name (some group)))
        ("(" ++ slot ++ ")") = true ↔
      group = slot := by
  have hBrackets (s : String) :
      ("(" ++ s ++ ")").toList = '(' :: (s.toList ++ [')']) := by
    simp
  have hKey :
      (Key.under scope (withGroup name (some group))).toList =
        (Key.under scope (name ++ " ")).toList ++
          '(' :: (group.toList ++ [')']) := by
    simp [Key.toList_under, withGroup]
  rw [endsWith_iff, hKey, hBrackets]
  constructor
  · rintro ⟨before, hEq⟩
    have hNone {s : String} (h : '(' ∉ s.toList) :
        '(' ∉ s.toList ++ [')'] := by
      simpa using h
    have hSame := eq_of_append_cons_eq (hNone hSlot)
      (hNone hGroup) hEq
    exact (String.toList_inj.mp
      (List.append_left_injective _ hSame)).symm
  · rintro rfl
    exact List.suffix_append _ _

end Text

------------------------------------------------------------
-- Listed Spells
------------------------------------------------------------

/-
  The keys of the registered spells that are listed at a
  level, which has a slot of the same name.
-/
def Rulebook.spellsAt
    (book : Rulebook)
    (slot : String) : List Key :=
  ((book.choicesOf .spell).filter fun c =>
    slot ∈ c.list "Level").map fun c =>
      Key.under "spells" (withGroup c.name (some slot))

/-
  No spell is listed twice at one level, and there is no
  bracket in the name of a level.
-/
def Rulebook.HasPlainLevels (book : Rulebook) : Prop :=
  ∀ c ∈ book.choicesOf .spell,
    (c.list "Level").Nodup ∧
      ∀ level ∈ c.list "Level", '(' ∉ level.toList

/- The keys of a spell that end with the name of a slot. -/
theorem Choice.filter_spellKeys
    {c : Choice}
    {slot : String}
    (hDistinct : (c.list "Level").Nodup)
    (hLevels : ∀ level ∈ c.list "Level", '(' ∉ level.toList)
    (hSlot : '(' ∉ slot.toList) :
    c.spellKeys.filter
        (Text.endsWith · ("(" ++ slot ++ ")")) =
      if slot ∈ c.list "Level" then
        [Key.under "spells" (withGroup c.name (some slot))]
      else [] := by
  have hEnds :
      (c.list "Level").filter
          ((Text.endsWith · ("(" ++ slot ++ ")")) ∘ fun level =>
            Key.under "spells" (withGroup c.name (some level))) =
        (c.list "Level").filter (· = slot) := by
    apply List.filter_congr
    intro level hLevel
    rw [Bool.eq_iff_iff, Function.comp_apply, decide_eq_true_iff]
    exact Text.endsWith_withGroup_iff (hLevels level hLevel) hSlot
  rw [spellKeys, List.filter_map, hEnds, List.filter_eq,
    hDistinct.count]
  split
  · rfl
  · rfl

namespace Rulebook

variable {book : Rulebook}
variable {slot slot' : String}
variable {key : Key}

section Listed

variable (hLevels : ∀ c ∈ book.choicesOf .spell,
  (c.list "Level").Nodup ∧
    ∀ level ∈ c.list "Level", '(' ∉ level.toList)

include hLevels

/- So the endings of keys tell which spells are listed. -/
theorem filter_spellKeys
    (hSlot : '(' ∉ slot.toList) :
    ((book.choicesOf .spell).flatMap Choice.spellKeys).filter
        (Text.endsWith · ("(" ++ slot ++ ")")) =
      book.spellsAt slot := by
  have hEach :
      ∀ c ∈ book.choicesOf .spell,
        c.spellKeys.filter
            (Text.endsWith · ("(" ++ slot ++ ")")) =
          if slot ∈ c.list "Level" then
            [Key.under "spells" (withGroup c.name (some slot))]
          else [] :=
    fun c hc =>
      Choice.filter_spellKeys (hLevels c hc).1 (hLevels c hc).2
        hSlot
  rw [List.filter_flatMap, List.flatMap_congr hEach, spellsAt]
  induction book.choicesOf .spell with
  | nil => rfl
  | cons c cs ih =>
      rw [List.flatMap_cons, ih]
      by_cases hListed : slot ∈ c.list "Level"
      · simp [hListed]
      · simp [hListed]

/- No key is listed at two slots. -/
theorem eq_of_mem_spellsAt
    (hKey : key ∈ book.spellsAt slot)
    (hKey' : key ∈ book.spellsAt slot') :
    slot = slot' := by
  rcases List.mem_map.mp hKey with ⟨c, hc, rfl⟩
  rcases List.mem_map.mp hKey' with ⟨c', hc', hSame⟩
  rcases List.mem_filter.mp hc with ⟨hIn, hListed⟩
  rcases List.mem_filter.mp hc' with ⟨hIn', hListed'⟩
  have hSlot := (hLevels c hIn).2 slot (of_decide_eq_true hListed)
  have hSlot' :=
    (hLevels c' hIn').2 slot' (of_decide_eq_true hListed')
  apply (Text.endsWith_withGroup_iff hSlot hSlot').mp
  rw [← hSame]
  exact (Text.endsWith_withGroup_iff hSlot' hSlot').mpr rfl

end Listed

/- Spells of different names have different keys. -/
theorem nodup_spellsAt
    (hNames : (book.choiceNames .spell).Nodup)
    (slot : String) :
    (book.spellsAt slot).Nodup := by
  have hKept :
      (((book.choicesOf .spell).filter fun c =>
        slot ∈ c.list "Level").map Choice.name).Nodup :=
    (List.filter_sublist.map Choice.name).nodup hNames
  have hKeys :
      book.spellsAt slot =
        (((book.choicesOf .spell).filter fun c =>
          slot ∈ c.list "Level").map Choice.name).map fun name =>
            Key.under "spells" (withGroup name (some slot)) := by
    rw [List.map_map]
    rfl
  rw [hKeys]
  refine hKept.map fun name name' hSame => ?_
  have hGroup := (Key.under_inj (by decide) (by decide) hSame).2
  have hList := congrArg String.toList hGroup
  simp only [withGroup, String.toList_append,
    List.append_assoc] at hList
  exact String.toList_inj.mp (List.append_cancel_right hList)

theorem length_spellsAt_le
    (book : Rulebook)
    (slot : String) :
    (book.spellsAt slot).length ≤ book.choices.length := by
  rw [spellsAt, List.length_map]
  refine (List.length_filter_le _ _).trans ?_
  rw [choicesOf, List.length_mergeSort]
  exact List.length_filter_le _ _

end Rulebook

------------------------------------------------------------
-- Learning
------------------------------------------------------------

/-
  Spells of a list have been learned: of those that were not
  known, as many as are missing from a count.
-/
structure Store.Learns
    (before : Store)
    (listed : List Key)
    (count : Number)
    (after : Store) : Prop where
  known : listed.countP after.truthy =
    max (listed.countP before.truthy)
      (count.clampToNat listed.length)
  changed : ∀ key : Key, after[key]? ≠ before[key]? →
    key ∈ listed ∧ before.truthy key = false

/- What is learned is one, and all else is as before. -/
theorem Store.getElem?_learned
    (keys : List Key)
    (store : Store)
    (key : Key) :
    (keys.foldl (fun store key => store.insert key (.ofNat 1))
        store)[key]? =
      if key ∈ keys then some (.ofNat 1) else store[key]? := by
  induction keys generalizing store with
  | nil => rfl
  | cons k keys ih =>
      rw [List.foldl_cons, ih, Std.ExtTreeMap.getElem?_insert]
      by_cases hIn : key ∈ keys
      · simp [hIn]
      · by_cases hSame : k = key
        · simp [hSame]
        · simp [hIn, hSame, Ne.symm hSame]

section Learned

variable {store : Store}
variable {listed unknown : List Key}
variable (hUnknown :
  unknown.Perm (listed.filter (!store.truthy ·)))

include hUnknown

/- Some spells that were not known are known afterwards. -/
theorem Store.countP_learned
    (hDistinct : listed.Nodup)
    (n : Nat) :
    listed.countP
        (Store.truthy ((unknown.take n).foldl
          (fun store key => store.insert key (.ofNat 1)) store)) =
      listed.countP store.truthy + min n unknown.length := by
  have hTruthy (key : Key) :
      Store.truthy ((unknown.take n).foldl
          (fun store key => store.insert key (.ofNat 1)) store)
        key = (decide (key ∈ unknown.take n) ||
          store.truthy key) := by
    have hOne : (Value.ofNat 1).truthy = true := by decide
    rw [Store.truthy, getElem?_learned]
    by_cases hIn : key ∈ unknown.take n
    · simp [hIn, hOne]
    · simp [hIn, Store.truthy]
  have hParts :
      (listed.filter store.truthy ++
        (unknown.take n ++ unknown.drop n)).Perm listed := by
    rw [List.take_append_drop]
    exact (hUnknown.append_left _).trans
      (List.filter_append_perm store.truthy listed)
  have hNodup : (unknown.take n ++ unknown.drop n).Nodup := by
    rw [List.take_append_drop, hUnknown.nodup_iff]
    exact hDistinct.filter _
  have hKnown : ∀ key ∈ listed.filter store.truthy,
      (decide (key ∈ unknown.take n) ||
        store.truthy key) = true := by
    intro key hKey
    rw [(List.mem_filter.mp hKey).2, Bool.or_true]
  have hTaken : ∀ key ∈ unknown.take n,
      (decide (key ∈ unknown.take n) ||
        store.truthy key) = true := by
    intro key hKey
    rw [decide_eq_true hKey, Bool.true_or]
  have hLeft : ∀ key ∈ unknown.drop n,
      ¬ (decide (key ∈ unknown.take n) ||
        store.truthy key) = true := by
    intro key hKey
    have hNot : key ∉ unknown.take n := fun hIn =>
      (List.nodup_append.mp hNodup).2.2 key hIn key hKey rfl
    have hFalse := (List.mem_filter.mp
      (hUnknown.subset (List.mem_of_mem_drop hKey))).2
    rw [Bool.not_eq_true'] at hFalse
    rw [decide_eq_false hNot, hFalse]
    nofun
  rw [funext hTruthy, ← hParts.countP_eq, List.countP_append,
    List.countP_append, List.countP_eq_length.mpr hKnown,
    List.countP_eq_length.mpr hTaken,
    List.countP_eq_zero.mpr hLeft, List.length_take,
    ← List.countP_eq_length_filter, Nat.add_zero]

/- Those that are missing are learned, if there are so many. -/
theorem Store.learns_learned
    (hDistinct : listed.Nodup)
    (hFew : listed.length < Nat.pow 2 64)
    (count : Number) :
    store.Learns listed count
      ((unknown.take (count.clampToNat (Nat.pow 2 64 - 1) -
          listed.countP store.truthy)).foldl
        (fun store key => store.insert key (.ofNat 1)) store)
          where
  known := by
    have hSplit :
        listed.length =
          listed.countP store.truthy + unknown.length := by
      rw [hUnknown.length_eq, ← List.countP_eq_length_filter]
      simpa using List.length_eq_countP_add_countP store.truthy
    have hLimit := Number.min_clampToNat
      (Nat.le_pred_of_lt hFew) count
    rw [countP_learned hUnknown hDistinct, ← hLimit]
    change _ = max _ (min (count.clampToNat (Nat.pow 2 64 - 1)) _)
    omega
  changed key hChanged := by
    rw [getElem?_learned] at hChanged
    split at hChanged
    · next hIn =>
        have hKey := List.mem_filter.mp
          (hUnknown.subset (List.mem_of_mem_take hIn))
        exact ⟨hKey.1, by simpa using hKey.2⟩
    · exact absurd rfl hChanged

end Learned

/- The spells of a slot are learned, whatever the source. -/
theorem Random.ensures_learnSpells
    {spells listed : List Key}
    {slot : String}
    (hListed : spells.filter
      (Text.endsWith · ("(" ++ slot ++ ")")) = listed)
    (hDistinct : listed.Nodup)
    (hFew : listed.length < Nat.pow 2 64)
    (store : Store)
    (count : Number) :
    Ensures (learnSpells spells store slot count)
      (store.Learns listed count) := by
  unfold learnSpells
  rw [hListed]
  refine (ensures_shuffle _).bind ?_
  intro unknown hUnknown
  exact ensures_pure
    (Store.learns_learned hUnknown hDistinct hFew count)

------------------------------------------------------------
-- Slots
------------------------------------------------------------

namespace Store

variable {s : Store}
variable {scope : String}

/- Attributes under a scope differ in their names. -/
theorem nodup_map_name_under
    (s : Store)
    (scope : String) :
    ((s.under scope).map (·.1.name)).Nodup := by
  refine (nodup_under s scope).map_on ?_
  rintro ⟨key, v⟩ hEntry ⟨key', v'⟩ hEntry' hName
  rcases mem_under_iff.mp hEntry with ⟨hSome, hUnder⟩
  rcases mem_under_iff.mp hEntry' with ⟨hSome', hUnder'⟩
  obtain rfl : key = key' :=
    (Key.eq_under_of_isUnder hUnder).trans
      ((congrArg (Key.under scope) hName).trans
        (Key.eq_under_of_isUnder hUnder').symm)
  cases hSome.symm.trans hSome'
  rfl

/- What has a number is among the attributes of its scope. -/
theorem exists_mem_under_of_number?
    {name : String}
    {x : Number}
    (hScope : Key.IsRoot scope)
    (h : s.number? (.under scope name) = some x) :
    ∃ entry ∈ s.under scope,
      entry.1.name = name ∧ entry.2.number? = some x := by
  rcases Option.bind_eq_some_iff.mp h with ⟨v, hSome, hNumber⟩
  exact ⟨(.under scope name, v),
    mem_under_iff.mpr ⟨hSome, Key.isUnder_under hScope name⟩,
    Key.name_under hScope name, hNumber⟩

end Store

/- Attributes that are as before are as truthy as before. -/
theorem Store.countP_truthy_congr
    {before after : Store}
    {keys : List Key}
    (h : ∀ key ∈ keys, after[key]? = before[key]?) :
    keys.countP after.truthy = keys.countP before.truthy := by
  apply List.countP_congr
  intro key hKey
  rw [Store.truthy, Store.truthy, h key hKey]

namespace Rulebook

/-
  Slots have been filled: at each one with a count, as many
  of the spells there are known as the count asks for, or as
  there are, but none less than before.  Nothing else is
  changed.
-/
structure FillsSlots
    (book : Rulebook)
    (slots : List (Key × Value))
    (before after : Store) : Prop where
  known : ∀ entry ∈ slots, ∀ count,
    entry.2.number? = some count →
      let listed := book.spellsAt entry.1.name
      listed.countP after.truthy =
        max (listed.countP before.truthy)
          (count.clampToNat listed.length)
  changed : ∀ key : Key, after[key]? ≠ before[key]? →
    before.truthy key = false ∧
      ∃ entry ∈ slots, entry.2.number?.isSome = true ∧
        key ∈ book.spellsAt entry.1.name

variable {book : Rulebook}
variable {entry : Key × Value}
variable {slots : List (Key × Value)}
variable {before between after : Store}
variable {count : Number}

theorem fillsSlots_nil
    (book : Rulebook)
    (store : Store) :
    book.FillsSlots [] store store where
  known := nofun
  changed _ hChanged := absurd rfl hChanged

/- A slot without a count is left as it is. -/
theorem FillsSlots.cons_of_none
    (hNone : entry.2.number? = none)
    (h : book.FillsSlots slots before after) :
    book.FillsSlots (entry :: slots) before after where
  known e he count hCount := by
    rcases List.mem_cons.mp he with rfl | hRest
    · rw [hNone] at hCount
      cases hCount
    · exact h.known e hRest count hCount
  changed key hChanged := by
    rcases h.changed key hChanged with ⟨hFalse, e, he, hKey⟩
    exact ⟨hFalse, e, List.mem_cons_of_mem entry he, hKey⟩

/- A slot with a count is filled apart from all others. -/
theorem FillsSlots.cons_of_some
    (hCount : entry.2.number? = some count)
    (hApart : ∀ e ∈ slots, ∀ key ∈ book.spellsAt entry.1.name,
      key ∉ book.spellsAt e.1.name)
    (hLearns : before.Learns (book.spellsAt entry.1.name) count
      between)
    (h : book.FillsSlots slots between after) :
    book.FillsSlots (entry :: slots) before after where
  known e he count' hCount' := by
    rcases List.mem_cons.mp he with rfl | hRest
    · rw [hCount] at hCount'
      cases hCount'
      have hLater : ∀ key ∈ book.spellsAt e.1.name,
          after[key]? = between[key]? := by
        intro key hKey
        by_contra hChanged
        rcases (h.changed key hChanged).2 with
          ⟨e', he', -, hKey'⟩
        exact hApart e' he' key hKey hKey'
      dsimp only
      rw [Store.countP_truthy_congr hLater]
      exact hLearns.known
    · have hEarlier : ∀ key ∈ book.spellsAt e.1.name,
          between[key]? = before[key]? := by
        intro key hKey
        by_contra hChanged
        exact hApart e hRest key (hLearns.changed key hChanged).1
          hKey
      have hKnown := h.known e hRest count' hCount'
      dsimp only at hKnown ⊢
      rwa [Store.countP_truthy_congr hEarlier] at hKnown
  changed key hChanged := by
    by_cases hSame : between[key]? = before[key]?
    · rw [← hSame] at hChanged
      rcases h.changed key hChanged with ⟨hFalse, e, he, hKey⟩
      rw [Store.truthy, hSame] at hFalse
      exact ⟨hFalse, e, List.mem_cons_of_mem entry he, hKey⟩
    · rcases hLearns.changed key hSame with ⟨hKey, hFalse⟩
      exact ⟨hFalse, entry, List.mem_cons_self,
        Option.isSome_of_mem hCount, hKey⟩

/- Slots of different names are filled one after another. -/
theorem ensures_fillsSlots
    (hNames : (book.choiceNames .spell).Nodup)
    (hLevels : book.HasPlainLevels)
    (hFew : book.choices.length < Nat.pow 2 64)
    (hSlots : ∀ entry ∈ slots, '(' ∉ entry.1.name.toList)
    (hDistinct : (slots.map (·.1.name)).Nodup)
    (store : Store) :
    Random.Ensures
      (slots.foldlM
        (fun store (key, v) =>
          match v.number? with
          | none => return store
          | some count =>
              Random.learnSpells
                ((book.choicesOf .spell).flatMap Choice.spellKeys)
                store key.name count)
        store)
      (book.FillsSlots slots store) := by
  induction slots generalizing store with
  | nil => exact Random.ensures_pure (fillsSlots_nil book store)
  | cons entry slots ih =>
      rcases List.forall_mem_cons.mp hSlots with ⟨hSlot, hSlots⟩
      rw [List.map_cons, List.nodup_cons] at hDistinct
      have hRest := ih hSlots hDistinct.2
      rw [List.foldlM_cons]
      dsimp only
      cases hCount : entry.2.number? with
      | none =>
          dsimp only
          rw [pure_bind]
          exact (hRest store).mono fun after h =>
            h.cons_of_none hCount
      | some count =>
          have hApart :
              ∀ e ∈ slots, ∀ key ∈ book.spellsAt entry.1.name,
                key ∉ book.spellsAt e.1.name := by
            intro e he key hKey hKey'
            have hSame := eq_of_mem_spellsAt hLevels hKey hKey'
            exact hDistinct.1
              (List.mem_map.mpr ⟨e, he, hSame.symm⟩)
          dsimp only
          refine (Random.ensures_learnSpells
            (filter_spellKeys hLevels hSlot)
            (nodup_spellsAt hNames _)
            (lt_of_le_of_lt (length_spellsAt_le book _) hFew)
            store count).bind ?_
          intro between hLearns
          exact (hRest between).mono fun after h =>
            h.cons_of_some hCount hApart hLearns

end Rulebook

------------------------------------------------------------
-- Filling at Random
------------------------------------------------------------

namespace Command

open Rulebook

/-
  Whatever commands have led to a rulebook whose spells are
  listed plainly, whatever the inputs, if no slot on the sheet
  has a bracket in its name, and whatever the source: of the
  spells that are listed at a slot with a count, afterwards as
  many are known as before, or as the whole part of the count
  asks for, or as there are.  Only spells of such slots that
  were not known are changed.
-/
theorem ensures_filled_fill_spells
    (settings : Settings)
    (commands : List Command)
    {store : Store}
    (hLevels :
      (runAll none (Rulebook.empty settings)
        commands).HasPlainLevels)
    (hSlots :
      ∀ entry ∈ ((runAll none (Rulebook.empty settings)
        commands).sheet store).under "spellSlots",
          '(' ∉ entry.1.name.toList)
    (hFew :
      (runAll none (Rulebook.empty settings)
        commands).choices.length < Nat.pow 2 64) :
    let book := runAll none (Rulebook.empty settings) commands
    let count? := fun slot : String =>
      (book.sheet store).number? (.under "spellSlots" slot)
    Random.Ensures (book.fill .spells store) fun after =>
      (∀ slot count, count? slot = some count →
        let listed := book.spellsAt slot
        Number.ofNat (listed.countP after.truthy) =
          Number.max (.ofNat (listed.countP store.truthy))
            ((Number.max 0 count).floor.min
              (.ofNat listed.length))) ∧
        ∀ key : Key, after[key]? ≠ store[key]? →
          store.truthy key = false ∧
            ∃ slot, (count? slot).isSome = true ∧
              key ∈ book.spellsAt slot := by
  intro book count?
  let slots := (book.sheet store).under "spellSlots"
  have hNames := nodup_choiceNames_runAll settings commands .spell
  have hFills : Random.Ensures (book.fill .spells store)
      (book.FillsSlots slots store) :=
    ensures_fillsSlots hNames hLevels hFew hSlots
      (Store.nodup_map_name_under _ _) store
  refine hFills.mono fun after h => ⟨?_, ?_⟩
  · intro slot count hCount
    rcases Store.exists_mem_under_of_number? (by decide) hCount with
      ⟨entry, hEntry, hName, hNumber⟩
    have hKnown := h.known entry hEntry count hNumber
    dsimp only at hKnown ⊢
    rw [hName] at hKnown
    rw [hKnown, Number.ofNat_max, Number.ofNat_clampToNat_eq]
  · intro key hChanged
    rcases h.changed key hChanged with
      ⟨hFalse, entry, hEntry, hCount, hKey⟩
    refine ⟨hFalse, entry.1.name, ?_, hKey⟩
    rcases Store.mem_under_iff.mp hEntry with ⟨hSome, hUnder⟩
    change (Store.number? _ _).isSome = true
    rw [← Key.eq_under_of_isUnder hUnder, Store.number?, hSome]
    exact hCount

/-
  Of three spells, one is known and another is set to zero.
  With two slots and a half, one more is learned.
-/
theorem filled_fill_spells_wizard :
    let commands : List Command :=
      [.register .spell "Fire Bolt" "Level=W0",
        .register .spell "Light" "Level=W1",
        .register .spell "Shield" "Level=W1",
        .register .spell "Sleep" "Level=W1,C1"]
    let book := runAll none (Rulebook.empty .standard) commands
    let store : Store :=
      .ofList [("spellSlots.W1", .text "2.5"),
        ("spells.Shield (W1)", Value.ofNat 0),
        ("spells.Sleep (W1)", Value.ofNat 1)]
    book.HasPlainLevels ∧
      (∀ entry ∈ (book.sheet store).under "spellSlots",
        '(' ∉ entry.1.name.toList) ∧
        book.choices.length < Nat.pow 2 64 ∧
          ∀ source,
            let after :=
              ((book.fill .spells store).run source).1
            (book.spellsAt "W1").countP after.truthy = 2 ∧
              after["spells.Fire Bolt (W0)"]? = none := by
  intro commands book store
  have hRules : book.rules = [] := by decide +kernel
  have hSheet : book.sheet store = store :=
    sheet_eq_self (by decide +kernel) store
  -- The spells are registered in the order of their names.
  have hChoices : book.choicesOf .spell = book.choices :=
    choicesOf_eq_choices (by decide +kernel) (by decide +kernel)
  have hLevels : book.HasPlainLevels := by
    unfold HasPlainLevels
    rw [hChoices]
    decide +kernel
  have hListed : book.spellsAt "W1" =
      ["spells.Light (W1)", "spells.Shield (W1)",
        "spells.Sleep (W1)"] := by
    rw [spellsAt, hChoices]
    decide +kernel
  have hSlots :
      ∀ entry ∈ (book.sheet store).under "spellSlots",
        '(' ∉ entry.1.name.toList := by
    rw [hSheet]
    decide +kernel
  have hFew : book.choices.length < Nat.pow 2 64 := by
    decide +kernel
  refine ⟨hLevels, hSlots, hFew, fun source => ?_⟩
  intro after
  rcases ensures_filled_fill_spells .standard commands hLevels
      hSlots hFew source with
    ⟨hKnown, hChanged⟩
  constructor
  · have hNumber : (book.sheet store).number?
        (.under "spellSlots" "W1") =
          some (.finite (.ofOdd 5 1 rfl)) := by
      rw [hSheet]
      decide +kernel
    have hCount := hKnown _ _ hNumber
    dsimp only at hCount
    rw [hListed] at hCount ⊢
    have hTwo :
        Number.max
          (.ofNat (["spells.Light (W1)", "spells.Shield (W1)",
            "spells.Sleep (W1)"].countP store.truthy))
          ((Number.max 0 (.finite (.ofOdd 5 1 rfl))).floor.min
            (.ofNat 3)) = .ofNat 2 := by
      decide +kernel
    exact Number.ofNat_inj.mp (hCount.trans hTwo)
  · have hSame :
        after["spells.Fire Bolt (W0)"]? =
          store["spells.Fire Bolt (W0)"]? := by
      by_contra hNew
      rcases hChanged _ hNew with ⟨-, slot, hSlot, hKey⟩
      have hListed :
          "spells.Fire Bolt (W0)" ∈ book.spellsAt "W0" := by
        rw [spellsAt, hChoices]
        decide +kernel
      obtain rfl := eq_of_mem_spellsAt hLevels hKey hListed
      change ((book.sheet store).number? _).isSome = true at hSlot
      rw [hSheet] at hSlot
      revert hSlot
      decide +kernel
    rw [hSame]
    decide +kernel

end Command

end CharSheet
