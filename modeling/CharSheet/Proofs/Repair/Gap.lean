import CharSheet.Proofs.Random.Outcome
import CharSheet.Proofs.Sheet.Tally
import CharSheet.Repair

/-
  How far mending an allocation moves its members.

  Members are lowered until nothing is too much, or set while
  some are missing.  Each of them is looked at once, and the
  gap that is left is the gap before less the change, so the
  order in which they are drawn does not matter to the sum.

  Main declarations:
    * `Store.amount`, `Store.amounts`, `Store.IsCounted`
    * `Repair.ChangesOnly`
    * `Repair.Lowers`, `Repair.lowers_lower`
    * `Repair.Raises`, `Repair.raises_raise`
    * `Repair.closes_mendAllocation`
-/

namespace CharSheet

------------------------------------------------------------
-- Amounts
------------------------------------------------------------

namespace Store

variable {s t : Store}
variable {key : Key}
variable {keys keys' : List Key}

/- What an input counts for, which is nothing if absent. -/
def amount (s : Store) (key : Key) : Int :=
  s[key]?.elim 0 Value.count

/- What inputs count for together. -/
def amounts (s : Store) (keys : List Key) : Int :=
  (keys.map s.amount).sum

/- The input is absent, or a whole number that is a count. -/
def IsCounted (s : Store) (key : Key) : Prop :=
  ∀ v, s[key]? = some v → ∃ (x : Number) (n : Nat),
    v = .number x ∧ x.integer? = some (n : Int)

theorem amount_congr
    (h : t[key]? = s[key]?) :
    t.amount key = s.amount key := by
  rw [amount, amount, h]

theorem amounts_congr
    (h : ∀ key ∈ keys, t[key]? = s[key]?) :
    t.amounts keys = s.amounts keys := by
  unfold amounts
  congr 1
  exact List.map_congr_left fun key hKey =>
    amount_congr (h key hKey)

@[simp] theorem amounts_cons
    (s : Store)
    (key : Key)
    (keys : List Key) :
    s.amounts (key :: keys) = s.amount key + s.amounts keys := by
  simp [amounts]

/- What is not set counts for nothing. -/
theorem amount_of_not_truthy
    (h : s.truthy key = false) :
    s.amount key = 0 := by
  unfold truthy at h
  unfold amount
  cases hInput : s[key]? with
  | none => rfl
  | some v =>
      rw [hInput] at h
      exact Value.count_of_not_truthy h

/- Inputs that count for nothing may be left out. -/
theorem amounts_filter
    {isSet : Key → Bool}
    (h : ∀ key ∈ keys, isSet key = false → s.amount key = 0) :
    s.amounts (keys.filter isSet) = s.amounts keys := by
  induction keys with
  | nil => rfl
  | cons key keys ih =>
      rcases List.forall_mem_cons.mp h with ⟨hKey, hKeys⟩
      cases hSet : isSet key with
      | true =>
          rw [List.filter_cons_of_pos hSet, amounts_cons,
            amounts_cons, ih hKeys]
      | false =>
          rw [List.filter_cons_of_neg (by simp [hSet]),
            amounts_cons, hKey hSet, ih hKeys, Int.zero_add]

/- The order in which inputs are counted does not matter. -/
theorem amounts_perm
    (h : keys'.Perm keys)
    (s : Store) :
    s.amounts keys' = s.amounts keys :=
  (h.map s.amount).sum_eq

/- A whole number is counted as it is. -/
theorem amount_of_integer?
    {x : Number}
    {i : Int}
    (hInput : s[key]? = some (.number x))
    (hInteger : x.integer? = some i) :
    s.number? key = some x ∧ s.amount key = i := by
  have hNumber : (Value.number x).number? = some x := by
    rcases Number.exists_ofWhole_eq hInteger with ⟨a, rfl, -⟩
    rw [Value.number?, Number.isNaN_ofWhole]
    rfl
  constructor
  · rw [number?, hInput, Option.bind_some, hNumber]
  · rw [amount, hInput]
    change ((Value.number x).number?.bind _).getD 0 = i
    rw [hNumber, Option.bind_some, hInteger]
    rfl

/- Counted inputs do not count for less than nothing. -/
theorem IsCounted.amount_nonneg
    (h : s.IsCounted key) :
    0 ≤ s.amount key := by
  cases hInput : s[key]? with
  | none =>
      rw [amount, hInput]
      exact Int.le_refl 0
  | some v =>
      rcases h v hInput with ⟨x, n, rfl, hInteger⟩
      rw [(amount_of_integer? hInput hInteger).2]
      exact Int.natCast_nonneg n

theorem amounts_nonneg
    (h : ∀ key ∈ keys, s.IsCounted key) :
    0 ≤ s.amounts keys := by
  apply List.sum_nonneg
  intro i hi
  rcases List.mem_map.mp hi with ⟨key, hKey, rfl⟩
  exact (h key hKey).amount_nonneg

/- One that is set is read as the number that it counts for. -/
theorem IsCounted.exists_number?
    (h : s.IsCounted key)
    (hSet : s.truthy key = true) :
    ∃ x, s.number? key = some x ∧
      x.integer? = some (s.amount key) ∧ 0 < s.amount key := by
  cases hInput : s[key]? with
  | none => simp [truthy, hInput] at hSet
  | some v =>
      rcases h v hInput with ⟨x, n, rfl, hInteger⟩
      rcases amount_of_integer? hInput hInteger with
        ⟨hNumber, hAmount⟩
      have hPositive : n ≠ 0 := by
        rintro rfl
        rcases Number.exists_ofWhole_eq hInteger with
          ⟨a, rfl, hZero⟩
        rw [truthy, hInput] at hSet
        cases a with
        | none => cases hSet
        | some i =>
            obtain rfl : i = 0 := hZero
            cases hSet
      rw [hAmount]
      exact ⟨x, hNumber, hInteger, by omega⟩

end Store

namespace Repair

variable {p q : Repair}
variable {note key : Key}
variable {keys keys' : List Key}

------------------------------------------------------------
-- Changes
------------------------------------------------------------

/-
  Nothing but inputs of a list is changed, and those that do
  not count as changed are as before.
-/
structure ChangesOnly
    (keys : List Key)
    (p q : Repair) : Prop where
  others : ∀ key, key ∉ keys →
    q.hasChanged key = p.hasChanged key
  kept : ∀ key : Key,
    (key ∈ keys → q.hasChanged key = false) →
      q.store[key]? = p.store[key]?

theorem ChangesOnly.refl (keys : List Key) (p : Repair) :
    ChangesOnly keys p p :=
  ⟨fun _ _ => rfl, fun _ _ => rfl⟩

theorem getElem?_write
    (p : Repair)
    (note key : Key)
    (v : Option Value)
    (other : Key) :
    (p.write note key v).store[other]? =
      if key = other then v else p.store[other]? :=
  Store.getElem?_put p.store key other v

section Others

variable (hNot : key ∉ keys)

include hNot

/- Inputs that are not written are as before. -/
theorem getElem?_write_of_notMem
    (p : Repair)
    (note : Key)
    (v : Option Value) :
    ∀ other ∈ keys,
      (p.write note key v).store[other]? = p.store[other]? := by
  intro other hOther
  rw [getElem?_write, if_neg]
  rintro rfl
  exact hNot hOther

theorem hasChanged_write_of_notMem
    (p : Repair)
    (note : Key)
    (v : Option Value) :
    ∀ other ∈ keys,
      (p.write note key v).hasChanged other =
        p.hasChanged other := by
  intro other hOther
  rw [hasChanged_write, decide_eq_false, Bool.or_false]
  rintro rfl
  exact hNot hOther

end Others

section Write

variable {v : Option Value}
variable (h : ChangesOnly keys (p.write note key v) q)
variable (hNot : key ∉ keys)

include h hNot

/- What was written before has changed, and stays. -/
theorem ChangesOnly.hasChanged_written :
    q.hasChanged key = true := by
  rw [h.others key hNot, hasChanged_write]
  simp

theorem ChangesOnly.getElem?_written :
    q.store[key]? = v := by
  rw [h.kept key fun hIn => absurd hIn hNot, getElem?_write,
    if_pos rfl]

theorem ChangesOnly.cons :
    ChangesOnly (key :: keys) p q where
  others := by
    intro other hOther
    rcases not_or.mp (mt List.mem_cons.mpr hOther) with
      ⟨hNe, hRest⟩
    rw [h.others other hRest, hasChanged_write,
      decide_eq_false (Ne.symm hNe), Bool.or_false]
  kept := by
    intro other hUnchanged
    have hNe : key ≠ other := by
      rintro rfl
      have hFalse := hUnchanged List.mem_cons_self
      rw [h.hasChanged_written hNot] at hFalse
      cases hFalse
    rw [h.kept other fun hIn =>
        hUnchanged (List.mem_cons_of_mem key hIn),
      getElem?_write, if_neg hNe]

end Write

/- Changes of some inputs of a list are changes of the list. -/
theorem ChangesOnly.mono
    (h : ChangesOnly keys' p q)
    (hSub : ∀ key ∈ keys', key ∈ keys) :
    ChangesOnly keys p q where
  others := fun key hNot =>
    h.others key fun hIn => hNot (hSub key hIn)
  kept := fun key hUnchanged =>
    h.kept key fun hIn => hUnchanged (hSub key hIn)

------------------------------------------------------------
-- Lowering
------------------------------------------------------------

/-
  A surplus is taken from inputs of a list: they count for
  less by as much, or for nothing if they did not count for
  more.  None counts for more than before, and those that
  have changed are removed, but for one at most that is only
  reduced.
-/
structure Lowers
    (keys : List Key)
    (surplus : Int)
    (p q : Repair) : Prop extends ChangesOnly keys p q where
  total :
    q.store.amounts keys =
      max (p.store.amounts keys - surplus) 0
  le : ∀ key ∈ keys, q.store.amount key ≤ p.store.amount key
  removed : ∀ key ∈ keys, q.hasChanged key = true →
    q.store[key]? = none ∨
      0 < q.store.amount key ∧
        q.store.amount key < p.store.amount key
  reduced :
    (keys.filter fun key =>
      q.hasChanged key && q.store.contains key).length ≤ 1

/- The input is set, and may be lowered in this pass. -/
structure IsOpen (p : Repair) (key : Key) : Prop where
  unchanged : p.hasChanged key = false
  counted : p.store.IsCounted key
  isSet : p.store.truthy key = true
  limit : p.store.amount key ≤ Number.countLimit

/- Other inputs are open after one is written. -/
theorem isOpen_write
    (hNot : key ∉ keys)
    (hOpen : ∀ other ∈ keys, p.IsOpen other)
    (note : Key)
    (v : Option Value) :
    ∀ other ∈ keys, (p.write note key v).IsOpen other := by
  intro other hOther
  have hSame := getElem?_write_of_notMem hNot p note v other
    hOther
  rcases hOpen other hOther with
    ⟨hUnchanged, hCounted, hSet, hLimit⟩
  refine ⟨?_, ?_, ?_, ?_⟩
  · rw [hasChanged_write_of_notMem hNot p note v other hOther,
      hUnchanged]
  · rwa [Store.IsCounted, hSame]
  · rwa [Store.truthy, hSame]
  · rwa [Store.amount_congr hSame]

section Lowering

variable {excess : Number}
variable {e : Int}

/- Nothing is lowered if nothing is too much. -/
theorem lowers_zero
    (hOpen : ∀ key ∈ keys, p.IsOpen key) :
    Lowers keys 0 p p where
  toChangesOnly := .refl keys p
  total := by
    have hNonneg := Store.amounts_nonneg fun key hKey =>
      (hOpen key hKey).counted
    omega
  le := fun _ _ => Int.le_refl _
  removed := by
    intro key hKey hChanged
    rw [(hOpen key hKey).unchanged] at hChanged
    cases hChanged
  reduced := by
    rw [List.filter_eq_nil_iff.mpr]
    · exact Nat.zero_le 1
    · intro key hKey
      simp [(hOpen key hKey).unchanged]

theorem lower_of_le_zero
    (h : excess.le 0 = true)
    (note : Key)
    (keys : List Key)
    (p : Repair) :
    lower note excess keys p = p := by
  cases keys with
  | nil => rfl
  | cons key keys => rw [lower, if_pos h]

/- An input that counts for more is reduced, and is the last. -/
theorem lowers_reduce
    (hNot : key ∉ keys)
    (hRest : ∀ other ∈ keys, p.IsOpen other)
    (hPositive : 0 < e)
    (hLess : e < p.store.amount key)
    {y : Number}
    (hLeft : y.integer? = some (p.store.amount key - e))
    (note : Key) :
    Lowers (key :: keys) e p
      (p.write note key (some (.number y))) := by
  have hChanges : ChangesOnly keys
      (p.write note key (some (.number y)))
      (p.write note key (some (.number y))) := .refl _ _
  have hAll := hChanges.cons hNot
  have hAmount :=
    (Store.amount_of_integer? (hChanges.getElem?_written hNot)
      hLeft).2
  have hSame := getElem?_write_of_notMem hNot p note
    (some (.number y))
  have hOpen := isOpen_write hNot hRest note (some (.number y))
  generalize p.write note key (some (.number y)) = q at *
  refine ⟨hAll, ?_, ?_, ?_, ?_⟩
  · have hNonneg := Store.amounts_nonneg fun other hOther =>
      (hRest other hOther).counted
    rw [Store.amounts_cons, Store.amounts_cons, hAmount,
      Store.amounts_congr hSame]
    omega
  · refine List.forall_mem_cons.mpr ⟨by omega, ?_⟩
    exact fun other hOther =>
      (Store.amount_congr (hSame other hOther)).le
  · refine List.forall_mem_cons.mpr
      ⟨fun _ => Or.inr ⟨by omega, by omega⟩, ?_⟩
    intro other hOther hChanged
    rw [(hOpen other hOther).unchanged] at hChanged
    cases hChanged
  · have hNone : (keys.filter fun other =>
        q.hasChanged other && q.store.contains other) = [] := by
      apply List.filter_eq_nil_iff.mpr
      intro other hOther
      simp [(hOpen other hOther).unchanged]
    rw [List.filter_cons, hNone]
    split
    · exact Nat.le_refl 1
    · exact Nat.zero_le 1

/- One that does not is removed, and the others are lowered. -/
theorem lowers_remove
    (hNot : key ∉ keys)
    (hCounted : p.store.IsCounted key)
    (h : Lowers keys (e - p.store.amount key)
      (p.write note key none) q) :
    Lowers (key :: keys) e p q := by
  have hGone := h.getElem?_written hNot
  have hSame := getElem?_write_of_notMem hNot p note none
  have hZero : q.store.amount key = 0 := by
    rw [Store.amount, hGone]
    rfl
  refine ⟨h.cons hNot, ?_, ?_, ?_, ?_⟩
  · rw [Store.amounts_cons, Store.amounts_cons, hZero, h.total,
      Store.amounts_congr hSame]
    omega
  · refine List.forall_mem_cons.mpr ⟨?_, ?_⟩
    · rw [hZero]
      exact hCounted.amount_nonneg
    · intro other hOther
      rw [← Store.amount_congr (hSame other hOther)]
      exact h.le other hOther
  · refine List.forall_mem_cons.mpr ⟨fun _ => Or.inl hGone, ?_⟩
    intro other hOther
    rw [← Store.amount_congr (hSame other hOther)]
    exact h.removed other hOther
  · rw [List.filter_cons_of_neg]
    · exact h.reduced
    · rw [Std.ExtTreeMap.contains_eq_isSome_getElem?, hGone]
      simp

/-
  What is too much is taken from open inputs, each of them
  once: whoever comes first, the next ones are left with what
  is still too much.
-/
theorem lowers_lower
    (hNodup : keys.Nodup)
    (hOpen : ∀ key ∈ keys, p.IsOpen key)
    (hExcess : excess.integer? = some e)
    (hNonneg : 0 ≤ e)
    (hLimit : e ≤ Number.countLimit)
    (note : Key) :
    Lowers keys e p (lower note excess keys p) := by
  induction keys generalizing excess e p with
  | nil =>
      refine ⟨.refl [] p, ?_, nofun, nofun, Nat.zero_le 1⟩
      change (0 : Int) = max (0 - e) 0
      omega
  | cons key keys ih =>
      rcases List.nodup_cons.mp hNodup with ⟨hNot, hRest⟩
      by_cases hNone : e ≤ 0
      · obtain rfl : e = 0 := by omega
        rw [lower_of_le_zero
          ((Number.le_zero_iff_of_integer? hExcess).mpr hNone)]
        exact lowers_zero hOpen
      · rcases List.forall_mem_cons.mp hOpen with
          ⟨hKey, hOthers⟩
        rcases hKey.counted.exists_number? hKey.isSet with
          ⟨x, hNumber, hInteger, hPositive⟩
        have hSize := hKey.limit
        have hGoesOn : ¬ excess.le 0 = true :=
          mt (Number.le_zero_iff_of_integer? hExcess).mp hNone
        have hLess := Number.lt_iff_of_integer? hExcess hInteger
        have hNext : (excess.sub x).integer? =
            some (e - p.store.amount key) :=
          Number.integer?_sub hExcess hInteger (by omega)
        rw [lower, if_neg hGoesOn]
        dsimp only
        rw [hNumber, Option.getD_some]
        by_cases hMore : e < p.store.amount key
        · have hStops :=
            (Number.le_zero_iff_of_integer? hNext).mpr (by omega)
          rw [if_pos (hLess.mpr hMore),
            lower_of_le_zero hStops]
          exact lowers_reduce hNot hOthers (by omega) hMore
            (Number.integer?_sub hInteger hExcess (by omega))
            note
        · rw [if_neg (mt hLess.mp hMore)]
          exact lowers_remove hNot hKey.counted
            (ih hRest (isOpen_write hNot hOthers note none)
              hNext (by omega) (by omega))

end Lowering

------------------------------------------------------------
-- Raising
------------------------------------------------------------

/-
  As many of some candidates in a list as are missing, or all
  if there are fewer, are set to one.
-/
structure Raises
    (keys candidates : List Key)
    (missing : Int)
    (p q : Repair) : Prop extends ChangesOnly keys p q where
  raised : ∀ key ∈ keys, q.hasChanged key = true →
    key ∈ candidates ∧ q.store[key]? = some (.ofNat 1)
  number :
    ((keys.filter q.hasChanged).length : Int) =
      min missing candidates.length

/- Nothing is set if nothing is missing. -/
theorem raises_zero
    (hUnchanged : ∀ key ∈ keys, p.hasChanged key = false)
    (candidates : List Key) :
    Raises keys candidates 0 p p where
  toChangesOnly := .refl keys p
  raised := by
    intro key hKey hChanged
    rw [hUnchanged key hKey] at hChanged
    cases hChanged
  number := by
    rw [List.filter_eq_nil_iff.mpr]
    · change (0 : Int) = _
      omega
    · intro key hKey
      simp [hUnchanged key hKey]

/- One is set, and then others are, of which one less misses. -/
theorem raises_write
    (hNot : key ∉ keys)
    {missing : Int}
    (h : Raises keys keys (missing - 1)
      (p.write note key (some (.ofNat 1))) q) :
    Raises (key :: keys) (key :: keys) missing p q where
  toChangesOnly := h.cons hNot
  raised := by
    refine List.forall_mem_cons.mpr
      ⟨fun _ => ⟨List.mem_cons_self, h.getElem?_written hNot⟩,
        ?_⟩
    intro other hOther hChanged
    rcases h.raised other hOther hChanged with ⟨hIn, hOne⟩
    exact ⟨List.mem_cons_of_mem key hIn, hOne⟩
  number := by
    have hNumber := h.number
    rw [List.filter_cons_of_pos (h.hasChanged_written hNot),
      List.length_cons, List.length_cons]
    omega

/-
  What is missing is made up for one by one, as long as there
  are inputs left.
-/
theorem raises_raise
    (hNodup : keys.Nodup)
    (hUnchanged : ∀ key ∈ keys, p.hasChanged key = false)
    {excess : Number}
    {missing : Int}
    (hExcess : excess.integer? = some (-missing))
    (hNonneg : 0 ≤ missing)
    (hLimit : missing ≤ Number.countLimit)
    (note : Key) :
    Raises keys keys missing p (raise note excess keys p) := by
  induction keys generalizing excess missing p with
  | nil =>
      refine ⟨.refl [] p, nofun, ?_⟩
      change (0 : Int) = min missing 0
      omega
  | cons key keys ih =>
      rcases List.nodup_cons.mp hNodup with ⟨hNot, hRest⟩
      have hOne : (1 : Number).integer? = some 1 := by decide
      have hStops :=
        Number.lt_iff_of_integer? (Number.integer?_neg hOne)
          hExcess
      rw [raise]
      by_cases hNone : missing = 0
      · subst hNone
        rw [if_pos (hStops.mpr (by omega))]
        exact raises_zero hUnchanged _
      · rw [if_neg (mt hStops.mp (by omega))]
        apply raises_write hNot
        apply ih hRest
        · intro other hOther
          rw [hasChanged_write_of_notMem hNot p note _ other
            hOther]
          exact hUnchanged other
            (List.mem_cons_of_mem key hOther)
        · rw [Number.integer?_add hExcess hOne (by omega)]
          congr 1
          omega
        · omega
        · omega

------------------------------------------------------------
-- Members
------------------------------------------------------------

section Members

variable {isChosen : Key → Bool}
variable (hPerm : keys'.Perm (keys.filter isChosen))

/- Those that have changed were chosen. -/
theorem ChangesOnly.mem_of_hasChanged
    (h : ChangesOnly keys' p q)
    (hUnchanged : ∀ key ∈ keys, p.hasChanged key = false)
    (hKey : key ∈ keys)
    (hChanged : q.hasChanged key = true) :
    key ∈ keys' := by
  by_contra hNot
  rw [h.others key hNot, hUnchanged key hKey] at hChanged
  cases hChanged

include hPerm

theorem mem_chosen_iff :
    key ∈ keys' ↔ key ∈ keys ∧ isChosen key = true := by
  rw [hPerm.mem_iff, List.mem_filter]

/- So as many have changed among all as among the chosen. -/
theorem length_filter_eq_of_perm
    {holds : Key → Bool}
    (h : ∀ key ∈ keys, holds key = true → key ∈ keys') :
    (keys.filter holds).length = (keys'.filter holds).length := by
  rw [(hPerm.filter holds).length_eq, List.filter_filter]
  congr 1
  apply List.filter_congr
  intro key hKey
  cases hHolds : holds key with
  | false => rfl
  | true => simp [((mem_chosen_iff hPerm).mp (h key hKey hHolds)).2]

/- To lower those that are set is to lower them all. -/
theorem Lowers.of_perm
    {surplus : Int}
    (h : Lowers keys' surplus p q)
    (hUnchanged : ∀ key ∈ keys, p.hasChanged key = false)
    (hZero : ∀ key ∈ keys, isChosen key = false →
      p.store.amount key = 0) :
    Lowers keys surplus p q := by
  have hSub : ∀ key ∈ keys', key ∈ keys := fun key hIn =>
    ((mem_chosen_iff hPerm).mp hIn).1
  have hChosen : ∀ key ∈ keys, q.hasChanged key = true →
      key ∈ keys' := fun key hKey =>
    h.mem_of_hasChanged hUnchanged hKey
  have hSame : ∀ key, key ∉ keys' →
      q.store.amount key = p.store.amount key := fun key hNot =>
    Store.amount_congr (h.kept key fun hIn => absurd hIn hNot)
  refine ⟨h.toChangesOnly.mono hSub, ?_, ?_, ?_, ?_⟩
  · have hZero' : ∀ key ∈ keys, isChosen key = false →
        q.store.amount key = 0 := by
      intro key hKey hNot
      rw [hSame key fun hIn => ?_, hZero key hKey hNot]
      have hTrue := ((mem_chosen_iff hPerm).mp hIn).2
      rw [hNot] at hTrue
      cases hTrue
    rw [← Store.amounts_filter hZero,
      ← Store.amounts_filter hZero',
      ← Store.amounts_perm hPerm, ← Store.amounts_perm hPerm,
      h.total]
  · intro key hKey
    by_cases hIn : key ∈ keys'
    · exact h.le key hIn
    · exact (hSame key hIn).le
  · intro key hKey hChanged
    exact h.removed key (hChosen key hKey hChanged) hChanged
  · rw [length_filter_eq_of_perm hPerm]
    · exact h.reduced
    · intro key hKey hBoth
      exact hChosen key hKey
        ((Bool.and_eq_true _ _).mp hBoth).1

/- To raise those that may be raised is to raise as many. -/
theorem Raises.of_perm
    {missing : Int}
    (h : Raises keys' keys' missing p q)
    (hUnchanged : ∀ key ∈ keys, p.hasChanged key = false) :
    Raises keys (keys.filter isChosen) missing p q := by
  have hChosen : ∀ key ∈ keys, q.hasChanged key = true →
      key ∈ keys' := fun key hKey =>
    h.mem_of_hasChanged hUnchanged hKey
  refine ⟨h.toChangesOnly.mono fun key hIn =>
    ((mem_chosen_iff hPerm).mp hIn).1, ?_, ?_⟩
  · intro key hKey hChanged
    have hIn := hChosen key hKey hChanged
    exact ⟨hPerm.mem_iff.mp hIn,
      (h.raised key hIn hChanged).2⟩
  · rw [length_filter_eq_of_perm hPerm hChosen, h.number,
      hPerm.length_eq]

end Members

/- Each input that is raised counts for one more. -/
theorem amounts_raised
    (hKept : ∀ key ∈ keys, q.hasChanged key = false →
      q.store[key]? = p.store[key]?)
    (hRaised : ∀ key ∈ keys, q.hasChanged key = true →
      p.store.amount key = 0 ∧
        q.store[key]? = some (.ofNat 1)) :
    q.store.amounts keys =
      p.store.amounts keys +
        ((keys.filter q.hasChanged).length : Int) := by
  induction keys with
  | nil => rfl
  | cons key keys ih =>
      rcases List.forall_mem_cons.mp hKept with ⟨hSame, hKept⟩
      rcases List.forall_mem_cons.mp hRaised with
        ⟨hOne, hRaised⟩
      have hRest := ih hKept hRaised
      rw [Store.amounts_cons, Store.amounts_cons, hRest]
      cases hChanged : q.hasChanged key with
      | true =>
          rcases hOne hChanged with ⟨hZero, hInput⟩
          have hAmount : q.store.amount key = 1 := by
            rw [Store.amount, hInput]
            rfl
          rw [List.filter_cons_of_pos hChanged,
            List.length_cons]
          omega
      | false =>
          rw [Store.amount_congr (hSame hChanged),
            List.filter_cons_of_neg (by simp [hChanged])]
          omega

------------------------------------------------------------
-- Allocations
------------------------------------------------------------

variable {book : Rulebook}
variable {sheet : Store}

/- The unset inputs whose requirements are met. -/
def raisable
    (book : Rulebook)
    (sheet : Store)
    (p : Repair)
    (keys : List Key) : List Key :=
  keys.filter fun key =>
    !p.store.truthy key && meetsRequirements book sheet key

theorem mem_raisable_iff :
    key ∈ raisable book sheet p keys ↔
      key ∈ keys ∧ p.store.truthy key = false ∧
        ∀ (note : Key) r, book.requirements[note]? = some r →
          r.selector = key →
            r.requirement.isMet sheet = true := by
  have hMeets : meetsRequirements book sheet key = true ↔
      ∀ (note : Key) r, book.requirements[note]? = some r →
        r.selector = key →
          r.requirement.isMet sheet = true := by
    rw [meetsRequirements, List.all_eq_true]
    simp only [Prod.forall,
      Std.ExtTreeMap.mem_toList_iff_getElem?_eq_some,
      Bool.or_eq_true, decide_eq_true_eq, ne_eq]
    refine forall₃_congr fun _ _ _ => ?_
    rw [Decidable.or_iff_not_imp_left, not_not]
  rw [raisable, List.mem_filter, Bool.and_eq_true, hMeets,
    Bool.not_eq_true']

/-
  The gap of an allocation is closed as far as its members
  allow, whatever is drawn: a surplus is taken from them, and
  for what is missing as many of those that may be raised are
  set to one.  So their sum moves by the gap at most.
-/
theorem closes_mendAllocation
    (book : Rulebook)
    (sheet : Store)
    (note : Key)
    (allocation : Allocation)
    (p : Repair)
    {gap : Int}
    (hNodup : allocation.keys.Nodup)
    (hUnchanged : ∀ key ∈ allocation.keys,
      p.hasChanged key = false)
    (hCounted : ∀ key ∈ allocation.keys,
      p.store.IsCounted key)
    (hNote : (sheet.number? note).bind Number.integer? =
      some gap)
    (hLimit : gap.natAbs ≤ Number.countLimit)
    (hMembers : 0 < gap → ∀ key ∈ allocation.keys,
      p.store.amount key ≤ Number.countLimit) :
    Random.Ensures (mendAllocation book sheet note allocation p)
      fun q =>
        (0 < gap → Lowers allocation.keys gap p q) ∧
        (gap ≤ 0 →
          Raises allocation.keys
            (raisable book sheet p allocation.keys) (-gap) p
              q) ∧
        (q.store.amounts allocation.keys -
          p.store.amounts allocation.keys).natAbs ≤
            gap.natAbs := by
  rcases Option.bind_eq_some_iff.mp hNote with
    ⟨excess, hNumber, hExcess⟩
  have hUnchangedKeys :
      (allocation.keys.filter fun key => !p.hasChanged key) =
        allocation.keys := by
    apply List.filter_eq_self.mpr
    intro key hKey
    rw [hUnchanged key hKey]
    rfl
  have hZero : (0 : Number).integer? = some 0 := by decide
  have hSign := Number.lt_iff_of_integer? hZero hExcess
  unfold mendAllocation
  dsimp only
  rw [hNumber, Option.getD_some, hUnchangedKeys]
  by_cases hSurplus : 0 < gap
  · rw [if_pos (hSign.mpr hSurplus)]
    refine (Random.ensures_shuffle _).bind ?_
    intro keys hPerm
    have hOpen : ∀ key ∈ keys, p.IsOpen key := by
      intro key hIn
      rcases (mem_chosen_iff hPerm).mp hIn with ⟨hKey, hSet⟩
      exact ⟨hUnchanged key hKey, hCounted key hKey, hSet,
        hMembers hSurplus key hKey⟩
    have hLowers : Lowers allocation.keys gap p
        (lower note excess keys p) :=
      (lowers_lower (hPerm.nodup_iff.mpr (hNodup.filter _)) hOpen
        hExcess (by omega) (by omega) note).of_perm hPerm
          hUnchanged fun key _ => Store.amount_of_not_truthy
    have hTotal := hLowers.total
    have hNonneg := Store.amounts_nonneg hCounted
    refine Random.ensures_pure ⟨fun _ => hLowers, ?_, ?_⟩
    · omega
    · omega
  · rw [if_neg (mt hSign.mp hSurplus)]
    refine (Random.ensures_shuffle _).bind ?_
    intro keys hPerm
    have hRaises : Raises allocation.keys
        (raisable book sheet p allocation.keys) (-gap) p
        (raise note excess keys p) := by
      refine (raises_raise (hPerm.nodup_iff.mpr
        (hNodup.filter _)) ?_ ?_ (by omega) (by omega)
          note).of_perm hPerm hUnchanged
      · intro key hIn
        exact hUnchanged key ((mem_chosen_iff hPerm).mp hIn).1
      · rw [neg_neg]
        exact hExcess
    have hTotal := amounts_raised
      (fun key _ hSame => hRaises.kept key fun _ => hSame)
      fun key hKey hChanged => by
        rcases hRaises.raised key hKey hChanged with
          ⟨hMay, hOne⟩
        exact ⟨Store.amount_of_not_truthy
          (mem_raisable_iff.mp hMay).2.1, hOne⟩
    have hNumber := hRaises.number
    refine Random.ensures_pure
      ⟨fun h => absurd h hSurplus, fun _ => hRaises, ?_⟩
    omega

end Repair

------------------------------------------------------------
-- Two Runes
------------------------------------------------------------

namespace Runes

open Rulebook

def note : Key := "validationNotes.runeAllocation"

/- Two runes are counted against a number of runes. -/
def commands : List Command :=
  [.declare (.allocation note "runeCount"),
    .declare (.member note "runes.Ash"),
    .declare (.member note "runes.Birch")]

def book : Rulebook :=
  Command.runAll none (Rulebook.empty .standard) commands

def allocation : Allocation :=
  ⟨note, "runeCount", 0, [("runes.Ash", 1), ("runes.Birch", 2)]⟩

/- A character who has some of them. -/
def store (budget ash birch : Nat) : Store :=
  (((∅ : Store).insert "runeCount" (.ofNat budget)).insert
    "runes.Ash" (.ofNat ash)).insert "runes.Birch" (.ofNat birch)

theorem getElem?_allocations :
    book.allocations[note]? = some allocation := by
  decide +kernel

theorem isCounted_store
    (budget ash birch : Nat) :
    ∀ key ∈ allocation.keys,
      (store budget ash birch).IsCounted key := by
  have hOfNat (n : Nat) :
      (Number.ofNat n).integer? = some (n : Int) :=
    Number.integer?_ofWhole (some (n : Int))
  intro key hKey v hInput
  rcases List.mem_pair.mp hKey with rfl | rfl
  · rw [store, Key.getElem?_insert, if_neg (by decide),
      Key.getElem?_insert, if_pos rfl] at hInput
    cases hInput
    exact ⟨_, ash, rfl, hOfNat ash⟩
  · rw [store, Key.getElem?_insert, if_pos rfl] at hInput
    cases hInput
    exact ⟨_, birch, rfl, hOfNat birch⟩

/- What is computed can be told from the input. -/
theorem getElem?_note (store : Store) :
    (book.sheet store)[note]? =
      Rule.joinAll store
        (Operator.inOrder.flatMap (book.rulesOf note))
        store[note]? := by
  have hFlat : book.IsFlat := by
    unfold IsFlat IsTarget
    decide +kernel
  have hTarget : book.IsTarget note := by
    unfold IsTarget
    decide +kernel
  have hOrdered :=
    (Command.isConsistent_runAll .standard commands).ordered
  exact hFlat.getElem?_sheet hOrdered hTarget store

/- Five runes where one is allowed are four too much. -/
theorem closes_mendAllocation_runes :
    let p := Repair.start (store 1 3 2)
    allocation.keys.Nodup ∧
      (∀ key ∈ allocation.keys, p.hasChanged key = false) ∧
      (∀ key ∈ allocation.keys, p.store.IsCounted key) ∧
      ((book.sheet p.store).number? note).bind
          Number.integer? = some 4 ∧
      Random.Ensures
        (Repair.mendAllocation book (book.sheet p.store) note
          allocation p)
        fun q =>
          ((0 : Int) < 4 →
            Repair.Lowers allocation.keys 4 p q) ∧
          ((4 : Int) ≤ 0 →
            Repair.Raises allocation.keys
              (Repair.raisable book (book.sheet p.store) p
                allocation.keys) (-4) p q) ∧
          (q.store.amounts allocation.keys -
            p.store.amounts allocation.keys).natAbs ≤ 4 := by
  intro p
  have hNodup : allocation.keys.Nodup := by decide
  have hUnchanged : ∀ key ∈ allocation.keys,
      p.hasChanged key = false := fun key _ =>
    Repair.hasChanged_start _ key
  have hNote :
      ((book.sheet p.store).number? note).bind
        Number.integer? = some 4 := by
    rw [Store.number?, getElem?_note]
    decide +kernel
  have hMembers : ∀ key ∈ allocation.keys,
      p.store.amount key ≤ Number.countLimit := by
    decide +kernel
  exact ⟨hNodup, hUnchanged, isCounted_store 1 3 2, hNote,
    Repair.closes_mendAllocation book _ note allocation p hNodup
      hUnchanged (isCounted_store 1 3 2) hNote (by decide)
      fun _ => hMembers⟩

/-
  Beyond the limit the gap that is left is rounded: a rune of
  one, drawn first, takes two from it, so that too little is
  taken from the other one.
-/
theorem not_forall_closes_mendAllocation :
    ¬ ∀ (settings : Settings) (commands : List Command)
      (store : Store) (note : Key) (allocation : Allocation)
      (gap : Int),
        let book :=
          Command.runAll none (Rulebook.empty settings) commands
        book.allocations[note]? = some allocation →
          allocation.keys.Nodup →
          (∀ key ∈ allocation.keys,
            book.isDerived key = false) →
          (∀ key ∈ allocation.keys, store.IsCounted key) →
          ((book.sheet store).number? note).bind
            Number.integer? = some gap →
          0 < gap →
          Random.Ensures
            (Repair.mendAllocation book (book.sheet store) note
              allocation (.start store))
            fun q =>
              q.store.amounts allocation.keys =
                max (store.amounts allocation.keys - gap) 0 := by
  intro h
  let s := store 3 1 9007199254740996
  let source := Source.ofSeed 0 #[2147483648]
  have hNumber :
      (book.sheet s).number? note =
        some (.ofNat 9007199254740994) := by
    rw [Store.number?, getElem?_note]
    decide +kernel
  have hClosed := h .standard commands s note allocation
    9007199254740994 getElem?_allocations (by decide)
    (by decide +kernel) (isCounted_store _ _ _)
    (by
      change ((book.sheet s).number? note).bind _ = _
      rw [hNumber]
      decide +kernel)
    (by decide) source
  have hLeft :
      ((Repair.mendAllocation book (book.sheet s) note allocation
        (.start s)).run source).1.store.amounts
          allocation.keys = 4 := by
    unfold Repair.mendAllocation
    rw [hNumber]
    decide +kernel
  have hBefore :
      s.amounts allocation.keys = 9007199254740997 := by
    decide +kernel
  change _ = max (s.amounts allocation.keys - _) 0 at hClosed
  rw [hBefore] at hClosed
  exact absurd (hLeft.symm.trans hClosed) (by decide)

end Runes

end CharSheet
