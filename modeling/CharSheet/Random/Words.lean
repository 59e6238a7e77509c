import CharSheet.Number.Arithmetic

/-
  Draws from a stream of 32-bit words.

  A draw is given the number of words that have been used, and
  tells what is drawn and how many have been used then.  An
  index is the high part of a product, and a word is refused
  where it would favour some index over others.

  Key definitions include:
    * `Words`
    * `Words.ofSeed`
    * `Words.index`
    * `Words.order`
    * `Words.happens`
    * `Words.position`
-/

namespace CharSheet

/-
  An endless stream of words.  No index refuses more words
  than the patience of the stream.
-/
structure Words where
  word : Nat → UInt32
  patience : Nat

namespace Words

------------------------------------------------------------
-- Words
------------------------------------------------------------

/- The high half of a state that is mixed. -/
def mix (state : UInt64) : UInt32 :=
  let z := (state ^^^ (state >>> 30)) * 0xBF58476D1CE4E5B9
  let z := (z ^^^ (z >>> 27)) * 0x94D049BB133111EB
  ((z ^^^ (z >>> 31)) >>> 32).toUInt32

/-
  The words that come from a seed.  Their state grows by the
  same amount for each word.
-/
def generated (seed : UInt64) (i : Nat) : UInt32 :=
  mix (seed + (i + 1).toUInt64 * 0x9E3779B97F4A7C15)

/-
  A list of words, after which come those from a seed.  It is
  patient enough for all listed words to be refused.
-/
def ofSeed (seed : UInt64) (words : Array UInt32) : Words where
  word i := words.getD i (generated seed (i - words.size))
  patience := words.size + 256

variable (s : Words)

/- The next word of 32 bits. -/
def next32 : StateM Nat Nat := do
  let used ← get
  set (used + 1)
  return (s.word used).toNat

/- The next word of 64 bits, the low half of which is first. -/
def next64 : StateM Nat Nat := do
  let low ← s.next32
  let high ← s.next32
  return low + high * Nat.pow 2 32

theorem next32_lt (used : Nat) :
    (s.next32.run used).1 < Nat.pow 2 32 :=
  (s.word used).toNat_lt

------------------------------------------------------------
-- Indices
------------------------------------------------------------

/-
  The low part of a product is accepted up to this value, so
  that each index has as many words as any other.
-/
def zone (range : Nat) : Nat :=
  range <<< (31 - range.log2) - 1

/-
  Draw words until one is accepted, the last of which is taken
  as it is.
-/
def indexWithin (range : Nat) : Nat → StateM Nat Nat
  | 0 => do
      let word ← s.next32
      return word * range / Nat.pow 2 32
  | patience + 1 => do
      let word ← s.next32
      if word * range % Nat.pow 2 32 ≤ zone range then
        return word * range / Nat.pow 2 32
      else indexWithin range patience

/- Draw an index below a range. -/
def index (range : Nat) : StateM Nat Nat :=
  s.indexWithin range s.patience

/- The high part of a product is below the second factor. -/
theorem mul_div_lt
    {word range : Nat}
    (hWord : word < Nat.pow 2 32)
    (h : 0 < range) :
    word * range / Nat.pow 2 32 < range := by
  rw [Nat.div_lt_iff_lt_mul (by decide), Nat.mul_comm range]
  exact Nat.mul_lt_mul_of_pos_right hWord h

theorem indexWithin_lt
    {range : Nat}
    (h : 0 < range)
    (patience used : Nat) :
    ((s.indexWithin range patience).run used).1 < range := by
  induction patience generalizing used with
  | zero => exact mul_div_lt (s.next32_lt used) h
  | succ patience ih =>
      have hWord := s.next32_lt used
      change ((if _ then _ else _ : StateM Nat Nat).run _).1 <
        range
      split
      · exact mul_div_lt hWord h
      · exact ih (used + 1)

/- An index is drawn below its range. -/
theorem index_lt
    {range : Nat}
    (h : 0 < range)
    (used : Nat) :
    ((s.index range).run used).1 < range :=
  s.indexWithin_lt h s.patience used

------------------------------------------------------------
-- Orders
------------------------------------------------------------

/-
  Swap each of the first positions with one up to it, from
  the last of them down.
-/
def swapUpTo : Nat → Array Nat → StateM Nat (Array Nat)
  | 0, order => return order
  | i + 1, order => do
      let j ← s.index (i + 2)
      swapUpTo i (order.swapIfInBounds (i + 1) j)

/- Put so many indices in a random order. -/
def order (length : Nat) : StateM Nat (List Nat) := do
  let order ← s.swapUpTo (length - 1) (Array.range length)
  return order.toList

/- Swapping two places keeps all indices. -/
theorem perm_swapIfInBounds
    (order : Array Nat)
    (i j : Nat) :
    (order.swapIfInBounds i j).Perm order := by
  unfold Array.swapIfInBounds
  split
  · split
    · exact Array.swap_perm _ _
    · exact Array.Perm.refl order
  · exact Array.Perm.refl order

theorem swapUpTo_perm
    (n : Nat)
    (order : Array Nat)
    (used : Nat) :
    ((s.swapUpTo n order).run used).1.Perm order := by
  induction n generalizing order used with
  | zero => exact Array.Perm.refl order
  | succ n ih =>
      exact (ih _ _).trans (perm_swapIfInBounds order (n + 1) _)

/- An order has each index once. -/
theorem order_perm (length used : Nat) :
    ((s.order length).run used).1.Perm (List.range length) := by
  have hPerm :=
    s.swapUpTo_perm (length - 1) (Array.range length) used
  rw [← Array.toList_range]
  exact Array.perm_iff_toList_perm.mp hPerm

------------------------------------------------------------
-- Chances
------------------------------------------------------------

/-
  Draw whether something of a given chance happens.  What is
  certain takes no word.
-/
def happens (p : Number) : StateM Nat Bool := do
  if Number.le 1 p then return true
  let drawn ← s.next64
  let limit := p.exactValue.toRat * (Nat.pow 2 64 : Nat)
  return drawn < limit.floor.toNat

/- Draw a number from zero up to below one. -/
def unit : StateM Nat Number := do
  let drawn ← s.next64
  return (Number.ofNat (drawn / Nat.pow 2 12)).div
    (.ofNat (Nat.pow 2 52))

/-
  The position of the first weight whose sum with those before
  it is above a limit, else that of the last one.  Weights of
  zero, which add nothing to a sum, are passed by.
-/
def positionAbove
    (limit : Number) : Number → List Number → Option Nat
  | _, [] => none
  | sum, w :: ws =>
      let later := positionAbove limit (sum.add w) ws
      if w.isZero then later.map (· + 1)
      else if limit.lt (sum.add w) then some 0
      else some ((later.map (· + 1)).getD 0)

/-
  Draw a position by weights.  Weights that are all zero have
  none, and take no word.
-/
def position (ws : List Number) : StateM Nat (Option Nat) := do
  if ws.all (·.isZero) then return none
  let u ← s.unit
  return positionAbove (u.mul (.sum ws)) 0 ws

/- Weights have no position only if all of them are zero. -/
theorem isZero_of_positionAbove
    {limit sum : Number}
    {ws : List Number}
    (h : positionAbove limit sum ws = none) :
    ∀ w ∈ ws, w.isZero = true := by
  induction ws generalizing sum with
  | nil => nofun
  | cons w ws ih =>
      rw [positionAbove] at h
      split at h
      · next hZero =>
          exact List.forall_mem_cons.mpr
            ⟨hZero, ih (Option.map_eq_none_iff.mp h)⟩
      · split at h
        · cases h
        · cases h

/- No position is that of a weight that is zero. -/
theorem exists_of_positionAbove
    {limit sum : Number}
    {ws : List Number}
    {i : Nat}
    (h : positionAbove limit sum ws = some i) :
    ∃ w, ws[i]? = some w ∧ w.isZero = false := by
  induction ws generalizing sum i with
  | nil => cases h
  | cons w ws ih =>
      have hLater
          {j : Nat}
          (hMap : (positionAbove limit (sum.add w) ws).map
            (· + 1) = some j) :
          ∃ v, (w :: ws)[j]? = some v ∧ v.isZero = false := by
        rcases Option.map_eq_some_iff.mp hMap with ⟨k, hk, rfl⟩
        rw [List.getElem?_cons_succ]
        exact ih hk
      rw [positionAbove] at h
      split at h
      · exact hLater h
      · next hSome =>
          have hFirst :
              ∃ v, (w :: ws)[0]? = some v ∧ v.isZero = false :=
            ⟨w, rfl, Bool.eq_false_iff.mpr hSome⟩
          split at h
          · cases h
            exact hFirst
          · cases hMap : (positionAbove limit (sum.add w)
              ws).map (· + 1) with
            | none =>
                rw [hMap] at h
                cases h
                exact hFirst
            | some j =>
                rw [hMap] at h
                cases h
                exact hLater hMap

/- Positions are drawn unless all weights are zero. -/
theorem isZero_of_position
    {ws : List Number}
    {used : Nat}
    (h : ((s.position ws).run used).1 = none) :
    ∀ w ∈ ws, w.isZero = true := by
  unfold position at h
  split at h
  · next hAll => exact List.all_eq_true.mp hAll
  · exact isZero_of_positionAbove h

theorem exists_of_position
    {ws : List Number}
    {used i : Nat}
    (h : ((s.position ws).run used).1 = some i) :
    ∃ w, ws[i]? = some w ∧ w.isZero = false := by
  unfold position at h
  split at h
  · cases h
  · exact exists_of_positionAbove h

end Words

end CharSheet
