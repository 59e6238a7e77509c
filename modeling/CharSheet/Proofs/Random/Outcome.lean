import CharSheet.Random.Source

/-
  What random draws come to, whatever their source.

  A draw ensures a property if its result has it for every
  source.  Draws that follow each other are argued about one
  after another, and neither the words nor the number of them
  that are used matters.

  Main declarations:
    * `Random.Ensures`
    * `Random.Ensures.bind`
    * `Random.ensures_foldlM`
    * `Random.ensures_below`
    * `Random.ensures_between`
    * `Random.ensures_pick`
    * `Random.ensures_shuffle`
-/

namespace CharSheet

namespace Random

variable {α β : Type}
variable {draw : Random α}
variable {P Q : α → Prop}
variable {R : β → Prop}

/- Whatever the source, the result has the property. -/
def Ensures
    (draw : Random α)
    (P : α → Prop) : Prop :=
  ∀ source, P (draw.run source).1

/- What follows draws from the words that are left. -/
theorem run_bind
    (draw : Random α)
    (next : α → Random β)
    (source : Source) :
    (draw >>= next).run source =
      (next (draw.run source).1).run (draw.run source).2 :=
  rfl

/- A result that is not drawn has its properties. -/
theorem ensures_pure
    {a : α}
    (h : P a) :
    Ensures (pure a) P :=
  fun _ => h

/- Every draw comes to something. -/
theorem ensures_true (draw : Random α) :
    Ensures draw fun _ => True :=
  fun _ => trivial

/- A draw whose continuation ensures a property ensures it. -/
theorem Ensures.bind
    {next : α → Random β}
    (h : Ensures draw P)
    (hNext : ∀ a, P a → Ensures (next a) R) :
    Ensures (draw >>= next) R :=
  fun source => hNext _ (h source) (draw.run source).2

/- What is made of the one result there is, is one result. -/
theorem Ensures.bind_pure
    {a : α}
    (h : Ensures draw (· = a))
    (f : α → β) :
    Ensures (draw >>= fun x => pure (f x)) (· = f a) := by
  refine h.bind ?_
  rintro _ rfl
  exact ensures_pure rfl

/- Properties that follow are ensured as well. -/
theorem Ensures.mono
    (h : Ensures draw P)
    (hSub : ∀ a, P a → Q a) :
    Ensures draw Q :=
  fun source => hSub _ (h source)

/- What each draw of a list keeps, all of them keep. -/
theorem ensures_foldlM
    {f : β → α → Random β}
    {xs : List α}
    {b : β}
    (hStep : ∀ b, ∀ a ∈ xs, R b → Ensures (f b a) R)
    (h : R b) :
    Ensures (xs.foldlM f b) R := by
  induction xs generalizing b with
  | nil => exact ensures_pure h
  | cons a xs ih =>
      rw [List.foldlM_cons]
      refine (hStep b a List.mem_cons_self h).bind ?_
      intro b' h'
      apply ih
      · intro c x hx
        exact hStep c x (List.mem_cons_of_mem a hx)
      · exact h'

------------------------------------------------------------
-- Picks and Shuffles
------------------------------------------------------------

/- What a generator draws at any point, a source draws. -/
theorem ensures_draw
    {f : Generator → StateM Nat α}
    (h : ∀ generator used, P ((f generator).run used).1) :
    Ensures (Random.draw f) P :=
  fun source => h source.generator source.used

/- An index is drawn below its range. -/
theorem ensures_below
    {range : Nat}
    (h : 0 < range) :
    Ensures (below range) (· < range) :=
  ensures_draw fun generator used => generator.index_lt h used

/- A number is drawn between the first and the last one. -/
theorem ensures_between
    {first last : Nat}
    (h : first ≤ last) :
    Ensures (between first last) fun n =>
      first ≤ n ∧ n ≤ last := by
  refine (ensures_below (Nat.succ_pos (last - first))).bind ?_
  intro i hLt
  exact ensures_pure ⟨Nat.le_add_right first i, by omega⟩

/- What is picked from a list is one of its items. -/
theorem ensures_pick (xs : List α) :
    Ensures (pick xs) fun picked => ∀ a ∈ picked, a ∈ xs := by
  cases xs with
  | nil => exact ensures_pure fun a h => nomatch h
  | cons x xs =>
      refine (ensures_true (below (xs.length + 1))).bind ?_
      intro i _
      exact ensures_pure fun a h => List.mem_of_getElem? h

/- From a list of one item, it is picked. -/
theorem ensures_pick_singleton (a : α) :
    Ensures (pick [a]) (· = some a) := by
  refine (ensures_below Nat.zero_lt_one).bind ?_
  intro i hLt
  rw [Nat.lt_one_iff.mp hLt]
  exact ensures_pure rfl

/- The items at all indices are the list. -/
theorem filterMap_getElem?_range (xs : List α) :
    (List.range xs.length).filterMap (xs[·]?) = xs := by
  induction xs with
  | nil => rfl
  | cons x xs ih =>
      rw [List.length_cons, List.range_succ_eq_map,
        List.filterMap_cons, List.filterMap_map]
      exact congrArg (x :: ·) ih

/- Shuffling puts the items of a list in another order. -/
theorem ensures_shuffle (xs : List α) :
    Ensures (shuffle xs) fun ys => ys.Perm xs := by
  have hOrder :
      Ensures (Random.draw (·.order xs.length)) fun order =>
        order.Perm (List.range xs.length) :=
    ensures_draw fun generator =>
      generator.order_perm xs.length
  refine hOrder.bind fun order hPerm => ensures_pure ?_
  have hItems := hPerm.filterMap (xs[·]?)
  rwa [filterMap_getElem?_range] at hItems

end Random

end CharSheet
