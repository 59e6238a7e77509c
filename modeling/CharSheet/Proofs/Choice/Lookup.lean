import CharSheet.Proofs.Choice.Repeated

/-
  Choices that are looked up after changes of a rulebook.

  Declarations leave the registered choices alone, a removal
  takes one of them away, and a registration puts one in its
  place.  All this holds of every rulebook, whatever its
  records are.

  Main declarations:
    * `Rulebook.declareEach`
    * `Rulebook.choices_declareEach`
    * `Rulebook.choice?_removeChoice_of_not_named`
    * `Rulebook.choice?_registerChoice`
-/

namespace CharSheet

namespace Rulebook

variable {book : Rulebook}

/- Take declarations of several owners into a rulebook. -/
def declareEach
    (book : Rulebook)
    (ds : List (Owner × Declaration)) : Rulebook :=
  ds.foldl (fun book d => book.declare d.1 d.2) book

/- Those of one owner are declared as before. -/
theorem declareEach_map
    (book : Rulebook)
    (owner : Owner)
    (ds : List Declaration) :
    book.declareEach (ds.map (owner, ·)) =
      book.declareAll owner ds :=
  List.foldl_map

------------------------------------------------------------
-- Declarations
------------------------------------------------------------

theorem choices_share
    (book : Rulebook)
    (owner : Owner)
    (target source : Key)
    (op : Operator)
    (formula : Option Formula) :
    (book.share owner target source op formula).1.choices =
      book.choices := by
  unfold share
  dsimp only
  split
  · rfl
  · rfl

theorem choices_declareAllocation
    (book : Rulebook)
    (owner : Owner)
    (note budget : Key) :
    (book.declareAllocation owner note budget).choices =
      book.choices := by
  have hShared :=
    choices_share book owner note budget .add (some .negated)
  unfold declareAllocation
  split
  · rfl
  · split
    · next hShare => rwa [hShare] at hShared
    · next hShare => rwa [hShare] at hShared

theorem choices_declareMember
    (book : Rulebook)
    (owner : Owner)
    (note key : Key) :
    (book.declareMember owner note key).choices =
      book.choices := by
  have hShared := choices_share book owner note key .add none
  unfold declareMember
  split
  · split
    · next hShare => rwa [hShare] at hShared
    · next hShare => rwa [hShare] at hShared
  · rfl

theorem choices_declareOption
    (book : Rulebook)
    (owner : Owner)
    (kind : PoolKind)
    (name : String) :
    (book.declareOption owner kind name).choices =
      book.choices := by
  have hCounted := choices_declareMember book owner
    kind.allocation (.under kind.chosenScope name)
  unfold declareOption
  split
  · split
    · exact hCounted
    · exact (choices_share ..).trans hCounted
  · rfl

theorem choices_declareAdjustment
    (book : Rulebook)
    (owner : Owner)
    (gate : Key)
    (op : Adjustment)
    (amount : Amount)
    (words : List String) :
    (book.declareAdjustment owner gate op amount words).choices =
      book.choices := by
  unfold declareAdjustment
  split
  · rfl
  · rfl

/- No declaration changes which choices are registered. -/
theorem choices_declare
    (book : Rulebook)
    (owner : Owner)
    (d : Declaration) :
    (book.declare owner d).choices = book.choices := by
  cases d with
  | allocation => exact choices_declareAllocation ..
  | member => exact choices_declareMember ..
  | option => exact choices_declareOption ..
  | adjustment => exact choices_declareAdjustment ..
  | rule | pool | note | requirement => rfl

theorem choices_declareEach
    (book : Rulebook)
    (ds : List (Owner × Declaration)) :
    (book.declareEach ds).choices = book.choices := by
  induction ds generalizing book with
  | nil => rfl
  | cons d ds ih =>
      exact (ih (book.declare d.1 d.2)).trans
        (choices_declare book d.1 d.2)

------------------------------------------------------------
-- Removals and Registrations
------------------------------------------------------------

/- A removal leaves all others registered. -/
theorem choice?_removeChoice_of_not_named
    {c : Choice}
    {kind : ChoiceKind}
    {name : String}
    (hOther : c.isNamed kind name = false) :
    (book.removeChoice c.kind c.name).choice? kind name =
      book.choice? kind name := by
  have hNot : ∀ d : Choice, d.isNamed kind name = true →
      d.isNamed c.kind c.name = false := by
    intro d hNamed
    simp only [Choice.isNamed, Bool.and_eq_true,
      decide_eq_true_eq] at hNamed
    rcases hNamed with ⟨rfl, rfl⟩
    rw [Bool.eq_false_iff] at hOther ⊢
    intro hSame
    apply hOther
    rw [Choice.isNamed_iff] at hSame ⊢
    exact hSame.symm
  unfold removeChoice
  split
  · rfl
  · change (book.choices.filter _).find? _ = book.choices.find? _
    rw [List.find?_filter]
    congr 1
    funext d
    cases hNamed : d.isNamed kind name with
    | false => simp
    | true => simp [hNot d hNamed]

/-
  A choice that is registered is found by its own kind and
  name, and all others are found as before.
-/
theorem choice?_registerChoice
    (book : Rulebook)
    (c : Choice)
    (kind : ChoiceKind)
    (name : String) :
    (book.registerChoice c).choice? kind name =
      if c.isNamed kind name then some c
      else book.choice? kind name := by
  have hChoices :
      (book.registerChoice c).choices =
        (book.removeChoice c.kind c.name).choices ++ [c] := by
    change (declareAll ..).choices ++ [c] = _
    rw [← declareEach_map, choices_declareEach]
  have hFound :
      (book.registerChoice c).choice? kind name =
        ((book.removeChoice c.kind c.name).choice? kind name).or
          (if c.isNamed kind name then some c else none) := by
    rw [choice?, hChoices, List.find?_append,
      List.find?_singleton]
    rfl
  rw [hFound]
  split
  · next hNamed =>
      have hSame : c.kind = kind ∧ c.name = name := by
        simpa [Choice.isNamed] using hNamed
      rw [← hSame.1, ← hSame.2, choice?_removeChoice,
        Option.none_or]
  · next hOther =>
      rw [choice?_removeChoice_of_not_named
        (Bool.eq_false_iff.mpr hOther), Option.or_none]

end Rulebook

end CharSheet
