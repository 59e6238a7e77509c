import CharSheet.Proofs.Choice.Composition
import CharSheet.Proofs.Rulebook.Parallel

/-
  What choices need of a rulebook.

  A choice counts members only in allocations of the pools and
  in those that it has declared itself before.  So its members
  do not depend on other choices.

  Main declarations:
    * `PoolKind.notes`
    * `Declaration.AreSupported.append`
    * `Declaration.IsComposed.areSupported`
    * `Choice.areSupported_declarations`
-/

namespace CharSheet

/- The notes of the allocations of all pools. -/
def PoolKind.notes : List Key :=
  PoolKind.all.map PoolKind.allocation

theorem PoolKind.allocation_mem_notes (kind : PoolKind) :
    kind.allocation ∈ PoolKind.notes := by
  apply List.mem_map_of_mem
  cases kind <;> decide

namespace Declaration

variable {known known' : List Key}
variable {ds es : List Declaration}

------------------------------------------------------------
-- Supported Lists
------------------------------------------------------------

/- More allocations support more declarations. -/
theorem AreSupported.mono
    (h : AreSupported known ds)
    (hKnown : ∀ n ∈ known, n ∈ known') :
    AreSupported known' ds := by
  induction ds generalizing known known' with
  | nil => trivial
  | cons d ds ih =>
      refine ⟨fun n hn => hKnown n (h.1 n hn), ih h.2 ?_⟩
      intro n hn
      rcases List.mem_append.mp hn with hNew | hOld
      · exact List.mem_append_left _ hNew
      · exact List.mem_append_right _ (hKnown n hOld)

/- Two lists that are supported are so one after another. -/
theorem AreSupported.append
    (h : AreSupported known ds)
    (hNext : AreSupported known es) :
    AreSupported known (ds ++ es) := by
  induction ds generalizing known with
  | nil => exact hNext
  | cons d ds ih =>
      refine ⟨h.1, ih h.2 (hNext.mono ?_)⟩
      intro n hn
      exact List.mem_append_right _ hn

/- Options need the allocation of their pool. -/
theorem areSupported_options
    (kind : PoolKind)
    (names : List String) :
    AreSupported PoolKind.notes (names.map (.option kind)) := by
  induction names with
  | nil => trivial
  | cons name names ih =>
      refine ⟨?_, ih⟩
      intro n hn
      rw [List.mem_singleton.mp hn]
      exact kind.allocation_mem_notes

/- Declarations that need no allocation are supported. -/
theorem areSupported_of_needs_eq_nil
    (h : ∀ d ∈ ds, d.needs = []) :
    AreSupported known ds := by
  induction ds generalizing known with
  | nil => trivial
  | cons d ds ih =>
      refine ⟨?_, ih fun e he =>
        h e (List.mem_cons_of_mem d he)⟩
      intro n hn
      rw [h d List.mem_cons_self] at hn
      cases hn

/- A member is counted in the allocation before it. -/
theorem areSupported_counted
    (known : List Key)
    (note budget key : Key) :
    AreSupported known
      [.allocation note budget, .member note key] := by
  refine ⟨fun _ hn => absurd hn List.not_mem_nil, ?_, trivial⟩
  intro n hn
  rw [List.mem_singleton.mp hn]
  exact List.mem_cons_self

theorem areSupported_item
    (gate : Key)
    (kind : PoolKind)
    (item : Item) :
    AreSupported PoolKind.notes
      (item.declarations gate kind) := by
  cases item with
  | choose count options =>
      have hRule :
          AreSupported PoolKind.notes
            [.rule kind.budget gate .add
              (some (.gated (.ofNat count)))] :=
        areSupported_of_needs_eq_nil fun d hd => by
          rw [List.mem_singleton.mp hd]
          rfl
      have hPool :
          AreSupported PoolKind.notes
            [.pool kind count gate options] :=
        areSupported_of_needs_eq_nil fun d hd => by
          rw [List.mem_singleton.mp hd]
          rfl
      exact hRule.append
        ((areSupported_options kind (options.getD [])).append
          hPool)
  | grant name amount =>
      apply areSupported_of_needs_eq_nil
      intro d hd
      cases kind with
      | _ =>
          rw [List.mem_singleton.mp hd]
          rfl

/-
  Whatever content declares, it counts members only where an
  allocation is known or its own.
-/
theorem IsComposed.areSupported
    {roots : Operator → Key → Prop}
    (h : IsComposed roots ds) :
    AreSupported PoolKind.notes ds := by
  induction h with
  | nil => trivial
  | append _ _ ih ihNext => exact ih.append ihNext
  | item gate kind item => exact areSupported_item gate kind item
  | counted note budget key =>
      exact areSupported_counted _ note budget key
  | option kind name => exact areSupported_options kind [name]
  | _ =>
      apply areSupported_of_needs_eq_nil
      intro d hd
      rw [List.mem_singleton.mp hd]
      rfl

end Declaration

/- So it is with choices of all kinds. -/
theorem Choice.areSupported_declarations (c : Choice) :
    Declaration.AreSupported PoolKind.notes c.declarations :=
  c.isComposed_declarations.areSupported

end CharSheet
