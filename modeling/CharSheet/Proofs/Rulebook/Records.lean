import CharSheet.Proofs.Rulebook.Undo

/-
  Formats and requirements of notes after an undone choice.

  There is one format and one requirement for each note, and
  the last declaration replaces what was recorded before.  It
  is not brought back when the choice is removed.  So all is as
  before exactly if nothing was replaced.

  Main declarations:
    * `Declaration.format?`, `Declaration.requirement?`
    * `Declaration.pool?`
    * `Key.recordAll`
    * `Rulebook.notes_declareAll`
    * `Rulebook.pools_declareAll`
    * `Rulebook.requirements_declareAll`
    * `Command.records_removeChoice_registerText_iff`
-/

namespace CharSheet

------------------------------------------------------------
-- Records By Keys
------------------------------------------------------------

namespace Key

variable {β γ : Type}
variable {m : Std.ExtTreeMap Key β}
variable {entries : List (Key × β)}
variable {keeps : β → Bool}

/- Put entries into a map one after another. -/
def recordAll
    (m : Std.ExtTreeMap Key β)
    (entries : List (Key × β)) : Std.ExtTreeMap Key β :=
  entries.foldl (fun m e => m.insert e.1 e.2) m

/-
  If no entry is kept afterwards, what was there before is
  left, except where an entry was put.
-/
theorem getElem?_filter_recordAll
    (hGone : ∀ e ∈ entries, keeps e.2 = false)
    (key : Key) :
    ((recordAll m entries).filter fun _ v => keeps v)[key]? =
      if key ∈ entries.map (·.1) then none
      else m[key]?.filter keeps := by
  induction entries using List.reverseRecOn with
  | nil => exact Std.ExtTreeMap.getElem?_filter'
  | append_singleton entries e ih =>
      have hLast : keeps e.2 = false :=
        hGone e (List.mem_append_right _ List.mem_cons_self)
      have hBefore := ih fun e he =>
        hGone e (List.mem_append_left _ he)
      rw [Std.ExtTreeMap.getElem?_filter'] at hBefore ⊢
      rw [recordAll, List.foldl_append, List.foldl_cons,
        List.foldl_nil, getElem?_insert]
      by_cases hKey : key = e.1
      · simp [hKey, hLast]
      · have hMem : key ∈ (entries ++ [e]).map (·.1) ↔
            key ∈ entries.map (·.1) := by
          simp [hKey]
        rw [if_neg hKey]
        simp only [hMem]
        exact hBefore

/-
  So all is as before exactly if no entry was put where there
  was something, and all that was there is kept.
-/
theorem filter_recordAll_eq_iff
    (m : Std.ExtTreeMap Key β)
    (keeps : β → Bool)
    (f : β → γ)
    (hGone : ∀ e ∈ entries, keeps e.2 = false) :
    (∀ key : Key,
      ((recordAll m entries).filter fun _ v => keeps v)[key]?.map
          f = m[key]?.map f) ↔
      ∀ (key : Key) v, m[key]? = some v →
        keeps v = true ∧ key ∉ entries.map (·.1) := by
  constructor
  · intro hSame key v hThere
    have hKept := hSame key
    rw [getElem?_filter_recordAll hGone, hThere] at hKept
    by_cases hIn : key ∈ entries.map (·.1)
    · rw [if_pos hIn] at hKept
      cases hKept
    · rw [if_neg hIn] at hKept
      cases hKeeps : keeps v with
      | true => exact ⟨rfl, hIn⟩
      | false => simp [hKeeps] at hKept
  · intro hLeft key
    rw [getElem?_filter_recordAll hGone]
    cases hThere : m[key]? with
    | none => simp
    | some v =>
        rcases hLeft key v hThere with ⟨hKeeps, hNot⟩
        rw [if_neg hNot]
        simp [hKeeps]

end Key

------------------------------------------------------------
-- Records Of Declarations
------------------------------------------------------------

namespace Declaration

/- The format that a declaration records for a note. -/
def format? (owner : Owner) : Declaration → Option (Key × Note)
  | .note key format => some (key, ⟨format, owner⟩)
  | _ => none

/- The requirement that a declaration records for a note. -/
def requirement?
    (owner : Owner) :
    Declaration → Option (Key × NotedRequirement)
  | .requirement key selector r => some (key, ⟨selector, r, owner⟩)
  | _ => none

/- The pool that a declaration opens. -/
def pool? (owner : Owner) : Declaration → Option Pool
  | .pool kind count gate options =>
      some ⟨kind, count, gate, options, owner⟩
  | _ => none

variable {owner : Owner}
variable {ds : List Declaration}
variable {key : Key}

/- Formats are recorded for the notes that are declared. -/
theorem mem_formats_iff
    (owner : Owner) :
    key ∈ (ds.filterMap (format? owner)).map (·.1) ↔
      ∃ format, .note key format ∈ ds := by
  simp only [List.mem_map, List.mem_filterMap]
  constructor
  · rintro ⟨e, ⟨d, hd, hRecord⟩, rfl⟩
    cases d with
    | note _ format =>
        cases hRecord
        exact ⟨format, hd⟩
    | _ => cases hRecord
  · rintro ⟨format, hd⟩
    exact ⟨(key, ⟨format, owner⟩), ⟨_, hd, rfl⟩, rfl⟩

/- They belong to whom the declarations belong to. -/
theorem owner_of_mem_formats
    {e : Key × Note}
    (h : e ∈ ds.filterMap (format? owner)) :
    e.2.owner = owner := by
  rcases List.mem_filterMap.mp h with ⟨d, -, hRecord⟩
  cases d with
  | note key format =>
      cases hRecord
      rfl
  | _ => cases hRecord

/- Requirements are recorded for those that are declared. -/
theorem mem_requirements_iff
    (owner : Owner) :
    key ∈ (ds.filterMap (requirement? owner)).map (·.1) ↔
      ∃ selector requirement,
        .requirement key selector requirement ∈ ds := by
  simp only [List.mem_map, List.mem_filterMap]
  constructor
  · rintro ⟨e, ⟨d, hd, hRecord⟩, rfl⟩
    cases d with
    | requirement note selector requirement =>
        cases hRecord
        exact ⟨selector, requirement, hd⟩
    | _ => cases hRecord
  · rintro ⟨selector, requirement, hd⟩
    exact ⟨(key, ⟨selector, requirement, owner⟩),
      ⟨_, hd, rfl⟩, rfl⟩

/- They belong to whom the declarations belong to. -/
theorem owner_of_mem_requirements
    {e : Key × NotedRequirement}
    (h : e ∈ ds.filterMap (requirement? owner)) :
    e.2.owner = owner := by
  rcases List.mem_filterMap.mp h with ⟨d, -, hRecord⟩
  cases d with
  | requirement note selector requirement =>
      cases hRecord
      rfl
  | _ => cases hRecord

end Declaration

namespace Rulebook

variable {book other third : Rulebook}

/- The formats of notes, whoever has declared them. -/
def noteFormats (book : Rulebook) : Std.ExtTreeMap Key String :=
  book.notes.map fun _ n => n.format

/- The rulebooks have the same records besides the rules. -/
structure SameRecords (book other : Rulebook) : Prop where
  notes : other.notes = book.notes
  requirements : other.requirements = book.requirements
  pools : other.pools = book.pools

theorem SameRecords.trans
    (h : book.SameRecords other)
    (hNext : other.SameRecords third) :
    book.SameRecords third :=
  ⟨hNext.notes.trans h.notes,
    hNext.requirements.trans h.requirements,
    hNext.pools.trans h.pools⟩

/- To share a rule records nothing. -/
theorem sameRecords_share
    (book : Rulebook)
    (owner : Owner)
    (target source : Key)
    (op : Operator)
    (formula : Option Formula) :
    book.SameRecords
      (book.share owner target source op formula).1 := by
  unfold share
  dsimp only
  split
  · exact ⟨rfl, rfl, rfl⟩
  · exact ⟨rfl, rfl, rfl⟩

/- Nor does the declaration of an allocation. -/
theorem sameRecords_declareAllocation
    (book : Rulebook)
    (owner : Owner)
    (note budget : Key) :
    book.SameRecords
      (book.declareAllocation owner note budget) := by
  have hShare := sameRecords_share book owner note budget .add
    (some .negated)
  unfold declareAllocation
  split
  · exact ⟨rfl, rfl, rfl⟩
  · split
    · next hEq =>
        rw [hEq] at hShare
        exact hShare
    · next hEq =>
        rw [hEq] at hShare
        exact ⟨hShare.notes, hShare.requirements, hShare.pools⟩

/- Nor does that of a member. -/
theorem sameRecords_declareMember
    (book : Rulebook)
    (owner : Owner)
    (note key : Key) :
    book.SameRecords (book.declareMember owner note key) := by
  have hShare := sameRecords_share book owner note key .add none
  unfold declareMember
  split
  · split
    · next hEq =>
        rw [hEq] at hShare
        exact hShare
    · next hEq =>
        rw [hEq] at hShare
        exact ⟨hShare.notes, hShare.requirements, hShare.pools⟩
  · exact ⟨rfl, rfl, rfl⟩

/- Nor does that of an option. -/
theorem sameRecords_declareOption
    (book : Rulebook)
    (owner : Owner)
    (kind : PoolKind)
    (name : String) :
    book.SameRecords (book.declareOption owner kind name) := by
  unfold declareOption
  have hMember := sameRecords_declareMember book owner
    kind.allocation (.under kind.chosenScope name)
  split
  · cases kind with
    | abilityBoost => exact hMember
    | _ =>
        exact hMember.trans
          (sameRecords_share _ owner _ _ .max none)
  · exact ⟨rfl, rfl, rfl⟩

/- Nor does that of an adjustment. -/
theorem sameRecords_declareAdjustment
    (book : Rulebook)
    (owner : Owner)
    (gate : Key)
    (op : Adjustment)
    (amount : Amount)
    (words : List String) :
    book.SameRecords
      (book.declareAdjustment owner gate op amount words) := by
  unfold declareAdjustment
  cases book.adjusted? words with
  | none => exact ⟨rfl, rfl, rfl⟩
  | some target => exact ⟨rfl, rfl, rfl⟩

/- The formats that declarations record are put in order. -/
theorem notes_declare
    (book : Rulebook)
    (owner : Owner)
    (d : Declaration) :
    (book.declare owner d).notes =
      Key.recordAll book.notes (d.format? owner).toList := by
  cases d with
  | allocation note budget =>
      exact (sameRecords_declareAllocation ..).notes
  | member note key =>
      exact (sameRecords_declareMember ..).notes
  | option kind name =>
      exact (sameRecords_declareOption ..).notes
  | adjustment gate op amount words =>
      exact (sameRecords_declareAdjustment ..).notes
  | _ => rfl

/- So are the requirements. -/
theorem requirements_declare
    (book : Rulebook)
    (owner : Owner)
    (d : Declaration) :
    (book.declare owner d).requirements =
      Key.recordAll book.requirements
        (d.requirement? owner).toList := by
  cases d with
  | allocation note budget =>
      exact (sameRecords_declareAllocation ..).requirements
  | member note key =>
      exact (sameRecords_declareMember ..).requirements
  | option kind name =>
      exact (sameRecords_declareOption ..).requirements
  | adjustment gate op amount words =>
      exact (sameRecords_declareAdjustment ..).requirements
  | _ => rfl

/- Pools are put after those that there are. -/
theorem pools_declare
    (book : Rulebook)
    (owner : Owner)
    (d : Declaration) :
    (book.declare owner d).pools =
      book.pools ++ (d.pool? owner).toList := by
  have hNone
      {other : Rulebook}
      (h : book.SameRecords other) :
      other.pools = book.pools ++ [] :=
    h.pools.trans (List.append_nil _).symm
  cases d with
  | allocation note budget =>
      exact hNone (sameRecords_declareAllocation ..)
  | member note key =>
      exact hNone (sameRecords_declareMember ..)
  | option kind name =>
      exact hNone (sameRecords_declareOption ..)
  | adjustment gate op amount words =>
      exact hNone (sameRecords_declareAdjustment ..)
  | pool kind count gate options => rfl
  | _ => exact (List.append_nil _).symm

/- The formats of a list are put one after another. -/
theorem notes_declareAll
    (book : Rulebook)
    (owner : Owner)
    (ds : List Declaration) :
    (book.declareAll owner ds).notes =
      Key.recordAll book.notes
        (ds.filterMap (Declaration.format? owner)) := by
  induction ds generalizing book with
  | nil => rfl
  | cons d ds ih =>
      refine (ih (book.declare owner d)).trans ?_
      rw [notes_declare]
      cases hRecord : d.format? owner with
      | none => rw [List.filterMap_cons_none hRecord]; rfl
      | some e => rw [List.filterMap_cons_some hRecord]; rfl

/- So are the pools. -/
theorem pools_declareAll
    (book : Rulebook)
    (owner : Owner)
    (ds : List Declaration) :
    (book.declareAll owner ds).pools =
      book.pools ++ ds.filterMap (Declaration.pool? owner) := by
  induction ds generalizing book with
  | nil => exact (List.append_nil _).symm
  | cons d ds ih =>
      refine (ih (book.declare owner d)).trans ?_
      rw [pools_declare, List.append_assoc, List.filterMap_cons]
      cases d.pool? owner with
      | none => rfl
      | some pool => rfl

/- So are the requirements. -/
theorem requirements_declareAll
    (book : Rulebook)
    (owner : Owner)
    (ds : List Declaration) :
    (book.declareAll owner ds).requirements =
      Key.recordAll book.requirements
        (ds.filterMap (Declaration.requirement? owner)) := by
  induction ds generalizing book with
  | nil => rfl
  | cons d ds ih =>
      refine (ih (book.declare owner d)).trans ?_
      rw [requirements_declare]
      cases hRecord : d.requirement? owner with
      | none => rw [List.filterMap_cons_none hRecord]; rfl
      | some e => rw [List.filterMap_cons_some hRecord]; rfl

------------------------------------------------------------
-- Undone Choices
------------------------------------------------------------

section Undone

variable (h : book.IsConsistent)
variable (c : Choice)
variable (hNone : book.choice? c.kind c.name = none)

include h hNone

/-
  After a choice is registered and removed, its own formats
  are gone, with all that they have replaced.
-/
theorem notes_removeChoice_registerChoice :
    ((book.registerChoice c).removeChoice c.kind c.name).notes =
      (Key.recordAll book.notes
        (c.declarations.filterMap
          (Declaration.format? (some c.origin)))).filter
            fun _ n => decide (n.owner ≠ some c.origin) := by
  rw [removeChoice_registerChoice h c hNone]
  change (book.declareAll (some c.origin)
    c.declarations).notes.filter _ = _
  rw [notes_declareAll]

/- So are its requirements. -/
theorem requirements_removeChoice_registerChoice :
    ((book.registerChoice c).removeChoice c.kind
        c.name).requirements =
      (Key.recordAll book.requirements
        (c.declarations.filterMap
          (Declaration.requirement? (some c.origin)))).filter
            fun _ r => decide (r.owner ≠ some c.origin) := by
  rw [removeChoice_registerChoice h c hNone]
  change (book.declareAll (some c.origin)
    c.declarations).requirements.filter _ = _
  rw [requirements_declareAll]

/-
  Formats are as before exactly if none was replaced, and if
  none belonged to the origin of the choice already.
-/
theorem noteFormats_removeChoice_registerChoice_iff :
    ((book.registerChoice c).removeChoice c.kind
        c.name).noteFormats = book.noteFormats ↔
      ∀ (key : Key) n, book.notes[key]? = some n →
        n.owner ≠ some c.origin ∧
          ∀ format, .note key format ∉ c.declarations := by
  have hIff := Key.filter_recordAll_eq_iff book.notes
    (fun n => decide (n.owner ≠ some c.origin)) Note.format
    fun e (he : e ∈ c.declarations.filterMap
        (Declaration.format? (some c.origin))) => by
      simp [Declaration.owner_of_mem_formats he]
  rw [← notes_removeChoice_registerChoice h c hNone] at hIff
  unfold noteFormats
  rw [Std.ExtTreeMap.ext_getElem?_iff]
  simp only [Std.ExtTreeMap.getElem?_map]
  rw [hIff]
  simp only [Declaration.mem_formats_iff, decide_eq_true_eq,
    not_exists]

/- So it is with requirements. -/
theorem requirements_removeChoice_registerChoice_iff :
    ((book.registerChoice c).removeChoice c.kind
        c.name).requirements = book.requirements ↔
      ∀ (note : Key) r, book.requirements[note]? = some r →
        r.owner ≠ some c.origin ∧
          ∀ selector requirement,
            .requirement note selector requirement ∉
              c.declarations := by
  have hIff := Key.filter_recordAll_eq_iff book.requirements
    (fun r => decide (r.owner ≠ some c.origin)) id
    fun e (he : e ∈ c.declarations.filterMap
        (Declaration.requirement? (some c.origin))) => by
      simp [Declaration.owner_of_mem_requirements he]
  rw [← requirements_removeChoice_registerChoice h c hNone]
    at hIff
  simp only [Option.map_id, id_eq] at hIff
  rw [Std.ExtTreeMap.ext_getElem?_iff, hIff]
  simp only [Declaration.mem_requirements_iff,
    decide_eq_true_eq, not_exists]

end Undone

end Rulebook

namespace Command

open Rulebook

/-
  A choice that is registered and removed at once leaves the
  formats and the requirements of notes as they were exactly
  if it has declared none for a note that had one, and if its
  origin was not in use before.
-/
theorem records_removeChoice_registerText_iff
    (settings : Settings)
    (commands : List Command)
    (kind : ChoiceKind)
    (name attrs : String)
    (hNone :
      (runAll none (Rulebook.empty settings) commands).choice?
        kind name = none) :
    let book :=
      runAll none (Rulebook.empty settings) commands
    let c : Choice :=
      ⟨kind, name, (AttrTable.ofTextLossy attrs).1⟩
    let undone :=
      (book.registerText kind name attrs).removeChoice kind name
    (undone.noteFormats = book.noteFormats ↔
        ∀ (key : Key) n, book.notes[key]? = some n →
          n.owner ≠ some c.origin ∧
            ∀ format, .note key format ∉ c.declarations) ∧
      (undone.requirements = book.requirements ↔
        ∀ (note : Key) r, book.requirements[note]? = some r →
          r.owner ≠ some c.origin ∧
            ∀ selector requirement,
              .requirement note selector requirement ∉
                c.declarations) := by
  intro book c undone
  have h : book.IsConsistent :=
    isConsistent_runAll_of (isConsistent_empty settings) none
      commands
  exact
    ⟨noteFormats_removeChoice_registerChoice_iff h c hNone,
      requirements_removeChoice_registerChoice_iff h c hNone⟩

/-
  Two spellings of one name share a note: with the second
  feature goes the format of the first one.  A requirement is
  not touched by it.
-/
theorem records_removeChoice_registerText_spellings :
    let commands : List Command :=
      [.register .feature "War Caster"
          "Section=combat Note=Ready",
        .register .feat "War Caster" "Require=level"]
    let book :=
      runAll none (Rulebook.empty .standard) commands
    let undone :=
      (book.registerText .feature "War-Caster"
        "Section=combat Note=Steady").removeChoice .feature
          "War-Caster"
    book.choice? .feature "War-Caster" = none ∧
      undone.noteFormats ≠ book.noteFormats ∧
        undone.requirements = book.requirements := by
  intro commands book undone
  let c : Choice :=
    ⟨.feature, "War-Caster",
      (AttrTable.ofTextLossy "Section=combat Note=Steady").1⟩
  have hNone : book.choice? .feature "War-Caster" = none := by
    decide +kernel
  have hIff := records_removeChoice_registerText_iff .standard
    commands .feature "War-Caster" "Section=combat Note=Steady"
    hNone
  refine ⟨hNone, ?_, hIff.2.mpr ?_⟩
  · intro hSame
    have hIn : "combatNotes.warCaster" ∈
        (c.declarations.filterMap
          (Declaration.format? none)).map (·.1) := by
      decide +kernel
    rcases (Declaration.mem_formats_iff none).mp hIn with
      ⟨format, hDeclared⟩
    have hLeft := hIff.1.mp hSame "combatNotes.warCaster"
      ⟨"Ready", some ⟨"Feature", "War Caster"⟩⟩
      (by decide +kernel)
    exact hLeft.2 format hDeclared
  · intro note r hThere
    have hOwners : ∀ e ∈ book.requirements.toList,
        e.2.owner ≠ some c.origin := by
      decide +kernel
    have hNothing : c.declarations.filterMap
        (Declaration.requirement? none) = [] := by
      decide +kernel
    refine ⟨hOwners (note, r)
      (Std.ExtTreeMap.mem_toList_iff_getElem?_eq_some.mpr
        hThere), ?_⟩
    intro selector requirement hDeclared
    have hIn := (Declaration.mem_requirements_iff none).mpr
      ⟨selector, requirement, hDeclared⟩
    rw [hNothing] at hIn
    cases hIn

/- So the records of other choices may get lost. -/
theorem not_forall_records_removeChoice_registerText :
    ¬ ∀ (settings : Settings) (commands : List Command)
        (kind : ChoiceKind) (name attrs : String),
      let book :=
        runAll none (Rulebook.empty settings) commands
      let undone :=
        (book.registerText kind name attrs).removeChoice kind
          name
      book.choice? kind name = none →
        undone.noteFormats = book.noteFormats ∧
          undone.requirements = book.requirements := by
  intro h
  have hSame := (h .standard
    [.register .feature "War Caster" "Section=combat Note=Ready"]
    .feature "War-Caster" "Section=combat Note=Steady"
    (by decide +kernel)).1
  have hFormat := congrArg
    (fun formats => formats["combatNotes.warCaster"]?) hSame
  revert hFormat
  decide +kernel

end Command

end CharSheet
