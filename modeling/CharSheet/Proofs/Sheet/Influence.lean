import CharSheet.Proofs.Sheet.Locality

/-
  What a change of one input has an influence on.

  An attribute feeds another one if a rule of the other reads
  it.  Two inputs that differ in one attribute come to sheets
  that differ at most where this attribute leads to.

  Main declarations:
    * `Store.AgreeOff`
    * `Rulebook.Feeds`, `Rulebook.LeadsTo`
    * `Rulebook.Touches`
    * `Rulebook.getElem?_sheet_of_agreeOff`
    * `Rulebook.contribution_of_agreeOff`
-/

namespace CharSheet

------------------------------------------------------------
-- Stores
------------------------------------------------------------

namespace Store

variable {s t u : Store}
variable {key : Key}

/- The stores agree on all attributes but one at most. -/
def AgreeOff (s t : Store) (key : Key) : Prop :=
  ∀ other, other ≠ key → s[other]? = t[other]?

theorem agreeOff_insert
    (s : Store)
    (key : Key)
    (v : Value) :
    AgreeOff s (s.insert key v) key := by
  intro other hOther
  simp [Std.ExtTreeMap.getElem?_insert, hOther.symm]

theorem agreeOff_erase
    (s : Store)
    (key : Key) :
    AgreeOff s (s.erase key) key := by
  intro other hOther
  simp [Std.ExtTreeMap.getElem?_erase, hOther.symm]

end Store

------------------------------------------------------------
-- Influence
------------------------------------------------------------

namespace Rulebook

/- A rule of the second attribute reads the first one. -/
def Feeds (book : Rulebook) (key other : Key) : Prop :=
  ∃ r ∈ book.rules, r.target = other ∧ r.Reads key

/- Rules lead from one attribute to another one. -/
def LeadsTo (book : Rulebook) : Key → Key → Prop :=
  Relation.TransGen book.Feeds

/- A rule reads an attribute, or what the attribute leads to. -/
def Touches
    (book : Rulebook)
    (key : Key)
    (r : Rule) : Prop :=
  ∃ other, (other = key ∨ book.LeadsTo key other) ∧
    r.Reads other

variable {book : Rulebook}
variable {key other : Key}
variable {r : Rule}

/- A rule that is touched passes the influence on. -/
theorem Touches.leadsTo
    (h : book.Touches key r)
    (hRule : r ∈ book.rules) :
    book.LeadsTo key r.target := by
  rcases h with ⟨other, hOther, hReads⟩
  have hFeeds : book.Feeds other r.target :=
    ⟨r, hRule, rfl, hReads⟩
  rcases hOther with rfl | hLeads
  · exact .single hFeeds
  · exact .tail hLeads hFeeds

/- The last rule on the way is touched. -/
theorem LeadsTo.exists_touches
    (h : book.LeadsTo key other) :
    ∃ r ∈ book.rules, r.target = other ∧ book.Touches key r := by
  cases h with
  | single hFeeds =>
      rcases hFeeds with ⟨r, hr, hTarget, hReads⟩
      exact ⟨r, hr, hTarget, key, .inl rfl, hReads⟩
  | tail hLeads hFeeds =>
      rcases hFeeds with ⟨r, hr, hTarget, hReads⟩
      exact ⟨r, hr, hTarget, _, .inr hLeads, hReads⟩

/- Rules lead to targets only. -/
theorem LeadsTo.isTarget
    (h : book.LeadsTo key other) :
    book.IsTarget other := by
  rcases h.exists_touches with ⟨r, hr, hTarget, -⟩
  exact ⟨r, hr, hTarget⟩

------------------------------------------------------------
-- Sheets
------------------------------------------------------------

variable {s t dict dict' : Store}

/- What an attribute does not lead to is closed. -/
theorem isClosed_of_not_leadsTo
    (book : Rulebook)
    (key : Key) :
    book.IsClosed fun k => k ≠ key ∧ ¬ book.LeadsTo key k := by
  intro r hRule hOutside k hReads
  have hTouches : ¬ book.Touches key r := fun hTouches =>
    hOutside.2 (hTouches.leadsTo hRule)
  exact ⟨fun hEq => hTouches ⟨k, .inl hEq, hReads⟩,
    fun hLeads => hTouches ⟨k, .inr hLeads, hReads⟩⟩

/-
  The sheets of inputs that differ in one attribute agree on
  all to which it does not lead.
-/
theorem getElem?_sheet_of_agreeOff
    (h : s.AgreeOff t key)
    (hOther : other ≠ key)
    (hLeads : ¬ book.LeadsTo key other) :
    (book.sheet s)[other]? = (book.sheet t)[other]? :=
  (isClosed_of_not_leadsTo book key).getElem?_sheet
    (fun k hOutside => h k hOutside.1) ⟨hOther, hLeads⟩

/- So it is in the dictionary of a target. -/
theorem IsDictionary.getElem?_of_not_isTarget
    (hDict : book.IsDictionary s (book.sheet s) other dict)
    (h : ¬ book.IsTarget key)
    (hOther : book.IsTarget other) :
    dict[key]? = s[key]? := by
  rw [hDict.settled key]
  · exact getElem?_sheet_of_not_isTarget h s
  · rintro (rfl | hPending)
    · exact h hOther
    · exact h hPending.1

/- A rule that is not touched contributes the same. -/
theorem contribution_of_agreeOff
    (h : s.AgreeOff t key)
    (hDict : book.IsDictionary s (book.sheet s) other dict)
    (hDict' : book.IsDictionary t (book.sheet t) other dict')
    (hTouches : ¬ book.Touches key r) :
    r.contribution dict = r.contribution dict' := by
  apply Rule.contribution_congr
  intro k hReads
  have hApart : k ≠ key := fun hEq =>
    hTouches ⟨k, .inl hEq, hReads⟩
  have hUnled : ¬ book.LeadsTo key k := fun hLeads =>
    hTouches ⟨k, .inr hLeads, hReads⟩
  apply hDict.getElem?_congr hDict' (h k hApart)
  intro _
  exact getElem?_sheet_of_agreeOff h hApart hUnled

end Rulebook

end CharSheet
