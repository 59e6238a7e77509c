import CharSheet.Declaration
import CharSheet.Feature

/-
  What the feature lists of content declare.

  A feature of a list belongs to its owner.  A fixed feature
  is granted from a level on, and a selectable one is granted
  to those who select it and have the level.

  Key definitions include:
    * `Feature.ownedKey`
    * `Feature.fixedDeclarations`
    * `Feature.selectableDeclarations`
    * `featureListDeclarations`
-/

namespace CharSheet

namespace Feature

/- The attribute of a feature as one of its owner's. -/
def ownedKey (f : Feature) (owner : String) : Key :=
  Key.under (camelCase owner ++ "Features") f.name

/- The expression that holds from the feature's level on. -/
def hasLevel (f : Feature) : Expr :=
  .binary .ge .source (.number (.ofNat f.level))

/- The text of the feature's level as a condition. -/
def levelText (f : Feature) : String :=
  "source >= " ++ toString f.level

/- What the requirement of a feature declares. -/
def gateDeclarations
    (f : Feature)
    (owned level : Key) : List Declaration :=
  match f.prerequisite with
  | none => []
  | some requirement =>
      [.rule owned level .gate
        (some ⟨requirement.text, requirement.toExpr⟩)]

/- What a fixed feature declares. -/
def fixedDeclarations
    (f : Feature)
    (owned level : Key) : List Declaration :=
  [.rule owned level .set
    (some ⟨f.levelText ++ " ? 1 : null",
      .choose f.hasLevel (.number 1) .absent⟩)]

/-
  The text of the requirement of selecting a feature: its
  level, and what it requires itself.
-/
def selectionText (f : Feature) (level : Key) : String :=
  let needed := level ++ " >= " ++ toString f.level
  match f.prerequisite with
  | none => needed
  | some requirement => needed ++ "/" ++ requirement.text

/- The note that reports an unmet requirement of selecting. -/
def selectionNote (f : Feature) (owner : String) : String :=
  camelCase (owner ++ " " ++ f.name) ++ "SelectableFeature"

/-
  What a selectable feature declares.  A requirement that
  cannot be read is left out.
-/
def selectableDeclarations
    (f : Feature)
    (owner : String)
    (owned level : Key) : List Declaration :=
  let chosen := selectableKey owner f.name
  let allocation := selectableAllocation owner f.group
  let budget := selectableBudget owner f.group
  [.rule owned level .gate (some ⟨f.levelText, f.hasLevel⟩),
    .rule owned chosen .set none,
    .allocation allocation budget,
    .member allocation chosen] ++
    match Requirement.ofText (f.selectionText level) with
    | .error _ => []
    | .ok requirement =>
        requirementDeclarations "validation"
          (f.selectionNote owner) chosen requirement

/- What a feature declares, fixed or selectable. -/
def declarations
    (f : Feature)
    (owner : String)
    (level : Key)
    (selectable : Bool) : List Declaration :=
  let owned := f.ownedKey owner
  f.gateDeclarations owned level ++
    (if selectable then
      f.selectableDeclarations owner owned level
    else f.fixedDeclarations owned level) ++
    .rule (.under "features" f.name) owned .add none ::
    noteDeclarations owned f.name

end Feature

/-
  What an entry of a list declares, nothing if it cannot be
  read.
-/
def entryDeclarations
    (owner : String)
    (level : Key)
    (selectable : Bool)
    (text : String) : List Declaration :=
  match Feature.ofText text with
  | .error _ => []
  | .ok f => f.declarations owner level selectable

/-
  What the lists of an owner's fixed and selectable features
  declare.
-/
def featureListDeclarations
    (owner : String)
    (level : Key)
    (features selectables : List String) :
    List Declaration :=
  features.flatMap (entryDeclarations owner level false) ++
    selectables.flatMap (entryDeclarations owner level true)

end CharSheet
