import CharSheet.Number.Bits
import CharSheet.Number.Layout
import CharSheet.Store.Document
import CharSheet.Text.Capitals
import CharSheet.Text.Folding
import CharSheet.Text.WordParts
import CharSheet.Pattern.Matching
import CharSheet.Pattern.Reading
import CharSheet.Formula.Eval
import CharSheet.Formula.Token
import CharSheet.Formula.Reading
import CharSheet.AttrTable
import CharSheet.Formula
import CharSheet.Choice.Declarations
import CharSheet.Content.Module
import CharSheet.Graph
import CharSheet.Rulebook.Choices
import CharSheet.Rulebook.Sheet
import CharSheet.Settings.Reading
import CharSheet.Operator
import CharSheet.Abilities
import CharSheet.Feature
import CharSheet.Requirement
import CharSheet.SpellSlots
import CharSheet.Fragment
import CharSheet.Choice.Kind
import CharSheet.Random.Attribute
import CharSheet.Random.Fill
import CharSheet.Repair
import CharSheet.Proofs.Formula.Dependencies
import CharSheet.Proofs.Graph.Components
import CharSheet.Proofs.Sheet.Plan
import CharSheet.Proofs.Sheet.Snapshot
import CharSheet.Proofs.Rulebook.Consistency
import CharSheet.Proofs.Rulebook.Steps
import CharSheet.Proofs.Rulebook.Withdrawal
import CharSheet.Proofs.Rulebook.Command
import CharSheet.Proofs.Rulebook.History
import CharSheet.Proofs.Rulebook.Ownership
import CharSheet.Proofs.Rulebook.Undo
import CharSheet.Proofs.Sheet.Rearrangement
import CharSheet.Proofs.Number.Whole
import CharSheet.Proofs.Requirement.Holding
import CharSheet.Proofs.Requirement.Note
import CharSheet.Proofs.Rulebook.OwnRules
import CharSheet.Proofs.Rulebook.Remainder
import CharSheet.Proofs.Rulebook.Parallel
import CharSheet.Proofs.Choice.Support
import CharSheet.Proofs.Sheet.Counting
import CharSheet.Proofs.Rulebook.Cleared
import CharSheet.Proofs.Choice.Removal
import CharSheet.Proofs.Formula.Grammar
import CharSheet.Proofs.Formula.Readers
import CharSheet.Proofs.Formula.Derivation
import CharSheet.Proofs.Random.Outcome
import CharSheet.Proofs.Repair.Account
import CharSheet.Proofs.AttrTable.Edited
import CharSheet.Proofs.AttrTable.RoundTrip
import CharSheet.Proofs.Sheet.Influence
import CharSheet.Proofs.Sheet.Tally
import CharSheet.Proofs.Random.Picks
import CharSheet.Proofs.Random.Budgets
import CharSheet.Proofs.Graph.Condensation
import CharSheet.Proofs.Rulebook.Records
import CharSheet.Proofs.Choice.Tagged
import CharSheet.Proofs.Content.Layers
import CharSheet.Proofs.Content.Loading
import CharSheet.Proofs.Content.Supplement
import CharSheet.Proofs.Key.Scopes
import CharSheet.Proofs.Choice.Composition
import CharSheet.Proofs.Choice.Calls
import CharSheet.Proofs.Choice.Pools
import CharSheet.Proofs.Choice.Budgets
import CharSheet.Proofs.Choice.Registry
import CharSheet.Proofs.Choice.Identity
import CharSheet.Proofs.Choice.Targets
import CharSheet.Proofs.Choice.Entries
import CharSheet.Proofs.Choice.Selectable
import CharSheet.Proofs.Formula.Equality
import CharSheet.Proofs.Sheet.Acyclic
import CharSheet.Proofs.Number.Reading
import CharSheet.Proofs.Requirement.Reading
import CharSheet.Proofs.Repair.Mending
import CharSheet.Proofs.Repair.Selection
import CharSheet.Proofs.Sheet.Breakdown
import CharSheet.Proofs.Requirement.Joining
import CharSheet.Proofs.Requirement.Splitting
import CharSheet.Proofs.Rulebook.Renumbering
import CharSheet.Proofs.Choice.Repeated
import CharSheet.Proofs.Repair.Gap
import CharSheet.Proofs.Repair.Fulfilment
import CharSheet.Proofs.Repair.Rounds
import CharSheet.Proofs.Number.Floor
import CharSheet.Proofs.Random.Pools
import CharSheet.Proofs.Random.Levels
import CharSheet.Proofs.Number.Nearest
import CharSheet.Proofs.Random.Rollback
import CharSheet.Proofs.Random.Spells
import CharSheet.Proofs.Random.HitPoints
import CharSheet.Proofs.Random.Weighted
import CharSheet.Proofs.Random.Boosts
import CharSheet.Proofs.Random.Family
import CharSheet.Proofs.Content.Patches
import CharSheet.Proofs.Requirement.Absence
import CharSheet.Proofs.Sheet.Exactness
import CharSheet.Proofs.Number.Order
import CharSheet.Proofs.Choice.SpellSlots
import CharSheet.Proofs.Text.Stops
import CharSheet.Proofs.AttrTable.Joining
import CharSheet.Proofs.Fragment.Brackets
import CharSheet.Proofs.Fragment.Separation
import CharSheet.Proofs.Choice.Lookup
import CharSheet.Proofs.Content.Sessions
import CharSheet.Proofs.Graph.Cycles
import CharSheet.Proofs.Value.Comparison
import CharSheet.Proofs.Formula.Scanning
