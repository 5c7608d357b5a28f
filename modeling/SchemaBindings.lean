import SchemaBindings.Command.Folder
import SchemaBindings.Main
import SchemaBindings.Proofs.Mapping
import SchemaBindings.Proofs.Relations
import SchemaBindings.Proofs.Budget
import SchemaBindings.Proofs.Growth
import SchemaBindings.Proofs.Merging
import SchemaBindings.Proofs.Mentions
import SchemaBindings.Proofs.Texts
import SchemaBindings.Proofs.Composition
import SchemaBindings.Proofs.Occurrences
import SchemaBindings.Proofs.Outputs
import SchemaBindings.Proofs.Targets
import SchemaBindings.Proofs.Handles
import SchemaBindings.Proofs.Simulation
import SchemaBindings.Proofs.Twins
import SchemaBindings.Proofs.Agreement
import SchemaBindings.Proofs.Cover
import SchemaBindings.Proofs.Calls
import SchemaBindings.Proofs.Endless
import SchemaBindings.Proofs.Spelling
import SchemaBindings.Proofs.Definitions
import SchemaBindings.Proofs.Symbols
import SchemaBindings.Proofs.Replay
import SchemaBindings.Proofs.Stability
import SchemaBindings.Proofs.Repeats
import SchemaBindings.Proofs.Faults
import SchemaBindings.Proofs.Cycles
import SchemaBindings.Proofs.Chains
import SchemaBindings.Proofs.Loops
import SchemaBindings.Proofs.Heights
import SchemaBindings.Proofs.Layers
import SchemaBindings.Proofs.Rules
import SchemaBindings.Proofs.Visits
import SchemaBindings.Proofs.Clashes
import SchemaBindings.Proofs.Settled
import SchemaBindings.Proofs.Accounted
import SchemaBindings.Proofs.Roots
import SchemaBindings.Proofs.Properties
import SchemaBindings.Proofs.MergedProperties
import SchemaBindings.Proofs.Emissions
import SchemaBindings.Proofs.Collisions
import SchemaBindings.Proofs.Kept
import SchemaBindings.Proofs.Tracked
import SchemaBindings.Proofs.Firm
import SchemaBindings.Proofs.Presence
import SchemaBindings.Proofs.Naming
import SchemaBindings.Proofs.Pruning
import SchemaBindings.Proofs.Construction
import SchemaBindings.Proofs.Entries
import SchemaBindings.Proofs.Assembly
import SchemaBindings.Proofs.Signatures
import SchemaBindings.Proofs.Linkage
import SchemaBindings.Proofs.Paths
import SchemaBindings.Proofs.Writing
import SchemaBindings.Proofs.Includes
import SchemaBindings.Proofs.Dependencies
import SchemaBindings.Proofs.Units
import SchemaBindings.Proofs.Order
import SchemaBindings.Proofs.Reserved
import SchemaBindings.Proofs.Accessors
import SchemaBindings.Proofs.HeaderNames
import SchemaBindings.Proofs.Origins
import SchemaBindings.Proofs.Orderly
import SchemaBindings.Proofs.Sites
import SchemaBindings.Proofs.Preferences
import SchemaBindings.Proofs.Placed
import SchemaBindings.Proofs.Series
import SchemaBindings.Proofs.Needed
import SchemaBindings.Proofs.Pointers
import SchemaBindings.Proofs.Equality
import SchemaBindings.Proofs.Regularity
import SchemaBindings.Proofs.Flattening
import SchemaBindings.Proofs.Pointwise
import SchemaBindings.Proofs.Bounds
import SchemaBindings.Proofs.Congruence
import SchemaBindings.Proofs.Regrouping
import SchemaBindings.Proofs.Omissions
import SchemaBindings.Proofs.Tuples
import SchemaBindings.Proofs.Setters
import SchemaBindings.Proofs.Merges
import SchemaBindings.Proofs.Cases
import SchemaBindings.Proofs.Parameters
import SchemaBindings.Proofs.Scopes
import SchemaBindings.Proofs.Trampolines
import SchemaBindings.Proofs.Variables
import SchemaBindings.Proofs.Callbacks
import SchemaBindings.Proofs.Histories
import SchemaBindings.Proofs.Signs
import SchemaBindings.Proofs.Locations
import SchemaBindings.Proofs.Breaks
import SchemaBindings.Proofs.Once
import SchemaBindings.Proofs.Claimed
import SchemaBindings.Proofs.Predicted
import SchemaBindings.Proofs.Qualified
import SchemaBindings.Proofs.CaseNames
import SchemaBindings.Proofs.Comments
import SchemaBindings.Proofs.Literals
