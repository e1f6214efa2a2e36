import NameBinding.Main
import NameBinding.Ty.Json
import NameBinding.Proofs.Program.Operation
import NameBinding.Proofs.Program.WellFormed
import NameBinding.Proofs.Program.Refusal
import NameBinding.Proofs.Program.Walk
import NameBinding.Proofs.Program.Union
import NameBinding.Proofs.Program.Merging
import NameBinding.Proofs.Program.MergeAll
import NameBinding.Proofs.Program.Grounded
import NameBinding.Proofs.Program.Navigable
import NameBinding.Proofs.Program.Grafting
import NameBinding.Proofs.Program.Pool
import NameBinding.Proofs.Program.Prototypes
import NameBinding.Proofs.Program.Sight
import NameBinding.Proofs.Program.Caching
import NameBinding.Proofs.Program.Numbering
import NameBinding.Proofs.Program.Relinking
import NameBinding.Proofs.Program.Linking
import NameBinding.Proofs.Program.Values
import NameBinding.Proofs.Program.FunctionPointers
import NameBinding.Proofs.Program.Files
import NameBinding.Proofs.Program.Alone
import NameBinding.Proofs.Unit.Replay
import NameBinding.Proofs.Unit.Running
import NameBinding.Proofs.Unit.Resolution
import NameBinding.Proofs.Unit.Batch
import NameBinding.Proofs.Unit.Conservation
import NameBinding.Proofs.Unit.Course
import NameBinding.Proofs.Call.Ranking
import NameBinding.Proofs.Call.Signature
import NameBinding.Proofs.Call.Judgement
import NameBinding.Proofs.Call.Members
import NameBinding.Proofs.Call.Links
import NameBinding.Proofs.Program.LinkingAgain
import NameBinding.Proofs.Unit.Ownership
import NameBinding.Proofs.Unit.Settling
import NameBinding.Proofs.Unit.Step
import NameBinding.Proofs.Unit.Numbers
import NameBinding.Proofs.Program.Inside
import NameBinding.Proofs.Program.Listing
import NameBinding.Proofs.Unit.Parameters
import NameBinding.Proofs.Unit.Containment
import NameBinding.Proofs.Ty.Supertypes
import NameBinding.Proofs.Ty.Ancestors
import NameBinding.Proofs.Ty.LowestCommonAncestor
import NameBinding.Proofs.Ty.References
import NameBinding.Proofs.Ty.Upcast
import NameBinding.Proofs.Ty.CommonType
import NameBinding.Proofs.Declarator.Scanning
import NameBinding.Proofs.Declarator.Reading
import NameBinding.Proofs.Declarator.Printing
import NameBinding.Proofs.Declarator.RoundTrip
import NameBinding.Proofs.Json.Decode
import NameBinding.Proofs.Unit.EventFile
import NameBinding.Proofs.Collection.Append
import NameBinding.Proofs.Collection.Distinct
import NameBinding.Proofs.Program.Consistent
import NameBinding.Proofs.Program.Shadowing
import NameBinding.Proofs.Program.Lineage
import NameBinding.Proofs.Program.Bodies
import NameBinding.Proofs.Program.Titles
import NameBinding.Proofs.Program.Denotation
import NameBinding.Proofs.Program.Locality
import NameBinding.Proofs.Program.Qualified
import NameBinding.Proofs.Program.Aliases
import NameBinding.Proofs.Program.NewAlias
import NameBinding.Proofs.Program.Imports
import NameBinding.Proofs.Program.Openers
import NameBinding.Proofs.Program.LocalRecords
import NameBinding.Proofs.Program.JumpTargets
import NameBinding.Proofs.Declarator.Pieces
import NameBinding.Proofs.Declarator.Grammar
import NameBinding.Proofs.Declarator.Brackets
import NameBinding.Proofs.Declarator.Complete
import NameBinding.Proofs.Declarator.Qualifying
import NameBinding.Proofs.Name
import NameBinding.Proofs.Ty.Stored
import NameBinding.Proofs.Declarator.Stored
import NameBinding.Proofs.Unit.TypeWords
import NameBinding.Proofs.Language.Registry
import NameBinding.Proofs.Declarator.Activations
import NameBinding.Proofs.Declarator.Progress
