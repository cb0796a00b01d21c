import ResolverPipeline.Main
import ResolverPipeline.Template.Builtin
import ResolverPipeline.Reading.Step
import ResolverPipeline.Proofs.Outcome
import ResolverPipeline.Proofs.Rendering
import ResolverPipeline.Proofs.Builder
import ResolverPipeline.Proofs.Reference
import ResolverPipeline.Proofs.StepName
import ResolverPipeline.Proofs.Assembly
import ResolverPipeline.Proofs.Compilation
import ResolverPipeline.Proofs.Naming
import ResolverPipeline.Proofs.Faults
import ResolverPipeline.Proofs.FieldMap
import ResolverPipeline.Proofs.Acceptance
import ResolverPipeline.Proofs.Occurrence
import ResolverPipeline.Proofs.StashDiscipline
import ResolverPipeline.Proofs.Decoding
import ResolverPipeline.Proofs.Lossless
import ResolverPipeline.Proofs.Markers
import ResolverPipeline.Proofs.Insertion
import ResolverPipeline.Proofs.Modularity
import ResolverPipeline.Proofs.StashContract
import ResolverPipeline.Proofs.Edits
import ResolverPipeline.Proofs.JsonText
import ResolverPipeline.Proofs.RoundTrip
import ResolverPipeline.Proofs.NormalForm
import ResolverPipeline.Proofs.Repetition
import ResolverPipeline.Proofs.Dependencies
import ResolverPipeline.Proofs.Positions
import ResolverPipeline.Proofs.DeclaredSlots
import ResolverPipeline.Proofs.FileTree
import ResolverPipeline.Proofs.CommandLine
import ResolverPipeline.Proofs.CheckOrder
import ResolverPipeline.Proofs.RequestLayout
import ResolverPipeline.Proofs.EnvelopeNames
import ResolverPipeline.Proofs.Parentheses
import ResolverPipeline.Proofs.ReferenceGrammar
import ResolverPipeline.Proofs.LastWrite
import ResolverPipeline.Proofs.ObjectMembers
import ResolverPipeline.Proofs.FieldOrder
import ResolverPipeline.Proofs.KeyOrder
import ResolverPipeline.Proofs.Rounding
import ResolverPipeline.Proofs.ShortestDecimal
import ResolverPipeline.Proofs.IntegerLiteral
import ResolverPipeline.Proofs.IntegerText
import ResolverPipeline.Proofs.Logging
import ResolverPipeline.Proofs.FaithfulLog
import ResolverPipeline.Proofs.Recovery
import ResolverPipeline.Proofs.ScopeChange
