import PacketLayout.Text.Blank
import PacketLayout.Text.Scan
import PacketLayout.Text.Decimal
import PacketLayout.Text.Hex
import PacketLayout.Text.Grammar
import PacketLayout.Text.ControlSequence
import PacketLayout.Text.Pattern
import PacketLayout.Text.Pattern.Reading
import PacketLayout.OrderedMap
import PacketLayout.Token
import PacketLayout.Signature
import PacketLayout.Field
import PacketLayout.Failure
import PacketLayout.Journal
import PacketLayout.Job
import PacketLayout.Qualifier
import PacketLayout.FieldLine
import PacketLayout.BranchHeader
import PacketLayout.ControlLine
import PacketLayout.BodyLine
import PacketLayout.DeclarationHeader
import PacketLayout.LineGrammar
import PacketLayout.SourceLine
import PacketLayout.Body
import PacketLayout.Registry
import PacketLayout.Expansion
import PacketLayout.Assembly
import PacketLayout.Loading
import PacketLayout.Compilation
import PacketLayout.Json
import PacketLayout.SignatureTable
import PacketLayout.Workspace
import PacketLayout.CommandLine.Options
import PacketLayout.CommandLine.Arguments
import PacketLayout.CommandLine.Files
import PacketLayout.CommandLine.FileTree
import PacketLayout.CommandLine.ErrorOutput
import PacketLayout.CommandLine.LogFilter
import PacketLayout.CommandLine.Run
import PacketLayout.Main
import PacketLayout.Proofs.Compiling
import PacketLayout.Proofs.Declaring
import PacketLayout.Proofs.Session
import PacketLayout.Proofs.Expansion.Coherence
import PacketLayout.Proofs.Packet.Outline
import PacketLayout.Proofs.Rendering
import PacketLayout.Proofs.Packet.AcceptedSteps
import PacketLayout.Proofs.Packet.Following
import PacketLayout.Proofs.Expansion.Plain
import PacketLayout.Proofs.Packet.Keys
import PacketLayout.Proofs.Packet.SinglePass
import PacketLayout.Proofs.Packet.WellFormed
import PacketLayout.Proofs.Packet.Acceptance
import PacketLayout.Proofs.Sealed
import PacketLayout.Proofs.Expansion.References
import PacketLayout.Proofs.Locality
import PacketLayout.Proofs.Marking
import PacketLayout.Proofs.Retry
import PacketLayout.Proofs.RepeatMarks
import PacketLayout.Proofs.Packet.Repeats
import PacketLayout.Proofs.Loading.Blocks
import PacketLayout.Proofs.Loading.Partition
import PacketLayout.Proofs.Blame
import PacketLayout.Proofs.Staleness
import PacketLayout.Proofs.Growing
import PacketLayout.Proofs.Expansion.Traces
import PacketLayout.Proofs.Packet.Tracing
import PacketLayout.Proofs.Packet.Alignment
import PacketLayout.Proofs.Units
import PacketLayout.Proofs.LineGrammar.Brackets
import PacketLayout.Proofs.LineGrammar.Readers
import PacketLayout.Proofs.KeyReading
import PacketLayout.Proofs.Packet.Compiled
import PacketLayout.Proofs.Packet.Decoding
import PacketLayout.Proofs.Packet.OwnGroups
import PacketLayout.Proofs.Completeness
import PacketLayout.Proofs.Renumbering.Data
import PacketLayout.Proofs.Renumbering.Expansion
import PacketLayout.Proofs.Renumbering.Assembly
import PacketLayout.Proofs.Renumbering.Compiling
import PacketLayout.Proofs.Renumbering.Loading
import PacketLayout.Proofs.SourceEdits
import PacketLayout.Proofs.SameCode
import PacketLayout.Proofs.FatalRecord
import PacketLayout.Proofs.Permanence
import PacketLayout.Proofs.Expansion.Footprint
import PacketLayout.Proofs.FirstFailure
import PacketLayout.Proofs.Warnings.Expected
import PacketLayout.Proofs.Warnings.Branches
import PacketLayout.Proofs.Warnings.Raised
import PacketLayout.Proofs.Warnings.Build
import PacketLayout.Proofs.FragmentNames
import PacketLayout.Proofs.Loading.Prefixes
import PacketLayout.Proofs.JsonReading
import PacketLayout.Proofs.TableReading
import PacketLayout.Proofs.CommandLine.FileTree
import PacketLayout.Proofs.CommandLine.CheckSwitch
import PacketLayout.Proofs.CommandLine.Delivery
import PacketLayout.Proofs.Packet.IgnoredBranches
import PacketLayout.Proofs.RegisteredPackets
import PacketLayout.Proofs.Termination
import PacketLayout.Proofs.Packet.LiteralCase
import PacketLayout.Proofs.Qualifiers
import PacketLayout.Proofs.FieldLines
import PacketLayout.Proofs.BranchHeaders
import PacketLayout.Proofs.LineForms
import PacketLayout.Proofs.LineCode
import PacketLayout.Proofs.SignatureAlgebra
import PacketLayout.Proofs.Bodies
import PacketLayout.Proofs.Additions
