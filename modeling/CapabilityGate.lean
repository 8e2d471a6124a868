import CapabilityGate.Text.NameChar
import CapabilityGate.Capability.Descriptor
import CapabilityGate.Data.JsonText
import CapabilityGate.Program.Lexer
import CapabilityGate.Program.Tree
import CapabilityGate.Program.Reader
import CapabilityGate.Program.Grammar.Basic
import CapabilityGate.Program.Grammar.Types
import CapabilityGate.Program.Grammar.Expressions
import CapabilityGate.Program.Parse
import CapabilityGate.Program.Import
import CapabilityGate.Program.Declaration
import CapabilityGate.Program.Mention
import CapabilityGate.Program.TokenRun
import CapabilityGate.Resolution.Model
import CapabilityGate.Audit.Report
import CapabilityGate.Report.Form
import CapabilityGate.Config.Form
import CapabilityGate.Toml.Read
import CapabilityGate.Output.Stream
import CapabilityGate.Output.Buffer
import CapabilityGate.Files.Tree
import CapabilityGate.Config.Source
import CapabilityGate.Build.Library
import CapabilityGate.Build.Form
import CapabilityGate.Build.Compiler
import CapabilityGate.Process.Sandbox
import CapabilityGate.Run.Workspace
import CapabilityGate.Run.Session
import CapabilityGate.Run.Toolchain
import CapabilityGate.Run.Stage
import CapabilityGate.Run.Service
import CapabilityGate.CommandLine.Arguments
import CapabilityGate.CommandLine.Answer
import CapabilityGate.Main
import CapabilityGate.Proofs.Capability.PathText
import CapabilityGate.Proofs.Resolution.Reexport
import CapabilityGate.Proofs.Audit.Rejection
import CapabilityGate.Proofs.Run.Order
import CapabilityGate.Proofs.Run.Cleanup
import CapabilityGate.Proofs.Audit.FirstOffence
import CapabilityGate.Proofs.Audit.Strictness
import CapabilityGate.Proofs.Audit.GlobalPath
import CapabilityGate.Proofs.Program.RearrangedWalk
import CapabilityGate.Proofs.Resolution.AlikeNames
import CapabilityGate.Proofs.Resolution.DeclarationOrder
import CapabilityGate.Proofs.Resolution.AlikeSites
import CapabilityGate.Proofs.Audit.ItemOrder
import CapabilityGate.Proofs.Audit.GlobReading
import CapabilityGate.Proofs.Audit.MacroPaths
import CapabilityGate.Proofs.Audit.MacroWrapping
import CapabilityGate.Proofs.Audit.ModuleImport
import CapabilityGate.Proofs.Audit.StandardRoots
import CapabilityGate.Proofs.Audit.RawNames
import CapabilityGate.Proofs.Audit.IndirectTypes
import CapabilityGate.Proofs.Audit.SpentBudget
import CapabilityGate.Proofs.Audit.DescriptorMeaning
import CapabilityGate.Proofs.Run.AuditedRun
import CapabilityGate.Proofs.Run.Contract
import CapabilityGate.Proofs.Run.Interleaving
import CapabilityGate.Proofs.Report.Identifier
import CapabilityGate.Proofs.Report.ReadBack
import CapabilityGate.Proofs.Run.Pool
import CapabilityGate.Proofs.Run.Slots
import CapabilityGate.Proofs.Run.Artifact
import CapabilityGate.Proofs.Resolution.Termination
import CapabilityGate.Proofs.Audit.ValuePaths
import CapabilityGate.Proofs.Program.DeclaredItems
import CapabilityGate.Proofs.Audit.DanglingPaths
import CapabilityGate.Proofs.Audit.ScopedReceivers
import CapabilityGate.Proofs.Program.TokenPlaces
import CapabilityGate.Proofs.Program.MentionOrder
import CapabilityGate.Proofs.Program.ConstructsInOrder
import CapabilityGate.Proofs.Program.ReadingOrder
import CapabilityGate.Proofs.Program.TypesInOrder
import CapabilityGate.Proofs.Program.PatternsInOrder
import CapabilityGate.Proofs.Program.ExpressionsInOrder
import CapabilityGate.Proofs.Program.ItemsInOrder
import CapabilityGate.Proofs.Audit.SourceOrder
import CapabilityGate.Proofs.Audit.ExternalCrates
import CapabilityGate.Proofs.Report.DescriptorText
import CapabilityGate.Proofs.Capability.TypeGrammar
import CapabilityGate.Proofs.Text.LineBytes
import CapabilityGate.Proofs.Build.Messages
import CapabilityGate.Proofs.Build.Outcome
import CapabilityGate.Proofs.Output.Capture
import CapabilityGate.Proofs.Run.Ownership
import CapabilityGate.Proofs.Build.Libraries
import CapabilityGate.Proofs.Output.SharedHandles
import CapabilityGate.Proofs.Resolution.UseTrees
import CapabilityGate.Proofs.Program.TokenPartition
import CapabilityGate.Proofs.Resolution.WrittenArguments
import CapabilityGate.Proofs.Audit.RootPaths
import CapabilityGate.Proofs.Capability.InstanceOrder
import CapabilityGate.Proofs.Capability.NormalForm
