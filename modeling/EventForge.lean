import EventForge.Main
import EventForge.Proofs.Context.DanglingFlows
import EventForge.Proofs.Context.Exclusive
import EventForge.Proofs.Context.Placements
import EventForge.Proofs.Compilation
import EventForge.Proofs.Document.Accounting
import EventForge.Proofs.Document.Lossless
import EventForge.Proofs.Document.NullMembers
import EventForge.Proofs.Document.RoundTrip
import EventForge.Proofs.Java.Closure
import EventForge.Proofs.Java.Containment
import EventForge.Proofs.Java.Failures
import EventForge.Proofs.Java.Isolation
import EventForge.Proofs.Java.Overwriting
import EventForge.Proofs.Java.PlacedEvents
import EventForge.Proofs.Java.Preview
import EventForge.Proofs.Code.Lines
import EventForge.Proofs.Java.Lexical
import EventForge.Proofs.Java.Reachability
import EventForge.Proofs.Java.SourceLines
import EventForge.Proofs.Java.KeptFields
import EventForge.Proofs.Java.Undocumented
import EventForge.Proofs.Java.Documentation
import EventForge.Proofs.Java.Imports
import EventForge.Proofs.Java.SimpleNames
import EventForge.Proofs.Document.Names
import EventForge.Proofs.Java.Parts
import EventForge.Proofs.Java.PatternNames
import EventForge.Proofs.Java.Members
import EventForge.Proofs.Report.ContextCounts
import EventForge.Proofs.Java.FileHead
import EventForge.Proofs.Java.Emissions
import EventForge.Proofs.Java.Redeclared
import EventForge.Proofs.Report.Success
import EventForge.Proofs.FileTree.Below
import EventForge.Proofs.FileTree.Standing
import EventForge.Proofs.Java.Collisions
import EventForge.Proofs.Java.Rerun
import EventForge.Proofs.Report.DryRun
import EventForge.Proofs.Report.NewProjects
import EventForge.Proofs.Compilation.Steps
import EventForge.Proofs.Java.ImportedTypes
import EventForge.Proofs.Java.Offenders
import EventForge.Proofs.Java.Gathered
import EventForge.Proofs.Java.TypeText
import EventForge.Proofs.Namespace.Majority
import EventForge.Proofs.Text.Letters
import EventForge.Proofs.Layout.Packages
import EventForge.Proofs.Document.UnsetNodes
import EventForge.Proofs.Document.SyntaxSpan
import EventForge.Proofs.Java.Indentation
import EventForge.Proofs.Java.Literal
import EventForge.Proofs.SpecVersion
