import TypeModel.Analysis.Convention
import TypeModel.Analysis.Issue
import TypeModel.Analysis.Namespace
import TypeModel.Analysis.Resolution
import TypeModel.Analysis.Validation
import TypeModel.Analysis.Visit
import TypeModel.Cli.Args
import TypeModel.Cli.Load
import TypeModel.Cli.Log
import TypeModel.Cli.Report
import TypeModel.Cli.Run
import TypeModel.Cli.Usage
import TypeModel.Compiler
import TypeModel.Config
import TypeModel.Cpp.Function
import TypeModel.Cpp.Header
import TypeModel.Cpp.Name
import TypeModel.Cpp.Project
import TypeModel.Cpp.Source
import TypeModel.Cpp.TestStub
import TypeModel.Cpp.TypeExpr
import TypeModel.Diagnostic.Basic
import TypeModel.Diagnostic.Code
import TypeModel.Document.Toml
import TypeModel.Document.Value
import TypeModel.Generation.Target
import TypeModel.Main
import TypeModel.Model.Basic
import TypeModel.Model.Builder
import TypeModel.Model.Chain
import TypeModel.Model.Declaration
import TypeModel.Model.Decode
import TypeModel.Model.Edit
import TypeModel.Model.Expression
import TypeModel.Model.Primitive
import TypeModel.Model.Reference
import TypeModel.Model.Site
import TypeModel.Name
import TypeModel.NameTable
import TypeModel.Notice
import TypeModel.Number.Double
import TypeModel.Output.FileSet
import TypeModel.Output.FileSystem
import TypeModel.Output.Path
import TypeModel.Proofs.Analysis.Analyze
import TypeModel.Proofs.Analysis.BitLengths
import TypeModel.Proofs.Analysis.CycleReports
import TypeModel.Proofs.Analysis.Names
import TypeModel.Proofs.Analysis.Naming
import TypeModel.Proofs.Analysis.Reported
import TypeModel.Proofs.Analysis.Walk
import TypeModel.Proofs.Cli.Run
import TypeModel.Proofs.Cpp.Build
import TypeModel.Proofs.Cpp.Classes
import TypeModel.Proofs.Cpp.Declared
import TypeModel.Proofs.Cpp.Defined
import TypeModel.Proofs.Cpp.Definitions
import TypeModel.Proofs.Cpp.Entities
import TypeModel.Proofs.Cpp.EnumNames
import TypeModel.Proofs.Cpp.Files
import TypeModel.Proofs.Cpp.HeaderLines
import TypeModel.Proofs.Cpp.Headings
import TypeModel.Proofs.Cpp.Identifiers
import TypeModel.Proofs.Cpp.Includes
import TypeModel.Proofs.Cpp.Inheritance
import TypeModel.Proofs.Cpp.Linkage
import TypeModel.Proofs.Cpp.Needs
import TypeModel.Proofs.Cpp.Serialization
import TypeModel.Proofs.Cpp.Spelled
import TypeModel.Proofs.Cpp.Spelling
import TypeModel.Proofs.Cpp.TestStub
import TypeModel.Proofs.Generation.Cpp
import TypeModel.Proofs.Generation.CppFailure
import TypeModel.Proofs.Generation.Expansion
import TypeModel.Proofs.Generation.Failure
import TypeModel.Proofs.Generation.Gate
import TypeModel.Proofs.Model.Bases
import TypeModel.Proofs.Model.Changes
import TypeModel.Proofs.Model.Cycles
import TypeModel.Proofs.Model.Entries
import TypeModel.Proofs.Model.Growth
import TypeModel.Proofs.Model.Numbering
import TypeModel.Proofs.Model.Sorted
import TypeModel.Proofs.Model.Steps
import TypeModel.Proofs.Output.FileSet
import TypeModel.Proofs.Output.Grounded
import TypeModel.Proofs.Output.Path
import TypeModel.Proofs.Output.Policy
import TypeModel.Proofs.Proto.Clashes
import TypeModel.Proofs.Proto.Coverage
import TypeModel.Proofs.Proto.EnumValues
import TypeModel.Proofs.Proto.Enumerators
import TypeModel.Proofs.Proto.Layout
import TypeModel.Proofs.Proto.MapKeys
import TypeModel.Proofs.Proto.MissingZero
import TypeModel.Proofs.Proto.Places
import TypeModel.Proofs.Proto.Reading
import TypeModel.Proofs.Proto.References
import TypeModel.Proofs.Resolution.Bound
import TypeModel.Proofs.Resolution.Forgetting
import TypeModel.Proofs.Resolution.Meaning
import TypeModel.Proofs.Resolution.Pass
import TypeModel.Proofs.Resolution.Qualified
import TypeModel.Proofs.Resolution.Registry
import TypeModel.Proofs.Resolution.Reports
import TypeModel.Proofs.Resolution.Stability
import TypeModel.Proofs.Resolution.Traversals
import TypeModel.Proofs.Text.Case
import TypeModel.Proofs.Text.Comments
import TypeModel.Proofs.Text.Lines
import TypeModel.Proofs.Text.Margin
import TypeModel.Proofs.Text.Quoted
import TypeModel.Proto.Descriptor
import TypeModel.Proto.Name
import TypeModel.Proto.Schema
import TypeModel.Statistics
import TypeModel.Text.Blank
import TypeModel.Text.Case
import TypeModel.Text.CaseTable
import TypeModel.Text.CasedTable
import TypeModel.Text.Cluster
import TypeModel.Text.ClusterTable
import TypeModel.Text.Ordered
import TypeModel.Text.Quoted
import TypeModel.Text.Split
import TypeModel.Text.Writer
