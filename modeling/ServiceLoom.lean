import ServiceLoom.Abort
import ServiceLoom.Artifact.Basic
import ServiceLoom.Artifact.Write
import ServiceLoom.Brackets
import ServiceLoom.Build.Argument
import ServiceLoom.Build.Builder
import ServiceLoom.Build.FieldType
import ServiceLoom.Build.Method
import ServiceLoom.Build.Service
import ServiceLoom.Command.ExitCode
import ServiceLoom.Command.Format
import ServiceLoom.Command.Generate
import ServiceLoom.Command.Inputs
import ServiceLoom.Command.Inspect
import ServiceLoom.CommandLine.Basic
import ServiceLoom.CommandLine.Reader
import ServiceLoom.Comment
import ServiceLoom.Config.Basic
import ServiceLoom.Config.Book
import ServiceLoom.Convention
import ServiceLoom.Declaration.Basic
import ServiceLoom.Declaration.Json
import ServiceLoom.Declaration.TypeExpr
import ServiceLoom.Double.Basic
import ServiceLoom.Double.Text
import ServiceLoom.Entity
import ServiceLoom.Error
import ServiceLoom.File.Path
import ServiceLoom.File.System
import ServiceLoom.File.Tree
import ServiceLoom.Flag.Set
import ServiceLoom.Flag.Universe
import ServiceLoom.Json.Basic
import ServiceLoom.Json.Member
import ServiceLoom.Json.Number
import ServiceLoom.Json.Outline
import ServiceLoom.Json.Printer
import ServiceLoom.Json.Reader
import ServiceLoom.Json.Shape
import ServiceLoom.Main
import ServiceLoom.Program
import ServiceLoom.Proofs.Artifact.Persist
import ServiceLoom.Proofs.Artifact.Policy
import ServiceLoom.Proofs.Artifact.Rerun
import ServiceLoom.Proofs.Artifact.Sequence
import ServiceLoom.Proofs.Artifact.Target
import ServiceLoom.Proofs.Brackets
import ServiceLoom.Proofs.Brackets.Verdict
import ServiceLoom.Proofs.Build.Change
import ServiceLoom.Proofs.Build.Conformance
import ServiceLoom.Proofs.Build.Conversion
import ServiceLoom.Proofs.Build.Extension
import ServiceLoom.Proofs.Build.Faults
import ServiceLoom.Proofs.Build.FieldType
import ServiceLoom.Proofs.Build.Flags
import ServiceLoom.Proofs.Build.Logged
import ServiceLoom.Proofs.Build.Origin
import ServiceLoom.Proofs.Build.Params
import ServiceLoom.Proofs.Build.Parts
import ServiceLoom.Proofs.Build.Placeholder
import ServiceLoom.Proofs.Build.Siblings
import ServiceLoom.Proofs.Build.Signature
import ServiceLoom.Proofs.Build.Step
import ServiceLoom.Proofs.Build.Token
import ServiceLoom.Proofs.Build.TypeName
import ServiceLoom.Proofs.Build.WellFormed
import ServiceLoom.Proofs.Command.Agreement
import ServiceLoom.Proofs.Command.Census
import ServiceLoom.Proofs.Command.Confinement
import ServiceLoom.Proofs.Command.DryRun
import ServiceLoom.Proofs.Command.Generate
import ServiceLoom.Proofs.Comment.Delimiter
import ServiceLoom.Proofs.Comment.Reading
import ServiceLoom.Proofs.Comment.Scan
import ServiceLoom.Proofs.Comment.Wrap
import ServiceLoom.Proofs.Comment.Written
import ServiceLoom.Proofs.Config.Book
import ServiceLoom.Proofs.Config.Templates
import ServiceLoom.Proofs.Config.Validation
import ServiceLoom.Proofs.Declaration.Json
import ServiceLoom.Proofs.Declaration.TypeExpr
import ServiceLoom.Proofs.Declaration.TypeJson
import ServiceLoom.Proofs.File.Components
import ServiceLoom.Proofs.File.Names
import ServiceLoom.Proofs.File.Operations
import ServiceLoom.Proofs.File.Walk
import ServiceLoom.Proofs.Flag.Directive
import ServiceLoom.Proofs.Flag.Reach
import ServiceLoom.Proofs.Flag.Universe
import ServiceLoom.Proofs.Json.Member
import ServiceLoom.Proofs.Json.Outline
import ServiceLoom.Proofs.Lookup
import ServiceLoom.Proofs.Recipe.Isolation
import ServiceLoom.Proofs.Recipe.Placeholders
import ServiceLoom.Proofs.Recipe.Registration
import ServiceLoom.Proofs.Recipe.Report
import ServiceLoom.Proofs.Recipe.Steps
import ServiceLoom.Proofs.Results
import ServiceLoom.Proofs.Service.PathPieces
import ServiceLoom.Proofs.Service.PathTemplate
import ServiceLoom.Proofs.Split
import ServiceLoom.Proofs.Split.Segmentation
import ServiceLoom.Proofs.Tag.Bytewise
import ServiceLoom.Proofs.Tag.Extension
import ServiceLoom.Proofs.Tag.Grammar
import ServiceLoom.Proofs.Tag.Group
import ServiceLoom.Proofs.Tag.History
import ServiceLoom.Proofs.Tag.LongestMatch
import ServiceLoom.Proofs.Tag.Options
import ServiceLoom.Proofs.Tag.Params
import ServiceLoom.Proofs.Tag.Payload
import ServiceLoom.Proofs.Tag.Registration
import ServiceLoom.Proofs.Tag.Unambiguous
import ServiceLoom.Proofs.Template.Naming
import ServiceLoom.Proofs.Text.Ascii
import ServiceLoom.Proofs.Text.Padding
import ServiceLoom.Proofs.Text.Utf8
import ServiceLoom.Proofs.Text.Words
import ServiceLoom.Recipe.Basic
import ServiceLoom.Recipe.Book
import ServiceLoom.Recipe.Placeholders
import ServiceLoom.Service.Basic
import ServiceLoom.Service.Capability
import ServiceLoom.Service.FieldType
import ServiceLoom.Service.Json
import ServiceLoom.Service.Origin
import ServiceLoom.Service.PathTemplate
import ServiceLoom.Split
import ServiceLoom.Tag.Builtin
import ServiceLoom.Tag.Name
import ServiceLoom.Tag.Options
import ServiceLoom.Tag.Parsers
import ServiceLoom.Tag.Payload
import ServiceLoom.Tag.Resolve
import ServiceLoom.Template.Helper
import ServiceLoom.Template.Literal
import ServiceLoom.Template.Naming
import ServiceLoom.Template.Output
import ServiceLoom.Template.Parser
import ServiceLoom.Template.Path
import ServiceLoom.Template.Render
import ServiceLoom.Template.Scope
import ServiceLoom.Template.Segment
import ServiceLoom.Template.Store
import ServiceLoom.Template.Syntax
import ServiceLoom.Template.Tag
import ServiceLoom.Template.Value
import ServiceLoom.Template.View
import ServiceLoom.Text.Ascii
import ServiceLoom.Text.Blank
import ServiceLoom.Text.Case
import ServiceLoom.Text.CaseTables
import ServiceLoom.Text.Search
import ServiceLoom.Toml.Date
import ServiceLoom.Toml.Line
import ServiceLoom.Toml.Number
import ServiceLoom.Toml.Quoted
import ServiceLoom.Toml.Reader
import ServiceLoom.Toml.Table
import ServiceLoom.Toml.Value
