import WasmPackager.Bytes
import WasmPackager.Template.Segment
import WasmPackager.Template.Condensed
import WasmPackager.Template.Pattern
import WasmPackager.Loader.Contract
import WasmPackager.Loader.Adapt
import WasmPackager.Report.Failure
import WasmPackager.Report.Logger
import WasmPackager.FileSystem.SystemError
import WasmPackager.FileSystem.Path
import WasmPackager.FileSystem.Inode
import WasmPackager.FileSystem.Store
import WasmPackager.FileSystem.Host
import WasmPackager.FileSystem.Operations
import WasmPackager.Command.Basic
import WasmPackager.Command.Child
import WasmPackager.Command.Launch
import WasmPackager.Session
import WasmPackager.Artifact.Kind
import WasmPackager.Artifact.Scan
import WasmPackager.Outputs
import WasmPackager.Project.Config
import WasmPackager.Project.Manifest
import WasmPackager.Project.Resolve
import WasmPackager.Pipeline
import WasmPackager.CommandLine
import WasmPackager.Shell
import WasmPackager.Main
import WasmPackager.Command.Executable
import WasmPackager.Proofs.Bytes
import WasmPackager.Proofs.Session
import WasmPackager.Proofs.FileSystem.Paths
import WasmPackager.Proofs.FileSystem.Walking
import WasmPackager.Proofs.FileSystem.Trees
import WasmPackager.Proofs.FileSystem.Lookup
import WasmPackager.Proofs.FileSystem.Changes
import WasmPackager.Proofs.FileSystem.Writing
import WasmPackager.Proofs.FileSystem.Making
import WasmPackager.Proofs.FileSystem.Disturbing
import WasmPackager.Proofs.Publishing
import WasmPackager.Proofs.Template.Language
import WasmPackager.Proofs.Template.Longest
import WasmPackager.Proofs.Template.Condensing
import WasmPackager.Proofs.Template.Reading
import WasmPackager.Proofs.Template.Matching
import WasmPackager.Proofs.Template.Delimited
import WasmPackager.Proofs.Template.Squeezing
import WasmPackager.Proofs.Loader.Acceptance
import WasmPackager.Proofs.Loader.Reformatting
import WasmPackager.Proofs.Pipeline.Steps
import WasmPackager.Proofs.Pipeline.Stages
import WasmPackager.Proofs.Pipeline.Notes
import WasmPackager.Proofs.Pipeline.Scanning
import WasmPackager.Proofs.Publishing.Outcomes
import WasmPackager.Proofs.Publishing.Staging
import WasmPackager.Proofs.Project.Layout
import WasmPackager.Proofs.Pipeline.Delivery
import WasmPackager.Proofs.Pipeline.Repetition
import WasmPackager.Proofs.Pipeline.Severity
import WasmPackager.Proofs.CommandLine.Reported
import WasmPackager.Proofs.CommandLine.Outcome
import WasmPackager.Proofs.Pipeline.Verbosity
import WasmPackager.Proofs.CommandLine.Verbosity
import WasmPackager.Proofs.Template.Drift
import WasmPackager.Proofs.Loader.Drift
import WasmPackager.Proofs.Loader.Verdicts
import WasmPackager.Proofs.Artifact.Resolution
import WasmPackager.Proofs.Project.Manifest
import WasmPackager.Proofs.Project.Rearranging
import WasmPackager.Proofs.CommandLine.Grammar
import WasmPackager.Proofs.Loader.Extraction
import WasmPackager.Proofs.Template.Segmentation
import WasmPackager.Proofs.Template.Escaping
import WasmPackager.Proofs.Template.Expression
import WasmPackager.Proofs.Loader.Adapted
import WasmPackager.Proofs.CommandLine.Respelling
import WasmPackager.Proofs.Command.Launching
import WasmPackager.Proofs.FileSystem.Retracing
import WasmPackager.Proofs.Project.Resolution
import WasmPackager.Proofs.Template.Offsets
