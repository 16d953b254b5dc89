import Micromag.Bytes
import Micromag.CommandLine.Request
import Micromag.CommandLine.Run
import Micromag.Decimal.Basic
import Micromag.Decimal.Reading
import Micromag.Document.Geometry
import Micromag.Document.Intent
import Micromag.Document.Problem
import Micromag.Document.Terms
import Micromag.Drive.Artifact
import Micromag.Drive.Basic
import Micromag.Drive.Compute
import Micromag.Dynamics
import Micromag.EngineCommand
import Micromag.Evolver
import Micromag.Exchange.Playback
import Micromag.Exchange.Recipe
import Micromag.Exchange.Value
import Micromag.Fault
import Micromag.Field
import Micromag.Field.File
import Micromag.Files.Action
import Micromag.Files.Path
import Micromag.Files.Pattern
import Micromag.Files.System
import Micromag.Files.Tree
import Micromag.Geometry
import Micromag.Instances
import Micromag.Intent
import Micromag.Json.Basic
import Micromag.Json.Reading
import Micromag.Json.Record
import Micromag.Keyed
import Micromag.Lowering.Basic
import Micromag.Lowering.Driver
import Micromag.Lowering.Energy
import Micromag.Lowering.Evolver
import Micromag.Lowering.Mesh
import Micromag.Lowering.Parameter
import Micromag.Lowering.Problem
import Micromag.Main
import Micromag.Manifest
import Micromag.Mesh
import Micromag.Parameter
import Micromag.Problem
import Micromag.Proofs.Bytes.Double
import Micromag.Proofs.Decimal.Layout
import Micromag.Proofs.Decimal.Positional
import Micromag.Proofs.Decimal.Reading
import Micromag.Proofs.Decimal.Shortest
import Micromag.Proofs.Decimal.Significant
import Micromag.Proofs.Document.Geometry
import Micromag.Proofs.Document.Problem
import Micromag.Proofs.Document.Terms
import Micromag.Proofs.Double.Coverage
import Micromag.Proofs.Double.Packing
import Micromag.Proofs.Double.Rounding
import Micromag.Proofs.Double.Scientific
import Micromag.Proofs.Double.Single
import Micromag.Proofs.Double.Text
import Micromag.Proofs.Double.Unpacking
import Micromag.Proofs.Double.Whole
import Micromag.Proofs.Drive.Accounting
import Micromag.Proofs.Drive.Artifact
import Micromag.Proofs.Drive.Blindness
import Micromag.Proofs.Drive.Course
import Micromag.Proofs.Drive.Deletion
import Micromag.Proofs.Drive.Failure
import Micromag.Proofs.Drive.Filling
import Micromag.Proofs.Drive.Handover
import Micromag.Proofs.Drive.Home
import Micromag.Proofs.Drive.Identity
import Micromag.Proofs.Drive.Index
import Micromag.Proofs.Drive.Listing
import Micromag.Proofs.Drive.Making
import Micromag.Proofs.Drive.Manifest
import Micromag.Proofs.Drive.Operating
import Micromag.Proofs.Drive.Running
import Micromag.Proofs.Drive.Scratch
import Micromag.Proofs.Drive.Sidecar
import Micromag.Proofs.Drive.Snapshot
import Micromag.Proofs.Drive.Staging
import Micromag.Proofs.Drive.Transparency
import Micromag.Proofs.Drive.Workplace
import Micromag.Proofs.Drive.Writing
import Micromag.Proofs.Exact
import Micromag.Proofs.Field
import Micromag.Proofs.Field.Counting
import Micromag.Proofs.Field.File.Acceptance
import Micromag.Proofs.Field.File.Cut
import Micromag.Proofs.Field.File.Formats
import Micromag.Proofs.Field.File.Header
import Micromag.Proofs.Field.File.RoundTrip
import Micromag.Proofs.Field.File.Safety
import Micromag.Proofs.Field.File.TextData
import Micromag.Proofs.Field.File.Truncation
import Micromag.Proofs.Field.File.Written
import Micromag.Proofs.Field.Inside
import Micromag.Proofs.Field.Order
import Micromag.Proofs.Files.Additions
import Micromag.Proofs.Files.Ancestors
import Micromag.Proofs.Files.Children
import Micromag.Proofs.Files.Directories
import Micromag.Proofs.Files.Path
import Micromag.Proofs.Files.Pattern
import Micromag.Proofs.Files.Removal
import Micromag.Proofs.Files.Renumbering
import Micromag.Proofs.Files.Room
import Micromag.Proofs.Files.Sound
import Micromag.Proofs.Files.System
import Micromag.Proofs.Files.Tree
import Micromag.Proofs.Files.Walk
import Micromag.Proofs.Files.Within
import Micromag.Proofs.Json.Numbers
import Micromag.Proofs.Json.Parts
import Micromag.Proofs.Json.Reading
import Micromag.Proofs.Json.Records
import Micromag.Proofs.Json.Stored
import Micromag.Proofs.Keyed
import Micromag.Proofs.Lowering.Basic
import Micromag.Proofs.Lowering.Columns
import Micromag.Proofs.Lowering.Composition
import Micromag.Proofs.Lowering.Contract
import Micromag.Proofs.Lowering.Division
import Micromag.Proofs.Lowering.Driver
import Micromag.Proofs.Lowering.Energy
import Micromag.Proofs.Lowering.Evolver
import Micromag.Proofs.Lowering.Faces
import Micromag.Proofs.Lowering.Formation
import Micromag.Proofs.Lowering.Frame
import Micromag.Proofs.Lowering.Gate
import Micromag.Proofs.Lowering.Magnitude
import Micromag.Proofs.Lowering.Mesh
import Micromag.Proofs.Lowering.Names
import Micromag.Proofs.Lowering.Pairing
import Micromag.Proofs.Lowering.Pairs
import Micromag.Proofs.Lowering.Parameter
import Micromag.Proofs.Lowering.Placement
import Micromag.Proofs.Lowering.Problem
import Micromag.Proofs.Lowering.Regions
import Micromag.Proofs.Lowering.Roles
import Micromag.Proofs.Lowering.Sidecars
import Micromag.Proofs.Lowering.Uniform
import Micromag.Proofs.Manifest
import Micromag.Proofs.Quantity
import Micromag.Proofs.Result
import Micromag.Proofs.Script.Canonical
import Micromag.Proofs.Script.Covering
import Micromag.Proofs.Script.Files
import Micromag.Proofs.Script.Formation
import Micromag.Proofs.Script.Heading
import Micromag.Proofs.Script.Headline
import Micromag.Proofs.Script.Nesting
import Micromag.Proofs.Script.Resolution
import Micromag.Proofs.Script.Sampling
import Micromag.Proofs.Script.Text
import Micromag.Proofs.Script.Tokens
import Micromag.Proofs.Table.Parsing
import Micromag.Proofs.Table.Quoting
import Micromag.Proofs.Table.Renaming
import Micromag.Proofs.Table.Rendering
import Micromag.Proofs.Table.Shape
import Micromag.Proofs.Text.Basic
import Micromag.Proofs.Text.LineEnds
import Micromag.Proofs.Text.Utf8
import Micromag.Proofs.Text.Words
import Micromag.Quantity
import Micromag.Scalar
import Micromag.Script.Basic
import Micromag.Script.Number
import Micromag.Script.Procedure
import Micromag.Shell.Arithmetic
import Micromag.Shell.Builtin.Basic
import Micromag.Shell.Builtin.Settings
import Micromag.Shell.Builtin.Variables
import Micromag.Shell.Command
import Micromag.Shell.Engine
import Micromag.Shell.Evaluation
import Micromag.Shell.Expansion
import Micromag.Shell.Fields
import Micromag.Shell.Format
import Micromag.Shell.Glob
import Micromag.Shell.Reader.Basic
import Micromag.Shell.Reader.Command
import Micromag.Shell.Reader.Word
import Micromag.Shell.Regular
import Micromag.Shell.State
import Micromag.Shell.Text
import Micromag.Shell.Tool.Basic
import Micromag.Shell.Tool.Edit
import Micromag.Shell.Tool.Files
import Micromag.Shell.Tool.Lines
import Micromag.Shell.Tool.Search
import Micromag.Shell.Tool.Table
import Micromag.Shell.Tool.Test
import Micromag.Table.Basic
import Micromag.Term
import Micromag.Text.Basic
import Micromag.Text.Utf8
