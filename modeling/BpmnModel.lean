import BpmnModel.Artifact.Document
import BpmnModel.Artifact.Error
import BpmnModel.Artifact.File
import BpmnModel.Artifact.Record
import BpmnModel.Codec.Basic
import BpmnModel.Codec.Member
import BpmnModel.Codec.Number
import BpmnModel.Codec.Sequence
import BpmnModel.Command.Arguments
import BpmnModel.Command.Compile
import BpmnModel.Command.Generate
import BpmnModel.Command.Report
import BpmnModel.Compile.Compiler
import BpmnModel.Compile.FlowGraph
import BpmnModel.Compile.Registry
import BpmnModel.Condition.Check
import BpmnModel.Condition.Value
import BpmnModel.Elements.Collaboration
import BpmnModel.Elements.DataStore
import BpmnModel.Elements.Gateway
import BpmnModel.Elements.Lane
import BpmnModel.Elements.SequenceFlow
import BpmnModel.Elements.Task
import BpmnModel.Error
import BpmnModel.Error.Structure
import BpmnModel.Error.Violation
import BpmnModel.Files.Basic
import BpmnModel.Files.Disk
import BpmnModel.Files.Path
import BpmnModel.Generate.Document
import BpmnModel.Generate.Draw
import BpmnModel.Generate.Flow
import BpmnModel.Json.Document
import BpmnModel.Json.Literal
import BpmnModel.Json.Printer
import BpmnModel.Json.Reader
import BpmnModel.Json.Value
import BpmnModel.Model.Activity
import BpmnModel.Model.Code
import BpmnModel.Model.Document
import BpmnModel.Model.Flow
import BpmnModel.Model.Kinds
import BpmnModel.Model.Metadata
import BpmnModel.Model.Process
import BpmnModel.Model.Version
import BpmnModel.Properties.Basic
import BpmnModel.Properties.Mapping
import BpmnModel.Session
import BpmnModel.Settings
import BpmnModel.Settings.File
import BpmnModel.Settings.Reader
import BpmnModel.Table
import BpmnModel.Text.Blank
import BpmnModel.Text.Bytes
import BpmnModel.Text.Numeral
import BpmnModel.Text.Order
import BpmnModel.Text.Split
import BpmnModel.Xml.Attribute
import BpmnModel.Xml.Element
import BpmnModel.Xml.Entity
import BpmnModel.Xml.Error
import BpmnModel.Xml.Markup
import BpmnModel.Xml.Progress
import BpmnModel.Xml.Reading
import BpmnModel.Xml.Token
import BpmnModel.Main
import BpmnModel.Proofs.Artifact.SelfDelimiting
import BpmnModel.Proofs.Codec.Extension
import BpmnModel.Proofs.Compile.Acceptance
import BpmnModel.Proofs.Compile.Alias
import BpmnModel.Proofs.Compile.Children
import BpmnModel.Proofs.Compile.Soundness
import BpmnModel.Proofs.Compile.Stages
import BpmnModel.Proofs.Condition.Sound
import BpmnModel.Proofs.Elements.Readable
import BpmnModel.Proofs.Elements.Stores
import BpmnModel.Proofs.Generate.Assembly
import BpmnModel.Proofs.Generate.Compiled
import BpmnModel.Proofs.Generate.Names
import BpmnModel.Proofs.Generate.Properties
import BpmnModel.Proofs.Generate.Records
import BpmnModel.Proofs.Generate.WellFormed
import BpmnModel.Proofs.Model.Denotes
import BpmnModel.Proofs.Outcome
import BpmnModel.Proofs.Properties.Encoded
import BpmnModel.Proofs.Properties.Visible
import BpmnModel.Proofs.Text.Blank
import BpmnModel.Proofs.Xml.Escape
import BpmnModel.Proofs.Xml.RoundTrip
import BpmnModel.Proofs.Xml.Tags
import BpmnModel.Proofs.Xml.Tree
import BpmnModel.Proofs.Properties.Reread
import BpmnModel.Proofs.Compile.Separate
import BpmnModel.Proofs.Properties.Rearranged
import BpmnModel.Proofs.Compile.Rearranged
import BpmnModel.Proofs.Xml.Tokens
import BpmnModel.Proofs.Xml.Written
import BpmnModel.Proofs.Compile.Shuffled
import BpmnModel.Proofs.Compile.Unknown
import BpmnModel.Proofs.Compile.Fallbacks
import BpmnModel.Proofs.Compile.Resolved
import BpmnModel.Proofs.Session
import BpmnModel.Proofs.Command.Agreement
import BpmnModel.Proofs.Compile.Regular
import BpmnModel.Proofs.Condition.Violations
import BpmnModel.Proofs.Row
import BpmnModel.Proofs.Condition.Completed
import BpmnModel.Proofs.Compile.Collected
import BpmnModel.Proofs.Compile.Refused
import BpmnModel.Proofs.Text.ByteOrder
import BpmnModel.Proofs.Elements.Fields
import BpmnModel.Proofs.Xml.Place
import BpmnModel.Proofs.Compile.Staffed
import BpmnModel.Proofs.Compile.Kept
import BpmnModel.Proofs.Text.Numeral
import BpmnModel.Proofs.Condition.Exact
import BpmnModel.Proofs.Compile.Branching
import BpmnModel.Proofs.Xml.Expansion
import BpmnModel.Proofs.Xml.Steps
import BpmnModel.Proofs.Xml.Contents
import BpmnModel.Proofs.Text.Pieces
import BpmnModel.Proofs.Xml.TextContent
import BpmnModel.Proofs.Xml.AttributeOrder
import BpmnModel.Proofs.Model.Version
import BpmnModel.Proofs.Json.Printed
import BpmnModel.Proofs.Json.Faithful
import BpmnModel.Proofs.Xml.Nesting
import BpmnModel.Proofs.Xml.Stacks
import BpmnModel.Proofs.Condition.Wording
