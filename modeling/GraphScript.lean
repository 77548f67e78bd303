import GraphScript.Argument
import GraphScript.Build
import GraphScript.Code
import GraphScript.Command.CallJob
import GraphScript.Command.EmitJob
import GraphScript.Command.Failure
import GraphScript.Command.Help
import GraphScript.Command.Line
import GraphScript.Command.Program
import GraphScript.Compilation
import GraphScript.Compiler
import GraphScript.Datum
import GraphScript.DebugMap
import GraphScript.Decimal.Binary
import GraphScript.Decimal.Layout
import GraphScript.Decimal.Shortest
import GraphScript.Digest
import GraphScript.Disk
import GraphScript.Document.Datum
import GraphScript.Document.Model
import GraphScript.Document.OutRecord
import GraphScript.Document.Output
import GraphScript.Document.Statement
import GraphScript.Emit
import GraphScript.Emit.Header
import GraphScript.Emit.Native
import GraphScript.Emit.Script
import GraphScript.Emit.Source
import GraphScript.Entries
import GraphScript.Host.Client
import GraphScript.Host.Error
import GraphScript.Host.Instance
import GraphScript.Host.Vm
import GraphScript.Id
import GraphScript.Id.Token
import GraphScript.Id.Written
import GraphScript.Json.Basic
import GraphScript.Json.Fault
import GraphScript.Json.Reader
import GraphScript.Json.Token
import GraphScript.Literal
import GraphScript.Machine.Dispatch
import GraphScript.Machine.Failure
import GraphScript.Machine.Instance
import GraphScript.Machine.Marshal
import GraphScript.Machine.Run
import GraphScript.Machine.State
import GraphScript.Main
import GraphScript.Model
import GraphScript.Model.CallOrder
import GraphScript.Model.Interface
import GraphScript.Model.Problem
import GraphScript.Names
import GraphScript.Options
import GraphScript.RuntimeInputs
import GraphScript.Script.Chunk
import GraphScript.Script.Number
import GraphScript.Script.Operation
import GraphScript.Script.Parser
import GraphScript.Script.Token
import GraphScript.Script.Tree
import GraphScript.Script.Value
import GraphScript.Settings
import GraphScript.Statement
import GraphScript.Target
import GraphScript.Text.Alphanumeric
import GraphScript.Text.Blank
import GraphScript.Text.Lines
import GraphScript.Text.Numeral
import GraphScript.Text.Quoted
import GraphScript.Text.Unprintable
import GraphScript.Text.Utf8
import GraphScript.Proofs.CallGraph.Order
import GraphScript.Proofs.Keys
import GraphScript.Proofs.Names.Lookup
import GraphScript.Proofs.Text.OneLine
import GraphScript.Proofs.Emit.Breaks
import GraphScript.Proofs.Emit.Place
import GraphScript.Proofs.Emit.DebugMap
import GraphScript.Proofs.RuntimeInputs
import GraphScript.Proofs.Sorted
import GraphScript.Proofs.Emit.Headers
import GraphScript.Proofs.Emit.Scope
import GraphScript.Proofs.Json.Yields
import GraphScript.Proofs.References
import GraphScript.Proofs.Emit.Lookups
import GraphScript.Proofs.Emit.Resolved
import GraphScript.Proofs.Names.Distinct
import GraphScript.Proofs.WellFormed
import GraphScript.Proofs.Names.Own
import GraphScript.Proofs.Emit.Declared
import GraphScript.Proofs.Script.Scan
import GraphScript.Proofs.Script.Table
import GraphScript.Proofs.Emit.Slots
import GraphScript.Proofs.Inputs.Buckets
import GraphScript.Proofs.Id.Token
import GraphScript.Proofs.Emit.Constructor
import GraphScript.Proofs.Host.Inputs
import GraphScript.Proofs.Host.Construction
import GraphScript.Proofs.Outcomes
import GraphScript.Proofs.Emit.Signature
import GraphScript.Proofs.Emit.Agreement
import GraphScript.Proofs.Machine.Induction
import GraphScript.Proofs.Machine.Evolution
import GraphScript.Proofs.Machine.Metering
import GraphScript.Proofs.Machine.Marshal
import GraphScript.Proofs.Host.Operation
import GraphScript.Proofs.Host.Stack
import GraphScript.Proofs.Host.Balance
import GraphScript.Proofs.Host.Actions
import GraphScript.Proofs.Host.Lifecycle
import GraphScript.Proofs.Json.Token
import GraphScript.Proofs.Json.Reads
import GraphScript.Proofs.Id.Written
import GraphScript.Proofs.Document.Datum
import GraphScript.Proofs.Document.Statement
import GraphScript.Proofs.Document.Model
import GraphScript.Proofs.Emit.Layout
import GraphScript.Proofs.Reach
import GraphScript.Proofs.Building
import GraphScript.Proofs.Machine.Firing
import GraphScript.Proofs.Emit.NativeText
import GraphScript.Proofs.Emit.Readable
import GraphScript.Proofs.Emit.Blocks
import GraphScript.Proofs.Emit.Banner
import GraphScript.Proofs.Emit.Results
import GraphScript.Proofs.CallGraph.Culprit
import GraphScript.Proofs.Machine.Handling
import GraphScript.Proofs.Positions
import GraphScript.Proofs.Writer
import GraphScript.Proofs.Machine.Consulting
import GraphScript.Proofs.Host.Handlers
import GraphScript.Proofs.Command.Connect
import GraphScript.Proofs.Id.Codec
import GraphScript.Proofs.Numbering
import GraphScript.Proofs.Names.Growth
import GraphScript.Proofs.Host.Regime
import GraphScript.Proofs.Host.Loading
import GraphScript.Proofs.Names.Trial
