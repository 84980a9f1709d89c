import IdlGlue.Batch.Job
import IdlGlue.Batch.Run
import IdlGlue.CommandLine.Invocation
import IdlGlue.CommandLine.Program
import IdlGlue.Compile
import IdlGlue.Declaration
import IdlGlue.Disk.Access
import IdlGlue.Disk.Changes
import IdlGlue.Disk.Path
import IdlGlue.Disk.Tree
import IdlGlue.Event
import IdlGlue.Fault
import IdlGlue.Glue.Callback
import IdlGlue.Glue.File
import IdlGlue.Glue.Interface
import IdlGlue.Glue.Item
import IdlGlue.Glue.Member
import IdlGlue.IdlType
import IdlGlue.Logged
import IdlGlue.LoggedT
import IdlGlue.Main
import IdlGlue.Name
import IdlGlue.Native.Function
import IdlGlue.Native.Stmt
import IdlGlue.Native.Symbol
import IdlGlue.Proofs.Gap
import IdlGlue.Proofs.Run
import IdlGlue.Proofs.Words
import IdlGlue.Reading
import IdlGlue.Registry
import IdlGlue.Rules
import IdlGlue.Scan.Body
import IdlGlue.Scan.Gap
import IdlGlue.Scan.Params
import IdlGlue.Scan.Step
import IdlGlue.Statement.Member
import IdlGlue.Statement.Token
import IdlGlue.Statement.TopLevel
import IdlGlue.Text.Capital
import IdlGlue.Text.CapitalRuns
import IdlGlue.Text.Class
import IdlGlue.Text.Harmless
import IdlGlue.Text.HiddenRanges
import IdlGlue.Text.Quoted
import IdlGlue.Text.Ranges
import IdlGlue.Text.Split
import IdlGlue.Text.WordRanges
import IdlGlue.Proofs.ParamList
import IdlGlue.Proofs.MemberKind
import IdlGlue.Proofs.Tiled
import IdlGlue.Proofs.SourceTiling
import IdlGlue.Proofs.Stop
import IdlGlue.Proofs.Stable
import IdlGlue.Proofs.Spread
import IdlGlue.Proofs.Pattern
import IdlGlue.Proofs.BodyPattern
import IdlGlue.Proofs.OneWay
import IdlGlue.Proofs.ListPattern
import IdlGlue.Proofs.StatementPatterns
import IdlGlue.Proofs.InterfaceBlock
import IdlGlue.Proofs.Verdict
import IdlGlue.Proofs.Admissible
import IdlGlue.Proofs.Acceptance
import IdlGlue.Proofs.Mentions
import IdlGlue.Proofs.Slots
import IdlGlue.Proofs.Printed
import IdlGlue.Proofs.Arguments
import IdlGlue.Proofs.Subscripts
import IdlGlue.Proofs.Bare
import IdlGlue.Proofs.Entries
import IdlGlue.Proofs.Names
import IdlGlue.Proofs.Lines
import IdlGlue.Proofs.Compilation
import IdlGlue.Proofs.Folders
import IdlGlue.Proofs.Course
import IdlGlue.Proofs.ByteOrder
import IdlGlue.Proofs.Listing
import IdlGlue.Proofs.Outputs
import IdlGlue.Proofs.Apart
import IdlGlue.Proofs.Aggregate
import IdlGlue.Proofs.Clashes
import IdlGlue.Proofs.Faults
import IdlGlue.Proofs.Stopping
import IdlGlue.Proofs.FileSpread
import IdlGlue.Proofs.Additions
import IdlGlue.Proofs.Spellings
import IdlGlue.Proofs.PerFile
import IdlGlue.Proofs.Symbols
import IdlGlue.Proofs.Keyed
import IdlGlue.Proofs.Enumeration
import IdlGlue.Proofs.Locals
import IdlGlue.Proofs.Closing
import IdlGlue.Proofs.Above
import IdlGlue.Proofs.Remake
import IdlGlue.Proofs.Rerun
import IdlGlue.Proofs.Layout
import IdlGlue.Proofs.Tables
import IdlGlue.Proofs.FlatNames
import IdlGlue.Proofs.ColonRuns
import IdlGlue.Proofs.LooseList
import IdlGlue.Proofs.AnyOfParam
import IdlGlue.Proofs.AnyOfText
import IdlGlue.Proofs.CapturedList
import IdlGlue.Proofs.MemberForm
import IdlGlue.Proofs.TypeToken
import IdlGlue.Proofs.Leftover
import IdlGlue.Proofs.Requests
import IdlGlue.Proofs.Resolvers
import IdlGlue.Proofs.Padding
import IdlGlue.Proofs.HeaderBlock
import IdlGlue.Proofs.CastLines
import IdlGlue.Proofs.Told
import IdlGlue.Proofs.Offsets
import IdlGlue.Proofs.Rounds
import IdlGlue.Proofs.GapLoop
import IdlGlue.Proofs.Measured
import IdlGlue.Proofs.Cursor
