import MessagePattern.Chain.Basic
import MessagePattern.Chain.Handler
import MessagePattern.Command.Arguments
import MessagePattern.Command.Line
import MessagePattern.Command.Run
import MessagePattern.Decimal.Binary64
import MessagePattern.Decimal.Integer
import MessagePattern.Decimal.Notation
import MessagePattern.Decimal.Numeral
import MessagePattern.Decimal.Shortest
import MessagePattern.Default
import MessagePattern.Explain
import MessagePattern.File.Output
import MessagePattern.File.Records
import MessagePattern.File.Storage
import MessagePattern.File.Text
import MessagePattern.File.Tree
import MessagePattern.File.Utf8
import MessagePattern.Invalid
import MessagePattern.Json.Error
import MessagePattern.Json.Parser
import MessagePattern.Json.Printer
import MessagePattern.Main
import MessagePattern.Mapping
import MessagePattern.Match.Asking
import MessagePattern.Match.Cursor
import MessagePattern.Match.InPlace
import MessagePattern.Match.Message
import MessagePattern.Match.Result
import MessagePattern.Match.Run
import MessagePattern.Pattern.Cache
import MessagePattern.Pattern.Compiler
import MessagePattern.Pattern.Error
import MessagePattern.Pattern.Source
import MessagePattern.Pattern.Token
import MessagePattern.Proofs.Answer
import MessagePattern.Proofs.Chain.Promise
import MessagePattern.Proofs.Command.Formats
import MessagePattern.Proofs.Command.Outcome
import MessagePattern.Proofs.Decimal.Notation
import MessagePattern.Proofs.Decimal.Numeral
import MessagePattern.Proofs.Decimal.Readers
import MessagePattern.Proofs.Default.BareKey
import MessagePattern.Proofs.Default.Repair
import MessagePattern.Proofs.Default.Simple
import MessagePattern.Proofs.Default.Structured
import MessagePattern.Proofs.Explain
import MessagePattern.Proofs.File.Encoding
import MessagePattern.Proofs.File.Layouts
import MessagePattern.Proofs.File.Lines
import MessagePattern.Proofs.File.Reading
import MessagePattern.Proofs.File.Stored
import MessagePattern.Proofs.Json.KeyOrder
import MessagePattern.Proofs.Json.Reading
import MessagePattern.Proofs.Json.RoundTrip
import MessagePattern.Proofs.Json.Spelling
import MessagePattern.Proofs.Json.Strings
import MessagePattern.Proofs.Match.Agreement
import MessagePattern.Proofs.Match.Asking
import MessagePattern.Proofs.Match.Conservation
import MessagePattern.Proofs.Match.Extension
import MessagePattern.Proofs.Match.Failure
import MessagePattern.Proofs.Match.InPlace
import MessagePattern.Proofs.Match.Intake
import MessagePattern.Proofs.Match.Lockstep
import MessagePattern.Proofs.Match.Outlook
import MessagePattern.Proofs.Match.Params
import MessagePattern.Proofs.Match.PlainList
import MessagePattern.Proofs.Match.Provenance
import MessagePattern.Proofs.Match.Pushback
import MessagePattern.Proofs.Match.Reach
import MessagePattern.Proofs.Match.Renaming
import MessagePattern.Proofs.Match.Retyping
import MessagePattern.Proofs.Match.Sequence
import MessagePattern.Proofs.Match.SharedText
import MessagePattern.Proofs.Match.Step
import MessagePattern.Proofs.Match.TrailingRest
import MessagePattern.Proofs.Match.Validity
import MessagePattern.Proofs.Match.Verdict
import MessagePattern.Proofs.Match.Writable
import MessagePattern.Proofs.Pattern.Append
import MessagePattern.Proofs.Pattern.Bracket
import MessagePattern.Proofs.Pattern.Cut
import MessagePattern.Proofs.Pattern.FaultPlace
import MessagePattern.Proofs.Pattern.Grammar
import MessagePattern.Proofs.Pattern.Origin
import MessagePattern.Proofs.Pattern.Part
import MessagePattern.Proofs.Pattern.Recency
import MessagePattern.Proofs.Pattern.Rendering
import MessagePattern.Proofs.Pattern.Scan
import MessagePattern.Proofs.Pattern.Shape
import MessagePattern.Proofs.Registry.History
import MessagePattern.Proofs.Segment.History
import MessagePattern.Proofs.Segment.Pool
import MessagePattern.Proofs.Text.Coverage
import MessagePattern.Proofs.Text.Quoting
import MessagePattern.Proofs.Text.Trimming
import MessagePattern.Proofs.Text.Words
import MessagePattern.Refusal
import MessagePattern.Registry.Basic
import MessagePattern.Registry.Matcher
import MessagePattern.Registry.Pool
import MessagePattern.Segment.Basic
import MessagePattern.Segment.KindMemo
import MessagePattern.Segment.Pool
import MessagePattern.Segment.Record
import MessagePattern.Table
import MessagePattern.Text.Blank
import MessagePattern.Text.Digit
import MessagePattern.Text.Hex
import MessagePattern.Text.Printable
import MessagePattern.Text.Quoted
import MessagePattern.Text.Strip
import MessagePattern.Text.Trim
import MessagePattern.Text.Word
import MessagePattern.Value.Basic
import MessagePattern.Value.Display
