import LatencyProbe.Clock
import LatencyProbe.Double.Basic
import LatencyProbe.Double.Shortest
import LatencyProbe.Echo
import LatencyProbe.EchoServer
import LatencyProbe.Failure
import LatencyProbe.Json.Basic
import LatencyProbe.Json.Lexeme
import LatencyProbe.Json.Parser
import LatencyProbe.Json.Printer
import LatencyProbe.Json.Problem
import LatencyProbe.Json.Quoted
import LatencyProbe.Json.Reader
import LatencyProbe.Json.Record
import LatencyProbe.Json.Scan
import LatencyProbe.Latency
import LatencyProbe.Log
import LatencyProbe.Main
import LatencyProbe.Md5
import LatencyProbe.Network
import LatencyProbe.OsError
import LatencyProbe.Probe
import LatencyProbe.Program
import LatencyProbe.Report
import LatencyProbe.Request.Basic
import LatencyProbe.Request.Format
import LatencyProbe.RequestId
import LatencyProbe.Response
import LatencyProbe.Run
import LatencyProbe.Text.Blank
import LatencyProbe.Text.Decimal
import LatencyProbe.Text.Hidden
import LatencyProbe.Text.Quotation
import LatencyProbe.Text.Utf8
import LatencyProbe.Proofs.Json.Grammar
import LatencyProbe.Proofs.Json.Scanning
import LatencyProbe.Proofs.Text.Utf8
import LatencyProbe.Proofs.Json.Tokens
import LatencyProbe.Proofs.Json.Documents
import LatencyProbe.Proofs.Exchange
import LatencyProbe.Proofs.Truncation
import LatencyProbe.Proofs.Double.Rounding
import LatencyProbe.Proofs.Double.Shortest
import LatencyProbe.Proofs.Json.Lexemes
import LatencyProbe.Proofs.Json.Numerals
import LatencyProbe.Proofs.Json.Printing
import LatencyProbe.Proofs.Json.Members
import LatencyProbe.Proofs.EchoServer
import LatencyProbe.Proofs.Correlation
import LatencyProbe.Proofs.Json.Readers
import LatencyProbe.Proofs.Json.Records
import LatencyProbe.Proofs.RoundTrip
import LatencyProbe.Proofs.Json.Collation
import LatencyProbe.Proofs.Json.Rereading
import LatencyProbe.Proofs.Presentation
import LatencyProbe.Proofs.Json.Trees
import LatencyProbe.Proofs.Json.Meaning
import LatencyProbe.Proofs.Acceptance
import LatencyProbe.Proofs.Language
import LatencyProbe.Proofs.Timestamps
import LatencyProbe.Proofs.Service
import LatencyProbe.Proofs.Json.Faults
import LatencyProbe.Proofs.Transcript
import LatencyProbe.Proofs.Failure
import LatencyProbe.Proofs.Stages
import LatencyProbe.Proofs.Verdicts
import LatencyProbe.Proofs.Latencies
import LatencyProbe.Proofs.Program
import LatencyProbe.Proofs.Text.Decimal
import LatencyProbe.Proofs.RequestId
import LatencyProbe.Proofs.Echo
import LatencyProbe.Proofs.Text.Lines
import LatencyProbe.Proofs.Json.Indentation
import LatencyProbe.Proofs.Observation
import LatencyProbe.Proofs.VerdictLines
import LatencyProbe.Proofs.Json.Fields
import LatencyProbe.Proofs.Shape
