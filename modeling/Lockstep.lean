import Lockstep.AllowList
import Lockstep.Command
import Lockstep.CommandLine
import Lockstep.Decimal
import Lockstep.Decimal.Binary64
import Lockstep.Decimal.Shortest
import Lockstep.Duration
import Lockstep.Duration.Reader
import Lockstep.Error
import Lockstep.Feed
import Lockstep.FileTree
import Lockstep.HttpFeed
import Lockstep.Json.Fault
import Lockstep.Json.Found
import Lockstep.Json.Number
import Lockstep.Json.Reader
import Lockstep.Json.Skip
import Lockstep.Json.Token
import Lockstep.Json.Value
import Lockstep.Link
import Lockstep.Log
import Lockstep.Log.Filter
import Lockstep.Log.Pattern
import Lockstep.Log.Pattern.Atom
import Lockstep.Log.Pattern.Bracket
import Lockstep.Log.Sink
import Lockstep.Main
import Lockstep.Mover
import Lockstep.Peer
import Lockstep.Program
import Lockstep.Run
import Lockstep.Scripted
import Lockstep.Scripted.Codec
import Lockstep.Settings
import Lockstep.Settings.Document
import Lockstep.Settings.Environment
import Lockstep.Settings.Layers
import Lockstep.Settings.Reader
import Lockstep.Snapshot
import Lockstep.Snapshot.Reader
import Lockstep.Synchronizer
import Lockstep.TcpLink
import Lockstep.Text.Alphanumeric
import Lockstep.Text.AlphanumericTable
import Lockstep.Text.Blank
import Lockstep.Text.Hex
import Lockstep.Text.NumeralTable
import Lockstep.Text.Occurs
import Lockstep.Text.Quoted
import Lockstep.Text.ShapelessTable
import Lockstep.Text.Split
import Lockstep.Text.Upper
import Lockstep.Text.UpperTable
import Lockstep.Toml.Reader
import Lockstep.Toml.Token
import Lockstep.Toml.Value
import Lockstep.Utf8
import Lockstep.Proofs.Decision
import Lockstep.Proofs.Conversation
import Lockstep.Proofs.CommandLog
import Lockstep.Proofs.Wire
import Lockstep.Proofs.Agreement
import Lockstep.Proofs.LostReply
import Lockstep.Proofs.Account
import Lockstep.Proofs.Utf8
import Lockstep.Proofs.Acknowledgment
import Lockstep.Proofs.Json.Grammar
import Lockstep.Proofs.Json.Strings
import Lockstep.Proofs.Json.Numbers
import Lockstep.Proofs.Json.Skipped
import Lockstep.Proofs.Payload
import Lockstep.Proofs.Tables
import Lockstep.Proofs.FileTree.Walks
import Lockstep.Proofs.FileTree.Listing
import Lockstep.Proofs.FileTree.Marks
import Lockstep.Proofs.Relocation
import Lockstep.Proofs.Json.Written
import Lockstep.Proofs.RoundTrip
import Lockstep.Proofs.Convergence
import Lockstep.Proofs.Resending
import Lockstep.Proofs.Policies
import Lockstep.Proofs.Provenance
import Lockstep.Proofs.StandIn
import Lockstep.Proofs.Stuttering
import Lockstep.Proofs.Connections
import Lockstep.Proofs.PeerGrammar
import Lockstep.Proofs.FileTree.Edits
import Lockstep.Proofs.Partition
import Lockstep.Proofs.DurationText
import Lockstep.Proofs.Json.Values
import Lockstep.Proofs.Json.Pretty
import Lockstep.Proofs.Documents
import Lockstep.Proofs.Restatement
import Lockstep.Proofs.Indifference
import Lockstep.Proofs.FileTree.Growth
import Lockstep.Proofs.Discards
import Lockstep.Proofs.DurationSum
import Lockstep.Proofs.Loading
import Lockstep.Proofs.Slots
import Lockstep.Proofs.Precedence
import Lockstep.Proofs.UpperCase
import Lockstep.Proofs.NormalForms
import Lockstep.Proofs.BlankWords
import Lockstep.Proofs.Waits
import Lockstep.Proofs.Isolation
import Lockstep.Proofs.EndlessRuns
import Lockstep.Proofs.OpenLoop
import Lockstep.Proofs.Truncation
import Lockstep.Proofs.Json.Found
import Lockstep.Proofs.Decimal.Rounding
import Lockstep.Proofs.Json.Range
import Lockstep.Proofs.Selection
import Lockstep.Proofs.AuditTrail
import Lockstep.Proofs.Replies
import Lockstep.Proofs.Quoting
import Lockstep.Proofs.Handles
