import RemoteSettings.Assignment
import RemoteSettings.BatchReply
import RemoteSettings.Command
import RemoteSettings.CommandLine
import RemoteSettings.Config.Setup
import RemoteSettings.Group
import RemoteSettings.Http.Client
import RemoteSettings.Http.Wire
import RemoteSettings.Locks.Parties
import RemoteSettings.Main
import RemoteSettings.Proofs.Locks.Exclusion
import RemoteSettings.Scope
import RemoteSettings.State.Memo
import RemoteSettings.State.Reduce
import RemoteSettings.Store.Session
import RemoteSettings.Proofs.Keyed
import RemoteSettings.Proofs.Locks.Ownership
import RemoteSettings.Proofs.BatchReply
import RemoteSettings.Proofs.Locks.Requests
import RemoteSettings.Proofs.State.Batch
import RemoteSettings.Proofs.State.Rebuild
import RemoteSettings.Proofs.Store.Alone
import RemoteSettings.Proofs.Store.BatchSave
import RemoteSettings.Proofs.Store.Board
import RemoteSettings.Proofs.Store.Custody
import RemoteSettings.Proofs.Store.Deeds
import RemoteSettings.Proofs.Store.Isolation
import RemoteSettings.Proofs.Equality
import RemoteSettings.Proofs.Locks.Precedence
import RemoteSettings.Proofs.State.Edits
import RemoteSettings.Proofs.State.Reachable
import RemoteSettings.Proofs.State.View
import RemoteSettings.Proofs.State.History
import RemoteSettings.Proofs.State.Transitions
import RemoteSettings.Proofs.State.Reads
import RemoteSettings.Proofs.State.Transparency
import RemoteSettings.Proofs.State.Visits
import RemoteSettings.Proofs.State.Representation
import RemoteSettings.Proofs.State.Independence
import RemoteSettings.Proofs.State.Sharing
import RemoteSettings.Proofs.State.Rereads
import RemoteSettings.Proofs.Store.Guards
import RemoteSettings.Proofs.Store.Flags
import RemoteSettings.Proofs.Store.Attempts
import RemoteSettings.Proofs.Store.Roster
import RemoteSettings.Proofs.Store.Attendance
import RemoteSettings.Proofs.Store.Cells
import RemoteSettings.Proofs.Store.Account
import RemoteSettings.Proofs.Store.Answers
import RemoteSettings.Proofs.Store.Resolution
import RemoteSettings.Proofs.Store.Departure
import RemoteSettings.Proofs.Store.Conclusion
import RemoteSettings.Proofs.Store.Failures
import RemoteSettings.Proofs.Store.Submission
import RemoteSettings.Proofs.Echo
import RemoteSettings.Proofs.Store.SavedEdits
import RemoteSettings.Proofs.Subject
import RemoteSettings.Proofs.WireFormat
import RemoteSettings.Proofs.Command
import RemoteSettings.Proofs.Store.Progress
import RemoteSettings.Proofs.State.Piecemeal
import RemoteSettings.Proofs.State.Identity
import RemoteSettings.Proofs.State.NumberEdits
import RemoteSettings.Proofs.State.ReadPaths
import RemoteSettings.Proofs.Store.SentEdits
import RemoteSettings.Proofs.Updates
import RemoteSettings.Proofs.State.Order
import RemoteSettings.Proofs.Store.Effect
import RemoteSettings.Proofs.Number.Digits
import RemoteSettings.Proofs.Duration.Words
import RemoteSettings.Proofs.Json.Grammar
import RemoteSettings.Proofs.Json.Lexing
import RemoteSettings.Proofs.Json.Parsing
import RemoteSettings.Proofs.Json.Printing
import RemoteSettings.Proofs.Json.Characters
import RemoteSettings.Proofs.Config
import RemoteSettings.Proofs.Config.Layers
import RemoteSettings.Proofs.Typed
import RemoteSettings.Proofs.Text.Symbol
import RemoteSettings.Proofs.Http.Rejection
import RemoteSettings.Proofs.Http.Reply
