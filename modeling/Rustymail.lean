import Rustymail.Lib.Checked
import Rustymail.Lib.Keyed
import Rustymail.Core.Address
import Rustymail.Store.Identity
import Rustymail.Store.World
import Rustymail.Proof.Tables
import Rustymail.Proof.StepLemmas
import Rustymail.Proof.CommitLemmas
import Rustymail.Proof.Refinement
import Rustymail.Proof.Frames
import Rustymail.Proof.Keys
import Rustymail.Attempts
import Rustymail.Proof.UnknownOutcome
import Rustymail.Proof.Consent
import Rustymail.Proof.ClaimLemmas
import Rustymail.Proof.Volatile
import Rustymail.Proof.Ownership
import Rustymail.Proof.Additions
import Rustymail.Proof.Fencing
import Rustymail.Proof.Coherence
import Rustymail.Integrity
import Rustymail.Proof.Accounting
import Rustymail.Proof.IntegrityLemmas
import Rustymail.Proof.Reports
import Rustymail.Acceptances
import Rustymail.Proof.ExactlyOnce
import Rustymail.Client.Smtp
import Rustymail.Proof.Holding
import Rustymail.Proof.ClientLemmas
import Rustymail.Server.Relay
import Rustymail.Proof.BodyPhase
import Rustymail.Proof.LostAcceptance
import Rustymail.Server.Data
import Rustymail.Proof.OperationIds
import Rustymail.Proof.ServiceLemmas
import Rustymail.Proof.HonestReply
import Rustymail.Protocol.Framing
import Rustymail.Lib.Distinct
import Rustymail.Protocol.Session
import Rustymail.Protocol.History
import Rustymail.Proof.FramingLemmas
import Rustymail.Proof.SessionLemmas
import Rustymail.Authority
import Rustymail.Proof.AuthorityLemmas
import Rustymail.Proof.Revocation
import Rustymail.Server.Revocation
import Rustymail.Proof.Epochs
import Rustymail.Proof.NoLostRevocation
import Rustymail.Client.Passage
import Rustymail.Proof.BodyLemmas
import Rustymail.Proof.PhaseOrder
import Rustymail.Protocol.Headers
import Rustymail.Store.Blob
import Rustymail.Server.Receive
import Rustymail.Client.Transfer
import Rustymail.Proof.Transparency
import Rustymail.Proof.PlainText
import Rustymail.Client.Prepare
import Rustymail.Proof.ReceiveLemmas
import Rustymail.Proof.PrepareLemmas
import Rustymail.Proof.Relaying
import Rustymail.Protocol.Command
import Rustymail.Server.Connection
import Rustymail.Proof.ConnectionLemmas
import Rustymail.Proof.Bookings
import Rustymail.Proof.OpenRelay
import Rustymail.Proof.Responsibility
import Rustymail.Lib.Volume
import Rustymail.Store.Depot
import Rustymail.Store.Maintenance
import Rustymail.Proof.CompleteBlobs
import Rustymail.Lib.Words
import Rustymail.Protocol.MailGrammar
import Rustymail.Proof.CommandLemmas
import Rustymail.Proof.EnvelopeCommands
import Rustymail.Proof.VerifiedRead
import Rustymail.Proof.Preliminaries
import Rustymail.Proof.VerifiedEnd
import Rustymail.Lib.Groups
import Rustymail.Proof.FieldLemmas
import Rustymail.Proof.FieldFilter
import Rustymail.Proof.AuthorLemmas
import Rustymail.Proof.DataLines
import Rustymail.Proof.Received
import Rustymail.Proof.ExactInput
import Rustymail.Client.Peer
import Rustymail.Proof.Authors
import Rustymail.Proof.Pipelining
import Rustymail.Proof.Classification
import Rustymail.Lib.Machine
import Rustymail.Server.Stream
import Rustymail.Proof.Chunks
import Rustymail.Proof.StartTls
import Rustymail.Proof.Lookups
import Rustymail.Lib.Windows
import Rustymail.Server.Rates
import Rustymail.Proof.Rates
import Rustymail.Proof.Staging
import Rustymail.Proof.TracePrefix
import Rustymail.Server.Options
import Rustymail.Proof.ClockAnswers
import Rustymail.Proof.ClockJump
import Rustymail.Proof.TrustedTimes
import Rustymail.Proof.ClockChanged
import Rustymail.Lib.Timed
import Rustymail.Lib.Turns
import Rustymail.Lib.Visits
import Rustymail.Proof.DueFailures
import Rustymail.Proof.Cursors
import Rustymail.Proof.Recovery
import Rustymail.Proof.ClaimScan
import Rustymail.Proof.Schedule
import Rustymail.Proof.RoundRobin
import Rustymail.Proof.AuditTrail
import Rustymail.Client.Wire
import Rustymail.Proof.Canonical
import Rustymail.Proof.ReplyParsing
import Rustymail.Lib.Latest
import Rustymail.Proof.Capabilities
import Rustymail.Proof.Negotiation
import Rustymail.Core.Config
import Rustymail.Server.Startup
import Rustymail.Proof.Startup
import Rustymail.Client.Authorization
import Rustymail.Lib.Base64
import Rustymail.Server.Auth
import Rustymail.Proof.AuthPlain
import Rustymail.Lib.Json
import Rustymail.Server.Admin
import Rustymail.Proof.CredentialPage
import Rustymail.Proof.Reservations
import Rustymail.Proof.Collection
import Rustymail.Proof.CompleteTrail
import Rustymail.Lib.Paging
import Rustymail.Store.Listings
import Rustymail.Proof.Listings
import Rustymail.Proof.OperationQuery
import Rustymail.Server.Dispatch
import Rustymail.Proof.DispatchLemmas
import Rustymail.Proof.Dispatching
import Rustymail.Proof.DispatchLoop
import Rustymail.Lib.Semaphore
import Rustymail.Server.Admission
import Rustymail.Proof.Admission
import Rustymail.Server.Login
import Rustymail.Proof.Grants
import Rustymail.Proof.Logins
import Rustymail.Server.Management
import Rustymail.Proof.Management
