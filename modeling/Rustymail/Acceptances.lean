import Rustymail.Commits
import Rustymail.Proof.Writes

/-!
# What it means to accept exactly once

A message is recognised by its fingerprint: everything an acceptance fixes besides its operation id.
An acceptance call adds all its rows, reads an earlier acceptance back, or leaves everything as it
was; only an unknown outcome leaves open which of the first and the last it is.
-/

namespace Rustymail

structure Fingerprint where
  kind : Source
  sender : Text
  hash : Text
  size : Nat
  localSet : List Text
  remoteSet : List Text
  queue : Option (QueueBody × Nat)
  account : Option Nat
  deriving DecidableEq

/-- The fingerprint of a committed message. -/
def Db.fingerprint (db : Db) (message : Message) (blob : Blob) : Fingerprint where
  kind := message.source
  sender := message.reversePath
  hash := blob.sha256
  size := blob.sizeBytes
  localSet := recordedRecipients db message.id (· == .localMail)
  remoteSet := recordedRecipients db message.id (· == .relay)
  queue := (db.queueMessage? message.id).map queueFingerprint
  account := message.authenticatedAccountId

/-- The fingerprint an acceptance asks for. -/
def acceptanceFingerprint (message : PreparedMessage) (plan : Acceptance)
    (identity : Option SubmissionIdentity) (relay : Option RelayAcceptance) : Fingerprint where
  kind := if identity.isSome then .submission else .smtp
  sender := reversePathOf plan.sender
  hash := message.hash
  size := message.size
  localSet := localKeys plan
  remoteSet := remoteKeys relay
  queue := relay.map relayFingerprint
  account := accountOf identity

/-- The fingerprint an enqueued message asks for. -/
def enqueueFingerprint (message : PreparedMessage) (plan : QueuePlan) : Fingerprint where
  kind := .imported
  sender := reversePathOf plan.sender
  hash := message.hash
  size := message.size
  localSet := []
  remoteSet := queueKeys plan
  queue := some (plan.body, plan.maxAgeSeconds)
  account := none

/-- The message was committed under this operation id and with this fingerprint. -/
def Db.Holds (db : Db) (operationId : Text) (fingerprint : Fingerprint) (id : Text) : Prop :=
  ∃ message ∈ db.messages, ∃ blob, message.id = id ∧ message.ingestKey = operationId
    ∧ db.blob? message.blobId = some blob ∧ db.fingerprint message blob = fingerprint

/-- Exactly the rows of one message were added: a blob, the message, a local delivery and a mailbox
entry for each local key, a pending relay delivery for each remote address, and a queue row if there
are any of these. -/
structure AddsMessage (db db' : Db) (blob : Blob) (message : Message) (ids relayIds : Text → Uuid)
    (locals remotes : List Text) (queue : Option (QueueBody × Nat)) (now : Int) : Prop where
  blobs : db'.blobs = db.blobs ++ [blob]
  messages : db'.messages = db.messages ++ [message]
  deliveries : ∃ expires, db'.deliveries = db.deliveries ++ localRows ids message.id now locals
    ++ relayRows relayIds message.id now expires remotes
  entries : ∃ entries, db'.mailboxMessages = db.mailboxMessages ++ entries
    ∧ entries.map (fun e => (e.deliveryId, e.messageId, e.internaldateMs))
      = locals.map fun key => (some (ids key).text, message.id, now)
  queueMessages : db'.queueMessages
    = db.queueMessages ++ (queue.map fun q => ⟨message.id, q.1, q.2⟩).toList
  queue_iff : queue.isSome ↔ remotes ≠ []
  credentials : db'.credentials = db.credentials
  addresses : db'.addresses = db.addresses
  notifications : db'.notifications = db.notifications
  queueLeases : db'.queueLeases = db.queueLeases
  adminEvents : db'.adminEvents = db.adminEvents

/-- What an acceptance call may return, and the database it may leave. `permitted` is what the call
checks besides the earlier acceptance before it replays it. -/
structure ExactlyOnce (db : Db) (operationId : Text) (permitted : Prop) (fingerprint : Fingerprint)
    (adds : Db → Prop) (result : Store × Except StoreError AcceptedMessage) : Prop where
  replayed_iff : ∀ id, result.2 = .ok ⟨id, true⟩ ↔
    permitted ∧ db.Holds operationId fingerprint id
  replayed : ∀ id, result.2 = .ok ⟨id, true⟩ → result.1.db = db
  accepted : ∀ id, result.2 = .ok ⟨id, false⟩ →
    adds result.1.db ∧ result.1.db.Holds operationId fingerprint id
  refused : ∀ e, result.2 = .error e → e ≠ .outcomeUnknown → result.1.db = db
  unknown : result.2 = .error .outcomeUnknown →
    result.1.db = db ∨ (adds result.1.db ∧ ∃ id, result.1.db.Holds operationId fingerprint id)

/-- An acceptance call may replay once its arguments are valid and the identity still has its
authority. -/
def AcceptsOnce (s : Store) (i : Intake) (reading : Reading)
    (result : Store × Except StoreError AcceptedMessage) : Prop :=
  ExactlyOnce s.db i.plan.operationId
    (validAcceptance s i.message i.plan i.relay
      ∧ authorizeSubmission s.db i.identity i.plan.sender = .ok ())
    (acceptanceFingerprint i.message i.plan i.identity i.relay)
    (fun db' => ∃ now, reading.nowMs = .ok now
      ∧ AddsMessage s.db db' (i.message.blobRow now)
        (acceptedRow i.ids i.message i.plan i.identity now) i.ids.deliver i.ids.relay
        (localKeys i.plan) (remoteKeys i.relay) (i.relay.map relayFingerprint) now)
    result

/-- An enqueueing call may replay once its arguments are valid. -/
def EnqueuesOnce (s : Store) (ids : FreshIds) (message : PreparedMessage) (plan : QueuePlan)
    (reading : Reading) (result : Store × Except StoreError AcceptedMessage) : Prop :=
  ExactlyOnce s.db plan.operationId (validEnqueue s message plan) (enqueueFingerprint message plan)
    (fun db' => ∃ now, reading.nowMs = .ok now
      ∧ AddsMessage s.db db' (message.blobRow now) (enqueuedRow ids message plan now) ids.deliver
        ids.relay [] (queueKeys plan) (some (plan.body, plan.maxAgeSeconds)) now)
    result

/-- An enqueueing call reads the clock before it looks for the earlier acceptance. So if there is
one to read back, the clock must be readable. -/
def EnqueueReady (s : Store) (message : PreparedMessage) (plan : QueuePlan) (reading : Reading) :
    Prop :=
  validEnqueue s message plan →
    (∃ id, s.db.Holds plan.operationId (enqueueFingerprint message plan) id) →
      ∃ now, reading.nowMs = .ok now

end Rustymail
