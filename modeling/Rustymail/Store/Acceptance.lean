import Rustymail.Store.Identity
import Rustymail.Store.LocalDelivery
import Mathlib.Data.List.Sort

/-!
# Acceptance

The two ways a message enters the store: `accept_inner`, behind `accept`, `accept_submission` and
`accept_relay_submission`, and `enqueue`. Both look up the operation id first and either replay the
earlier acceptance, refuse a different one, or write everything in one transaction.
-/

namespace Rustymail

open Checked

/-- The bound `Store::open_inner` puts on `max_message_bytes`, which every stage enforces. -/
def maxStoredBytes : Nat := 25 * 1024 * 1024 + 2048

/-- The durability token of a staged message: only `StagedMessage::prepare` makes one. -/
structure PreparedMessage where
  root : Text
  id : Uuid
  size : Nat
  hash : Text
  size_le : size ≤ maxStoredBytes
  deriving DecidableEq

structure Acceptance where
  operationId : Text
  sender : Option Address
  recipients : List Address

structure RelayAcceptance where
  recipients : List Address
  body : QueueBody
  maxAgeSeconds : Nat

structure QueuePlan where
  operationId : Text
  sender : Option Address
  recipients : List Address
  body : QueueBody
  maxAgeSeconds : Nat

structure AcceptedMessage where
  messageId : Text
  alreadyCommitted : Bool
  deriving DecidableEq

/-- The identifiers an acceptance draws: its message id, and one for each recipient. -/
structure FreshIds where
  message : Uuid
  deliver : Text → Uuid
  relay : Text → Uuid

/-- `BTreeSet<String>`: distinct texts in byte order. -/
def btreeSet (texts : List Text) : List Text :=
  texts.dedup.insertionSort (· ≤ ·)

/-- `sender.as_ref().map_or("", Address::as_str)`. -/
def reversePathOf (sender : Option Address) : Text :=
  sender.elim [] Address.asStr

/-- The recipients recorded for a message on the given routes. -/
def recordedRecipients (db : Db) (message : Text) (onRoute : Route → Bool) : List Text :=
  btreeSet ((db.deliveries.filter fun d => decide (d.messageId = message) && onRoute d.route).map
    Delivery.recipient)

def relayDelivery (id : Uuid) (recipient domain message : Text) (now expires : Int) : Delivery :=
  { id := id.text
    messageId := message
    recipient := recipient
    route := .relay
    destinationDomain := domain
    state := .pending
    nextAttemptAtMs := now
    expiresAtMs := expires }

def insertRelayDelivery (ids : Text → Uuid) (message : Text) (now expires : Int) (db : Db)
    (recipient : Text) : Except StoreError Db := do
  let (_, domain) ← found .invalidInput (rsplitOnce 64 recipient)
  db.insertDelivery (relayDelivery (ids recipient) recipient domain message now expires)

/-- `queue::insert_relay`. -/
def insertRelay (ids : Text → Uuid) (message : Text) (recipients : List Text) (body : QueueBody)
    (age : Nat) (now : Int) (db : Db) : Except StoreError Db := do
  let expires ← later now (age * 1000)
  let db ← db.insertQueueMessage { messageId := message, bodyMode := body, maxAgeSeconds := age }
  recipients.foldlM (insertRelayDelivery ids message now expires) db

def PreparedMessage.blobRow (message : PreparedMessage) (now : Int) : Blob :=
  { id := message.id.text
    sizeBytes := message.size
    sha256 := message.hash
    createdAtMs := now }

/-- The first two inserts of every intake: the blob, then the message that names it. -/
def storeMessage (blob : Blob) (message : Message) (db : Db) : Except StoreError Db := do
  let db ← db.insertBlob blob
  db.insertMessage message

/-- An earlier acceptance under the same operation id, with its blob. -/
def previousAcceptance (db : Db) (operationId : Text) : Option (Message × Blob) := do
  let message ← db.messageByKey? operationId
  let blob ← db.blob? message.blobId
  some (message, blob)

/-- The authority check inside the accepting transaction. -/
def authorizeSubmission (db : Db) (identity : Option SubmissionIdentity) (sender : Option Address) :
    Except StoreError Unit :=
  match identity with
  | none => .ok ()
  | some identity => do
      let sender ← found .permissionDenied sender
      require (maySend db identity.principal sender = true
        ∧ maySend db identity.principal identity.author = true) .permissionDenied

/-- `relay.as_ref().map(|r| (r.body.name(), r.max_age_seconds))` against the stored row. -/
def queueFingerprint (row : QueueMessage) : QueueBody × Nat := (row.bodyMode, row.maxAgeSeconds)

def relayFingerprint (relay : RelayAcceptance) : QueueBody × Nat := (relay.body, relay.maxAgeSeconds)

def localKeys (plan : Acceptance) : List Text := btreeSet (plan.recipients.map Address.localKey)

def remoteKeys (relay : Option RelayAcceptance) : List Text :=
  btreeSet (relay.elim [] fun r => r.recipients.map Address.asStr)

def accountOf (identity : Option SubmissionIdentity) : Option Nat :=
  identity.map fun i => i.principal.accountId

/-- Does an earlier acceptance agree with this one in everything `accept_inner` compares? -/
abbrev sameAcceptance (db : Db) (message : PreparedMessage) (plan : Acceptance)
    (identity : Option SubmissionIdentity) (relay : Option RelayAcceptance)
    (previous : Message) (blob : Blob) : Prop :=
  recordedRecipients db previous.id (· != .localMail) = remoteKeys relay
    ∧ (db.queueMessage? previous.id).map queueFingerprint = relay.map relayFingerprint
    ∧ previous.reversePath = reversePathOf plan.sender
    ∧ blob.sha256 = message.hash
    ∧ blob.sizeBytes = message.size
    ∧ recordedRecipients db previous.id (· == .localMail) = localKeys plan
    ∧ previous.authenticatedAccountId = accountOf identity

/-- The message row of a fresh `accept_inner`. -/
def acceptedRow (ids : FreshIds) (message : PreparedMessage) (plan : Acceptance)
    (identity : Option SubmissionIdentity) (now : Int) : Message :=
  { id := ids.message.text
    ingestKey := plan.operationId
    blobId := message.id.text
    source := if (accountOf identity).isSome then .submission else .smtp
    reversePath := reversePathOf plan.sender
    authenticatedAccountId := accountOf identity
    acceptedAtMs := now }

/-- The rows a fresh `accept_inner` writes. -/
def writeAcceptance (ids : FreshIds) (message : PreparedMessage) (plan : Acceptance)
    (identity : Option SubmissionIdentity) (relay : Option RelayAcceptance) (now : Int) (db : Db) :
    Except StoreError Db := do
  let db ← storeMessage (message.blobRow now) (acceptedRow ids message plan identity now) db
  let db ← (localKeys plan).foldlM
    (fun db recipient =>
      deliver (ids.deliver recipient) recipient ids.message.text message.size now db) db
  match relay with
  | none => pure db
  | some relay =>
      insertRelay ids.relay ids.message.text (remoteKeys (some relay)) relay.body
        relay.maxAgeSeconds now db

/-- The transaction of `accept_inner`, up to its commit. A replay leaves the database as it is. -/
def acceptTx (ids : FreshIds) (message : PreparedMessage) (plan : Acceptance)
    (identity : Option SubmissionIdentity) (relay : Option RelayAcceptance) (reading : Reading)
    (faults : Faults) (db : Db) : Except StoreError (Db × AcceptedMessage) := do
  authorizeSubmission db identity plan.sender
  match previousAcceptance db plan.operationId with
  | some (previous, blob) =>
      require (sameAcceptance db message plan identity relay previous blob) .idempotencyConflict
      pure (db, ⟨previous.id, true⟩)
  | none =>
      let now ← reading.nowMs
      require (faults.hit .databaseWrite = false) .io
      let db ← writeAcceptance ids message plan identity relay now db
      pure (db, ⟨ids.message.text, false⟩)

/-- The commit of an acceptance. Once SQLite may have applied it, no failure is definite. -/
def Store.commitAcceptance (faults : Faults) (store : Store) (db : Db) (accepted : AcceptedMessage) :
    Store × Except StoreError AcceptedMessage :=
  if accepted.alreadyCommitted then (store, .ok accepted)
  else if faults.hit .beforeCommit then (store, .error .io)
  else if faults.hit .commit then (store, .error .outcomeUnknown)
  else
    match faults.report with
    | .failed => (store, .error .outcomeUnknown)
    | .failedButApplied => ({ store with db := db }, .error .outcomeUnknown)
    | .ok =>
        if faults.hit .afterCommit then ({ store with db := db }, .error .outcomeUnknown)
        else ({ store with db := db }, .ok accepted)

def relayCount (relay : Option RelayAcceptance) : Nat := relay.elim 0 fun r => r.recipients.length

/-- The argument checks of `accept_inner`. -/
abbrev validAcceptance (store : Store) (message : PreparedMessage) (plan : Acceptance)
    (relay : Option RelayAcceptance) : Prop :=
  message.root = store.root ∧ validId plan.operationId = true
    ∧ 0 < plan.recipients.length + relayCount relay
    ∧ plan.recipients.length + relayCount relay ≤ 100
    ∧ ∀ r ∈ relay, r.recipients ≠ [] ∧ 1 ≤ r.maxAgeSeconds ∧ r.maxAgeSeconds ≤ 604800

def acceptInner (store : Store) (ids : FreshIds) (message : PreparedMessage) (plan : Acceptance)
    (identity : Option SubmissionIdentity) (relay : Option RelayAcceptance) (reading : Reading)
    (faults : Faults) : Store × Except StoreError AcceptedMessage :=
  if validAcceptance store message plan relay then
    store.transaction (acceptTx ids message plan identity relay reading faults)
      (Store.commitAcceptance faults)
  else (store, .error .invalidInput)

def accept (store : Store) (ids : FreshIds) (message : PreparedMessage) (plan : Acceptance)
    (reading : Reading) (faults : Faults) : Store × Except StoreError AcceptedMessage :=
  acceptInner store ids message plan none none reading faults

def acceptSubmission (store : Store) (ids : FreshIds) (message : PreparedMessage)
    (plan : Acceptance) (identity : SubmissionIdentity) (reading : Reading) (faults : Faults) :
    Store × Except StoreError AcceptedMessage :=
  acceptInner store ids message plan (some identity) none reading faults

def acceptRelaySubmission (store : Store) (ids : FreshIds) (message : PreparedMessage)
    (plan : Acceptance) (identity : SubmissionIdentity) (relay : RelayAcceptance)
    (reading : Reading) (faults : Faults) : Store × Except StoreError AcceptedMessage :=
  acceptInner store ids message plan (some identity) (some relay) reading faults

def queueKeys (plan : QueuePlan) : List Text := btreeSet (plan.recipients.map Address.asStr)

/-- Does an earlier acceptance agree with this one in everything `enqueue` compares? -/
abbrev sameEnqueue (db : Db) (message : PreparedMessage) (plan : QueuePlan) (previous : Message)
    (blob : Blob) : Prop :=
  previous.source = .imported
    ∧ previous.reversePath = reversePathOf plan.sender
    ∧ blob.sha256 = message.hash
    ∧ blob.sizeBytes = message.size
    ∧ recordedRecipients db previous.id (· == .relay) = queueKeys plan
    ∧ (db.queueMessage? previous.id).map queueFingerprint = some (plan.body, plan.maxAgeSeconds)

/-- The message row of a fresh `enqueue`. -/
def enqueuedRow (ids : FreshIds) (message : PreparedMessage) (plan : QueuePlan) (now : Int) :
    Message :=
  { id := ids.message.text
    ingestKey := plan.operationId
    blobId := message.id.text
    source := .imported
    reversePath := reversePathOf plan.sender
    authenticatedAccountId := none
    acceptedAtMs := now }

def writeEnqueue (ids : FreshIds) (message : PreparedMessage) (plan : QueuePlan) (now : Int)
    (db : Db) : Except StoreError Db := do
  let db ← storeMessage (message.blobRow now) (enqueuedRow ids message plan now) db
  insertRelay ids.relay ids.message.text (queueKeys plan) plan.body plan.maxAgeSeconds now db

def enqueueTx (ids : FreshIds) (message : PreparedMessage) (plan : QueuePlan) (now : Int)
    (faults : Faults) (db : Db) : Except StoreError (Db × AcceptedMessage) :=
  match previousAcceptance db plan.operationId with
  | some (previous, blob) => do
      require (sameEnqueue db message plan previous blob) .idempotencyConflict
      pure (db, ⟨previous.id, true⟩)
  | none => do
      require (faults.hit .databaseWrite = false) .io
      let db ← writeEnqueue ids message plan now db
      pure (db, ⟨ids.message.text, false⟩)

/-- The argument checks of `enqueue`. -/
abbrev validEnqueue (store : Store) (message : PreparedMessage) (plan : QueuePlan) : Prop :=
  message.root = store.root ∧ validId plan.operationId = true ∧ plan.recipients ≠ []
    ∧ plan.recipients.length ≤ 100 ∧ 1 ≤ plan.maxAgeSeconds ∧ plan.maxAgeSeconds ≤ 604800

/-- `enqueue`: unlike `accept_inner` it reads the clock before it looks for an earlier acceptance. -/
def enqueue (store : Store) (ids : FreshIds) (message : PreparedMessage) (plan : QueuePlan)
    (reading : Reading) (faults : Faults) : Store × Except StoreError AcceptedMessage :=
  if validEnqueue store message plan then
    match reading.nowMs with
    | .error e => (store, .error e)
    | .ok now =>
        store.transaction (enqueueTx ids message plan now faults) (Store.commitAcceptance faults)
  else (store, .error .invalidInput)

end Rustymail
