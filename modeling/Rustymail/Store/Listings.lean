import Rustymail.Integrity
import Rustymail.Lib.Paging

/-!
# Looking into the store

The queries behind the administration: an account's inbox, the relay queue, and what has become of an
acceptance. A join on a primary key is a lookup.
-/

namespace Rustymail

structure MessageSummary where
  uid : Nat
  messageId : Text
  sizeBytes : Nat
  acceptedAtMs : Int
  deriving DecidableEq, Repr

/-- The row of an entry whose message and blob are there. -/
def Db.messageSummary (db : Db) (entry : MailboxMessage) : Option MessageSummary := do
  let message ← db.message? entry.messageId
  let blob ← db.blob? message.blobId
  pure ⟨entry.uid, message.id, blob.sizeBytes, message.acceptedAtMs⟩

/-- Is the entry in the inbox of the account with this login? -/
def Db.inInbox (db : Db) (login : Text) (entry : MailboxMessage) : Bool :=
  (db.mailboxById? entry.mailboxId).any fun box => decide (box.name = inbox)
    && (db.account? box.accountId).any fun account => decide (account.login = login)

def Db.inboxSummaries (db : Db) (login : Text) : List MessageSummary :=
  (db.mailboxMessages.filter (db.inInbox login)).filterMap db.messageSummary

def listMessages (db : Db) (address : Address) (afterUid limit : Nat) :
    Except StoreError (List MessageSummary) :=
  if limit = 0 ∨ 1000 < limit then .error .invalidInput
  else .ok (Paging.page MessageSummary.uid (db.inboxSummaries address.localKey) afterUid limit)

structure QueueSummary where
  id : Text
  messageId : Text
  recipient : Text
  destinationDomain : Text
  state : DeliveryState
  attempts : Nat
  generation : Nat
  nextAttemptAtMs : Int
  expiresAtMs : Int
  leaseUntilMs : Option Int
  lastSmtpCode : Option Nat
  diagnostic : Option String
  lifecycleReason : Option LifecycleReason
  possiblyDelivered : Bool
  closedAtMs : Option Int
  notificationState : NotificationState
  notificationError : Option String
  notificationDueMs : Int
  reportMessageId : Option Text
  deriving DecidableEq

/-- The columns of `SUMMARY`. -/
def Db.queueSummary (db : Db) (d : Delivery) : QueueSummary where
  id := d.id
  messageId := d.messageId
  recipient := d.recipient
  destinationDomain := d.destinationDomain
  state := d.state
  attempts := d.attempts
  generation := d.generation
  nextAttemptAtMs := d.nextAttemptAtMs
  expiresAtMs := d.expiresAtMs
  leaseUntilMs := d.leaseUntilMs
  lastSmtpCode := d.lastSmtpCode
  diagnostic := d.diagnostic
  lifecycleReason := d.lifecycleReason
  possiblyDelivered := d.possiblyDelivered
  closedAtMs := d.closedAtMs
  notificationState := d.notificationState
  notificationError := d.notificationError
  notificationDueMs := d.notificationDueMs
  reportMessageId := (db.notification? d.id).map Notification.reportMessageId

def Db.relaySummaries (db : Db) : List QueueSummary :=
  (db.deliveries.filter fun d => decide (d.route = .relay)).map db.queueSummary

def queueList (db : Db) (afterId : Text) (limit : Nat) : Except StoreError (List QueueSummary) :=
  if (afterId ≠ [] ∧ validId afterId = false) ∨ ¬ (1 ≤ limit ∧ limit ≤ batch) then
    .error .invalidInput
  else .ok (Paging.page QueueSummary.id db.relaySummaries afterId limit)

structure OperationSummary where
  operationId : Text
  messageId : Text
  blobId : Text
  sizeBytes : Nat
  sha256 : Text
  acceptedAtMs : Int
  recipients : Nat
  deriving DecidableEq, Repr

/-- The row of the message committed under an operation id. -/
def Db.operationSummary (db : Db) (id : Text) : Option OperationSummary := do
  let message ← db.messageByKey? id
  let blob ← db.blob? message.blobId
  pure
    { operationId := id
      messageId := message.id
      blobId := blob.id
      sizeBytes := blob.sizeBytes
      sha256 := blob.sha256
      acceptedAtMs := message.acceptedAtMs
      recipients := db.deliveries.countP fun d => decide (d.messageId = message.id) }

def operation (db : Db) (id : Text) : Except StoreError (Option OperationSummary) :=
  if validId id = false then .error .invalidId else .ok (db.operationSummary id)

/-- A query needs the store to be open. -/
def World.query {α : Type} (w : World) (ask : Db → Except StoreError α) : Except StoreError α :=
  if w.opened then ask w.store.db else .error .workerUnavailable

end Rustymail
