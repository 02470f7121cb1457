import Rustymail.Core.Address
import Rustymail.Lib.Checked
import Rustymail.Lib.Keyed

/-!
# The database

One structure per table of `schema.sql`, with the columns that some operation reads or writes, and
the whole database as the lists of their rows. A `CHECK (x IN (...))` column is an enumeration, an
integer column whose `CHECK` excludes negative values is a `Nat`, and times are signed milliseconds.

`PRIMARY KEY`, `UNIQUE` and `REFERENCES` constraints are enforced by the insertions below, which stop
with `StoreError.database` as SQLite does. The `CHECK` constraints are not enforced: they are proved
to hold of every row that the program writes.
-/

namespace Rustymail

open Checked

inductive StoreError where
  | permissionDenied
  | io
  | database
  | locked
  | unsafePath
  | unsafePermissions
  | invalidId
  | unsupportedSchema
  | initializationOutcomeUnknown
  | maintenanceBusy
  | alreadyExists
  | integrity
  | sizeLimit
  | diskReserve
  | poisonedStage
  | recipientUnavailable
  | quota
  | uidExhausted
  | idempotencyConflict
  | outcomeUnknown
  | notFound
  | invalidInput
  | workerUnavailable
  | staleLease
  | queueOutcomeUnknown
  | clockChanged
  deriving DecidableEq, Repr

inductive AccountStatus where
  | active
  | disabled
  deriving DecidableEq, Repr

inductive Scope where
  | mail
  | readOnly
  deriving DecidableEq, Repr

inductive Source where
  | smtp
  | submission
  | append
  | dsn
  | imported
  deriving DecidableEq, Repr

inductive Route where
  | localMail
  | relay
  | direct
  deriving DecidableEq, Repr

inductive DeliveryState where
  | pending
  | leased
  | deferred
  | uncertain
  | delivered
  | failed
  | hold
  deriving DecidableEq, Repr

inductive LifecycleReason where
  | smtpPermanent
  | expired
  | content
  | counter
  | manual
  deriving DecidableEq, Repr

inductive NotificationState where
  | pending
  | created
  | suppressed
  deriving DecidableEq, Repr

inductive Phase where
  | ready
  | body
  deriving DecidableEq, Repr

inductive QueueBody where
  | sevenBit
  | eightBitMime
  deriving DecidableEq, Repr

inductive AdminAction where
  | hold
  | retry
  | closeUnknown
  deriving DecidableEq, Repr

structure Account where
  id : Nat
  login : Text
  status : AccountStatus
  quotaBytes : Nat
  usedBytes : Nat
  authEpoch : Nat
  createdAtMs : Int
  deriving DecidableEq

structure Credential where
  id : Nat
  accountId : Nat
  selector : Text
  label : String
  passwordPhc : Text
  scope : Scope
  revokedAtMs : Option Int
  lastUsedAtMs : Option Int
  createdAtMs : Int
  deriving DecidableEq

structure AddressRow where
  address : Text
  accountId : Nat
  receiveEnabled : Bool
  sendEnabled : Bool
  deriving DecidableEq

structure Mailbox where
  id : Nat
  accountId : Nat
  name : Text
  uidvalidity : Nat
  uidnext : Nat
  eventSeq : Nat
  deriving DecidableEq

structure Blob where
  id : Text
  sizeBytes : Nat
  sha256 : Text
  createdAtMs : Int
  deriving DecidableEq

structure Message where
  id : Text
  ingestKey : Text
  blobId : Text
  source : Source
  reversePath : Text
  authenticatedAccountId : Option Nat
  acceptedAtMs : Int
  deriving DecidableEq

structure Delivery where
  id : Text
  messageId : Text
  recipient : Text
  route : Route
  destinationDomain : Text
  state : DeliveryState
  attempts : Nat := 0
  nextAttemptAtMs : Int
  expiresAtMs : Int
  leaseToken : Option Text := none
  leaseUntilMs : Option Int := none
  generation : Nat := 0
  lastSmtpCode : Option Nat := none
  diagnostic : Option String := none
  lifecycleReason : Option LifecycleReason := none
  possiblyDelivered : Bool := false
  closedAtMs : Option Int := none
  notificationState : NotificationState := .pending
  notificationError : Option String := none
  notificationDueMs : Int := 0
  deriving DecidableEq

structure MailboxMessage where
  mailboxId : Nat
  uid : Nat
  messageId : Text
  deliveryId : Option Text
  internaldateMs : Int
  deriving DecidableEq

/-- Every event the program writes has kind `append` and payload `{}`. -/
structure MailboxEvent where
  mailboxId : Nat
  eventSeq : Nat
  uid : Option Nat
  createdAtMs : Int
  deriving DecidableEq

/-- The only kind of notification is `failure`. -/
structure Notification where
  deliveryId : Text
  reportMessageId : Text
  createdAtMs : Int
  deriving DecidableEq

structure QueueMessage where
  messageId : Text
  bodyMode : QueueBody
  maxAgeSeconds : Nat
  deriving DecidableEq

structure QueueLeaseRow where
  deliveryId : Text
  phase : Phase
  deriving DecidableEq

structure AdminEvent where
  id : Nat
  deliveryId : Text
  action : AdminAction
  beforeState : DeliveryState
  afterState : DeliveryState
  note : Text
  allowDuplicate : Bool
  extendExpired : Bool
  createdAtMs : Int
  deriving DecidableEq

structure Db where
  accounts : List Account := []
  credentials : List Credential := []
  addresses : List AddressRow := []
  mailboxes : List Mailbox := []
  blobs : List Blob := []
  messages : List Message := []
  deliveries : List Delivery := []
  mailboxMessages : List MailboxMessage := []
  mailboxEvents : List MailboxEvent := []
  notifications : List Notification := []
  queueMessages : List QueueMessage := []
  queueLeases : List QueueLeaseRow := []
  adminEvents : List AdminEvent := []
  deriving DecidableEq

/-- The largest value of a signed 64-bit integer. -/
def i64Max : Nat := 2 ^ 63 - 1

/-- The largest value of an unsigned 32-bit integer. -/
def u32Max : Nat := 2 ^ 32 - 1

/-- `INTEGER PRIMARY KEY` without a value: one more than the largest id in use. -/
def nextRowId (ids : List Nat) : Nat := ids.foldl max 0 + 1

namespace Db

def account? (db : Db) (id : Nat) : Option Account :=
  Keyed.lookup Account.id db.accounts id

def accountByLogin? (db : Db) (login : Text) : Option Account :=
  Keyed.lookup Account.login db.accounts login

def credential? (db : Db) (id : Nat) : Option Credential :=
  Keyed.lookup Credential.id db.credentials id

def credentialBySelector? (db : Db) (selector : Text) : Option Credential :=
  Keyed.lookup Credential.selector db.credentials selector

def address? (db : Db) (address : Text) : Option AddressRow :=
  Keyed.lookup AddressRow.address db.addresses address

def mailbox? (db : Db) (accountId : Nat) (name : Text) : Option Mailbox :=
  Keyed.lookup (fun box => (box.accountId, box.name)) db.mailboxes (accountId, name)

def blob? (db : Db) (id : Text) : Option Blob :=
  Keyed.lookup Blob.id db.blobs id

def message? (db : Db) (id : Text) : Option Message :=
  Keyed.lookup Message.id db.messages id

def messageByKey? (db : Db) (ingestKey : Text) : Option Message :=
  Keyed.lookup Message.ingestKey db.messages ingestKey

def delivery? (db : Db) (id : Text) : Option Delivery :=
  Keyed.lookup Delivery.id db.deliveries id

def notification? (db : Db) (deliveryId : Text) : Option Notification :=
  Keyed.lookup Notification.deliveryId db.notifications deliveryId

def queueMessage? (db : Db) (messageId : Text) : Option QueueMessage :=
  Keyed.lookup QueueMessage.messageId db.queueMessages messageId

def queueLease? (db : Db) (deliveryId : Text) : Option QueueLeaseRow :=
  Keyed.lookup QueueLeaseRow.deliveryId db.queueLeases deliveryId

def updateAccount (db : Db) (id : Nat) (f : Account → Account) : Db :=
  { db with accounts := Keyed.modify Account.id db.accounts id f }

def updateAccountByLogin (db : Db) (login : Text) (f : Account → Account) : Db :=
  { db with accounts := Keyed.modify Account.login db.accounts login f }

def updateCredential (db : Db) (id : Nat) (f : Credential → Credential) : Db :=
  { db with credentials := Keyed.modify Credential.id db.credentials id f }

def updateCredentialBySelector (db : Db) (selector : Text) (f : Credential → Credential) : Db :=
  { db with credentials := Keyed.modify Credential.selector db.credentials selector f }

def updateCredentialsOf (db : Db) (accountId : Nat) (f : Credential → Credential) : Db :=
  { db with credentials := Keyed.modify Credential.accountId db.credentials accountId f }

def updateAddress (db : Db) (address : Text) (f : AddressRow → AddressRow) : Db :=
  { db with addresses := Keyed.modify AddressRow.address db.addresses address f }

def updateMailbox (db : Db) (id : Nat) (f : Mailbox → Mailbox) : Db :=
  { db with mailboxes := Keyed.modify Mailbox.id db.mailboxes id f }

def updateDelivery (db : Db) (id : Text) (f : Delivery → Delivery) : Db :=
  { db with deliveries := Keyed.modify Delivery.id db.deliveries id f }

def updateQueueLease (db : Db) (id : Text) (f : QueueLeaseRow → QueueLeaseRow) : Db :=
  { db with queueLeases := Keyed.modify QueueLeaseRow.deliveryId db.queueLeases id f }

def deleteQueueLease (db : Db) (id : Text) : Db :=
  { db with queueLeases := Keyed.remove QueueLeaseRow.deliveryId db.queueLeases id }

def insertAccount (db : Db) (row : Account) : Except StoreError Db := do
  require ((db.account? row.id).isNone ∧ (db.accountByLogin? row.login).isNone) .database
  pure { db with accounts := db.accounts ++ [row] }

def insertCredential (db : Db) (row : Credential) : Except StoreError Db := do
  require ((db.credential? row.id).isNone ∧ (db.credentialBySelector? row.selector).isNone
    ∧ (db.account? row.accountId).isSome) .database
  pure { db with credentials := db.credentials ++ [row] }

def insertAddress (db : Db) (row : AddressRow) : Except StoreError Db := do
  require ((db.address? row.address).isNone ∧ (db.account? row.accountId).isSome) .database
  pure { db with addresses := db.addresses ++ [row] }

def insertMailbox (db : Db) (row : Mailbox) : Except StoreError Db := do
  require ((Keyed.lookup Mailbox.id db.mailboxes row.id).isNone
    ∧ (db.mailbox? row.accountId row.name).isNone ∧ (db.account? row.accountId).isSome) .database
  pure { db with mailboxes := db.mailboxes ++ [row] }

def insertBlob (db : Db) (row : Blob) : Except StoreError Db := do
  require (db.blob? row.id).isNone .database
  pure { db with blobs := db.blobs ++ [row] }

def insertMessage (db : Db) (row : Message) : Except StoreError Db := do
  require ((db.message? row.id).isNone ∧ (db.messageByKey? row.ingestKey).isNone
    ∧ (db.blob? row.blobId).isSome
    ∧ ∀ account ∈ row.authenticatedAccountId, (db.account? account).isSome) .database
  pure { db with messages := db.messages ++ [row] }

def insertDelivery (db : Db) (row : Delivery) : Except StoreError Db := do
  require ((db.delivery? row.id).isNone
    ∧ (Keyed.lookup (fun d => (d.messageId, d.recipient)) db.deliveries
        (row.messageId, row.recipient)).isNone
    ∧ (db.message? row.messageId).isSome) .database
  pure { db with deliveries := db.deliveries ++ [row] }

def insertMailboxMessage (db : Db) (row : MailboxMessage) : Except StoreError Db := do
  require ((Keyed.lookup (fun e => (e.mailboxId, e.uid)) db.mailboxMessages
        (row.mailboxId, row.uid)).isNone
    ∧ (∀ id ∈ row.deliveryId, ∀ e ∈ db.mailboxMessages, e.deliveryId ≠ some id)
    ∧ (Keyed.lookup Mailbox.id db.mailboxes row.mailboxId).isSome
    ∧ (db.message? row.messageId).isSome
    ∧ ∀ id ∈ row.deliveryId, (db.delivery? id).isSome) .database
  pure { db with mailboxMessages := db.mailboxMessages ++ [row] }

def insertMailboxEvent (db : Db) (row : MailboxEvent) : Except StoreError Db := do
  require ((Keyed.lookup (fun e => (e.mailboxId, e.eventSeq)) db.mailboxEvents
        (row.mailboxId, row.eventSeq)).isNone
    ∧ (Keyed.lookup Mailbox.id db.mailboxes row.mailboxId).isSome) .database
  pure { db with mailboxEvents := db.mailboxEvents ++ [row] }

def insertNotification (db : Db) (row : Notification) : Except StoreError Db := do
  require ((db.notification? row.deliveryId).isNone ∧ (db.delivery? row.deliveryId).isSome
    ∧ (db.message? row.reportMessageId).isSome) .database
  pure { db with notifications := db.notifications ++ [row] }

def insertQueueMessage (db : Db) (row : QueueMessage) : Except StoreError Db := do
  require ((db.queueMessage? row.messageId).isNone ∧ (db.message? row.messageId).isSome
    ∧ 1 ≤ row.maxAgeSeconds ∧ row.maxAgeSeconds ≤ 604800) .database
  pure { db with queueMessages := db.queueMessages ++ [row] }

def insertQueueLease (db : Db) (row : QueueLeaseRow) : Except StoreError Db := do
  require ((db.queueLease? row.deliveryId).isNone ∧ (db.delivery? row.deliveryId).isSome) .database
  pure { db with queueLeases := db.queueLeases ++ [row] }

def insertAdminEvent (db : Db) (row : AdminEvent) : Except StoreError Db := do
  require ((Keyed.lookup AdminEvent.id db.adminEvents row.id).isNone
    ∧ (db.delivery? row.deliveryId).isSome) .database
  pure { db with adminEvents := db.adminEvents ++ [row] }

end Db

end Rustymail
