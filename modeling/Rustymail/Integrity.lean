import Rustymail.Store.World
import Rustymail.Lib.Ledger

/-!
# The store's own consistency checks

The counts of `check_integrity` and `queue_integrity_mismatches` over the tables. A left join on a
primary key is a lookup. What the check finds in the blob directory comes from outside.
-/

namespace Rustymail

def Db.mailboxById? (db : Db) (id : Nat) : Option Mailbox :=
  Keyed.lookup Mailbox.id db.mailboxes id

/-- The account behind a mailbox entry. -/
def Db.entryOwner (db : Db) (entry : MailboxMessage) : Option Nat :=
  (db.mailboxById? entry.mailboxId).map Mailbox.accountId

/-- The size of the blob behind a message. -/
def Db.messageSize (db : Db) (message : Text) : Nat :=
  ((db.message? message).bind fun m => db.blob? m.blobId).elim 0 Blob.sizeBytes

/-- `coalesce(sum(b.size_bytes),0)` over the entries of an account's mailboxes. -/
def Db.storedBytes (db : Db) (account : Nat) : Nat :=
  Ledger.total db.entryOwner (fun entry => db.messageSize entry.messageId) db.mailboxMessages
    (some account)

/-- `coalesce(max(uid),0)` over the entries of a mailbox. -/
def Db.highestUid (db : Db) (mailbox : Nat) : Nat :=
  Ledger.highest MailboxMessage.mailboxId MailboxMessage.uid db.mailboxMessages mailbox

/-- `coalesce(max(event_seq),0)` over the events of a mailbox. -/
def Db.highestEvent (db : Db) (mailbox : Nat) : Nat :=
  Ledger.highest MailboxEvent.mailboxId MailboxEvent.eventSeq db.mailboxEvents mailbox

def Db.quotaMismatches (db : Db) : Nat :=
  db.accounts.countP fun a => decide (a.usedBytes ≠ db.storedBytes a.id)

def Db.uidMismatches (db : Db) : Nat :=
  db.mailboxes.countP fun box =>
    decide (box.uidnext ≤ db.highestUid box.id ∨ box.eventSeq < db.highestEvent box.id)

def Db.deliveryMismatches (db : Db) : Nat :=
  db.mailboxMessages.countP fun e =>
    (e.deliveryId.bind db.delivery?).any fun d =>
      decide (d.messageId ≠ e.messageId ∨ d.route ≠ .localMail ∨ d.state ≠ .delivered)

/-- The first count of `queue_integrity_mismatches`: deliveries at odds with their queue rows. -/
def Delivery.queueMismatch (db : Db) (d : Delivery) : Bool :=
  if d.route = .relay then
    (db.queueMessage? d.messageId).isNone
      || (decide (d.state = .leased) != (db.queueLease? d.id).isSome)
      || (decide (d.state = .leased) != d.leaseToken.isSome)
      || d.leaseToken.any fun token => decide (token.length ≠ 32)
  else (db.queueLease? d.id).isSome

/-- The third count: deliveries at odds with their outcome or their report. -/
def Delivery.outcomeMismatch (db : Db) (d : Delivery) : Bool :=
  (decide (d.notificationState = .created) != (db.notification? d.id).isSome)
    || (d.closedAtMs.isSome && (decide (d.state ≠ .uncertain) || !d.possiblyDelivered))
    || (decide (d.state = .failed) && d.possiblyDelivered)

def queueIntegrityMismatches (db : Db) : Nat :=
  db.deliveries.countP (Delivery.queueMismatch db)
    + db.queueMessages.countP (fun q => !db.deliveries.any fun d =>
      decide (d.messageId = q.messageId ∧ d.route = .relay))
    + db.deliveries.countP (Delivery.outcomeMismatch db)

/-- What the check finds in the blob directory. -/
structure BlobFindings where
  missingBlobs : Nat
  corruptBlobs : Nat
  unexpectedFiles : Nat

structure IntegrityReport where
  missingBlobs : Nat
  corruptBlobs : Nat
  unexpectedFiles : Nat
  quotaMismatches : Nat
  uidMismatches : Nat
  deliveryMismatches : Nat
  queueMismatches : Nat

def checkIntegrity (store : Store) (findings : BlobFindings) : IntegrityReport where
  missingBlobs := findings.missingBlobs
  corruptBlobs := findings.corruptBlobs
  unexpectedFiles := findings.unexpectedFiles
  quotaMismatches := store.db.quotaMismatches
  uidMismatches := store.db.uidMismatches
  deliveryMismatches := store.db.deliveryMismatches
  queueMismatches := queueIntegrityMismatches store.db

def IntegrityReport.healthy (report : IntegrityReport) : Bool :=
  report.missingBlobs == 0 && report.corruptBlobs == 0 && report.unexpectedFiles == 0
    && report.quotaMismatches == 0 && report.uidMismatches == 0 && report.deliveryMismatches == 0
    && report.queueMismatches == 0

end Rustymail
