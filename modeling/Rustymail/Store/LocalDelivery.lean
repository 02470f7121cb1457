import Rustymail.Store.Runtime

/-!
# Local delivery

`local_delivery.rs`: find the mailbox behind a recipient, check its counters and quota, and append
one entry. Acceptances and generated reports share it.
-/

namespace Rustymail

open Checked

structure Target where
  account : Nat
  mailbox : Nat
  uid : Nat
  event : Nat
  deriving DecidableEq

def inbox : Text := ascii "INBOX"

/-- The joined row `target` selects: the address, its active account and that account's inbox. -/
def targetRow (db : Db) (recipient : Text) : Option (Account × Mailbox) := do
  let address ← db.address? recipient
  let account ← db.account? address.accountId
  let mailbox ← db.mailbox? account.id inbox
  if address.receiveEnabled = true ∧ account.status = .active then some (account, mailbox) else none

def target (db : Db) (recipient : Text) (size : Nat) : Except StoreError Target := do
  let (account, mailbox) ← found .recipientUnavailable (targetRow db recipient)
  require (mailbox.uidnext ≤ u32Max ∧ mailbox.eventSeq ≠ i64Max) .uidExhausted
  require (account.usedBytes + size ≤ account.quotaBytes
    ∧ account.usedBytes + size ≤ i64Max) .quota
  pure ⟨account.id, mailbox.id, mailbox.uidnext, mailbox.eventSeq⟩

/-- `local_delivery::preflight`. -/
def preflight (db : Db) (recipient : Text) (size : Nat) : Except StoreError Unit := do
  let _ ← target db recipient size
  pure ()

/-- The delivery row of a message that reached a local mailbox. -/
def localDelivery (id : Uuid) (recipient domain message : Text) (now : Int) : Delivery :=
  { id := id.text
    messageId := message
    recipient := recipient
    route := .localMail
    destinationDomain := domain
    state := .delivered
    nextAttemptAtMs := now
    expiresAtMs := now }

def Mailbox.advance (row : Mailbox) : Mailbox :=
  { row with uidnext := row.uidnext + 1, eventSeq := row.eventSeq + 1 }

/-- `local_delivery::deliver`. The counters are read in the caller's transaction, so earlier
recipients of the same acceptance count. -/
def deliver (delivery : Uuid) (recipient message : Text) (size : Nat) (now : Int) (db : Db) :
    Except StoreError Db := do
  let t ← target db recipient size
  let (_, domain) ← found .invalidInput (rsplitOnce 64 recipient)
  let db ← db.insertDelivery (localDelivery delivery recipient domain message now)
  let db ← db.insertMailboxMessage
    { mailboxId := t.mailbox
      uid := t.uid
      messageId := message
      deliveryId := some delivery.text
      internaldateMs := now }
  let db := db.updateMailbox t.mailbox Mailbox.advance
  let db ← db.insertMailboxEvent
    { mailboxId := t.mailbox, eventSeq := t.event + 1, uid := some t.uid, createdAtMs := now }
  pure (db.updateAccount t.account fun row => { row with usedBytes := row.usedBytes + size })

end Rustymail
