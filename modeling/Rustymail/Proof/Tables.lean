import Rustymail.Lifecycle
import Rustymail.Proof.LifecycleLemmas
import Rustymail.Lib.Loops

/-!
# What the statements do

For each insertion, when it succeeds and the database it leaves; for each statement, what it does to
one delivery as seen across the tables.
-/

namespace Rustymail

open Checked

namespace Db

variable {db db' : Db}

section Insertions

theorem insertAccount_eq_ok {row : Account} :
    db.insertAccount row = .ok db' ↔
      (db.account? row.id = none ∧ db.accountByLogin? row.login = none)
        ∧ db' = { db with accounts := db.accounts ++ [row] } := by
  rw [insertAccount, require_pure_eq_ok]
  simp only [Option.isNone_iff_eq_none]

theorem insertCredential_eq_ok {row : Credential} :
    db.insertCredential row = .ok db' ↔
      (db.credential? row.id = none ∧ db.credentialBySelector? row.selector = none
          ∧ (db.account? row.accountId).isSome)
        ∧ db' = { db with credentials := db.credentials ++ [row] } := by
  rw [insertCredential, require_pure_eq_ok]
  simp only [Option.isNone_iff_eq_none]

theorem insertAddress_eq_ok {row : AddressRow} :
    db.insertAddress row = .ok db' ↔
      (db.address? row.address = none ∧ (db.account? row.accountId).isSome)
        ∧ db' = { db with addresses := db.addresses ++ [row] } := by
  rw [insertAddress, require_pure_eq_ok]
  simp only [Option.isNone_iff_eq_none]

theorem insertMailbox_eq_ok {row : Mailbox} :
    db.insertMailbox row = .ok db' ↔
      (Keyed.lookup Mailbox.id db.mailboxes row.id = none
          ∧ db.mailbox? row.accountId row.name = none ∧ (db.account? row.accountId).isSome)
        ∧ db' = { db with mailboxes := db.mailboxes ++ [row] } := by
  rw [insertMailbox, require_pure_eq_ok]
  simp only [Option.isNone_iff_eq_none]

theorem insertBlob_eq_ok {row : Blob} :
    db.insertBlob row = .ok db' ↔
      db.blob? row.id = none ∧ db' = { db with blobs := db.blobs ++ [row] } := by
  rw [insertBlob, require_pure_eq_ok]
  simp only [Option.isNone_iff_eq_none]

theorem insertMessage_eq_ok {row : Message} :
    db.insertMessage row = .ok db' ↔
      (db.message? row.id = none ∧ db.messageByKey? row.ingestKey = none
          ∧ (db.blob? row.blobId).isSome
          ∧ ∀ account ∈ row.authenticatedAccountId, (db.account? account).isSome)
        ∧ db' = { db with messages := db.messages ++ [row] } := by
  rw [insertMessage, require_pure_eq_ok]
  simp only [Option.isNone_iff_eq_none]

theorem insertDelivery_eq_ok {row : Delivery} :
    db.insertDelivery row = .ok db' ↔
      (db.delivery? row.id = none
          ∧ Keyed.lookup (fun d => (d.messageId, d.recipient)) db.deliveries
            (row.messageId, row.recipient) = none
          ∧ (db.message? row.messageId).isSome)
        ∧ db' = { db with deliveries := db.deliveries ++ [row] } := by
  rw [insertDelivery, require_pure_eq_ok]
  simp only [Option.isNone_iff_eq_none]

theorem insertMailboxMessage_eq_ok {row : MailboxMessage} :
    db.insertMailboxMessage row = .ok db' ↔
      (Keyed.lookup (fun e => (e.mailboxId, e.uid)) db.mailboxMessages (row.mailboxId, row.uid) = none
          ∧ (∀ id ∈ row.deliveryId, ∀ e ∈ db.mailboxMessages, e.deliveryId ≠ some id)
          ∧ (Keyed.lookup Mailbox.id db.mailboxes row.mailboxId).isSome
          ∧ (db.message? row.messageId).isSome
          ∧ ∀ id ∈ row.deliveryId, (db.delivery? id).isSome)
        ∧ db' = { db with mailboxMessages := db.mailboxMessages ++ [row] } := by
  rw [insertMailboxMessage, require_pure_eq_ok]
  simp only [Option.isNone_iff_eq_none]

theorem insertMailboxEvent_eq_ok {row : MailboxEvent} :
    db.insertMailboxEvent row = .ok db' ↔
      (Keyed.lookup (fun e => (e.mailboxId, e.eventSeq)) db.mailboxEvents
            (row.mailboxId, row.eventSeq) = none
          ∧ (Keyed.lookup Mailbox.id db.mailboxes row.mailboxId).isSome)
        ∧ db' = { db with mailboxEvents := db.mailboxEvents ++ [row] } := by
  rw [insertMailboxEvent, require_pure_eq_ok]
  simp only [Option.isNone_iff_eq_none]

theorem insertNotification_eq_ok {row : Notification} :
    db.insertNotification row = .ok db' ↔
      (db.notification? row.deliveryId = none ∧ (db.delivery? row.deliveryId).isSome
          ∧ (db.message? row.reportMessageId).isSome)
        ∧ db' = { db with notifications := db.notifications ++ [row] } := by
  rw [insertNotification, require_pure_eq_ok]
  simp only [Option.isNone_iff_eq_none]

theorem insertQueueMessage_eq_ok {row : QueueMessage} :
    db.insertQueueMessage row = .ok db' ↔
      (db.queueMessage? row.messageId = none ∧ (db.message? row.messageId).isSome
          ∧ 1 ≤ row.maxAgeSeconds ∧ row.maxAgeSeconds ≤ 604800)
        ∧ db' = { db with queueMessages := db.queueMessages ++ [row] } := by
  rw [insertQueueMessage, require_pure_eq_ok]
  simp only [Option.isNone_iff_eq_none]

theorem insertQueueLease_eq_ok {row : QueueLeaseRow} :
    db.insertQueueLease row = .ok db' ↔
      (db.queueLease? row.deliveryId = none ∧ (db.delivery? row.deliveryId).isSome)
        ∧ db' = { db with queueLeases := db.queueLeases ++ [row] } := by
  rw [insertQueueLease, require_pure_eq_ok]
  simp only [Option.isNone_iff_eq_none]

theorem insertAdminEvent_eq_ok {row : AdminEvent} :
    db.insertAdminEvent row = .ok db' ↔
      (Keyed.lookup AdminEvent.id db.adminEvents row.id = none
          ∧ (db.delivery? row.deliveryId).isSome)
        ∧ db' = { db with adminEvents := db.adminEvents ++ [row] } := by
  rw [insertAdminEvent, require_pure_eq_ok]
  simp only [Option.isNone_iff_eq_none]

end Insertions

section Views

variable {id i : Text}

/-- The view of a delivery reads four tables only. -/
theorem view_congr (hdeliveries : db'.deliveries = db.deliveries)
    (hleases : db'.queueLeases = db.queueLeases) (hreports : db'.notifications = db.notifications)
    (hevents : db'.adminEvents = db.adminEvents) : db'.view id = db.view id := by
  simp [view, delivery?, queueLease?, notification?, hdeliveries, hleases, hreports, hevents]

theorem delivery_updateDelivery {f : Delivery → Delivery} (hid : ∀ row, (f row).id = row.id) :
    (db.updateDelivery i f).delivery? id =
      if id = i then (db.delivery? id).map f else db.delivery? id := by
  exact Keyed.lookup_modify hid

theorem view_updateDelivery {f : Delivery → Delivery} (hid : ∀ row, (f row).id = row.id) :
    (db.updateDelivery i f).view id =
      if id = i then { db.view id with row := (db.view id).row.map f } else db.view id := by
  have hrow : (db.updateDelivery i f).delivery? id =
      if id = i then (db.delivery? id).map f else db.delivery? id := delivery_updateDelivery hid
  unfold view
  rw [hrow]
  split_ifs <;> rfl

theorem view_deleteQueueLease :
    (db.deleteQueueLease i).view id =
      if id = i then { db.view id with phase := none } else db.view id := by
  have hlease : (db.deleteQueueLease i).queueLease? id = if id = i then none else db.queueLease? id :=
    Keyed.lookup_remove
  unfold view
  rw [hlease]
  split_ifs <;> rfl

theorem view_markBody :
    (db.updateQueueLease i QueueLeaseRow.markBody).view id =
      if id = i then { db.view id with phase := (db.view id).phase.map fun _ => .body }
      else db.view id := by
  have hlease : (db.updateQueueLease i QueueLeaseRow.markBody).queueLease? id =
      if id = i then (db.queueLease? id).map QueueLeaseRow.markBody else db.queueLease? id :=
    Keyed.lookup_modify fun _ => rfl
  unfold view
  rw [hlease]
  split_ifs with heq
  · cases hold : db.queueLease? id with
    | none => rfl
    | some row => rfl
  · rfl

theorem view_insertQueueLease {row : QueueLeaseRow} (h : db.insertQueueLease row = .ok db') :
    db'.view id =
      if id = row.deliveryId then { db.view id with phase := some row.phase } else db.view id := by
  obtain ⟨⟨hfresh, -⟩, rfl⟩ := insertQueueLease_eq_ok.1 h
  have hlease : Keyed.lookup QueueLeaseRow.deliveryId (db.queueLeases ++ [row]) id =
      if id = row.deliveryId then some row else db.queueLease? id :=
    Keyed.lookup_append_singleton hfresh
  simp only [view, queueLease?] at hlease ⊢
  rw [hlease]
  split_ifs <;> rfl

theorem view_insertDelivery {row : Delivery} (h : db.insertDelivery row = .ok db') :
    db'.view id = if id = row.id then { db.view id with row := some row } else db.view id := by
  obtain ⟨⟨hfresh, -⟩, rfl⟩ := insertDelivery_eq_ok.1 h
  have hrow : Keyed.lookup Delivery.id (db.deliveries ++ [row]) id =
      if id = row.id then some row else db.delivery? id :=
    Keyed.lookup_append_singleton hfresh
  simp only [view, delivery?] at hrow ⊢
  rw [hrow]
  split_ifs <;> rfl

theorem view_insertAdminEvent {row : AdminEvent} (h : db.insertAdminEvent row = .ok db') :
    db'.view id =
      if id = row.deliveryId then { db.view id with events := (db.view id).events ++ [row] }
      else db.view id := by
  obtain ⟨-, rfl⟩ := insertAdminEvent_eq_ok.1 h
  simp only [view, delivery?, queueLease?, notification?, List.filter_append]
  split_ifs with heq
  · simp [heq]
  · have hne : ¬ row.deliveryId = id := fun h => heq h.symm
    simp [hne]

theorem view_insertNotification {row : Notification} (h : db.insertNotification row = .ok db') :
    db'.view id =
      if id = row.deliveryId then { db.view id with report := some row } else db.view id := by
  obtain ⟨⟨hfresh, -⟩, rfl⟩ := insertNotification_eq_ok.1 h
  have hreport : Keyed.lookup Notification.deliveryId (db.notifications ++ [row]) id =
      if id = row.deliveryId then some row else db.notification? id :=
    Keyed.lookup_append_singleton hfresh
  simp only [view, notification?] at hreport ⊢
  rw [hreport]
  split_ifs <;> rfl

end Views

end Db

end Rustymail
