import Rustymail.Proof.Tables

/-!
# What the intake transactions write

The rows that a local delivery, a relay delivery, a whole acceptance, an enqueued message and a
failure report add, as one description of the database afterwards.
-/

namespace Rustymail

open Checked Loops

/-- Everything after the last `@`. -/
def domainPart (recipient : Text) : Text := ((rsplitOnce 64 recipient).map Prod.snd).getD []

section Deliver

variable {delivery : Uuid} {recipient message : Text} {size : Nat} {now : Int} {db db' : Db}

theorem target_eq_ok {t : Target} :
    target db recipient size = .ok t ↔ ∃ account mailbox,
      targetRow db recipient = some (account, mailbox)
        ∧ (mailbox.uidnext ≤ u32Max ∧ mailbox.eventSeq ≠ i64Max)
        ∧ (account.usedBytes + size ≤ account.quotaBytes ∧ account.usedBytes + size ≤ i64Max)
        ∧ t = ⟨account.id, mailbox.id, mailbox.uidnext, mailbox.eventSeq⟩ := by
  unfold target
  simp only [bind_eq_ok, found_eq_ok, require_eq_ok, pure_eq_ok]
  constructor
  · rintro ⟨⟨account, mailbox⟩, hrow, ⟨⟩, hcounters, ⟨⟩, hquota, rfl⟩
    exact ⟨account, mailbox, hrow, hcounters, hquota, rfl⟩
  · rintro ⟨account, mailbox, hrow, hcounters, hquota, rfl⟩
    exact ⟨(account, mailbox), hrow, (), hcounters, (), hquota, rfl⟩

/-- The database after one local delivery into the given mailbox of the given account. -/
def Db.delivered (db : Db) (account : Account) (mailbox : Mailbox) (delivery : Uuid)
    (recipient message : Text) (size : Nat) (now : Int) : Db :=
  { db with
    deliveries := db.deliveries ++
      [localDelivery delivery recipient (domainPart recipient) message now]
    mailboxMessages := db.mailboxMessages ++
      [⟨mailbox.id, mailbox.uidnext, message, some delivery.text, now⟩]
    mailboxes := Keyed.modify Mailbox.id db.mailboxes mailbox.id Mailbox.advance
    mailboxEvents := db.mailboxEvents ++
      [⟨mailbox.id, mailbox.eventSeq + 1, some mailbox.uidnext, now⟩]
    accounts := Keyed.modify Account.id db.accounts account.id fun row =>
      { row with usedBytes := row.usedBytes + size } }

/-- What a local delivery found when it was written. -/
structure Deliverable (db : Db) (account : Account) (mailbox : Mailbox) (delivery : Uuid)
    (recipient message : Text) (size : Nat) : Prop where
  row : targetRow db recipient = some (account, mailbox)
  uid_le : mailbox.uidnext ≤ u32Max
  event_ne : mailbox.eventSeq ≠ i64Max
  quota_le : account.usedBytes + size ≤ account.quotaBytes
  used_le : account.usedBytes + size ≤ i64Max
  domain : (rsplitOnce 64 recipient).isSome
  fresh : db.delivery? delivery.text = none
  fresh_recipient : Keyed.lookup (fun d => (d.messageId, d.recipient)) db.deliveries
    (message, recipient) = none
  message : (db.message? message).isSome

theorem deliver_eq_ok (h : deliver delivery recipient message size now db = .ok db') :
    ∃ account mailbox, Deliverable db account mailbox delivery recipient message size
      ∧ db' = db.delivered account mailbox delivery recipient message size now := by
  unfold deliver at h
  rw [bind_eq_ok] at h
  obtain ⟨t, htarget, h⟩ := h
  obtain ⟨account, mailbox, hrow, hcounters, hquota, rfl⟩ := target_eq_ok.1 htarget
  simp only [bind_eq_ok, found_eq_ok, pure_eq_ok] at h
  obtain ⟨⟨localPart, domain⟩, hsplit, db₁, hdelivery, db₂, hentry, db₃, hevent, rfl⟩ := h
  obtain ⟨⟨hfresh, hrecipient, hmessage⟩, rfl⟩ := Db.insertDelivery_eq_ok.1 hdelivery
  obtain ⟨-, rfl⟩ := Db.insertMailboxMessage_eq_ok.1 hentry
  obtain ⟨-, rfl⟩ := Db.insertMailboxEvent_eq_ok.1 hevent
  have hdomain : domainPart recipient = domain := by
    simp [domainPart, hsplit]
  refine ⟨account, mailbox, ⟨hrow, hcounters.1, hcounters.2, hquota.1, hquota.2, ?_, hfresh,
    hrecipient, hmessage⟩, ?_⟩
  · simp [hsplit]
  · simp [Db.delivered, hdomain, Db.updateMailbox, Db.updateAccount]

theorem insertRelayDelivery_eq_ok {ids : Text → Uuid} {expires : Int}
    (h : insertRelayDelivery ids message now expires db recipient = .ok db') :
    (rsplitOnce 64 recipient).isSome
      ∧ db.insertDelivery
        (relayDelivery (ids recipient) recipient (domainPart recipient) message now expires)
          = .ok db' := by
  unfold insertRelayDelivery at h
  simp only [bind_eq_ok, found_eq_ok] at h
  obtain ⟨⟨localPart, domain⟩, hsplit, hinsert⟩ := h
  have hdomain : domainPart recipient = domain := by
    simp [domainPart, hsplit]
  rw [hdomain]
  exact ⟨by simp [hsplit], hinsert⟩

end Deliver

/-! ### Several recipients -/

/-- The local deliveries a message adds, one per recipient. -/
def localRows (ids : Text → Uuid) (message : Text) (now : Int) (recipients : List Text) :
    List Delivery :=
  recipients.map fun r => localDelivery (ids r) r (domainPart r) message now

/-- The relay deliveries a message adds, one per recipient. -/
def relayRows (ids : Text → Uuid) (message : Text) (now expires : Int) (recipients : List Text) :
    List Delivery :=
  recipients.map fun r => relayDelivery (ids r) r (domainPart r) message now expires

/-- The tables that local deliveries leave alone. -/
structure SameBesideMail (db db' : Db) : Prop where
  credentials : db'.credentials = db.credentials
  addresses : db'.addresses = db.addresses
  blobs : db'.blobs = db.blobs
  messages : db'.messages = db.messages
  notifications : db'.notifications = db.notifications
  queueMessages : db'.queueMessages = db.queueMessages
  queueLeases : db'.queueLeases = db.queueLeases
  adminEvents : db'.adminEvents = db.adminEvents

theorem SameBesideMail.refl (db : Db) : SameBesideMail db db :=
  ⟨rfl, rfl, rfl, rfl, rfl, rfl, rfl, rfl⟩

theorem SameBesideMail.trans {a b c : Db} (h : SameBesideMail a b) (h' : SameBesideMail b c) :
    SameBesideMail a c where
  credentials := h'.credentials.trans h.credentials
  addresses := h'.addresses.trans h.addresses
  blobs := h'.blobs.trans h.blobs
  messages := h'.messages.trans h.messages
  notifications := h'.notifications.trans h.notifications
  queueMessages := h'.queueMessages.trans h.queueMessages
  queueLeases := h'.queueLeases.trans h.queueLeases
  adminEvents := h'.adminEvents.trans h.adminEvents

theorem SameBesideMail.delivered (db : Db) (account : Account) (mailbox : Mailbox) (delivery : Uuid)
    (recipient message : Text) (size : Nat) (now : Int) :
    SameBesideMail db (db.delivered account mailbox delivery recipient message size now) :=
  ⟨rfl, rfl, rfl, rfl, rfl, rfl, rfl, rfl⟩

theorem deliver_all {ids : Text → Uuid} {message : Text} {size : Nat} {now : Int}
    {recipients : List Text} {db db' : Db}
    (h : recipients.foldlM
      (fun db r => deliver (ids r) r message size now db) db = .ok db') :
    SameBesideMail db db'
      ∧ db'.deliveries = db.deliveries ++ localRows ids message now recipients
      ∧ ∃ entries : List MailboxMessage, db'.mailboxMessages = db.mailboxMessages ++ entries
        ∧ entries.map (fun e => (e.deliveryId, e.messageId, e.internaldateMs))
          = recipients.map fun r => (some (ids r).text, message, now) := by
  induction recipients generalizing db with
  | nil =>
      rw [List.foldlM_nil, pure_eq_ok] at h
      subst h
      exact ⟨.refl db, by simp [localRows], [], by simp, rfl⟩
  | cons r rest ih =>
      rw [List.foldlM_cons, bind_eq_ok] at h
      obtain ⟨middle, hfirst, hrest⟩ := h
      obtain ⟨account, mailbox, -, rfl⟩ := deliver_eq_ok hfirst
      obtain ⟨hsame, hdeliveries, entries, hentries, hshape⟩ := ih hrest
      refine ⟨(SameBesideMail.delivered _ _ _ _ _ _ _ _).trans hsame, ?_,
        ⟨mailbox.id, mailbox.uidnext, message, some (ids r).text, now⟩ :: entries, ?_, ?_⟩
      · rw [hdeliveries]
        simp [Db.delivered, localRows]
      · rw [hentries]
        simp [Db.delivered]
      · simp [hshape]

theorem insertRelayDelivery_all {ids : Text → Uuid} {message : Text} {now expires : Int}
    {recipients : List Text} {db db' : Db}
    (h : recipients.foldlM (insertRelayDelivery ids message now expires) db = .ok db') :
    db' = { db with
      deliveries := db.deliveries ++ relayRows ids message now expires recipients } := by
  induction recipients generalizing db with
  | nil =>
      rw [List.foldlM_nil, pure_eq_ok] at h
      subst h
      simp [relayRows]
  | cons r rest ih =>
      rw [List.foldlM_cons, bind_eq_ok] at h
      obtain ⟨middle, hfirst, hrest⟩ := h
      obtain ⟨-, hinsert⟩ := insertRelayDelivery_eq_ok hfirst
      obtain ⟨-, rfl⟩ := Db.insertDelivery_eq_ok.1 hinsert
      rw [ih hrest]
      simp [relayRows]

theorem insertRelay_eq_ok {ids : Text → Uuid} {message : Text} {recipients : List Text}
    {body : QueueBody} {age : Nat} {now : Int} {db db' : Db}
    (h : insertRelay ids message recipients body age now db = .ok db') :
    ∃ expires queued, later now (age * 1000) = .ok expires
      ∧ db.insertQueueMessage ⟨message, body, age⟩ = .ok queued
      ∧ recipients.foldlM (insertRelayDelivery ids message now expires) queued = .ok db' := by
  unfold insertRelay at h
  simp only [bind_eq_ok] at h
  obtain ⟨expires, hexpires, queued, hqueued, hrest⟩ := h
  exact ⟨expires, queued, hexpires, hqueued, hrest⟩

theorem insertRelay_all {ids : Text → Uuid} {message : Text} {recipients : List Text}
    {body : QueueBody} {age : Nat} {now : Int} {db db' : Db}
    (h : insertRelay ids message recipients body age now db = .ok db') :
    ∃ expires, later now (age * 1000) = .ok expires ∧ db' = { db with
      queueMessages := db.queueMessages ++ [⟨message, body, age⟩]
      deliveries := db.deliveries ++ relayRows ids message now expires recipients } := by
  obtain ⟨expires, queued, hexpires, hqueued, hrest⟩ := insertRelay_eq_ok h
  obtain ⟨-, rfl⟩ := Db.insertQueueMessage_eq_ok.1 hqueued
  exact ⟨expires, hexpires, insertRelayDelivery_all hrest⟩

/-! ### Whole messages -/

/-- The database with one more message and its blob. -/
def Db.withMessage (db : Db) (blob : Blob) (message : Message) : Db :=
  { db with blobs := db.blobs ++ [blob], messages := db.messages ++ [message] }

theorem storeMessage_eq_ok {blob : Blob} {message : Message} {db db' : Db}
    (hblob : message.blobId = blob.id) :
    storeMessage blob message db = .ok db' ↔
      (db.blob? blob.id = none ∧ db.message? message.id = none
          ∧ db.messageByKey? message.ingestKey = none
          ∧ ∀ account ∈ message.authenticatedAccountId, (db.account? account).isSome)
        ∧ db' = db.withMessage blob message := by
  unfold storeMessage
  simp only [bind_eq_ok, Db.insertBlob_eq_ok, Db.insertMessage_eq_ok]
  constructor
  · rintro ⟨_, ⟨hfresh, rfl⟩, ⟨hid, hkey, -, haccount⟩, rfl⟩
    exact ⟨⟨hfresh, hid, hkey, haccount⟩, rfl⟩
  · rintro ⟨⟨hfresh, hid, hkey, haccount⟩, rfl⟩
    refine ⟨_, ⟨hfresh, rfl⟩, ⟨hid, hkey, ?_, haccount⟩, rfl⟩
    rw [hblob]
    change (Keyed.lookup Blob.id (db.blobs ++ [blob]) blob.id).isSome
    rw [Keyed.lookup_append_singleton hfresh, if_pos rfl]
    rfl

theorem writeAcceptance_eq_ok {ids : FreshIds} {message : PreparedMessage} {plan : Acceptance}
    {identity : Option SubmissionIdentity} {relay : Option RelayAcceptance} {now : Int} {db db' : Db}
    (h : writeAcceptance ids message plan identity relay now db = .ok db') :
    (db.blob? message.id.text = none ∧ db.message? ids.message.text = none
        ∧ db.messageByKey? plan.operationId = none)
      ∧ ∃ delivered, (localKeys plan).foldlM
          (fun db r => deliver (ids.deliver r) r ids.message.text message.size now db)
          (db.withMessage (message.blobRow now) (acceptedRow ids message plan identity now))
            = .ok delivered
        ∧ ((relay = none ∧ db' = delivered) ∨ ∃ r, relay = some r
          ∧ insertRelay ids.relay ids.message.text (remoteKeys (some r)) r.body r.maxAgeSeconds now
            delivered = .ok db') := by
  unfold writeAcceptance at h
  simp only [bind_eq_ok] at h
  obtain ⟨stored, hstored, delivered, hlocal, h⟩ := h
  obtain ⟨⟨hblob, hid, hkey, -⟩, rfl⟩ := (storeMessage_eq_ok rfl).1 hstored
  refine ⟨⟨hblob, hid, hkey⟩, delivered, hlocal, ?_⟩
  cases relay with
  | none =>
      rw [pure_eq_ok] at h
      exact Or.inl ⟨rfl, h.symm⟩
  | some relay => exact Or.inr ⟨relay, rfl, h⟩

theorem writeEnqueue_eq_ok {ids : FreshIds} {message : PreparedMessage} {plan : QueuePlan}
    {now : Int} {db db' : Db} (h : writeEnqueue ids message plan now db = .ok db') :
    (db.blob? message.id.text = none ∧ db.message? ids.message.text = none
        ∧ db.messageByKey? plan.operationId = none)
      ∧ insertRelay ids.relay ids.message.text (queueKeys plan) plan.body plan.maxAgeSeconds now
        (db.withMessage (message.blobRow now) (enqueuedRow ids message plan now)) = .ok db' := by
  unfold writeEnqueue at h
  simp only [bind_eq_ok] at h
  obtain ⟨stored, hstored, h⟩ := h
  obtain ⟨⟨hblob, hid, hkey, -⟩, rfl⟩ := (storeMessage_eq_ok rfl).1 hstored
  exact ⟨⟨hblob, hid, hkey⟩, h⟩

theorem writeReport_eq_ok {delivery : Uuid} {prepared : PreparedNotification} {now : Int}
    {db db' : Db} (h : writeReport delivery prepared now db = .ok db') :
    (db.blob? prepared.message.id.text = none ∧ db.message? prepared.plan.reportId.text = none
        ∧ db.messageByKey? (dsnKey prepared.plan.deliveryId) = none)
      ∧ ∃ placed noted, placeReport delivery prepared.plan prepared.message.size now
          (db.withMessage (prepared.message.blobRow now) (reportRow prepared now)) = .ok placed
        ∧ placed.insertNotification
          ⟨prepared.plan.deliveryId, prepared.plan.reportId.text, now⟩ = .ok noted
        ∧ db' = noted.updateDelivery prepared.plan.deliveryId Delivery.reportCreated := by
  unfold writeReport at h
  simp only [bind_eq_ok, pure_eq_ok] at h
  obtain ⟨stored, hstored, placed, hplaced, noted, hnoted, rfl⟩ := h
  obtain ⟨⟨hblob, hid, hkey, -⟩, rfl⟩ := (storeMessage_eq_ok rfl).1 hstored
  exact ⟨⟨hblob, hid, hkey⟩, placed, noted, hplaced, hnoted, rfl⟩

end Rustymail
