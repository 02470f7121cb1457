import Rustymail.Proof.Keys
import Mathlib.Data.List.Dedup

/-!
# What a message brings with it

The three intake transactions seen alike: each adds one blob, one message and the deliveries of that
message, all under keys that were free.
-/

namespace Rustymail

open Checked Loops

/-- A message and the rows written together with it. -/
structure Added where
  blob : Blob
  message : Message
  mailed : List Delivery
  relayed : List Delivery
  queued : Option QueueMessage
  report : Option Notification

structure Added.Wf (a : Added) : Prop where
  blob_eq : a.message.blobId = a.blob.id
  mailed : ∀ d ∈ a.mailed, d.messageId = a.message.id ∧ d.route = .localMail
  relayed : ∀ d ∈ a.relayed, d.messageId = a.message.id ∧ d.route = .relay
    ∧ ∃ address : Address, d.recipient = address.asStr
  queued : ∀ q ∈ a.queued, q.messageId = a.message.id
  queued_iff : a.queued.isSome ↔ a.relayed ≠ []
  sender : ∃ sender, a.message.reversePath = reversePathOf sender
  id_valid : validId a.message.id = true
  ids_valid : ∀ d ∈ a.mailed ++ a.relayed, validId d.id = true
  mailbox : ∀ d ∈ a.mailed, ∃ address : Address, d.recipient = address.localKey

/-- Where a message comes from, and what that says about its rows. -/
inductive Added.Origin (db : Db) (a : Added) : Prop
  | accepted (hkey : validId a.message.ingestKey = true) (hreport : a.report = none)
      (hsource : a.message.source
        = if a.message.authenticatedAccountId.isSome then .submission else .smtp)
      (hrelay : a.queued.isSome → a.message.authenticatedAccountId.isSome)
  | imported (hkey : validId a.message.ingestKey = true) (hreport : a.report = none)
      (hsource : a.message.source = .imported) (haccount : a.message.authenticatedAccountId = none)
      (hqueued : a.queued.isSome) (hmailed : a.mailed = [])
  | reported {id : Text} {now : Int} {recipient : Address} {row : Delivery} {failed : Message}
      (hkey : a.message.ingestKey = dsnKey id) (hsource : a.message.source = .dsn)
      (haccount : a.message.authenticatedAccountId = none)
      (hreport : a.report = some ⟨id, a.message.id, now⟩)
      (hrow : db.delivery? id = some row) (hroute : row.route = .relay)
      (hmessage : db.message? row.messageId = some failed) (hfailed : failed.source = .submission)
      (hauthor : failed.authenticatedAccountId.isSome = true)
      (hsender : failed.reversePath = recipient.asStr)
      (hmailed : ∀ d ∈ a.mailed, d.recipient = recipient.localKey)
      (hrelayed : ∀ d ∈ a.relayed, d.recipient = recipient.asStr)

/-- The second database is the first with these rows, apart from the life of deliveries. -/
structure Adds (db db' : Db) (a : Added) : Prop where
  blob_fresh : db.blob? a.blob.id = none
  message_fresh : db.message? a.message.id = none
  key_fresh : db.messageByKey? a.message.ingestKey = none
  blobs : db'.blobs = db.blobs ++ [a.blob]
  messages : db'.messages = db.messages ++ [a.message]
  deliveries : db'.deliveries.map Delivery.identity
    = (db.deliveries ++ (a.mailed ++ a.relayed)).map Delivery.identity
  queueMessages : db'.queueMessages = db.queueMessages ++ a.queued.toList
  notifications : db'.notifications = db.notifications ++ a.report.toList
  entries : ∃ entries, db'.mailboxMessages = db.mailboxMessages ++ entries
    ∧ entries.map (fun e => (e.deliveryId, e.messageId))
      = a.mailed.map fun d => (some d.id, d.messageId)

theorem mem_btreeSet {text : Text} {texts : List Text} : text ∈ btreeSet texts ↔ text ∈ texts := by
  unfold btreeSet
  rw [List.mem_insertionSort, List.mem_dedup]

theorem btreeSet_ne_nil {texts : List Text} (h : texts ≠ []) : btreeSet texts ≠ [] := by
  obtain ⟨text, hmem⟩ := List.exists_mem_of_ne_nil texts h
  exact List.ne_nil_of_mem (mem_btreeSet.2 hmem)

theorem mem_localRows {ids : Text → Uuid} {message : Text} {now : Int} {recipients : List Text}
    {d : Delivery} (h : d ∈ localRows ids message now recipients) :
    d.messageId = message ∧ d.route = .localMail ∧ d.recipient ∈ recipients := by
  obtain ⟨r, hr, rfl⟩ := List.mem_map.1 h
  exact ⟨rfl, rfl, hr⟩

theorem localRows_mailbox {ids : Text → Uuid} {message : Text} {now : Int} {plan : Acceptance}
    {d : Delivery} (h : d ∈ localRows ids message now (localKeys plan)) :
    ∃ address : Address, d.recipient = address.localKey := by
  obtain ⟨address, -, heq⟩ := List.mem_map.1 (mem_btreeSet.1 (mem_localRows h).2.2)
  exact ⟨address, heq.symm⟩

theorem localRows_valid {ids : Text → Uuid} {message : Text} {now : Int} {recipients : List Text}
    {d : Delivery} (h : d ∈ localRows ids message now recipients) : validId d.id = true := by
  obtain ⟨r, -, rfl⟩ := List.mem_map.1 h
  exact (ids r).valid

theorem mem_relayRows {ids : Text → Uuid} {message : Text} {now expires : Int}
    {recipients : List Text} {d : Delivery} (h : d ∈ relayRows ids message now expires recipients) :
    d.messageId = message ∧ d.route = .relay ∧ d.recipient ∈ recipients := by
  obtain ⟨r, hr, rfl⟩ := List.mem_map.1 h
  exact ⟨rfl, rfl, hr⟩

theorem relayRows_valid {ids : Text → Uuid} {message : Text} {now expires : Int}
    {recipients : List Text} {d : Delivery} (h : d ∈ relayRows ids message now expires recipients) :
    validId d.id = true := by
  obtain ⟨r, -, rfl⟩ := List.mem_map.1 h
  exact (ids r).valid

section Cases

variable {w : World} {db db' : Db}

theorem writeAcceptance_adds {i : Intake} {now : Int}
    (hvalid : validAcceptance w.store i.message i.plan i.relay)
    (hsubmission : i.relay.isSome → i.identity.isSome)
    (h : writeAcceptance i.ids i.message i.plan i.identity i.relay now db = .ok db') :
    ∃ a, a.Wf ∧ a.Origin db ∧ Adds db db' a := by
  obtain ⟨⟨hblob, hid, hkey⟩, delivered, hlocal, hrelay⟩ := writeAcceptance_eq_ok h
  obtain ⟨hsame, hdeliveries, entries, hentries, hshape⟩ := deliver_all hlocal
  have hmailed : ∀ d ∈ localRows i.ids.deliver i.ids.message.text now (localKeys i.plan),
      d.messageId = i.ids.message.text ∧ d.route = .localMail :=
    fun d hd => ⟨(mem_localRows hd).1, (mem_localRows hd).2.1⟩
  have hentries' : entries.map (fun e => (e.deliveryId, e.messageId))
      = (localRows i.ids.deliver i.ids.message.text now (localKeys i.plan)).map
        fun d => (some d.id, d.messageId) := by
    have hpairs := congrArg (List.map fun t => (t.1, t.2.1)) hshape
    simpa [localRows, localDelivery, Function.comp_def] using hpairs
  have haccount : i.relay.isSome → (accountOf i.identity).isSome := by
    intro hsome
    unfold accountOf
    rw [Option.isSome_map]
    exact hsubmission hsome
  rcases hrelay with ⟨hnone, rfl⟩ | ⟨r, hr, hinsert⟩
  · refine ⟨⟨i.message.blobRow now, acceptedRow i.ids i.message i.plan i.identity now,
      localRows i.ids.deliver i.ids.message.text now (localKeys i.plan), [], none, none⟩, ?_, ?_, ?_⟩
    · refine ⟨rfl, hmailed, by simp, by simp, by simp, ⟨i.plan.sender, rfl⟩, i.ids.message.valid, ?_,
        fun d hd => localRows_mailbox hd⟩
      intro d hd
      exact localRows_valid (by simpa using hd)
    · exact .accepted hvalid.2.1 rfl rfl (by simp)
    · refine ⟨hblob, hid, hkey, hsame.blobs, hsame.messages, ?_, ?_, ?_, entries, hentries, hentries'⟩
      · rw [hdeliveries, List.append_nil]
        rfl
      · exact hsame.queueMessages.trans (List.append_nil _).symm
      · exact hsame.notifications.trans (List.append_nil _).symm
  · obtain ⟨expires, -, rfl⟩ := insertRelay_all hinsert
    have hnonempty : remoteKeys (some r) ≠ [] := by
      have hrecipients := (hvalid.2.2.2.2 r hr).1
      exact btreeSet_ne_nil (by simpa using hrecipients)
    refine ⟨⟨i.message.blobRow now, acceptedRow i.ids i.message i.plan i.identity now,
      localRows i.ids.deliver i.ids.message.text now (localKeys i.plan),
      relayRows i.ids.relay i.ids.message.text now expires (remoteKeys (some r)),
      some ⟨i.ids.message.text, r.body, r.maxAgeSeconds⟩, none⟩, ?_, ?_, ?_⟩
    · refine ⟨rfl, hmailed, ?_, ?_, ?_, ⟨i.plan.sender, rfl⟩, i.ids.message.valid, ?_,
        fun d hd => localRows_mailbox hd⟩
      · intro d hd
        obtain ⟨hmessage, hroute, hrecipient⟩ := mem_relayRows hd
        obtain ⟨address, -, heq⟩ := List.mem_map.1 (mem_btreeSet.1 hrecipient)
        exact ⟨hmessage, hroute, address, heq.symm⟩
      · rintro q ⟨⟩
        rfl
      · simpa [relayRows] using hnonempty
      · intro d hd
        rcases List.mem_append.1 hd with hlocal | hrelay
        · exact localRows_valid hlocal
        · exact relayRows_valid hrelay
    · exact .accepted hvalid.2.1 rfl rfl fun _ => haccount (by simp [hr])
    · refine ⟨hblob, hid, hkey, hsame.blobs, hsame.messages, ?_, ?_, ?_, entries, hentries, hentries'⟩
      · dsimp only
        rw [hdeliveries, List.append_assoc]
        rfl
      · dsimp only
        rw [hsame.queueMessages]
        rfl
      · exact hsame.notifications.trans (List.append_nil _).symm

theorem writeEnqueue_adds {ids : FreshIds} {message : PreparedMessage} {plan : QueuePlan} {now : Int}
    (hvalid : validEnqueue w.store message plan)
    (h : writeEnqueue ids message plan now db = .ok db') :
    ∃ a, a.Wf ∧ a.Origin db ∧ Adds db db' a := by
  obtain ⟨⟨hblob, hid, hkey⟩, hinsert⟩ := writeEnqueue_eq_ok h
  obtain ⟨expires, -, rfl⟩ := insertRelay_all hinsert
  have hnonempty : queueKeys plan ≠ [] := btreeSet_ne_nil (by simpa using hvalid.2.2.1)
  refine ⟨⟨message.blobRow now, enqueuedRow ids message plan now, [],
    relayRows ids.relay ids.message.text now expires (queueKeys plan),
    some ⟨ids.message.text, plan.body, plan.maxAgeSeconds⟩, none⟩, ?_, ?_, ?_⟩
  · refine ⟨rfl, by simp, ?_, ?_, ?_, ⟨plan.sender, rfl⟩, ids.message.valid, ?_, by simp⟩
    · intro d hd
      obtain ⟨hmessage, hroute, hrecipient⟩ := mem_relayRows hd
      obtain ⟨address, -, heq⟩ := List.mem_map.1 (mem_btreeSet.1 hrecipient)
      exact ⟨hmessage, hroute, address, heq.symm⟩
    · rintro q ⟨⟩
      rfl
    · simpa [relayRows] using hnonempty
    · exact fun d hd => relayRows_valid hd
  · exact .imported hvalid.2.1 rfl rfl rfl rfl rfl
  · exact ⟨hblob, hid, hkey, rfl, rfl, rfl, rfl, by simp [Db.withMessage], [], by simp [Db.withMessage],
      rfl⟩

/-- A report is placed as one delivery, local or relayed. -/
theorem placeReport_eq_ok {delivery : Uuid} {plan : NotificationPlan} {size : Nat} {now : Int}
    (h : placeReport delivery plan size now db = .ok db') :
    (∃ account mailbox, db' = db.delivered account mailbox delivery plan.recipient.localKey
        plan.reportId.text size now)
      ∨ ∃ expires, db' = { db with
        queueMessages := db.queueMessages ++ [⟨plan.reportId.text, .sevenBit, plan.maxAgeSeconds⟩]
        deliveries := db.deliveries ++ relayRows (fun _ => delivery) plan.reportId.text now expires
          [plan.recipient.asStr] } := by
  unfold placeReport at h
  split_ifs at h
  · obtain ⟨account, mailbox, -, rfl⟩ := deliver_eq_ok h
    exact Or.inl ⟨account, mailbox, rfl⟩
  · obtain ⟨expires, -, rfl⟩ := insertRelay_all h
    exact Or.inr ⟨expires, rfl⟩

theorem writeReport_adds {prepared : PreparedNotification} {delivery : Uuid} {now : Int}
    (heligible : eligible db prepared.plan = true)
    (h : writeReport delivery prepared now db = .ok db') :
    ∃ a, a.Wf ∧ a.Origin db ∧ Adds db db' a := by
  obtain ⟨⟨hblob, hid, hkey⟩, placed, noted, hplaced, hnoted, rfl⟩ := writeReport_eq_ok h
  obtain ⟨row, message, hrow, ⟨-, hroute, -⟩, hmessage, hsource, hauthor, hsender⟩ :=
    eligible_eq_true heligible
  obtain ⟨-, rfl⟩ := Db.insertNotification_eq_ok.1 hnoted
  have hcreated : ∀ (rows : List Delivery) (id : Text),
      (Keyed.modify Delivery.id rows id Delivery.reportCreated).map Delivery.identity
        = rows.map Delivery.identity :=
    fun rows id => Keyed.map_modify fun _ => rfl
  rcases placeReport_eq_ok hplaced with ⟨account, mailbox, rfl⟩ | ⟨expires, rfl⟩
  · refine ⟨⟨prepared.message.blobRow now, reportRow prepared now,
      [localDelivery delivery prepared.plan.recipient.localKey
        (domainPart prepared.plan.recipient.localKey) prepared.plan.reportId.text now],
      [], none, some ⟨prepared.plan.deliveryId, prepared.plan.reportId.text, now⟩⟩, ?_, ?_, ?_⟩
    · refine ⟨rfl, ?_, by simp, by simp, by simp, ⟨none, rfl⟩, prepared.plan.reportId.valid, ?_, ?_⟩
      · intro d hd
        obtain rfl := List.mem_singleton.1 hd
        exact ⟨rfl, rfl⟩
      · intro d hd
        obtain rfl := List.mem_singleton.1 hd
        exact delivery.valid
      · intro d hd
        obtain rfl := List.mem_singleton.1 hd
        exact ⟨prepared.plan.recipient, rfl⟩
    · refine .reported rfl rfl rfl rfl hrow hroute hmessage hsource hauthor hsender ?_ (by simp)
      intro d hd
      obtain rfl := List.mem_singleton.1 hd
      rfl
    · exact ⟨hblob, hid, hkey, rfl, rfl, hcreated _ _, (List.append_nil _).symm, rfl, _, rfl, rfl⟩
  · refine ⟨⟨prepared.message.blobRow now, reportRow prepared now, [],
      relayRows (fun _ => delivery) prepared.plan.reportId.text now expires
        [prepared.plan.recipient.asStr],
      some ⟨prepared.plan.reportId.text, .sevenBit, prepared.plan.maxAgeSeconds⟩,
      some ⟨prepared.plan.deliveryId, prepared.plan.reportId.text, now⟩⟩, ?_, ?_, ?_⟩
    · refine ⟨rfl, by simp, ?_, ?_, by simp [relayRows], ⟨none, rfl⟩,
        prepared.plan.reportId.valid, fun d hd => relayRows_valid hd, by simp⟩
      · intro d hd
        obtain ⟨hmessage, hroute, hrecipient⟩ := mem_relayRows hd
        exact ⟨hmessage, hroute, prepared.plan.recipient, List.mem_singleton.1 hrecipient⟩
      · rintro q ⟨⟩
        rfl
    · refine .reported rfl rfl rfl rfl hrow hroute hmessage hsource hauthor hsender (by simp) ?_
      intro d hd
      exact List.mem_singleton.1 (mem_relayRows hd).2.2
    · exact ⟨hblob, hid, hkey, rfl, rfl, hcreated _ _, rfl, rfl, [], (List.append_nil _).symm, rfl⟩

theorem Brings.adds {op : Op} (h : Brings w op db db') : ∃ a, a.Wf ∧ a.Origin db ∧ Adds db db' a := by
  cases h with
  | acceptance hop hvalid hauth hnew htx =>
      exact writeAcceptance_adds hvalid (Op.intake?_submission hop) htx
  | enqueued hop hvalid hnew htx => exact writeEnqueue_adds hvalid htx
  | report hop hnew heligible htx => exact writeReport_adds heligible htx

end Cases

end Rustymail
