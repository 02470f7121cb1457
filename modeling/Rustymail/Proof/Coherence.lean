import Rustymail.Proof.Additions

/-!
# References between the tables

Every message has its blob, every delivery its message, every relayed delivery its queue row and
every queue row a relayed delivery; addresses in relayed deliveries and senders are such that they
parse. Rows are only ever added together with what they refer to.
-/

namespace Rustymail

open Checked

/-- The two databases differ at most in accounts and in the life of deliveries. -/
structure SameRefs (db db' : Db) : Prop where
  blobs : db'.blobs = db.blobs
  messages : db'.messages = db.messages
  deliveries : db'.deliveries.map Delivery.identity = db.deliveries.map Delivery.identity
  mailboxMessages : db'.mailboxMessages = db.mailboxMessages
  notifications : db'.notifications = db.notifications
  queueMessages : db'.queueMessages = db.queueMessages

/-- The references between the mail tables hold, and stored addresses parse. -/
structure Db.Coherent (db : Db) : Prop where
  message_blob : ∀ m ∈ db.messages, (db.blob? m.blobId).isSome
  delivery_message : ∀ d ∈ db.deliveries, (db.message? d.messageId).isSome
  relay_queued : ∀ d ∈ db.deliveries, d.route = .relay → (db.queueMessage? d.messageId).isSome
  queued_relay : ∀ q ∈ db.queueMessages, ∃ d ∈ db.deliveries,
    d.messageId = q.messageId ∧ d.route = .relay
  recipient : ∀ d ∈ db.deliveries, d.route = .relay → ∃ address : Address, d.recipient = address.asStr
  sender : ∀ m ∈ db.messages, ∃ sender, m.reversePath = reversePathOf sender
  entry : ∀ e ∈ db.mailboxMessages, ∃ d ∈ db.deliveries, e.deliveryId = some d.id
    ∧ d.messageId = e.messageId ∧ d.route = .localMail
  mailbox : ∀ d ∈ db.deliveries, d.route = .localMail →
    ∃ address : Address, d.recipient = address.localKey

variable {w : World} {op : Op} {db db' : Db} {a : Added}

theorem Delivery.identity_eq_iff {d d' : Delivery} : d.identity = d'.identity ↔
    d.id = d'.id ∧ d.messageId = d'.messageId ∧ d.recipient = d'.recipient ∧ d.route = d'.route := by
  simp [Delivery.identity]

theorem SameContent.refs (h : SameContent db db') : SameRefs db db' :=
  ⟨h.blobs, h.messages, h.deliveries, h.mailboxMessages, h.notifications, h.queueMessages⟩

theorem SameMail.refs (h : SameMail db db') : SameRefs db db' :=
  ⟨h.blobs, h.messages, by rw [h.deliveries], h.mailboxMessages, h.notifications, h.queueMessages⟩

theorem Commits.cases_adds (h : Commits w op db db') :
    SameRefs db db' ∨ ∃ a, a.Wf ∧ a.Origin db ∧ Adds db db' a := by
  rcases h.cases_content with hcontent | ⟨hmail, -⟩ | hbrings
  · exact Or.inl hcontent.refs
  · exact Or.inl hmail.refs
  · exact Or.inr hbrings.adds

section SameRefs

theorem exists_same_identity {rows rows' : List Delivery} {d : Delivery}
    (h : rows'.map Delivery.identity = rows.map Delivery.identity) (hd : d ∈ rows') :
    ∃ d' ∈ rows, d'.identity = d.identity := by
  have hmem := List.mem_map_of_mem (f := Delivery.identity) hd
  rw [h] at hmem
  exact List.mem_map.1 hmem

theorem SameRefs.coherent (h : SameRefs db db') (hw : db.Coherent) : db'.Coherent := by
  have hold : ∀ d ∈ db'.deliveries, ∃ d' ∈ db.deliveries, d'.messageId = d.messageId
      ∧ d'.recipient = d.recipient ∧ d'.route = d.route := by
    intro d hd
    obtain ⟨d', hd', hsame⟩ := exists_same_identity h.deliveries hd
    exact ⟨d', hd', (Delivery.identity_eq_iff.1 hsame).2⟩
  constructor
  · rw [h.messages]
    unfold Db.blob?
    rw [h.blobs]
    exact hw.message_blob
  · intro d hd
    obtain ⟨d', hd', hmessage, -⟩ := hold d hd
    unfold Db.message?
    rw [h.messages, ← hmessage]
    exact hw.delivery_message d' hd'
  · intro d hd hroute
    obtain ⟨d', hd', hmessage, -, hroute'⟩ := hold d hd
    unfold Db.queueMessage?
    rw [h.queueMessages, ← hmessage]
    exact hw.relay_queued d' hd' (hroute'.trans hroute)
  · rw [h.queueMessages]
    intro q hq
    obtain ⟨d, hd, hmessage, hroute⟩ := hw.queued_relay q hq
    obtain ⟨d', hd', hsame⟩ := exists_same_identity h.deliveries.symm hd
    obtain ⟨-, hmessage', -, hroute'⟩ := Delivery.identity_eq_iff.1 hsame
    exact ⟨d', hd', hmessage'.trans hmessage, hroute'.trans hroute⟩
  · intro d hd hroute
    obtain ⟨d', hd', -, hrecipient, hroute'⟩ := hold d hd
    rw [← hrecipient]
    exact hw.recipient d' hd' (hroute'.trans hroute)
  · rw [h.messages]
    exact hw.sender
  · rw [h.mailboxMessages]
    intro e he
    obtain ⟨d, hd, hid, hmessage, hroute⟩ := hw.entry e he
    obtain ⟨d', hd', hsame⟩ := exists_same_identity h.deliveries.symm hd
    obtain ⟨hid', hmessage', -, hroute'⟩ := Delivery.identity_eq_iff.1 hsame
    exact ⟨d', hd', by rw [hid, hid'], hmessage'.trans hmessage, hroute'.trans hroute⟩
  · intro d hd hroute
    obtain ⟨d', hd', -, hrecipient, hroute'⟩ := hold d hd
    rw [← hrecipient]
    exact hw.mailbox d' hd' (hroute'.trans hroute)

end SameRefs

namespace Adds

theorem message_old (h : Adds db db' a) {id : Text} {m : Message} (hm : db.message? id = some m) :
    db'.message? id = some m := by
  unfold Db.message?
  rw [h.messages]
  exact Keyed.lookup_append_of_some hm _

theorem message_new (h : Adds db db' a) : db'.message? a.message.id = some a.message := by
  unfold Db.message?
  rw [h.messages, Keyed.lookup_append_singleton h.message_fresh, if_pos rfl]

theorem blob_old (h : Adds db db' a) {id : Text} {b : Blob} (hb : db.blob? id = some b) :
    db'.blob? id = some b := by
  unfold Db.blob?
  rw [h.blobs]
  exact Keyed.lookup_append_of_some hb _

theorem blob_new (h : Adds db db' a) : db'.blob? a.blob.id = some a.blob := by
  unfold Db.blob?
  rw [h.blobs, Keyed.lookup_append_singleton h.blob_fresh, if_pos rfl]

theorem queueMessage_old (h : Adds db db' a) {id : Text} {q : QueueMessage}
    (hq : db.queueMessage? id = some q) : db'.queueMessage? id = some q := by
  unfold Db.queueMessage?
  rw [h.queueMessages]
  exact Keyed.lookup_append_of_some hq _

/-- A delivery is an old one or one of the added ones. -/
theorem mem_deliveries (h : Adds db db' a) {d : Delivery} (hd : d ∈ db'.deliveries) :
    (∃ d' ∈ db.deliveries, d'.identity = d.identity)
      ∨ (∃ d' ∈ a.mailed, d'.identity = d.identity) ∨ ∃ d' ∈ a.relayed, d'.identity = d.identity := by
  obtain ⟨d', hd', hsame⟩ := exists_same_identity h.deliveries hd
  rw [List.mem_append, List.mem_append] at hd'
  rcases hd' with hold | hmailed | hrelayed
  · exact Or.inl ⟨d', hold, hsame⟩
  · exact Or.inr (Or.inl ⟨d', hmailed, hsame⟩)
  · exact Or.inr (Or.inr ⟨d', hrelayed, hsame⟩)

theorem exists_delivery (h : Adds db db' a) {d : Delivery}
    (hd : d ∈ db.deliveries ∨ d ∈ a.mailed ∨ d ∈ a.relayed) :
    ∃ d' ∈ db'.deliveries, d'.identity = d.identity := by
  refine exists_same_identity h.deliveries.symm ?_
  rw [List.mem_append, List.mem_append]
  exact hd

theorem coherent (h : Adds db db' a) (ha : a.Wf) (hw : db.Coherent) : db'.Coherent := by
  constructor
  · intro m hm
    rw [h.messages, List.mem_append, List.mem_singleton] at hm
    rcases hm with hold | rfl
    · obtain ⟨b, hb⟩ := Option.isSome_iff_exists.1 (hw.message_blob m hold)
      rw [h.blob_old hb]
      rfl
    · rw [ha.blob_eq, h.blob_new]
      rfl
  · intro d hd
    rcases h.mem_deliveries hd with ⟨d', hd', hsame⟩ | ⟨d', hd', hsame⟩ | ⟨d', hd', hsame⟩
    · obtain ⟨m, hm⟩ := Option.isSome_iff_exists.1 (hw.delivery_message d' hd')
      rw [← (Delivery.identity_eq_iff.1 hsame).2.1, h.message_old hm]
      rfl
    · rw [← (Delivery.identity_eq_iff.1 hsame).2.1, (ha.mailed d' hd').1, h.message_new]
      rfl
    · rw [← (Delivery.identity_eq_iff.1 hsame).2.1, (ha.relayed d' hd').1, h.message_new]
      rfl
  · intro d hd hroute
    rcases h.mem_deliveries hd with ⟨d', hd', hsame⟩ | ⟨d', hd', hsame⟩ | ⟨d', hd', hsame⟩
    all_goals obtain ⟨-, hmessage, -, hroute'⟩ := Delivery.identity_eq_iff.1 hsame
    · obtain ⟨q, hq⟩ := Option.isSome_iff_exists.1 (hw.relay_queued d' hd' (hroute'.trans hroute))
      rw [← hmessage, h.queueMessage_old hq]
      rfl
    · have hlocal := (ha.mailed d' hd').2
      rw [hroute', hroute] at hlocal
      cases hlocal
    · obtain ⟨q, hq⟩ := Option.isSome_iff_exists.1 (ha.queued_iff.2 (List.ne_nil_of_mem hd'))
      rw [← hmessage, (ha.relayed d' hd').1]
      refine Keyed.lookup_isSome_iff.2 ⟨q, ?_, ha.queued q hq⟩
      rw [h.queueMessages, hq]
      exact List.mem_append_right _ List.mem_cons_self
  · intro q hq
    rw [h.queueMessages, List.mem_append] at hq
    rcases hq with hold | hnew
    · obtain ⟨d, hd, hmessage, hroute⟩ := hw.queued_relay q hold
      obtain ⟨d', hd', hsame⟩ := h.exists_delivery (Or.inl hd)
      obtain ⟨-, hmessage', -, hroute'⟩ := Delivery.identity_eq_iff.1 hsame
      exact ⟨d', hd', hmessage'.trans hmessage, hroute'.trans hroute⟩
    · have hqueued := Option.mem_toList.1 hnew
      obtain ⟨d, hd⟩ := List.exists_mem_of_ne_nil _ (ha.queued_iff.1 (Option.isSome_of_mem hqueued))
      obtain ⟨d', hd', hsame⟩ := h.exists_delivery (Or.inr (Or.inr hd))
      obtain ⟨-, hmessage', -, hroute'⟩ := Delivery.identity_eq_iff.1 hsame
      obtain ⟨hmessage, hroute, -⟩ := ha.relayed d hd
      exact ⟨d', hd', by rw [hmessage', hmessage, ha.queued q hqueued], hroute'.trans hroute⟩
  · intro d hd hroute
    rcases h.mem_deliveries hd with ⟨d', hd', hsame⟩ | ⟨d', hd', hsame⟩ | ⟨d', hd', hsame⟩
    all_goals obtain ⟨-, -, hrecipient, hroute'⟩ := Delivery.identity_eq_iff.1 hsame
    · rw [← hrecipient]
      exact hw.recipient d' hd' (hroute'.trans hroute)
    · have hlocal := (ha.mailed d' hd').2
      rw [hroute', hroute] at hlocal
      cases hlocal
    · rw [← hrecipient]
      exact (ha.relayed d' hd').2.2
  · intro m hm
    rw [h.messages, List.mem_append, List.mem_singleton] at hm
    rcases hm with hold | rfl
    · exact hw.sender m hold
    · exact ha.sender
  · intro e he
    obtain ⟨entries, happended, hshape⟩ := h.entries
    rw [happended, List.mem_append] at he
    rcases he with hold | hnew
    · obtain ⟨d, hd, hid, hmessage, hroute⟩ := hw.entry e hold
      obtain ⟨d', hd', hsame⟩ := h.exists_delivery (Or.inl hd)
      obtain ⟨hid', hmessage', -, hroute'⟩ := Delivery.identity_eq_iff.1 hsame
      exact ⟨d', hd', by rw [hid, hid'], hmessage'.trans hmessage, hroute'.trans hroute⟩
    · have hpair := List.mem_map_of_mem (f := fun e : MailboxMessage => (e.deliveryId, e.messageId))
        hnew
      rw [hshape, List.mem_map] at hpair
      obtain ⟨d, hd, heq⟩ := hpair
      obtain ⟨d', hd', hsame⟩ := h.exists_delivery (Or.inr (Or.inl hd))
      obtain ⟨hid', hmessage', -, hroute'⟩ := Delivery.identity_eq_iff.1 hsame
      simp only [Prod.mk.injEq] at heq
      exact ⟨d', hd', by rw [← heq.1, hid'], hmessage'.trans heq.2,
        hroute'.trans (ha.mailed d hd).2⟩
  · intro d hd hroute
    rcases h.mem_deliveries hd with ⟨d', hd', hsame⟩ | ⟨d', hd', hsame⟩ | ⟨d', hd', hsame⟩
    all_goals obtain ⟨-, -, hrecipient, hroute'⟩ := Delivery.identity_eq_iff.1 hsame
    · rw [← hrecipient]
      exact hw.mailbox d' hd' (hroute'.trans hroute)
    · rw [← hrecipient]
      exact ha.mailbox d' hd'
    · have hrelay := (ha.relayed d' hd').2.1
      rw [hroute', hroute] at hrelay
      cases hrelay

end Adds

theorem Db.Coherent.empty : Db.Coherent {} := by
  constructor <;> simp

theorem Commits.coherent (h : Commits w op db db') (hw : db.Coherent) : db'.Coherent := by
  rcases h.cases_adds with hsame | ⟨a, ha, -, hadds⟩
  · exact hsame.coherent hw
  · exact hadds.coherent ha hw

theorem World.Reachable.coherent (h : w.Reachable) : w.store.db.Coherent :=
  h.of_commits Db.Coherent Db.Coherent.empty fun _ _ _ _ => Commits.coherent

end Rustymail
