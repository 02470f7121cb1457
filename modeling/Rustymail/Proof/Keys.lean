import Rustymail.Proof.Frames

/-!
# Keys

The primary and unique keys of the mail tables stay unique, because every insertion checks them and
no rewrite touches a key column.
-/

namespace Rustymail

open Checked Loops

/-- The keys of the mail tables are unique. -/
structure Db.Keys (db : Db) : Prop where
  blobs : Keyed.Unique Blob.id db.blobs
  messages : Keyed.Unique Message.id db.messages
  ingestKeys : Keyed.Unique Message.ingestKey db.messages
  deliveries : Keyed.Unique Delivery.id db.deliveries
  recipients : Keyed.Unique (fun d => (d.messageId, d.recipient)) db.deliveries
  notifications : Keyed.Unique Notification.deliveryId db.notifications
  queueMessages : Keyed.Unique QueueMessage.messageId db.queueMessages

variable {db db' : Db}

theorem Db.Keys.empty : Db.Keys {} where
  blobs := List.nodup_nil
  messages := List.nodup_nil
  ingestKeys := List.nodup_nil
  deliveries := List.nodup_nil
  recipients := List.nodup_nil
  notifications := List.nodup_nil
  queueMessages := List.nodup_nil

/-- A key made from the identity of a delivery is as unique after a queue operation as before. -/
theorem SameContent.unique (h : SameContent db db') {κ : Type} (f : Text × Text × Text × Route → κ)
    (hunique : Keyed.Unique (fun d : Delivery => f d.identity) db.deliveries) :
    Keyed.Unique (fun d : Delivery => f d.identity) db'.deliveries := by
  have hmap := congrArg (List.map f) h.deliveries
  rw [List.map_map, List.map_map] at hmap
  unfold Keyed.Unique at *
  change (List.map (f ∘ Delivery.identity) db'.deliveries).Nodup
  rw [hmap]
  exact hunique

theorem SameContent.keys (h : SameContent db db') (hkeys : db.Keys) : db'.Keys where
  blobs := h.blobs ▸ hkeys.blobs
  messages := h.messages ▸ hkeys.messages
  ingestKeys := h.messages ▸ hkeys.ingestKeys
  deliveries := h.unique (fun i => i.1) hkeys.deliveries
  recipients := h.unique (fun i => (i.2.1, i.2.2.1)) hkeys.recipients
  notifications := h.notifications ▸ hkeys.notifications
  queueMessages := h.queueMessages ▸ hkeys.queueMessages

theorem SameMail.keys (h : SameMail db db') (hkeys : db.Keys) : db'.Keys where
  blobs := h.blobs ▸ hkeys.blobs
  messages := h.messages ▸ hkeys.messages
  ingestKeys := h.messages ▸ hkeys.ingestKeys
  deliveries := h.deliveries ▸ hkeys.deliveries
  recipients := h.deliveries ▸ hkeys.recipients
  notifications := h.notifications ▸ hkeys.notifications
  queueMessages := h.queueMessages ▸ hkeys.queueMessages

theorem Db.Keys.withMessage (hkeys : db.Keys) (blob : Blob) (message : Message)
    (hblob : db.blob? blob.id = none) (hid : db.message? message.id = none)
    (hkey : db.messageByKey? message.ingestKey = none) : (db.withMessage blob message).Keys where
  blobs := Keyed.unique_append_singleton hkeys.blobs hblob
  messages := Keyed.unique_append_singleton hkeys.messages hid
  ingestKeys := Keyed.unique_append_singleton hkeys.ingestKeys hkey
  deliveries := hkeys.deliveries
  recipients := hkeys.recipients
  notifications := hkeys.notifications
  queueMessages := hkeys.queueMessages

theorem Db.Keys.insertDelivery (hkeys : db.Keys) {row : Delivery}
    (h : db.insertDelivery row = .ok db') : db'.Keys := by
  obtain ⟨⟨hid, hrecipient, -⟩, rfl⟩ := Db.insertDelivery_eq_ok.1 h
  exact
    { hkeys with
      deliveries := Keyed.unique_append_singleton hkeys.deliveries hid
      recipients := Keyed.unique_append_singleton hkeys.recipients hrecipient }

theorem Db.Keys.deliver (hkeys : db.Keys) {delivery : Uuid} {recipient message : Text} {size : Nat}
    {now : Int} (h : deliver delivery recipient message size now db = .ok db') : db'.Keys := by
  obtain ⟨account, mailbox, hfound, rfl⟩ := deliver_eq_ok h
  have hinsert := hkeys.insertDelivery
    (Db.insertDelivery_eq_ok.2 ⟨⟨hfound.fresh, hfound.fresh_recipient, hfound.message⟩, rfl⟩ :
      db.insertDelivery (localDelivery delivery recipient (domainPart recipient) message now) = .ok _)
  exact
    { blobs := hinsert.blobs
      messages := hinsert.messages
      ingestKeys := hinsert.ingestKeys
      deliveries := hinsert.deliveries
      recipients := hinsert.recipients
      notifications := hinsert.notifications
      queueMessages := hinsert.queueMessages }

theorem Db.Keys.insertRelay (hkeys : db.Keys) {ids : Text → Uuid} {message : Text}
    {recipients : List Text} {body : QueueBody} {age : Nat} {now : Int}
    (h : insertRelay ids message recipients body age now db = .ok db') : db'.Keys := by
  obtain ⟨expires, queued, -, hqueued, hloop⟩ := insertRelay_eq_ok h
  have hfirst : queued.Keys := by
    obtain ⟨⟨hfresh, -⟩, rfl⟩ := Db.insertQueueMessage_eq_ok.1 hqueued
    exact { hkeys with queueMessages := Keyed.unique_append_singleton hkeys.queueMessages hfresh }
  refine (sweep_foldlM hloop).keeps Db.Keys ?_ hfirst
  intro s recipient t _ hround hs
  obtain ⟨-, hinsert⟩ := insertRelayDelivery_eq_ok hround
  exact hs.insertDelivery hinsert

theorem Brings.keys {w : World} {op : Op} (h : Brings w op db db') (hkeys : db.Keys) : db'.Keys := by
  cases h with
  | @acceptance i now hop hvalid hauth hnew htx =>
      obtain ⟨⟨hblob, hid, hkey⟩, delivered, hlocal, hrelay⟩ := writeAcceptance_eq_ok htx
      have hstored := hkeys.withMessage (i.message.blobRow now)
        (acceptedRow i.ids i.message i.plan i.identity now) hblob hid hkey
      have hdelivered : delivered.Keys := by
        refine (sweep_foldlM hlocal).keeps Db.Keys ?_ hstored
        intro s recipient t _ hround hs
        exact hs.deliver hround
      rcases hrelay with ⟨-, rfl⟩ | ⟨r, -, hrelay⟩
      · exact hdelivered
      · exact hdelivered.insertRelay hrelay
  | @enqueued ids message plan now hop hvalid hnew htx =>
      obtain ⟨⟨hblob, hid, hkey⟩, hrelay⟩ := writeEnqueue_eq_ok htx
      exact (hkeys.withMessage (message.blobRow now)
        (enqueuedRow ids message plan now) hblob hid hkey).insertRelay hrelay
  | @report prepared delivery now hop hnew heligible htx =>
      obtain ⟨⟨hblob, hid, hkey⟩, placed, noted, hplaced, hnoted, rfl⟩ := writeReport_eq_ok htx
      have hstored := hkeys.withMessage (prepared.message.blobRow now)
        (reportRow prepared now) hblob hid hkey
      have hfirst : placed.Keys := by
        unfold placeReport at hplaced
        split_ifs at hplaced
        · exact hstored.deliver hplaced
        · exact hstored.insertRelay hplaced
      have hsecond : noted.Keys := by
        obtain ⟨⟨hfresh, -⟩, rfl⟩ := Db.insertNotification_eq_ok.1 hnoted
        exact
          { hfirst with
            notifications := Keyed.unique_append_singleton hfirst.notifications hfresh }
      refine SameContent.keys (.updateDelivery prepared.plan.deliveryId ?_) hsecond
      intro row
      rfl

theorem Commits.keys {w : World} {op : Op} (h : Commits w op db db') (hkeys : db.Keys) :
    db'.Keys := by
  rcases h.cases_content with hcontent | ⟨hmail, -⟩ | hbrings
  · exact hcontent.keys hkeys
  · exact hmail.keys hkeys
  · exact hbrings.keys hkeys

theorem World.Reachable.keys {w : World} (h : w.Reachable) : w.store.db.Keys :=
  h.of_commits Db.Keys Db.Keys.empty fun _ _ _ _ => Commits.keys

theorem CommitsAll.keys {w : World} {op : Op} (h : CommitsAll w op db db') (hkeys : db.Keys) :
    db'.Keys := by
  induction h with
  | refl => exact hkeys
  | tail _ hlast ih => exact hlast.keys ih

theorem World.next_keys {w : World} (hkeys : w.store.db.Keys) (op : Op) :
    (w.next op).store.db.Keys :=
  (w.next_commits op).keys hkeys

/-- The operation renews the lease of this delivery. -/
def World.Renews (w : World) (op : Op) (id : Text) : Prop :=
  ∃ serial seconds reading faults lease, op = .queueRenew serial seconds reading faults
    ∧ w.lease? serial = some lease ∧ lease.id = id

/-- What an operation performs on a delivery; it extends a lease only for the lease's holder. -/
def Touches (w : World) (op : Op) (id : Text) (e : LifeEvent) : Prop :=
  Performs w op id e ∧ ∀ deadline, e = .renewed deadline → w.Renews op id

/-- The same, and a delivery that it creates goes to the domain of its recipient. -/
def Addresses (w : World) (op : Op) (id : Text) (e : LifeEvent) : Prop :=
  Touches w op id e ∧ ∀ row, e = .created row → row.destinationDomain = domainPart row.recipient

theorem addresses_created {w : World} {op : Op} {id : Text} {row : Delivery}
    (hdomain : row.destinationDomain = domainPart row.recipient) :
    Addresses w op id (.created row) := by
  refine ⟨⟨trivial, fun _ h => by cases h⟩, ?_⟩
  rintro _ ⟨⟩
  exact hdomain

/-- Every commit takes each delivery through events its operation may perform. -/
theorem Commits.addresses {w : World} {op : Op} (h : Commits w op db db') (hkeys : db.Keys)
    (id : Text) : Lifecycle.Evolves (Addresses w op id) (db.view id) (db'.view id) := by
  cases h with
  | createAccount hquota htx =>
      rw [(createAccountTx_mail htx).view]
      exact .refl _
  | setAccountQuota hbytes haccount hused => exact .refl _
  | finishAuthentication htx =>
      rw [(finishAuthenticationTx_mail htx).view]
      exact .refl _
  | createCredential htx =>
      obtain ⟨-, rfl⟩ := Db.insertCredential_eq_ok.1 htx
      exact .refl _
  | revokeCredential htx =>
      rw [(revokeCredentialTx_mail htx).view]
      exact .refl _
  | disableAccount htx =>
      rw [(disableAccountTx_mail htx).view]
      exact .refl _
  | setSendAs htx =>
      rw [(setSendAsTx_mail htx).view]
      exact .refl _
  | insertAlias htx =>
      rw [(insertAddress_mail htx).view]
      exact .refl _
  | acceptance hop hvalid hauth hnew htx =>
      exact writeAcceptance_evolves (fun _ _ => addresses_created) htx
  | enqueue hvalid hnew htx =>
      exact writeEnqueue_evolves (fun _ _ => addresses_created) htx
  | expire hop htx =>
      exact expireTx_evolves hkeys.deliveries htx
        ⟨⟨hop, fun _ h => by cases h⟩, fun _ h => by cases h⟩
  | recover hop htx =>
      refine recoverTx_evolves hkeys.deliveries htx ?_
      intro next _ hfree
      exact ⟨⟨⟨hop, hfree⟩, fun _ h => by cases h⟩, fun _ h => by cases h⟩
  | claim htx =>
      refine claimTx_evolves hkeys.deliveries htx ?_
        ⟨⟨⟨_, _, _, _, _, rfl⟩, fun _ h => by cases h⟩, fun _ h => by cases h⟩
      intro token deadline _
      exact ⟨⟨⟨_, _, _, _, _, rfl⟩, fun _ h => by cases h⟩, fun _ h => by cases h⟩
  | renew hlease htx =>
      refine renewTx_evolves htx ?_
      intro deadline _ hid
      exact ⟨⟨trivial, fun _ _ => ⟨_, _, _, _, _, rfl, hlease, hid.symm⟩⟩, fun _ h => by cases h⟩
  | markBody hlease htx =>
      refine markBodyTx_evolves htx ?_
      intro hid
      exact ⟨⟨⟨_, _, _, rfl, hlease, hid.symm⟩, fun _ h => by cases h⟩, fun _ h => by cases h⟩
  | finish hlease htx =>
      refine finishTx_evolves htx ?_
      intro hid
      exact ⟨⟨⟨_, _, _, _, _, rfl, hlease, hid.symm⟩, fun _ h => by cases h⟩, fun _ h => by cases h⟩
  | hold htx =>
      refine holdTx_evolves htx ?_
      rintro rfl
      exact ⟨⟨⟨_, _, rfl⟩, fun _ h => by cases h⟩, fun _ h => by cases h⟩
  | retry htx =>
      refine retryTx_evolves htx ?_
      rintro row queued expires - - - rfl
      exact ⟨⟨⟨_, _, rfl⟩, fun _ h => by cases h⟩, fun _ h => by cases h⟩
  | closeUnknown htx =>
      refine closeUnknownTx_evolves htx ?_
      rintro now rfl
      exact ⟨⟨⟨_, _, _, rfl⟩, fun _ h => by cases h⟩, fun _ h => by cases h⟩
  | suppress hdue hreason =>
      exact suppress_evolves hkeys.deliveries hdue
        ⟨⟨trivial, fun _ h => by cases h⟩, fun _ h => by cases h⟩
  | postpone => exact postpone_evolves ⟨⟨trivial, fun _ h => by cases h⟩, fun _ h => by cases h⟩
  | report hnew heligible htx =>
      refine writeReport_evolves (fun _ _ => addresses_created) hnew heligible htx ?_
      intro _ _ hid
      exact ⟨⟨⟨_, _, _, _, rfl, hid⟩, fun _ h => by cases h⟩, fun _ h => by cases h⟩

theorem Commits.touches {w : World} {op : Op} (h : Commits w op db db') (hkeys : db.Keys)
    (id : Text) : Lifecycle.Evolves (Touches w op id) (db.view id) (db'.view id) :=
  (h.addresses hkeys id).mono fun _ => And.left

theorem Commits.evolves {w : World} {op : Op} (h : Commits w op db db') (hkeys : db.Keys)
    (id : Text) : Lifecycle.Evolves (Performs w op id) (db.view id) (db'.view id) :=
  (h.touches hkeys id).mono fun _ => And.left

theorem CommitsAll.touches {w : World} {op : Op} (h : CommitsAll w op db db') (hkeys : db.Keys)
    (id : Text) : Lifecycle.Evolves (Touches w op id) (db.view id) (db'.view id) := by
  induction h with
  | refl => exact .refl _
  | tail hfirst hlast ih => exact ih.trans (hlast.touches (CommitsAll.keys hfirst hkeys) id)

theorem CommitsAll.evolves {w : World} {op : Op} (h : CommitsAll w op db db') (hkeys : db.Keys)
    (id : Text) : Lifecycle.Evolves (Performs w op id) (db.view id) (db'.view id) :=
  (h.touches hkeys id).mono fun _ => And.left

/-- **Refinement.** Each operation takes each delivery through events it may perform. -/
theorem World.next_evolves {w : World} (hkeys : w.store.db.Keys) (op : Op) (id : Text) :
    Lifecycle.Evolves (Performs w op id) (w.store.db.view id) ((w.next op).store.db.view id) :=
  (w.next_commits op).evolves hkeys id

/-- The representation invariant holds of every delivery in every reachable world. -/
theorem World.Reachable.view_wf {w : World} (h : w.Reachable) (id : Text) :
    (w.store.db.view id).Wf := by
  suffices hboth : w.store.db.Keys ∧ (w.store.db.view id).Wf from hboth.2
  refine h.of_commits (fun db => db.Keys ∧ (db.view id).Wf) ⟨Db.Keys.empty, .init []⟩ ?_
  rintro w op db db' hcommit ⟨hkeys, hwf⟩
  refine ⟨hcommit.keys hkeys, (hcommit.evolves hkeys id).keeps View.Wf ?_ hwf⟩
  intro e v v' _ hstep
  exact hstep.wf

end Rustymail
