import Rustymail.Proof.Refinement

/-!
# Frames

The operations of the queue change the life of deliveries and nothing else; the operations on
accounts leave all mail alone. What depends on neither is kept by both, and only the three intake
transactions remain to be looked at.
-/

namespace Rustymail

open Checked Loops

/-- The columns of a delivery that are written once. -/
def Delivery.identity (row : Delivery) : Text × Text × Text × Route :=
  (row.id, row.messageId, row.recipient, row.route)

/-- The two databases differ at most in the life of their deliveries. -/
structure SameContent (db db' : Db) : Prop where
  accounts : db'.accounts = db.accounts
  credentials : db'.credentials = db.credentials
  addresses : db'.addresses = db.addresses
  mailboxes : db'.mailboxes = db.mailboxes
  blobs : db'.blobs = db.blobs
  messages : db'.messages = db.messages
  deliveries : db'.deliveries.map Delivery.identity = db.deliveries.map Delivery.identity
  mailboxMessages : db'.mailboxMessages = db.mailboxMessages
  mailboxEvents : db'.mailboxEvents = db.mailboxEvents
  notifications : db'.notifications = db.notifications
  queueMessages : db'.queueMessages = db.queueMessages

/-- The two databases hold the same mail. -/
structure SameMail (db db' : Db) : Prop where
  blobs : db'.blobs = db.blobs
  messages : db'.messages = db.messages
  deliveries : db'.deliveries = db.deliveries
  mailboxMessages : db'.mailboxMessages = db.mailboxMessages
  mailboxEvents : db'.mailboxEvents = db.mailboxEvents
  notifications : db'.notifications = db.notifications
  queueMessages : db'.queueMessages = db.queueMessages
  queueLeases : db'.queueLeases = db.queueLeases
  adminEvents : db'.adminEvents = db.adminEvents

/-- The columns of an account that the books are about. -/
def Account.balance (row : Account) : Nat × Text × Nat × Nat :=
  (row.id, row.login, row.usedBytes, row.quotaBytes)

/-- The two databases differ in nothing the books are about. -/
structure SameBooks (db db' : Db) : Prop where
  accounts : db'.accounts.map Account.balance = db.accounts.map Account.balance
  mailboxes : db'.mailboxes = db.mailboxes
  mailboxMessages : db'.mailboxMessages = db.mailboxMessages
  mailboxEvents : db'.mailboxEvents = db.mailboxEvents
  messages : db'.messages = db.messages
  blobs : db'.blobs = db.blobs

section SameContent

variable {db db' : Db}

theorem SameContent.refl (db : Db) : SameContent db db :=
  ⟨rfl, rfl, rfl, rfl, rfl, rfl, rfl, rfl, rfl, rfl, rfl⟩

theorem SameContent.trans {a b c : Db} (h : SameContent a b) (h' : SameContent b c) :
    SameContent a c where
  accounts := h'.accounts.trans h.accounts
  credentials := h'.credentials.trans h.credentials
  addresses := h'.addresses.trans h.addresses
  mailboxes := h'.mailboxes.trans h.mailboxes
  blobs := h'.blobs.trans h.blobs
  messages := h'.messages.trans h.messages
  deliveries := h'.deliveries.trans h.deliveries
  mailboxMessages := h'.mailboxMessages.trans h.mailboxMessages
  mailboxEvents := h'.mailboxEvents.trans h.mailboxEvents
  notifications := h'.notifications.trans h.notifications
  queueMessages := h'.queueMessages.trans h.queueMessages

theorem SameContent.updateDelivery (id : Text) {f : Delivery → Delivery}
    (hf : ∀ row, (f row).identity = row.identity) : SameContent db (db.updateDelivery id f) where
  accounts := rfl
  credentials := rfl
  addresses := rfl
  mailboxes := rfl
  blobs := rfl
  messages := rfl
  deliveries := Keyed.map_modify hf
  mailboxMessages := rfl
  mailboxEvents := rfl
  notifications := rfl
  queueMessages := rfl

theorem SameContent.deleteQueueLease (id : Text) : SameContent db (db.deleteQueueLease id) :=
  ⟨rfl, rfl, rfl, rfl, rfl, rfl, rfl, rfl, rfl, rfl, rfl⟩

theorem SameContent.updateQueueLease (id : Text) (f : QueueLeaseRow → QueueLeaseRow) :
    SameContent db (db.updateQueueLease id f) :=
  ⟨rfl, rfl, rfl, rfl, rfl, rfl, rfl, rfl, rfl, rfl, rfl⟩

theorem SameContent.insertQueueLease {row : QueueLeaseRow} (h : db.insertQueueLease row = .ok db') :
    SameContent db db' := by
  obtain ⟨-, rfl⟩ := Db.insertQueueLease_eq_ok.1 h
  exact ⟨rfl, rfl, rfl, rfl, rfl, rfl, rfl, rfl, rfl, rfl, rfl⟩

theorem SameContent.adminEvent {id : Text} {action : AdminAction} {old new : DeliveryState}
    {note : Text} {duplicate extend : Bool} {now : Int}
    (h : adminEvent db id action old new note duplicate extend now = .ok db') :
    SameContent db db' := by
  obtain ⟨-, rfl⟩ := Db.insertAdminEvent_eq_ok.1 h
  exact ⟨rfl, rfl, rfl, rfl, rfl, rfl, rfl, rfl, rfl, rfl, rfl⟩

theorem suppress_identity (row : Delivery) (reason : String) :
    (row.suppress reason).identity = row.identity := by
  unfold Delivery.suppress
  split_ifs <;> rfl

theorem postponeReport_identity (row : Delivery) (reason : String) (due : Int) :
    (row.postponeReport reason due).identity = row.identity := by
  unfold Delivery.postponeReport
  split_ifs <;> rfl

theorem expireTx_content {now : Int} {limit count : Nat}
    (h : expireTx now limit db = .ok (db', count)) : SameContent db db' := by
  unfold expireTx at h
  simp only [Except.ok.injEq, Prod.mk.injEq] at h
  obtain ⟨rfl, -⟩ := h
  refine (sweep_foldl (ε := StoreError) (fun db id => Db.updateDelivery db id (Delivery.expire now))
    db (expiredIds now limit db)).relates SameContent .refl (fun _ _ _ => .trans) ?_
  rintro s id t - ⟨⟩
  exact .updateDelivery id fun _ => rfl

theorem recoverTx_content {active : List (Text × LeaseGuard)} {now : Int} {limit : Nat}
    {cursor : Text} {result : Nat × List (Text × Bool)}
    (h : recoverTx active now limit cursor db = .ok (db', result)) : SameContent db db' := by
  unfold recoverTx at h
  simp only [bind_eq_ok, pure_eq_ok, Prod.mk.injEq] at h
  obtain ⟨⟨written, recovered⟩, hloop, rfl, -⟩ := h
  refine (sweep_foldlM hloop).relates (fun s t => SameContent s.1 t.1) (fun s => .refl s.1)
    (fun _ _ _ => .trans) ?_
  intro s row t _ hround
  unfold recoverRow at hround
  split_ifs at hround
  · cases hround
    exact .refl s.1
  · simp only [bind_eq_ok, pure_eq_ok] at hround
    obtain ⟨next, -, rfl⟩ := hround
    refine SameContent.trans (.updateDelivery row.1 ?_) (.deleteQueueLease row.1)
    intro row
    rfl

theorem ClaimRound.content {ctx : ClaimContext} {c : Delivery} {p p' : ClaimProgress}
    (h : ClaimRound ctx c p p') : SameContent p.db p'.db := by
  cases h with
  | skipped => exact .refl p.db
  | exhausted => exact .updateDelivery c.id fun _ => rfl
  | granted hfree hparse hdomain hjoin hinsert =>
      refine SameContent.trans (.updateDelivery c.id ?_) (.insertQueueLease hinsert)
      intro row
      rfl

theorem claimTx_content {ctx : ClaimContext} {cursor : Int × Text} {domains : List Text}
    {result : ClaimProgress × List Delivery}
    (h : claimTx ctx cursor domains db = .ok (db', result)) : SameContent db db' := by
  obtain ⟨progress, rows⟩ := result
  obtain ⟨hsweep, rfl⟩ := claimTx_eq_ok h
  refine hsweep.relates (fun s t => SameContent s.db t.db) (fun s => .refl s.db)
    (fun _ _ _ => .trans) ?_
  intro s c t _ hround
  exact (claimOne_round hround).content

theorem renewTx_content {lease : QueueLease} {lock seconds : Nat} {now : Int}
    (h : renewTx lease lock now seconds db = .ok (db', ())) : SameContent db db' := by
  unfold renewTx at h
  simp only [bind_eq_ok, pure_eq_ok, Prod.mk.injEq, and_true] at h
  obtain ⟨phase, -, deadline, -, rfl⟩ := h
  exact .updateDelivery lease.id fun _ => rfl

theorem markBodyTx_content {lease : QueueLease} {lock : Nat}
    (h : markBodyTx lease lock db = .ok (db', ())) : SameContent db db' := by
  unfold markBodyTx at h
  simp only [bind_eq_ok, pure_eq_ok, Prod.mk.injEq, and_true] at h
  obtain ⟨phase, -, rfl⟩ := h
  exact .updateQueueLease lease.id _

theorem finishTx_content {lease : QueueLease} {lock : Nat} {outcome : QueueResult} {now due : Int}
    (h : finishTx lease lock outcome now due db = .ok (db', ())) : SameContent db db' := by
  unfold finishTx at h
  simp only [bind_eq_ok, pure_eq_ok, Prod.mk.injEq, and_true] at h
  obtain ⟨phase, -, row, -, result, -, rfl⟩ := h
  refine SameContent.trans (.updateDelivery lease.id ?_) (.deleteQueueLease lease.id)
  intro row
  rfl

theorem holdTx_content {id : Text} {now : Int} (h : holdTx id now db = .ok (db', ())) :
    SameContent db db' := by
  unfold holdTx at h
  simp only [bind_eq_ok, pure_eq_ok, Prod.mk.injEq, and_true] at h
  obtain ⟨row, -, ⟨⟩, -, written, hevent, rfl⟩ := h
  refine SameContent.trans (.updateDelivery id ?_) (.adminEvent hevent)
  intro row
  rfl

theorem retryTx_content {id : Text} {allowDuplicate extendExpired : Bool} {now : Int}
    (h : retryTx id allowDuplicate extendExpired now db = .ok (db', ())) : SameContent db db' := by
  unfold retryTx at h
  simp only [bind_eq_ok, pure_eq_ok, Prod.mk.injEq, and_true] at h
  obtain ⟨row, -, queued, -, ⟨⟩, -, expires, -, written, hevent, rfl⟩ := h
  refine SameContent.trans (.updateDelivery id ?_) (.adminEvent hevent)
  intro row
  rfl

theorem closeUnknownTx_content {id note : Text} {now : Int}
    (h : closeUnknownTx id note now db = .ok (db', ())) : SameContent db db' := by
  unfold closeUnknownTx at h
  simp only [bind_eq_ok, pure_eq_ok, Prod.mk.injEq, and_true] at h
  obtain ⟨row, -, ⟨⟩, -, written, hevent, rfl⟩ := h
  refine SameContent.trans (.updateDelivery id ?_) (.adminEvent hevent)
  intro row
  rfl

end SameContent

section SameMail

variable {db db' : Db}

theorem SameMail.refl (db : Db) : SameMail db db := ⟨rfl, rfl, rfl, rfl, rfl, rfl, rfl, rfl, rfl⟩

theorem SameMail.trans {a b c : Db} (h : SameMail a b) (h' : SameMail b c) : SameMail a c where
  blobs := h'.blobs.trans h.blobs
  messages := h'.messages.trans h.messages
  deliveries := h'.deliveries.trans h.deliveries
  mailboxMessages := h'.mailboxMessages.trans h.mailboxMessages
  mailboxEvents := h'.mailboxEvents.trans h.mailboxEvents
  notifications := h'.notifications.trans h.notifications
  queueMessages := h'.queueMessages.trans h.queueMessages
  queueLeases := h'.queueLeases.trans h.queueLeases
  adminEvents := h'.adminEvents.trans h.adminEvents

theorem SameMail.view (h : SameMail db db') (id : Text) : db'.view id = db.view id :=
  Db.view_congr h.deliveries h.queueLeases h.notifications h.adminEvents

theorem insertAddress_mail {row : AddressRow} (h : db.insertAddress row = .ok db') :
    SameMail db db' := by
  obtain ⟨-, rfl⟩ := Db.insertAddress_eq_ok.1 h
  exact ⟨rfl, rfl, rfl, rfl, rfl, rfl, rfl, rfl, rfl⟩

theorem createAccountTx_mail {address : Address} {quotaBytes : Nat} {now : Int}
    {uidvalidity : Text → Nat}
    (h : createAccountTx address quotaBytes now uidvalidity db = .ok (db', ())) :
    SameMail db db' := by
  unfold createAccountTx at h
  simp only [bind_eq_ok, pure_eq_ok, Prod.mk.injEq, and_true] at h
  obtain ⟨db₁, haccount, db₂, haddress, db₃, hloop, rfl⟩ := h
  have hfirst : SameMail db db₁ := by
    obtain ⟨-, rfl⟩ := Db.insertAccount_eq_ok.1 haccount
    exact ⟨rfl, rfl, rfl, rfl, rfl, rfl, rfl, rfl, rfl⟩
  refine (hfirst.trans (insertAddress_mail haddress)).trans ?_
  refine (sweep_foldlM hloop).relates SameMail .refl (fun _ _ _ => .trans) ?_
  intro s name t _ hround
  obtain ⟨-, rfl⟩ := Db.insertMailbox_eq_ok.1 hround
  exact ⟨rfl, rfl, rfl, rfl, rfl, rfl, rfl, rfl, rfl⟩

theorem finishAuthenticationTx_mail {principal : Principal} {now : Int}
    (h : finishAuthenticationTx principal now db = .ok (db', ())) : SameMail db db' := by
  unfold finishAuthenticationTx at h
  simp only [bind_eq_ok, pure_eq_ok, Prod.mk.injEq, and_true] at h
  obtain ⟨⟨⟩, -, rfl⟩ := h
  exact ⟨rfl, rfl, rfl, rfl, rfl, rfl, rfl, rfl, rfl⟩

theorem revokeCredentialTx_mail {selector : Text} {now : Int} {account : Nat}
    (h : revokeCredentialTx selector now db = .ok (db', account)) : SameMail db db' := by
  unfold revokeCredentialTx at h
  simp only [bind_eq_ok, pure_eq_ok, Prod.mk.injEq] at h
  obtain ⟨credential, -, rfl, -⟩ := h
  exact ⟨rfl, rfl, rfl, rfl, rfl, rfl, rfl, rfl, rfl⟩

theorem disableAccountTx_mail {login : Address} {now : Int} {account : Nat}
    (h : disableAccountTx login now db = .ok (db', account)) : SameMail db db' := by
  unfold disableAccountTx at h
  simp only [bind_eq_ok, pure_eq_ok, Prod.mk.injEq] at h
  obtain ⟨row, -, rfl, -⟩ := h
  exact ⟨rfl, rfl, rfl, rfl, rfl, rfl, rfl, rfl, rfl⟩

theorem upsertSendAs_mail {address : Text} {accountId : Nat} {enabled : Bool}
    (h : upsertSendAs db address accountId enabled = .ok db') : SameMail db db' := by
  unfold upsertSendAs at h
  split at h
  · cases h
    exact ⟨rfl, rfl, rfl, rfl, rfl, rfl, rfl, rfl, rfl⟩
  · exact insertAddress_mail h

theorem setSendAsTx_mail {login address : Address} {enabled : Bool} {account : Nat}
    (h : setSendAsTx login address enabled db = .ok (db', account)) : SameMail db db' := by
  unfold setSendAsTx at h
  simp only [bind_eq_ok, pure_eq_ok, Prod.mk.injEq] at h
  obtain ⟨row, -, ⟨⟩, -, ⟨⟩, -, upserted, hupsert, rfl, -⟩ := h
  exact (upsertSendAs_mail hupsert).trans ⟨rfl, rfl, rfl, rfl, rfl, rfl, rfl, rfl, rfl⟩

end SameMail

section SameBooks

variable {db db' : Db}

theorem SameBooks.trans {a b c : Db} (h : SameBooks a b) (h' : SameBooks b c) : SameBooks a c where
  accounts := h'.accounts.trans h.accounts
  mailboxes := h'.mailboxes.trans h.mailboxes
  mailboxMessages := h'.mailboxMessages.trans h.mailboxMessages
  mailboxEvents := h'.mailboxEvents.trans h.mailboxEvents
  messages := h'.messages.trans h.messages
  blobs := h'.blobs.trans h.blobs

theorem SameBooks.insertAddress {row : AddressRow} (h : db.insertAddress row = .ok db') :
    SameBooks db db' := by
  obtain ⟨-, rfl⟩ := Db.insertAddress_eq_ok.1 h
  exact ⟨rfl, rfl, rfl, rfl, rfl, rfl⟩

theorem SameBooks.updateAccount (id : Nat) {f : Account → Account}
    (hf : ∀ row, (f row).balance = row.balance) : SameBooks db (db.updateAccount id f) :=
  ⟨Keyed.map_modify hf, rfl, rfl, rfl, rfl, rfl⟩

theorem finishAuthenticationTx_books {principal : Principal} {now : Int}
    (h : finishAuthenticationTx principal now db = .ok (db', ())) : SameBooks db db' := by
  unfold finishAuthenticationTx at h
  simp only [bind_eq_ok, pure_eq_ok, Prod.mk.injEq, and_true] at h
  obtain ⟨⟨⟩, -, rfl⟩ := h
  exact ⟨rfl, rfl, rfl, rfl, rfl, rfl⟩

theorem revokeCredentialTx_books {selector : Text} {now : Int} {account : Nat}
    (h : revokeCredentialTx selector now db = .ok (db', account)) : SameBooks db db' := by
  unfold revokeCredentialTx at h
  simp only [bind_eq_ok, pure_eq_ok, Prod.mk.injEq] at h
  obtain ⟨credential, -, rfl, -⟩ := h
  exact ⟨Keyed.map_modify fun _ => rfl, rfl, rfl, rfl, rfl, rfl⟩

theorem disableAccountTx_books {login : Address} {now : Int} {account : Nat}
    (h : disableAccountTx login now db = .ok (db', account)) : SameBooks db db' := by
  unfold disableAccountTx at h
  simp only [bind_eq_ok, pure_eq_ok, Prod.mk.injEq] at h
  obtain ⟨row, -, rfl, -⟩ := h
  exact ⟨Keyed.map_modify fun _ => rfl, rfl, rfl, rfl, rfl, rfl⟩

theorem upsertSendAs_books {address : Text} {accountId : Nat} {enabled : Bool}
    (h : upsertSendAs db address accountId enabled = .ok db') : SameBooks db db' := by
  unfold upsertSendAs at h
  split at h
  · cases h
    exact ⟨rfl, rfl, rfl, rfl, rfl, rfl⟩
  · exact .insertAddress h

theorem setSendAsTx_books {login address : Address} {enabled : Bool} {account : Nat}
    (h : setSendAsTx login address enabled db = .ok (db', account)) : SameBooks db db' := by
  unfold setSendAsTx at h
  simp only [bind_eq_ok, pure_eq_ok, Prod.mk.injEq] at h
  obtain ⟨row, -, ⟨⟩, -, ⟨⟩, -, upserted, hupsert, rfl, -⟩ := h
  exact (upsertSendAs_books hupsert).trans (.updateAccount row.id fun _ => rfl)

end SameBooks

/-- What the operations on accounts do to the books. -/
inductive AccountStep (db : Db) : Db → Prop
  | created {address : Address} {quotaBytes : Nat} {now : Int} {uidvalidity : Text → Nat} {db' : Db}
      (htx : createAccountTx address quotaBytes now uidvalidity db = .ok (db', ())) :
      AccountStep db db'
  | resized {login : Text} {account : Account} {bytes : Nat}
      (haccount : db.accountByLogin? login = some account) (hused : account.usedBytes ≤ bytes) :
      AccountStep db (db.updateAccountByLogin login fun row => { row with quotaBytes := bytes })
  | kept {db' : Db} (hsame : SameBooks db db') : AccountStep db db'

/-- The three transactions that bring messages in. -/
inductive Brings (w : World) (op : Op) (db db' : Db) : Prop
  | acceptance {i : Intake} {now : Int} (hop : op.intake? = some i)
      (hvalid : validAcceptance w.store i.message i.plan i.relay)
      (hauth : authorizeSubmission db i.identity i.plan.sender = .ok ())
      (hnew : previousAcceptance db i.plan.operationId = none)
      (htx : writeAcceptance i.ids i.message i.plan i.identity i.relay now db = .ok db')
  | enqueued {ids : FreshIds} {message : PreparedMessage} {plan : QueuePlan} {now : Int}
      (hop : ∃ reading faults, op = .enqueue ids message plan reading faults)
      (hvalid : validEnqueue w.store message plan)
      (hnew : previousAcceptance db plan.operationId = none)
      (htx : writeEnqueue ids message plan now db = .ok db')
  | report {prepared : PreparedNotification} {delivery : Uuid} {now : Int}
      (hop : ∃ reading faults, op = .notificationCommit prepared delivery reading faults)
      (hnew : db.notification? prepared.plan.deliveryId = none)
      (heligible : eligible db prepared.plan = true)
      (htx : writeReport delivery prepared now db = .ok db')

theorem Op.intake?_submission {op : Op} {i : Intake} (h : op.intake? = some i)
    (hrelay : i.relay.isSome) : i.identity.isSome := by
  cases op <;> simp only [Op.intake?, reduceCtorEq, Option.some.injEq] at h <;> subst h <;>
    simp_all

/-- A commit moves deliveries along, keeps accounts, or brings a message in. -/
theorem Commits.cases_content {w : World} {op : Op} {db db' : Db} (h : Commits w op db db') :
    SameContent db db' ∨ (SameMail db db' ∧ AccountStep db db') ∨ Brings w op db db' := by
  cases h with
  | createAccount _ htx => exact Or.inr (Or.inl ⟨createAccountTx_mail htx, .created htx⟩)
  | setAccountQuota _ haccount hused =>
      exact Or.inr (Or.inl ⟨⟨rfl, rfl, rfl, rfl, rfl, rfl, rfl, rfl, rfl⟩, .resized haccount hused⟩)
  | finishAuthentication htx =>
      exact Or.inr (Or.inl
        ⟨finishAuthenticationTx_mail htx, .kept (finishAuthenticationTx_books htx)⟩)
  | createCredential htx =>
      obtain ⟨-, rfl⟩ := Db.insertCredential_eq_ok.1 htx
      exact Or.inr (Or.inl ⟨⟨rfl, rfl, rfl, rfl, rfl, rfl, rfl, rfl, rfl⟩,
        .kept ⟨rfl, rfl, rfl, rfl, rfl, rfl⟩⟩)
  | revokeCredential htx =>
      exact Or.inr (Or.inl ⟨revokeCredentialTx_mail htx, .kept (revokeCredentialTx_books htx)⟩)
  | disableAccount htx =>
      exact Or.inr (Or.inl ⟨disableAccountTx_mail htx, .kept (disableAccountTx_books htx)⟩)
  | setSendAs htx =>
      exact Or.inr (Or.inl ⟨setSendAsTx_mail htx, .kept (setSendAsTx_books htx)⟩)
  | insertAlias htx =>
      exact Or.inr (Or.inl ⟨insertAddress_mail htx, .kept (.insertAddress htx)⟩)
  | acceptance hop hvalid hauth hnew htx =>
      exact Or.inr (Or.inr (.acceptance hop hvalid hauth hnew htx))
  | enqueue hvalid hnew htx => exact Or.inr (Or.inr (.enqueued ⟨_, _, rfl⟩ hvalid hnew htx))
  | expire _ htx => exact Or.inl (expireTx_content htx)
  | recover _ htx => exact Or.inl (recoverTx_content htx)
  | claim htx => exact Or.inl (claimTx_content htx)
  | renew _ htx => exact Or.inl (renewTx_content htx)
  | markBody _ htx => exact Or.inl (markBodyTx_content htx)
  | finish _ htx => exact Or.inl (finishTx_content htx)
  | hold htx => exact Or.inl (holdTx_content htx)
  | retry htx => exact Or.inl (retryTx_content htx)
  | closeUnknown htx => exact Or.inl (closeUnknownTx_content htx)
  | suppress => exact Or.inl (.updateDelivery _ (suppress_identity · _))
  | postpone => exact Or.inl (.updateDelivery _ (postponeReport_identity · _ _))
  | report hnew heligible htx => exact Or.inr (Or.inr (.report ⟨_, _, rfl⟩ hnew heligible htx))

end Rustymail
