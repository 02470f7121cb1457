import Rustymail.Attempts
import Rustymail.Integrity
import Rustymail.Proof.Coherence

/-!
# Mailbox accounting

What an account uses is the sum of the blobs behind its mailbox entries, and the counters of a
mailbox are ahead of everything they have numbered. One local delivery keeps this, so any number of
them in one transaction does, also when several recipients share a mailbox.
-/

namespace Rustymail

open Checked Loops Ledger

structure Db.Books (db : Db) : Prop where
  accountIds : Keyed.Unique Account.id db.accounts
  logins : Keyed.Unique Account.login db.accounts
  mailboxIds : Keyed.Unique Mailbox.id db.mailboxes
  owners : ∀ box ∈ db.mailboxes, (db.account? box.accountId).isSome
  entries : ∀ e ∈ db.mailboxMessages, (db.mailboxById? e.mailboxId).isSome
  events : ∀ e ∈ db.mailboxEvents, (db.mailboxById? e.mailboxId).isSome
  used : ∀ a ∈ db.accounts, a.usedBytes = db.storedBytes a.id
  quota : ∀ a ∈ db.accounts, a.usedBytes ≤ a.quotaBytes
  ascending : Ascending MailboxMessage.mailboxId MailboxMessage.uid db.mailboxMessages
  uids : ∀ e ∈ db.mailboxMessages, 1 ≤ e.uid ∧ e.uid ≤ u32Max
  uidnext : ∀ box ∈ db.mailboxes, 1 ≤ box.uidnext ∧ box.uidnext ≤ u32Max + 1
  ahead : ∀ box ∈ db.mailboxes, ∀ e ∈ db.mailboxMessages, e.mailboxId = box.id → e.uid < box.uidnext
  eventSeq : ∀ box ∈ db.mailboxes, box.eventSeq = db.highestEvent box.id

variable {db db' : Db}

theorem Db.Books.empty : Db.Books {} := by
  constructor <;> simp [Keyed.Unique, Ascending]

/-! ### One local delivery -/

theorem targetRow_eq_some {recipient : Text} {account : Account} {mailbox : Mailbox}
    (h : targetRow db recipient = some (account, mailbox)) :
    account ∈ db.accounts ∧ mailbox ∈ db.mailboxes ∧ mailbox.accountId = account.id := by
  unfold targetRow at h
  simp only [Option.bind_eq_bind, Option.bind_eq_some_iff, Option.ite_none_right_eq_some,
    Option.some.injEq, Prod.mk.injEq] at h
  obtain ⟨address, -, account', haccount, mailbox', hmailbox, -, rfl, rfl⟩ := h
  have hkey := Keyed.lookup_some_key hmailbox
  exact ⟨Keyed.mem_of_lookup haccount, Keyed.mem_of_lookup hmailbox, congrArg Prod.fst hkey⟩

section Delivered

variable {account : Account} {mailbox : Mailbox} {delivery : Uuid} {recipient message : Text}
  {size : Nat} {now : Int}

theorem mailboxById_delivered (id : Nat) :
    (db.delivered account mailbox delivery recipient message size now).mailboxById? id
      = if id = mailbox.id then (db.mailboxById? id).map Mailbox.advance
        else db.mailboxById? id :=
  Keyed.lookup_modify fun _ => rfl

theorem entryOwner_delivered (e : MailboxMessage) :
    (db.delivered account mailbox delivery recipient message size now).entryOwner e
      = db.entryOwner e := by
  unfold Db.entryOwner
  rw [mailboxById_delivered]
  split_ifs
  · rw [Option.map_map]
    rfl
  · rfl

theorem storedBytes_delivered (hbooks : db.Books) (hmailbox : mailbox ∈ db.mailboxes)
    (howner : mailbox.accountId = account.id) (hsize : db.messageSize message = size) (id : Nat) :
    (db.delivered account mailbox delivery recipient message size now).storedBytes id
      = db.storedBytes id + if account.id = id then size else 0 := by
  have hbox : db.mailboxById? mailbox.id = some mailbox :=
    Keyed.lookup_of_mem hbooks.mailboxIds hmailbox
  have hnew : db.entryOwner ⟨mailbox.id, mailbox.uidnext, message, some delivery.text, now⟩
      = some account.id := by
    unfold Db.entryOwner
    rw [hbox, Option.map_some, howner]
  have howners : ∀ e, (db.delivered account mailbox delivery recipient message size now).entryOwner e
      = db.entryOwner e := entryOwner_delivered
  calc (db.delivered account mailbox delivery recipient message size now).storedBytes id
      = total db.entryOwner (fun e => db.messageSize e.messageId)
          (db.mailboxMessages
            ++ [(⟨mailbox.id, mailbox.uidnext, message, some delivery.text, now⟩ : MailboxMessage)])
          (some id) := by
        unfold Db.storedBytes
        exact total_congr (fun e _ => howners e) fun _ _ => rfl
    _ = db.storedBytes id + if account.id = id then size else 0 := by
        rw [total_snoc, hnew, hsize]
        simp only [Option.some.injEq]
        rfl

theorem Db.Books.delivered (hbooks : db.Books)
    (hfound : Deliverable db account mailbox delivery recipient message size)
    (hsize : db.messageSize message = size) :
    (db.delivered account mailbox delivery recipient message size now).Books := by
  obtain ⟨haccount, hmailbox, howner⟩ := targetRow_eq_some hfound.row
  have huid := hbooks.uidnext mailbox hmailbox
  have hsome : ∀ id, (db.mailboxById? id).isSome →
      ((db.delivered account mailbox delivery recipient message size now).mailboxById? id).isSome := by
    intro id h
    rw [mailboxById_delivered]
    split_ifs
    · rwa [Option.isSome_map]
    · exact h
  have hbox : (db.mailboxById? mailbox.id).isSome :=
    Keyed.lookup_isSome_iff.2 ⟨mailbox, hmailbox, rfl⟩
  -- a row of the mailbox table is an old one, or the advanced one
  have hboxes : ∀ box ∈ (db.delivered account mailbox delivery recipient message size now).mailboxes,
      box = mailbox.advance ∨ (box ∈ db.mailboxes ∧ box.id ≠ mailbox.id) := by
    intro box h
    rcases Keyed.mem_modify.1 h with ⟨old, hold, hid, rfl⟩ | hother
    · rw [List.inj_on_of_nodup_map hbooks.mailboxIds hold hmailbox hid]
      exact Or.inl rfl
    · exact Or.inr hother
  constructor
  · exact Keyed.unique_modify (fun _ => rfl) hbooks.accountIds
  · have hlogins : (db.delivered account mailbox delivery recipient message size now).accounts.map
        Account.login = db.accounts.map Account.login := Keyed.map_modify fun _ => rfl
    unfold Keyed.Unique
    rw [hlogins]
    exact hbooks.logins
  · exact Keyed.unique_modify (fun _ => rfl) hbooks.mailboxIds
  · have hexists : ∀ id, (db.account? id).isSome →
        ((db.delivered account mailbox delivery recipient message size now).account? id).isSome := by
      intro id h
      have hrow : (db.delivered account mailbox delivery recipient message size now).account? id
          = if id = account.id then (db.account? id).map _ else db.account? id :=
        Keyed.lookup_modify fun _ => rfl
      rw [hrow]
      split_ifs
      · rwa [Option.isSome_map]
      · exact h
    intro box h
    rcases hboxes box h with rfl | ⟨hold, -⟩
    · exact hexists _ (hbooks.owners mailbox hmailbox)
    · exact hexists _ (hbooks.owners box hold)
  · intro e he
    rcases List.mem_append.1 he with hold | hnew
    · exact hsome _ (hbooks.entries e hold)
    · obtain rfl := List.mem_singleton.1 hnew
      exact hsome _ hbox
  · intro e he
    rcases List.mem_append.1 he with hold | hnew
    · exact hsome _ (hbooks.events e hold)
    · obtain rfl := List.mem_singleton.1 hnew
      exact hsome _ hbox
  · intro a ha
    rw [storedBytes_delivered hbooks hmailbox howner hsize]
    rcases Keyed.mem_modify.1 ha with ⟨old, hold, hid, rfl⟩ | ⟨hold, hid⟩
    · rw [if_pos hid.symm, hbooks.used old hold]
    · rw [if_neg (Ne.symm hid), hbooks.used a hold]
      rfl
  · intro a ha
    rcases Keyed.mem_modify.1 ha with ⟨old, hold, hid, rfl⟩ | ⟨hold, -⟩
    · rw [List.inj_on_of_nodup_map hbooks.accountIds hold haccount hid]
      exact hfound.quota_le
    · exact hbooks.quota a hold
  · refine hbooks.ascending.snoc ?_
    intro e he hsame
    exact hbooks.ahead mailbox hmailbox e he hsame
  · intro e he
    rcases List.mem_append.1 he with hold | hnew
    · exact hbooks.uids e hold
    · obtain rfl := List.mem_singleton.1 hnew
      exact ⟨huid.1, hfound.uid_le⟩
  · intro box h
    rcases hboxes box h with rfl | ⟨hold, -⟩
    · have := hfound.uid_le
      change 1 ≤ mailbox.uidnext + 1 ∧ mailbox.uidnext + 1 ≤ u32Max + 1
      omega
    · exact hbooks.uidnext box hold
  · intro box h e he hsame
    rcases hboxes box h with rfl | ⟨hold, hother⟩
    · change e.uid < mailbox.uidnext + 1
      rcases List.mem_append.1 he with hearlier | hnew
      · have := hbooks.ahead mailbox hmailbox e hearlier hsame
        omega
      · obtain rfl := List.mem_singleton.1 hnew
        exact Nat.lt_succ_self _
    · rcases List.mem_append.1 he with hearlier | hnew
      · exact hbooks.ahead box hold e hearlier hsame
      · obtain rfl := List.mem_singleton.1 hnew
        exact absurd hsame.symm hother
  · intro box h
    unfold Db.highestEvent Db.delivered
    rw [highest_snoc]
    rcases hboxes box h with rfl | ⟨hold, hother⟩
    · rw [if_pos (by rfl)]
      have hseq := hbooks.eventSeq mailbox hmailbox
      unfold Db.highestEvent at hseq
      change mailbox.eventSeq + 1 = max _ (mailbox.eventSeq + 1)
      rw [show mailbox.advance.id = mailbox.id from rfl, ← hseq]
      omega
    · rw [if_neg (Ne.symm hother)]
      exact hbooks.eventSeq box hold

end Delivered

/-! ### Everything else -/

theorem SameBooks.exists_account (h : SameBooks db db') {a : Account} (ha : a ∈ db'.accounts) :
    ∃ a' ∈ db.accounts, a'.id = a.id ∧ a'.login = a.login ∧ a'.usedBytes = a.usedBytes
      ∧ a'.quotaBytes = a.quotaBytes := by
  have hmem := List.mem_map_of_mem (f := Account.balance) ha
  rw [h.accounts] at hmem
  obtain ⟨a', ha', hsame⟩ := List.mem_map.1 hmem
  simp only [Account.balance, Prod.mk.injEq] at hsame
  exact ⟨a', ha', hsame⟩

theorem SameBooks.symm (h : SameBooks db db') : SameBooks db' db :=
  ⟨h.accounts.symm, h.mailboxes.symm, h.mailboxMessages.symm, h.mailboxEvents.symm,
    h.messages.symm, h.blobs.symm⟩

theorem SameBooks.unique (h : SameBooks db db') {κ : Type} (f : Nat × Text × Nat × Nat → κ)
    (hunique : Keyed.Unique (fun a : Account => f a.balance) db.accounts) :
    Keyed.Unique (fun a : Account => f a.balance) db'.accounts := by
  have hmap := congrArg (List.map f) h.accounts
  rw [List.map_map, List.map_map] at hmap
  unfold Keyed.Unique at *
  change (List.map (f ∘ Account.balance) db'.accounts).Nodup
  rw [hmap]
  exact hunique

theorem SameBooks.books (h : SameBooks db db') (hbooks : db.Books) : db'.Books := by
  have hbox : ∀ id, db'.mailboxById? id = db.mailboxById? id := by
    intro id
    unfold Db.mailboxById?
    rw [h.mailboxes]
  have hstored : ∀ id, db'.storedBytes id = db.storedBytes id := by
    intro id
    unfold Db.storedBytes Db.entryOwner Db.messageSize Db.mailboxById? Db.message? Db.blob?
    rw [h.mailboxMessages, h.mailboxes, h.messages, h.blobs]
  constructor
  · exact h.unique (fun b => b.1) hbooks.accountIds
  · exact h.unique (fun b => b.2.1) hbooks.logins
  · rw [h.mailboxes]
    exact hbooks.mailboxIds
  · rw [h.mailboxes]
    intro box hmem
    obtain ⟨a, ha, hid⟩ := Keyed.lookup_isSome_iff.1 (hbooks.owners box hmem)
    obtain ⟨a', ha', hsame, -⟩ := h.symm.exists_account ha
    exact Keyed.lookup_isSome_iff.2 ⟨a', ha', hsame.trans hid⟩
  · rw [h.mailboxMessages]
    intro e he
    rw [hbox]
    exact hbooks.entries e he
  · rw [h.mailboxEvents]
    intro e he
    rw [hbox]
    exact hbooks.events e he
  · intro a ha
    obtain ⟨a', ha', hid, -, hused, -⟩ := h.exists_account ha
    rw [hstored, ← hused, ← hid]
    exact hbooks.used a' ha'
  · intro a ha
    obtain ⟨a', ha', -, -, hused, hquota⟩ := h.exists_account ha
    rw [← hused, ← hquota]
    exact hbooks.quota a' ha'
  · rw [h.mailboxMessages]
    exact hbooks.ascending
  · rw [h.mailboxMessages]
    exact hbooks.uids
  · rw [h.mailboxes]
    exact hbooks.uidnext
  · rw [h.mailboxes, h.mailboxMessages]
    exact hbooks.ahead
  · unfold Db.highestEvent
    rw [h.mailboxes, h.mailboxEvents]
    exact hbooks.eventSeq

theorem SameBooks.insertRelay {ids : Text → Uuid} {message : Text} {recipients : List Text}
    {body : QueueBody} {age : Nat} {now : Int}
    (h : insertRelay ids message recipients body age now db = .ok db') : SameBooks db db' := by
  obtain ⟨expires, -, rfl⟩ := insertRelay_all h
  exact ⟨rfl, rfl, rfl, rfl, rfl, rfl⟩

theorem Db.Books.insertAccount (hbooks : db.Books) {row : Account} (hused : row.usedBytes = 0)
    (h : db.insertAccount row = .ok db') : db'.Books := by
  obtain ⟨⟨hid, hlogin⟩, rfl⟩ := Db.insertAccount_eq_ok.1 h
  have hexists : ∀ id, (db.account? id).isSome →
      (Keyed.lookup Account.id (db.accounts ++ [row]) id).isSome := by
    intro id hsome
    obtain ⟨a, ha⟩ := Option.isSome_iff_exists.1 hsome
    rw [Keyed.lookup_append_of_some ha]
    rfl
  have hnone : db.storedBytes row.id = 0 := by
    refine total_eq_zero fun e he howner => ?_
    unfold Db.entryOwner at howner
    obtain ⟨box, hbox, haccount⟩ := Option.map_eq_some_iff.1 howner
    have hsome := hbooks.owners box (Keyed.mem_of_lookup hbox)
    rw [haccount, hid] at hsome
    cases hsome
  refine { hbooks with
    accountIds := Keyed.unique_append_singleton hbooks.accountIds hid
    logins := Keyed.unique_append_singleton hbooks.logins hlogin
    owners := fun box hbox => hexists _ (hbooks.owners box hbox)
    used := ?_
    quota := ?_ }
  · intro a ha
    rcases List.mem_append.1 ha with hold | hnew
    · exact hbooks.used a hold
    · obtain rfl := List.mem_singleton.1 hnew
      rw [hused]
      exact hnone.symm
  · intro a ha
    rcases List.mem_append.1 ha with hold | hnew
    · exact hbooks.quota a hold
    · obtain rfl := List.mem_singleton.1 hnew
      rw [hused]
      exact Nat.zero_le _

theorem Db.Books.insertMailbox (hbooks : db.Books) {row : Mailbox} (huid : row.uidnext = 1)
    (hevent : row.eventSeq = 0) (h : db.insertMailbox row = .ok db') : db'.Books := by
  obtain ⟨⟨hid, -, howner⟩, rfl⟩ := Db.insertMailbox_eq_ok.1 h
  have hkept : ∀ id, (db.mailboxById? id).isSome →
      Keyed.lookup Mailbox.id (db.mailboxes ++ [row]) id = db.mailboxById? id := by
    intro id hsome
    obtain ⟨box, hbox⟩ := Option.isSome_iff_exists.1 hsome
    rw [hbox]
    exact Keyed.lookup_append_of_some hbox _
  have hexists : ∀ id, (db.mailboxById? id).isSome →
      (Keyed.lookup Mailbox.id (db.mailboxes ++ [row]) id).isSome := by
    intro id hsome
    rw [hkept id hsome]
    exact hsome
  have hunused : ∀ id, (db.mailboxById? id).isSome → id ≠ row.id := by
    rintro id hsome rfl
    unfold Db.mailboxById? at hsome
    rw [hid] at hsome
    cases hsome
  refine { hbooks with
    mailboxIds := Keyed.unique_append_singleton hbooks.mailboxIds hid
    owners := ?_
    entries := fun e he => hexists _ (hbooks.entries e he)
    events := fun e he => hexists _ (hbooks.events e he)
    used := ?_
    uidnext := ?_
    ahead := ?_
    eventSeq := ?_ }
  · intro box hbox
    rcases List.mem_append.1 hbox with hold | hnew
    · exact hbooks.owners box hold
    · obtain rfl := List.mem_singleton.1 hnew
      exact howner
  · intro a ha
    refine (hbooks.used a ha).trans (total_congr ?_ fun _ _ => rfl)
    intro e he
    exact congrArg (Option.map Mailbox.accountId) (hkept _ (hbooks.entries e he)).symm
  · intro box hbox
    rcases List.mem_append.1 hbox with hold | hnew
    · exact hbooks.uidnext box hold
    · obtain rfl := List.mem_singleton.1 hnew
      rw [huid]
      decide
  · intro box hbox e he hsame
    rcases List.mem_append.1 hbox with hold | hnew
    · exact hbooks.ahead box hold e he hsame
    · obtain rfl := List.mem_singleton.1 hnew
      exact absurd hsame (hunused _ (hbooks.entries e he))
  · intro box hbox
    rcases List.mem_append.1 hbox with hold | hnew
    · exact hbooks.eventSeq box hold
    · obtain rfl := List.mem_singleton.1 hnew
      rw [hevent]
      exact (highest_eq_zero fun e he => hunused _ (hbooks.events e he)).symm

theorem Db.Books.createAccount (hbooks : db.Books) {address : Address} {quotaBytes : Nat} {now : Int}
    {uidvalidity : Text → Nat}
    (h : createAccountTx address quotaBytes now uidvalidity db = .ok (db', ())) : db'.Books := by
  unfold createAccountTx at h
  simp only [bind_eq_ok, pure_eq_ok, Prod.mk.injEq, and_true] at h
  obtain ⟨db₁, haccount, db₂, haddress, db₃, hloop, rfl⟩ := h
  have hfirst := hbooks.insertAccount rfl haccount
  refine (sweep_foldlM hloop).keeps Db.Books ?_ ((SameBooks.insertAddress haddress).books hfirst)
  intro s name t _ hround hs
  exact hs.insertMailbox rfl rfl hround

theorem Db.Books.setQuota (hbooks : db.Books) {login : Text} {account : Account} {bytes : Nat}
    (haccount : db.accountByLogin? login = some account) (hused : account.usedBytes ≤ bytes) :
    (db.updateAccountByLogin login fun row => { row with quotaBytes := bytes }).Books := by
  have hids : (db.updateAccountByLogin login fun row => { row with quotaBytes := bytes }).accounts.map
      Account.id = db.accounts.map Account.id := Keyed.map_modify fun _ => rfl
  refine { hbooks with
    accountIds := ?_
    logins := Keyed.unique_modify (fun _ => rfl) hbooks.logins
    owners := ?_
    used := ?_
    quota := ?_ }
  · unfold Keyed.Unique
    rw [hids]
    exact hbooks.accountIds
  · intro box hbox
    have hmem : box.accountId ∈ db.accounts.map Account.id := by
      obtain ⟨a, ha, hid⟩ := Keyed.lookup_isSome_iff.1 (hbooks.owners box hbox)
      exact List.mem_map.2 ⟨a, ha, hid⟩
    rw [← hids] at hmem
    exact Keyed.lookup_isSome_iff.2 (List.mem_map.1 hmem)
  · intro a ha
    rcases Keyed.mem_modify.1 ha with ⟨old, hold, -, rfl⟩ | ⟨hold, -⟩
    · exact hbooks.used old hold
    · exact hbooks.used a hold
  · intro a ha
    rcases Keyed.mem_modify.1 ha with ⟨old, hold, hlogin, rfl⟩ | ⟨hold, -⟩
    · have hsame : old = account := by
        have hmem := Keyed.mem_of_lookup haccount
        have hkey := Keyed.lookup_some_key haccount
        exact List.inj_on_of_nodup_map hbooks.logins hold hmem (hlogin.trans hkey.symm)
      rw [hsame]
      exact hused
    · exact hbooks.quota a hold

/-! ### Bringing a message in -/

theorem messageSize_eq {message : Text} {m : Message} {b : Blob} (hm : db.message? message = some m)
    (hb : db.blob? m.blobId = some b) : db.messageSize message = b.sizeBytes := by
  unfold Db.messageSize
  rw [hm, Option.bind_some, hb]
  rfl

theorem Db.Books.withMessage (hbooks : db.Books) (hrefs : db.Coherent) (blob : Blob)
    (message : Message) : (db.withMessage blob message).Books := by
  have hsize : ∀ e ∈ db.mailboxMessages,
      (db.withMessage blob message).messageSize e.messageId = db.messageSize e.messageId := by
    intro e he
    obtain ⟨d, hd, -, hmessage, -⟩ := hrefs.entry e he
    obtain ⟨m, hm⟩ := Option.isSome_iff_exists.1 (hmessage ▸ hrefs.delivery_message d hd)
    obtain ⟨b, hb⟩ := Option.isSome_iff_exists.1 (hrefs.message_blob m (Keyed.mem_of_lookup hm))
    have hm' : (db.withMessage blob message).message? e.messageId = some m :=
      Keyed.lookup_append_of_some hm _
    have hb' : (db.withMessage blob message).blob? m.blobId = some b :=
      Keyed.lookup_append_of_some hb _
    rw [messageSize_eq hm hb, messageSize_eq hm' hb']
  refine { hbooks with used := ?_ }
  intro a ha
  exact (hbooks.used a ha).trans (total_congr (fun _ _ => rfl) hsize).symm

theorem withMessage_size {blob : Blob} {message : Message} (hblob : db.blob? blob.id = none)
    (hmessage : db.message? message.id = none) (hlink : message.blobId = blob.id) :
    (db.withMessage blob message).messageSize message.id = blob.sizeBytes := by
  refine messageSize_eq (m := message) (b := blob) ?_ ?_
  · change Keyed.lookup Message.id (db.messages ++ [message]) message.id = some message
    rw [Keyed.lookup_append_singleton hmessage, if_pos rfl]
  · change Keyed.lookup Blob.id (db.blobs ++ [blob]) message.blobId = some blob
    rw [hlink, Keyed.lookup_append_singleton hblob, if_pos rfl]

/-- The size of the message stays in view while its recipients are served. -/
theorem Db.Books.deliver {delivery : Uuid} {recipient message : Text} {size : Nat} {now : Int}
    (h : deliver delivery recipient message size now db = .ok db')
    (hbooks : db.Books ∧ db.messageSize message = size) :
    db'.Books ∧ db'.messageSize message = size := by
  obtain ⟨account, mailbox, hfound, rfl⟩ := deliver_eq_ok h
  exact ⟨hbooks.1.delivered hfound hbooks.2, hbooks.2⟩

theorem Brings.books {w : World} {op : Op} (h : Brings w op db db') (hbooks : db.Books)
    (hrefs : db.Coherent) : db'.Books := by
  cases h with
  | @acceptance i now hop hvalid hauth hnew htx =>
      obtain ⟨⟨hblob, hid, hkey⟩, delivered, hlocal, hrelay⟩ := writeAcceptance_eq_ok htx
      have hstored := hbooks.withMessage hrefs (i.message.blobRow now)
        (acceptedRow i.ids i.message i.plan i.identity now)
      have hsize : (db.withMessage (i.message.blobRow now)
          (acceptedRow i.ids i.message i.plan i.identity now)).messageSize i.ids.message.text
          = i.message.size := withMessage_size hblob hid rfl
      have hdelivered : delivered.Books ∧ delivered.messageSize i.ids.message.text = i.message.size := by
        refine (sweep_foldlM hlocal).keeps
          (fun db => db.Books ∧ db.messageSize i.ids.message.text = i.message.size) ?_
          ⟨hstored, hsize⟩
        intro s recipient t _ hround hs
        exact Db.Books.deliver hround hs
      rcases hrelay with ⟨-, rfl⟩ | ⟨r, -, hrelay⟩
      · exact hdelivered.1
      · exact (SameBooks.insertRelay hrelay).books hdelivered.1
  | @enqueued ids message plan now hop hvalid hnew htx =>
      obtain ⟨⟨hblob, hid, hkey⟩, hrelay⟩ := writeEnqueue_eq_ok htx
      exact (SameBooks.insertRelay hrelay).books (hbooks.withMessage hrefs (message.blobRow now)
        (enqueuedRow ids message plan now))
  | @report prepared delivery now hop hnew heligible htx =>
      obtain ⟨⟨hblob, hid, hkey⟩, placed, noted, hplaced, hnoted, rfl⟩ := writeReport_eq_ok htx
      have hstored := hbooks.withMessage hrefs (prepared.message.blobRow now) (reportRow prepared now)
      have hsize : (db.withMessage (prepared.message.blobRow now)
          (reportRow prepared now)).messageSize prepared.plan.reportId.text = prepared.message.size :=
        withMessage_size hblob hid rfl
      have hfirst : placed.Books := by
        unfold placeReport at hplaced
        split_ifs at hplaced
        · exact (Db.Books.deliver hplaced ⟨hstored, hsize⟩).1
        · exact (SameBooks.insertRelay hplaced).books hstored
      have hsame : SameBooks placed
          (noted.updateDelivery prepared.plan.deliveryId Delivery.reportCreated) := by
        obtain ⟨-, rfl⟩ := Db.insertNotification_eq_ok.1 hnoted
        exact ⟨rfl, rfl, rfl, rfl, rfl, rfl⟩
      exact hsame.books hfirst

theorem SameContent.books (h : SameContent db db') : SameBooks db db' :=
  ⟨by rw [h.accounts], h.mailboxes, h.mailboxMessages, h.mailboxEvents, h.messages, h.blobs⟩

theorem Commits.books {w : World} {op : Op} (h : Commits w op db db') (hbooks : db.Books)
    (hrefs : db.Coherent) : db'.Books := by
  rcases h.cases_content with hcontent | ⟨-, hadmin⟩ | hbrings
  · exact hcontent.books.books hbooks
  · cases hadmin with
    | created htx => exact hbooks.createAccount htx
    | resized haccount hused => exact hbooks.setQuota haccount hused
    | kept hsame => exact hsame.books hbooks
  · exact hbrings.books hbooks hrefs

theorem World.Reachable.books {w : World} (h : w.Reachable) : w.store.db.Books := by
  refine (h.of_commits (fun db => db.Books ∧ db.Coherent) ⟨.empty, .empty⟩ ?_).1
  intro w op db db' hcommit hw
  exact ⟨hcommit.books hw.1 hw.2, hcommit.coherent hw.2⟩

/-! ### The accounting invariant -/

/-- The UIDs of a mailbox in the order in which they were assigned. -/
def Db.assignedUids (db : Db) (mailbox : Nat) : List Nat :=
  (db.mailboxMessages.filter fun e => decide (e.mailboxId = mailbox)).map MailboxMessage.uid

theorem CommitsAll.entries_grow {w : World} {op : Op} (h : CommitsAll w op db db') :
    db.mailboxMessages <+: db'.mailboxMessages := by
  induction h with
  | refl => exact List.prefix_refl _
  | tail _ hlast ih =>
      refine ih.trans ?_
      rcases hlast.cases_adds with hsame | ⟨a, -, -, hadds⟩
      · exact ⟨[], (List.append_nil _).trans hsame.mailboxMessages.symm⟩
      · obtain ⟨entries, hentries, -⟩ := hadds.entries
        exact ⟨entries, hentries.symm⟩

theorem World.Reachable.entry_delivery {w : World} (h : w.Reachable) {e : MailboxMessage} {id : Text}
    (he : e ∈ w.store.db.mailboxMessages) (hid : e.deliveryId = some id) :
    ∃ d, w.store.db.delivery? id = some d ∧ d.route = .localMail ∧ d.state = .delivered
      ∧ d.messageId = e.messageId := by
  obtain ⟨d, hd, hsome, hmessage, hroute⟩ := h.coherent.entry e he
  obtain rfl : id = d.id := Option.some.inj (hid.symm.trans hsome)
  have hrow : w.store.db.delivery? d.id = some d := Keyed.lookup_of_mem h.keys.deliveries hd
  have hlocal := (h.view_wf d.id).localMail d hrow hroute
  exact ⟨d, hrow, hroute, hlocal.state_eq, hmessage⟩

/-- In every reachable world the accounts' usage and the mailboxes' counters are right, and an
operation assigns only UIDs above all earlier ones of the mailbox. -/
theorem mailbox_accounting (w : World) (hreach : w.Reachable) :
    (∀ a ∈ w.store.db.accounts, a.usedBytes = w.store.db.storedBytes a.id
        ∧ a.usedBytes ≤ a.quotaBytes)
      ∧ (∀ box ∈ w.store.db.mailboxes,
        (w.store.db.assignedUids box.id).Nodup
          ∧ (∀ uid ∈ w.store.db.assignedUids box.id, 1 ≤ uid ∧ uid ≤ 2 ^ 32 - 1 ∧ uid < box.uidnext)
          ∧ box.uidnext ≤ 2 ^ 32 ∧ box.eventSeq = w.store.db.highestEvent box.id)
      ∧ (∀ op, ∃ added, (w.next op).store.db.mailboxMessages = w.store.db.mailboxMessages ++ added
        ∧ (∀ new ∈ added, ∀ old ∈ w.store.db.mailboxMessages, old.mailboxId = new.mailboxId →
          old.uid < new.uid)
        ∧ added.Pairwise fun earlier later => earlier.mailboxId = later.mailboxId →
          earlier.uid < later.uid)
      ∧ ∀ e ∈ w.store.db.mailboxMessages, ∀ id, e.deliveryId = some id →
        ∃ d, w.store.db.delivery? id = some d ∧ d.route = .localMail ∧ d.state = .delivered
          ∧ d.messageId = e.messageId := by
  have hbooks := hreach.books
  refine ⟨?_, ?_, ?_, ?_⟩
  · intro a ha
    exact ⟨hbooks.used a ha, hbooks.quota a ha⟩
  · intro box hbox
    have huids := hbooks.ascending.numbers box.id
    refine ⟨huids.imp fun hlt => hlt.ne, ?_, ?_, hbooks.eventSeq box hbox⟩
    · intro uid huid
      obtain ⟨e, he, rfl⟩ := List.mem_map.1 huid
      obtain ⟨hmem, hsame⟩ := List.mem_filter.1 he
      obtain ⟨hlow, hhigh⟩ := hbooks.uids e hmem
      exact ⟨hlow, hhigh, hbooks.ahead box hbox e hmem (of_decide_eq_true hsame)⟩
    · have hnext := (hbooks.uidnext box hbox).2
      unfold u32Max at hnext
      omega
  · intro op
    obtain ⟨added, hadded⟩ := (w.next_commits op).entries_grow
    have hlater : Ascending MailboxMessage.mailboxId MailboxMessage.uid
        (w.store.db.mailboxMessages ++ added) := by
      rw [hadded]
      exact (hreach.next op).books.ascending
    obtain ⟨-, hnew, hcross⟩ := List.pairwise_append.1 hlater
    exact ⟨added, hadded.symm, fun new hmem old hold => hcross old hold new hmem, hnew⟩
  · intro e he id hid
    exact hreach.entry_delivery he hid

/-- One account with a second address, and one message of five bytes to both. -/
def Sample.shared : World :=
  Sample.fresh.run
    [.createAccount Sample.recipient 100 Sample.reading (fun _ => 1) {},
      .insertAlias (ascii "x@b.c") 1,
      .accept ⟨Sample.messageId, fun r => if r = ascii "x@b.c" then Sample.token else Sample.deliveryId,
          fun _ => Sample.deliveryId⟩ Sample.prepared
        ⟨Sample.operationId.text, none, [Sample.recipient, ⟨ascii "x@b.c", by decide, by decide⟩]⟩
        Sample.reading {}]

theorem mailbox_accounting_shared_mailbox :
    Sample.shared.store.db.assignedUids 1 = [1, 2] ∧ Sample.shared.store.db.storedBytes 1 = 10
      ∧ ∃ account ∈ Sample.shared.store.db.accounts, account.usedBytes = 10 := by
  have huids : Sample.shared.store.db.assignedUids 1 = [1, 2] := by decide
  have hstored : Sample.shared.store.db.storedBytes 1 = 10 := by decide
  refine ⟨huids, hstored, ?_⟩
  obtain ⟨account, haccount, hid⟩ : ∃ account ∈ Sample.shared.store.db.accounts, account.id = 1 := by
    decide
  obtain ⟨hused, -⟩ := (mailbox_accounting Sample.shared (Sample.reachable _)).1 account haccount
  exact ⟨account, haccount, by rw [hused, hid, hstored]⟩

end Rustymail
