import Rustymail.Proof.Accounting
import Rustymail.Proof.Relaying
import Rustymail.Store.Listings

/-!
# Reading mailboxes and the queue in pages

What an entry of a mailbox stands for outlasts every operation, and a delivery stays in the queue's
table. So a reader that pages through an inbox, or through the queue, misses nothing while the
program goes on working.
-/

namespace Rustymail

open Checked Ledger Loops

/-! ### What lasts -/

theorem initial_of_eq {α : Type} {first second : List α} (h : first = second) : first <+: second :=
  h ▸ List.prefix_rfl

def Mailbox.place (box : Mailbox) : Nat × Nat × Text := (box.id, box.accountId, box.name)

/-- No account has two mailboxes of one name. -/
def Db.Housed (db : Db) : Prop := Keyed.Unique (fun box : Mailbox => (box.accountId, box.name)) db.mailboxes

/-- The rows a mailbox entry refers to stay, and mailboxes keep their places. -/
structure Outlasts (db db' : Db) : Prop where
  logins : (db.accounts.map fun a => (a.id, a.login)) <+: db'.accounts.map fun a => (a.id, a.login)
  places : db.mailboxes.map Mailbox.place <+: db'.mailboxes.map Mailbox.place
  messages : db.messages <+: db'.messages
  blobs : db.blobs <+: db'.blobs
  entries : db.mailboxMessages <+: db'.mailboxMessages
  housed : db.Housed → db'.Housed

variable {w : World} {op : Op} {db db' : Db}

theorem Outlasts.refl (db : Db) : Outlasts db db :=
  ⟨List.prefix_rfl, List.prefix_rfl, List.prefix_rfl, List.prefix_rfl, List.prefix_rfl, id⟩

theorem Outlasts.trans {a b c : Db} (h : Outlasts a b) (h' : Outlasts b c) : Outlasts a c where
  logins := h.logins.trans h'.logins
  places := h.places.trans h'.places
  messages := h.messages.trans h'.messages
  blobs := h.blobs.trans h'.blobs
  entries := h.entries.trans h'.entries
  housed := h'.housed ∘ h.housed

theorem SameBooks.outlasts (h : SameBooks db db') : Outlasts db db' where
  logins := by
    have hlogins := congrArg (List.map fun b : Nat × Text × Nat × Nat => (b.1, b.2.1)) h.accounts
    rw [List.map_map, List.map_map] at hlogins
    exact initial_of_eq hlogins.symm
  places := initial_of_eq (congrArg (List.map Mailbox.place) h.mailboxes.symm)
  messages := initial_of_eq h.messages.symm
  blobs := initial_of_eq h.blobs.symm
  entries := initial_of_eq h.mailboxMessages.symm
  housed hdb := by
    unfold Db.Housed
    rw [h.mailboxes]
    exact hdb

theorem Outlasts.withMessage (db : Db) (blob : Blob) (message : Message) :
    Outlasts db (db.withMessage blob message) :=
  ⟨List.prefix_rfl, List.prefix_rfl, List.prefix_append _ _, List.prefix_append _ _, List.prefix_rfl, id⟩

theorem Outlasts.delivered (db : Db) (account : Account) (mailbox : Mailbox) (delivery : Uuid)
    (recipient message : Text) (size : Nat) (now : Int) :
    Outlasts db (db.delivered account mailbox delivery recipient message size now) where
  logins := by
    refine initial_of_eq (Eq.symm ?_)
    exact Keyed.map_modify fun _ => rfl
  places := by
    refine initial_of_eq (Eq.symm ?_)
    exact Keyed.map_modify fun _ => rfl
  messages := List.prefix_rfl
  blobs := List.prefix_rfl
  entries := List.prefix_append _ _
  housed h := Keyed.unique_modify (fun _ => rfl) h

theorem Outlasts.deliver {ids : Text → Uuid} {message : Text} {size : Nat} {now : Int}
    {recipients : List Text}
    (h : recipients.foldlM (fun db r => deliver (ids r) r message size now db) db = .ok db') :
    Outlasts db db' := by
  refine (sweep_foldlM h).keeps (Outlasts db) ?_ (.refl db)
  intro s recipient t _ hround hs
  obtain ⟨account, mailbox, -, rfl⟩ := deliver_eq_ok hround
  exact hs.trans (.delivered s account mailbox _ _ _ _ _)

theorem Outlasts.insertMailbox {row : Mailbox} (h : db.insertMailbox row = .ok db') :
    Outlasts db db' := by
  obtain ⟨⟨-, hplace, -⟩, rfl⟩ := Db.insertMailbox_eq_ok.1 h
  refine ⟨List.prefix_rfl, ?_, List.prefix_rfl, List.prefix_rfl, List.prefix_rfl, ?_⟩
  · rw [List.map_append]
    exact List.prefix_append _ _
  · intro hdb
    exact Keyed.unique_append_singleton hdb hplace

theorem AccountStep.outlasts (hmail : SameMail db db') (h : AccountStep db db') : Outlasts db db' := by
  cases h with
  | created htx =>
      unfold createAccountTx at htx
      simp only [bind_eq_ok, pure_eq_ok, Prod.mk.injEq, and_true] at htx
      obtain ⟨db₁, haccount, db₂, haddress, db₃, hloop, rfl⟩ := htx
      have hfirst : Outlasts db db₁ := by
        obtain ⟨-, rfl⟩ := Db.insertAccount_eq_ok.1 haccount
        refine ⟨?_, List.prefix_rfl, List.prefix_rfl, List.prefix_rfl, List.prefix_rfl, id⟩
        rw [List.map_append]
        exact List.prefix_append _ _
      refine (sweep_foldlM hloop).keeps (Outlasts db) ?_
        (hfirst.trans (SameBooks.insertAddress haddress).outlasts)
      intro s name t _ hround hs
      exact hs.trans (.insertMailbox hround)
  | resized haccount hused =>
      refine ⟨initial_of_eq (Eq.symm ?_), List.prefix_rfl, List.prefix_rfl, List.prefix_rfl,
        List.prefix_rfl, id⟩
      exact Keyed.map_modify fun _ => rfl
  | kept hsame => exact hsame.outlasts

theorem Brings.outlasts (h : Brings w op db db') : Outlasts db db' := by
  cases h with
  | acceptance hop hvalid hauth hnew htx =>
      obtain ⟨-, delivered, hlocal, hrelay⟩ := writeAcceptance_eq_ok htx
      have hdelivered := (Outlasts.withMessage db _ _).trans (.deliver hlocal)
      rcases hrelay with ⟨-, rfl⟩ | ⟨r, -, hrelay⟩
      · exact hdelivered
      · exact hdelivered.trans (SameBooks.insertRelay hrelay).outlasts
  | enqueued hop hvalid hnew htx =>
      obtain ⟨-, hrelay⟩ := writeEnqueue_eq_ok htx
      exact (Outlasts.withMessage db _ _).trans (SameBooks.insertRelay hrelay).outlasts
  | @report prepared delivery now hop hnew heligible htx =>
      obtain ⟨-, placed, noted, hplaced, hnoted, rfl⟩ := writeReport_eq_ok htx
      have hfirst : Outlasts db placed := by
        refine (Outlasts.withMessage db (prepared.message.blobRow now) (reportRow prepared now)).trans ?_
        unfold placeReport at hplaced
        split_ifs at hplaced
        · obtain ⟨account, mailbox, -, rfl⟩ := deliver_eq_ok hplaced
          exact .delivered _ account mailbox _ _ _ _ _
        · exact (SameBooks.insertRelay hplaced).outlasts
      refine hfirst.trans (SameBooks.outlasts ?_)
      obtain ⟨-, rfl⟩ := Db.insertNotification_eq_ok.1 hnoted
      exact ⟨rfl, rfl, rfl, rfl, rfl, rfl⟩

theorem Commits.outlasts (h : Commits w op db db') : Outlasts db db' := by
  rcases h.cases_content with hcontent | ⟨hmail, hadmin⟩ | hbrings
  · exact hcontent.books.outlasts
  · exact hadmin.outlasts hmail
  · exact hbrings.outlasts

theorem CommitsAll.outlasts (h : CommitsAll w op db db') : Outlasts db db' := by
  induction h with
  | refl => exact .refl db
  | tail _ hlast ih => exact ih.trans hlast.outlasts

/-! ### The entries of an inbox -/

/-- A row that is found is found for good, with what does not change about it. -/
theorem lookup_lasting {α β κ : Type} [DecidableEq κ] {key : α → κ} {view : α → β} {rows rows' : List α}
    {k : κ} {row : α} (h : rows.map view <+: rows'.map view)
    (hkey : ∀ a b, view a = view b → key a = key b) (hrow : Keyed.lookup key rows k = some row) :
    ∃ row', Keyed.lookup key rows' k = some row' ∧ view row' = view row := by
  induction rows generalizing rows' with
  | nil => cases hrow
  | cons first rest ih =>
      cases rows' with
      | nil => exact absurd (List.prefix_nil.1 h) (List.cons_ne_nil _ _)
      | cons first' rest' =>
          obtain ⟨hsame, hrest⟩ := List.cons_prefix_cons.1 h
          have hkeys := hkey first first' hsame
          unfold Keyed.lookup at hrow ⊢
          rw [List.find?_cons] at hrow ⊢
          rw [← hkeys]
          by_cases hfirst : key first = k
          · rw [decide_eq_true hfirst] at hrow ⊢
            cases hrow
            exact ⟨first', rfl, hsame.symm⟩
          · rw [decide_eq_false hfirst] at hrow ⊢
            exact ih hrest hrow

theorem Outlasts.inInbox (h : Outlasts db db') {login : Text} {e : MailboxMessage}
    (he : db.inInbox login e = true) : db'.inInbox login e = true := by
  unfold Db.inInbox at he ⊢
  rw [Option.any_eq_true] at he ⊢
  obtain ⟨box, hbox, hplace⟩ := he
  rw [Bool.and_eq_true, decide_eq_true_eq, Option.any_eq_true] at hplace
  obtain ⟨hname, account, haccount, hlogin⟩ := hplace
  obtain ⟨box', hbox', hsame⟩ := lookup_lasting h.places (fun _ _ heq => congrArg Prod.fst heq) hbox
  obtain ⟨account', haccount', hsame'⟩ :=
    lookup_lasting h.logins (fun _ _ heq => congrArg Prod.fst heq) haccount
  obtain ⟨-, howner, hname'⟩ : box'.id = box.id ∧ box'.accountId = box.accountId ∧ box'.name = box.name := by
    simpa [Mailbox.place] using hsame
  refine ⟨box', hbox', ?_⟩
  rw [Bool.and_eq_true, decide_eq_true_eq, Option.any_eq_true, hname', howner]
  refine ⟨hname, account', haccount', decide_eq_true ?_⟩
  rw [show account'.login = account.login from congrArg Prod.snd hsame']
  exact of_decide_eq_true hlogin

theorem Outlasts.messageSummary (h : Outlasts db db') {e : MailboxMessage} {row : MessageSummary}
    (hrow : db.messageSummary e = some row) : db'.messageSummary e = some row := by
  unfold Db.messageSummary at hrow ⊢
  simp only [bind, Option.bind_eq_some_iff] at hrow ⊢
  obtain ⟨message, hmessage, blob, hblob, hpure⟩ := hrow
  obtain ⟨more, hmore⟩ := h.messages
  obtain ⟨others, hothers⟩ := h.blobs
  refine ⟨message, ?_, blob, ?_, hpure⟩
  · unfold Db.message? at hmessage ⊢
    rw [← hmore]
    exact Keyed.lookup_append_of_some hmessage more
  · unfold Db.blob? at hblob ⊢
    rw [← hothers]
    exact Keyed.lookup_append_of_some hblob others

theorem Outlasts.inboxSummaries (h : Outlasts db db') (login : Text) :
    db.inboxSummaries login ⊆ db'.inboxSummaries login := by
  intro row hrow
  obtain ⟨e, he, hsummary⟩ := List.mem_filterMap.1 hrow
  obtain ⟨hentry, hinbox⟩ := List.mem_filter.1 he
  exact List.mem_filterMap.2 ⟨e, List.mem_filter.2 ⟨h.entries.subset hentry, h.inInbox hinbox⟩,
    h.messageSummary hsummary⟩

theorem World.Reachable.housed (h : w.Reachable) : w.store.db.Housed := by
  refine h.of_commits Db.Housed List.nodup_nil ?_
  intro w op db db' hcommit hdb
  exact hcommit.outlasts.housed hdb

/-- All entries of an account's inbox are in one mailbox. -/
theorem Db.Books.inInbox_same (hbooks : db.Books) (hhoused : db.Housed) {login : Text}
    {e e' : MailboxMessage} (he : db.inInbox login e = true) (he' : db.inInbox login e' = true) :
    e.mailboxId = e'.mailboxId := by
  unfold Db.inInbox at he he'
  simp only [Option.any_eq_true, Bool.and_eq_true, decide_eq_true_eq] at he he'
  obtain ⟨box, hbox, hname, account, haccount, hlogin⟩ := he
  obtain ⟨box', hbox', hname', account', haccount', hlogin'⟩ := he'
  have hsame : account = account' := List.inj_on_of_nodup_map hbooks.logins
    (Keyed.mem_of_lookup haccount) (Keyed.mem_of_lookup haccount') (hlogin.trans hlogin'.symm)
  have howner : box.accountId = box'.accountId := by
    rw [← Keyed.lookup_some_key haccount, ← Keyed.lookup_some_key haccount', hsame]
  have hplace : box = box' := List.inj_on_of_nodup_map hhoused (Keyed.mem_of_lookup hbox)
    (Keyed.mem_of_lookup hbox') (Prod.ext howner (hname.trans hname'.symm))
  rw [← Keyed.lookup_some_key hbox, ← Keyed.lookup_some_key hbox', hplace]

theorem Db.messageSummary_uid {e : MailboxMessage} {row : MessageSummary}
    (h : db.messageSummary e = some row) : row.uid = e.uid := by
  unfold Db.messageSummary at h
  simp only [bind, Option.bind_eq_some_iff] at h
  obtain ⟨message, -, blob, -, hpure⟩ := h
  cases hpure
  rfl

/-- The inbox is kept in the order of its UIDs. -/
theorem Db.Books.inboxSummaries_ascending (hbooks : db.Books) (hhoused : db.Housed) (login : Text) :
    (db.inboxSummaries login).Pairwise fun a b => a.uid < b.uid := by
  have hentries : (db.mailboxMessages.filter (db.inInbox login)).Pairwise
      fun e e' => e.uid < e'.uid := by
    have hascending := (hbooks.ascending.sublist List.filter_sublist :
      (db.mailboxMessages.filter (db.inInbox login)).Pairwise _)
    refine hascending.imp_of_mem ?_
    intro e e' he he' hlater
    exact hlater (hbooks.inInbox_same hhoused (List.mem_filter.1 he).2 (List.mem_filter.1 he').2)
  refine List.pairwise_filterMap.2 (hentries.imp ?_)
  intro e e' hlt row hrow row' hrow'
  rw [Db.messageSummary_uid hrow, Db.messageSummary_uid hrow']
  exact hlt

/-- An entry that was there before was in the inbox before. -/
theorem Outlasts.inInbox_back (h : Outlasts db db') (hbooks : db.Books) {login : Text}
    {e : MailboxMessage} (hmem : e ∈ db.mailboxMessages) (he : db'.inInbox login e = true) :
    db.inInbox login e = true := by
  unfold Db.inInbox at he ⊢
  simp only [Option.any_eq_true, Bool.and_eq_true, decide_eq_true_eq] at he ⊢
  obtain ⟨box', hbox', hname, account', haccount', hlogin⟩ := he
  obtain ⟨box, hbox⟩ := Option.isSome_iff_exists.1 (hbooks.entries e hmem)
  obtain ⟨account, haccount⟩ :=
    Option.isSome_iff_exists.1 (hbooks.owners box (Keyed.mem_of_lookup hbox))
  obtain ⟨found, hfound, hsame⟩ := lookup_lasting h.places (fun _ _ heq => congrArg Prod.fst heq) hbox
  obtain ⟨holder, hholder, hsame'⟩ :=
    lookup_lasting h.logins (fun _ _ heq => congrArg Prod.fst heq) haccount
  obtain ⟨-, howner, hname'⟩ :
      found.id = box.id ∧ found.accountId = box.accountId ∧ found.name = box.name := by
    simpa [Mailbox.place] using hsame
  obtain rfl : box' = found := Option.some.inj (hbox'.symm.trans hfound)
  unfold Db.account? at haccount'
  rw [howner] at haccount'
  obtain rfl : account' = holder := Option.some.inj (haccount'.symm.trans hholder)
  exact ⟨box, hbox, hname'.symm.trans hname, account, haccount,
    (congrArg Prod.snd hsame').symm.trans hlogin⟩

theorem Db.Coherent.messageSummary (hcoherent : db.Coherent) {e : MailboxMessage}
    (he : e ∈ db.mailboxMessages) : ∃ row, db.messageSummary e = some row := by
  obtain ⟨d, hd, -, hmessage, -⟩ := hcoherent.entry e he
  obtain ⟨message, hfound⟩ := Option.isSome_iff_exists.1 (hcoherent.delivery_message d hd)
  obtain ⟨blob, hblob⟩ :=
    Option.isSome_iff_exists.1 (hcoherent.message_blob message (Keyed.mem_of_lookup hfound))
  rw [hmessage] at hfound
  refine ⟨⟨e.uid, message.id, blob.sizeBytes, message.acceptedAtMs⟩, ?_⟩
  unfold Db.messageSummary
  rw [hfound]
  change (db.blob? message.blobId).bind _ = _
  rw [hblob]
  rfl

/-! ### The readers -/

def World.listMessages (address : Address) (w : World) (afterUid limit : Nat) :
    Except StoreError (List MessageSummary) :=
  w.query fun db => Rustymail.listMessages db address afterUid limit

def World.queueList (w : World) (afterId : Text) (limit : Nat) : Except StoreError (List QueueSummary) :=
  w.query fun db => Rustymail.queueList db afterId limit

theorem World.next_outlasts (w : World) (op : Op) : Outlasts w.store.db (w.next op).store.db :=
  (w.next_commits op).outlasts

theorem inbox_lists (address : Address) :
    Paging.Lists World.next (World.listMessages address) MessageSummary.uid World.Reachable
      fun w => w.store.db.inboxSummaries address.localKey where
  stable w op hw := hw.next op
  pages w cursor limit rows hw hrows := by
    unfold World.listMessages World.query Rustymail.listMessages at hrows
    split_ifs at hrows
    cases hrows
    rfl
  unique w hw := List.pairwise_map.2
    ((hw.books.inboxSummaries_ascending hw.housed address.localKey).imp fun hlt => Nat.ne_of_lt hlt)
  lasting w op hw := List.map_subset _ ((w.next_outlasts op).inboxSummaries address.localKey)

theorem inbox_grows (address : Address) :
    Paging.Grows World.next MessageSummary.uid World.Reachable
      fun w => w.store.db.inboxSummaries address.localKey := by
  intro w op hw new hnew hfresh old hold
  have houtlasts := w.next_outlasts op
  have hbooks := (hw.next op).books
  obtain ⟨row, hrow, rfl⟩ := List.mem_map.1 hnew
  obtain ⟨row', hrow', rfl⟩ := List.mem_map.1 hold
  obtain ⟨e, he, hsummary⟩ := List.mem_filterMap.1 hrow
  obtain ⟨e', he', hsummary'⟩ := List.mem_filterMap.1 hrow'
  obtain ⟨hentry, hinbox⟩ := List.mem_filter.1 he
  obtain ⟨hentry', hinbox'⟩ := List.mem_filter.1 he'
  rw [Db.messageSummary_uid hsummary] at hfresh ⊢
  rw [Db.messageSummary_uid hsummary']
  obtain ⟨added, hadded⟩ := houtlasts.entries
  have hascending := hbooks.ascending
  rw [← hadded] at hentry hascending
  rcases List.mem_append.1 hentry with hbefore | hafter
  · refine absurd ?_ hfresh
    obtain ⟨known, hknown⟩ := hw.coherent.messageSummary hbefore
    refine List.mem_map.2 ⟨known, ?_, Db.messageSummary_uid hknown⟩
    exact List.mem_filterMap.2 ⟨e, List.mem_filter.2
      ⟨hbefore, houtlasts.inInbox_back hw.books hbefore hinbox⟩, hknown⟩
  · exact (List.pairwise_append.1 hascending).2.2 e' hentry' e hafter
      (hbooks.inInbox_same (hw.next op).housed (houtlasts.inInbox hinbox') hinbox)

/-- **An inbox is read completely.** A reader that asks for page after page of an inbox, each from the
last UID of the one before, sees rows in the order of their UIDs and none of them twice, whatever
the program does between two pages. A page that is not full is the last one: by then the reader has
seen the inbox as it is. -/
theorem inbox_pages (w : World) (hreach : w.Reachable) (address : Address)
    (turns : List (Paging.Turn Op)) :
    let last := Runs.run
      (Paging.Session.turn World.next (World.listMessages address) MessageSummary.uid)
      ⟨w, 0, [], false⟩ turns
    last.state.Reachable
      ∧ (last.seen.Pairwise fun a b => a.uid < b.uid)
      ∧ last.seen ⊆ last.state.store.db.inboxSummaries address.localKey
      ∧ (last.complete = true →
        last.seen = last.state.store.db.inboxSummaries address.localKey) := by
  intro last
  have hlists := inbox_lists address
  obtain ⟨hsound, -⟩ := hlists.read_covers (inbox_grows address) hreach 0 turns
  obtain ⟨hsubset, hall⟩ := hlists.read_all (inbox_grows address)
    (fun w op _ => (w.next_outlasts op).inboxSummaries address.localKey) hreach 0 turns
  refine ⟨hsound.state, hsound.ordered.ascending, hsubset, fun hcomplete => ?_⟩
  rw [hall hcomplete]
  -- No UID is zero, and the inbox is in order as it is.
  have hbooks := hsound.state.books
  have hascending := hbooks.inboxSummaries_ascending hsound.state.housed address.localKey
  have hpositive : ∀ row ∈ last.state.store.db.inboxSummaries address.localKey, 0 < row.uid := by
    intro row hrow
    obtain ⟨e, he, hsummary⟩ := List.mem_filterMap.1 hrow
    rw [Db.messageSummary_uid hsummary]
    exact (hbooks.uids e (List.mem_filter.1 he).1).1
  unfold Paging.behind
  rw [List.filter_eq_self.2 fun row hrow => decide_eq_true (hpositive row hrow)]
  exact List.Pairwise.insertionSort_eq (hascending.imp fun hlt => Nat.le_of_lt hlt)

/-- Two entries, read one at a time. -/
theorem Sample.inbox_paged :
    let last := Runs.run
      (Paging.Session.turn World.next (World.listMessages Sample.recipient) MessageSummary.uid)
      ⟨Sample.shared, 0, [], false⟩ [.ask 1, .ask 1, .ask 1]
    last.seen.map MessageSummary.uid = [1, 2]
      ∧ last.seen = last.state.store.db.inboxSummaries Sample.recipient.localKey := by
  refine ⟨by decide, ?_⟩
  exact (inbox_pages Sample.shared (Sample.reachable _) Sample.recipient
    [.ask 1, .ask 1, .ask 1]).2.2.2 (by decide)

/-! ### The queue -/

theorem nil_lt_of_validId {id : Text} (h : validId id = true) : [] < id := by
  cases id with
  | nil => cases h
  | cons first rest => exact List.nil_lt_cons first rest

theorem relaySummaries_ids (db : Db) : db.relaySummaries.map QueueSummary.id
    = ((db.deliveries.map Delivery.identity).filter fun row => decide (row.2.2.2 = .relay)).map
      fun row => row.1 := by
  unfold Db.relaySummaries
  rw [List.map_map, List.filter_map, List.map_map]
  rfl

theorem Commits.relaySummaries (h : Commits w op db db') :
    db.relaySummaries.map QueueSummary.id ⊆ db'.relaySummaries.map QueueSummary.id := by
  rw [relaySummaries_ids, relaySummaries_ids]
  refine List.map_subset _ ?_
  rcases h.cases_adds with hsame | ⟨a, -, -, hadds⟩
  · rw [hsame.deliveries]
    exact List.Subset.refl _
  · rw [hadds.deliveries, List.map_append, List.filter_append]
    exact List.subset_append_left _ _

theorem CommitsAll.relaySummaries (h : CommitsAll w op db db') :
    db.relaySummaries.map QueueSummary.id ⊆ db'.relaySummaries.map QueueSummary.id := by
  induction h with
  | refl => exact List.Subset.refl _
  | tail _ hlast ih => exact List.Subset.trans ih hlast.relaySummaries

theorem queue_lists : Paging.Lists World.next World.queueList QueueSummary.id World.Reachable
    fun w => w.store.db.relaySummaries where
  stable w op hw := hw.next op
  pages w cursor limit rows hw hrows := by
    unfold World.queueList World.query Rustymail.queueList at hrows
    split_ifs at hrows
    cases hrows
    rfl
  unique w hw := by
    unfold Db.relaySummaries
    rw [List.map_map]
    exact hw.keys.deliveries.sublist (List.filter_sublist.map _)
  lasting w op hw := (w.next_commits op).relaySummaries

/-- **No delivery of the queue is overlooked.** New deliveries have random identifiers and may come
anywhere in the list, but a delivery that is there when the reader begins is seen by the end, and no
delivery is seen twice. -/
theorem queue_pages (w : World) (hreach : w.Reachable) (turns : List (Paging.Turn Op)) :
    let last := Runs.run (Paging.Session.turn World.next World.queueList QueueSummary.id)
      ⟨w, [], [], false⟩ turns
    (last.seen.Pairwise fun a b => a.id < b.id)
      ∧ (∀ row ∈ last.seen, ∃ d ∈ last.state.store.db.deliveries, d.id = row.id ∧ d.route = .relay)
      ∧ (last.complete = true → ∀ d ∈ w.store.db.deliveries, d.route = .relay →
        ∃ row ∈ last.seen, row.id = d.id) := by
  intro last
  obtain ⟨hsound, hcovers⟩ := queue_lists.read_lasting hreach [] turns
  refine ⟨hsound.ordered.ascending, ?_, ?_⟩
  · intro row hrow
    obtain ⟨summary, hsummary, hid⟩ := List.mem_map.1 (hsound.present (List.mem_map_of_mem hrow))
    obtain ⟨d, hd, rfl⟩ := List.mem_map.1 hsummary
    obtain ⟨hmem, hroute⟩ := List.mem_filter.1 hd
    exact ⟨d, hmem, hid, of_decide_eq_true hroute⟩
  · intro hcomplete d hd hroute
    have hmem : d.id ∈ w.store.db.relaySummaries.map QueueSummary.id :=
      List.mem_map.2 ⟨w.store.db.queueSummary d, List.mem_map_of_mem
        (List.mem_filter.2 ⟨hd, decide_eq_true hroute⟩), rfl⟩
    obtain ⟨row, hrow, hkey⟩ := List.mem_map.1
      (hcovers d.id hmem (nil_lt_of_validId (hreach.identified.deliveries d hd)) (Or.inr hcomplete))
    exact ⟨row, hrow, hkey⟩

/-- A delivery is claimed between two pages of the queue. -/
theorem Sample.queue_paged :
    let last := Runs.run (Paging.Session.turn World.next World.queueList QueueSummary.id)
      ⟨Sample.fresh.run [Sample.enqueue], [], [], false⟩ [.ask 1, .act Sample.claim, .ask 1]
    ∃ row ∈ last.seen, row.id = Sample.deliveryId.text := by
  intro last
  have hrow : ∃ d ∈ (Sample.fresh.run [Sample.enqueue]).store.db.deliveries,
      d.id = Sample.deliveryId.text ∧ d.route = .relay := by
    decide
  obtain ⟨d, hd, hid, hroute⟩ := hrow
  obtain ⟨row, hmem, hsame⟩ := (queue_pages (Sample.fresh.run [Sample.enqueue]) (Sample.reachable _)
    [.ask 1, .act Sample.claim, .ask 1]).2.2 (by decide) d hd hroute
  exact ⟨row, hmem, hsame.trans hid⟩

end Rustymail
