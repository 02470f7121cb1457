import Rustymail.Attempts
import Rustymail.Proof.Coherence

/-!
# Failure reports

A notification row, the report message it names and the failed delivery it is about come together in
one transaction and stay together. What made the failure eligible cannot change any more: a reported
delivery stays failed, and messages are never rewritten.
-/

namespace Rustymail

open Checked Lifecycle

/-- The report was owed: it is about a relayed delivery of an authenticated submission, and it goes
to the sender of that submission and nobody else. -/
structure Db.Owed (db : Db) (n : Notification) (report : Message) (row : Delivery) (failed : Message)
    (recipient : Address) : Prop where
  report_mem : report ∈ db.messages
  report_id : report.id = n.reportMessageId
  report_source : report.source = .dsn
  report_key : report.ingestKey = dsnKey n.deliveryId
  row_mem : row ∈ db.deliveries
  row_id : row.id = n.deliveryId
  row_route : row.route = .relay
  failed_mem : failed ∈ db.messages
  failed_id : failed.id = row.messageId
  failed_source : failed.source = .submission
  failed_account : failed.authenticatedAccountId.isSome
  sender : failed.reversePath = recipient.asStr
  addressed : ∀ d ∈ db.deliveries, d.messageId = report.id →
    (d.route = .relay ∧ d.recipient = recipient.asStr)
      ∨ (d.route = .localMail ∧ d.recipient = recipient.localKey)

structure Db.Reports (db : Db) : Prop where
  owed : ∀ n ∈ db.notifications, ∃ report row failed recipient, db.Owed n report row failed recipient
  recorded : ∀ m ∈ db.messages, m.source = .dsn → ∃ n ∈ db.notifications,
    n.reportMessageId = m.id ∧ m.ingestKey = dsnKey n.deliveryId

variable {w : World} {op : Op} {db db' : Db} {a : Added} {n : Notification} {report : Message}
  {row : Delivery} {failed : Message} {recipient : Address}

theorem SameRefs.owed (h : SameRefs db db') (howed : db.Owed n report row failed recipient) :
    ∃ row', db'.Owed n report row' failed recipient := by
  obtain ⟨row', hrow', hsame⟩ := exists_same_identity h.deliveries.symm howed.row_mem
  obtain ⟨hid, hmessage, -, hroute⟩ := Delivery.identity_eq_iff.1 hsame
  refine ⟨row', { howed with
    report_mem := h.messages ▸ howed.report_mem
    row_mem := hrow'
    row_id := hid.trans howed.row_id
    row_route := hroute.trans howed.row_route
    failed_mem := h.messages ▸ howed.failed_mem
    failed_id := howed.failed_id.trans hmessage.symm
    addressed := ?_ }⟩
  intro d hd hreport
  obtain ⟨d', hd', hsame'⟩ := exists_same_identity h.deliveries hd
  obtain ⟨-, hmessage', hrecipient, hroute'⟩ := Delivery.identity_eq_iff.1 hsame'
  rw [← hroute', ← hrecipient]
  exact howed.addressed d' hd' (hmessage'.trans hreport)

theorem SameRefs.reports (h : SameRefs db db') (hw : db.Reports) : db'.Reports := by
  constructor
  · rw [h.notifications]
    intro n hn
    obtain ⟨report, row, failed, recipient, howed⟩ := hw.owed n hn
    obtain ⟨row', howed'⟩ := h.owed howed
    exact ⟨report, row', failed, recipient, howed'⟩
  · rw [h.messages, h.notifications]
    exact hw.recorded

namespace Adds

theorem message_id_ne (h : Adds db db' a) {m : Message} (hm : m ∈ db.messages) :
    m.id ≠ a.message.id :=
  Keyed.lookup_none_iff.1 h.message_fresh m hm

/-- The deliveries of an earlier message are the earlier ones. -/
theorem old_delivery (h : Adds db db' a) (ha : a.Wf) {m : Message} (hm : m ∈ db.messages)
    {d : Delivery} (hd : d ∈ db'.deliveries) (hmessage : d.messageId = m.id) :
    ∃ d' ∈ db.deliveries, d'.identity = d.identity := by
  have hne := h.message_id_ne hm
  rcases h.mem_deliveries hd with hold | ⟨d', hd', hsame⟩ | ⟨d', hd', hsame⟩
  · exact hold
  all_goals obtain ⟨-, hmessage', -⟩ := Delivery.identity_eq_iff.1 hsame
  · exact absurd (hmessage.symm.trans (hmessage'.symm.trans (ha.mailed d' hd').1)) hne
  · exact absurd (hmessage.symm.trans (hmessage'.symm.trans (ha.relayed d' hd').1)) hne

/-- The deliveries of the added message are the added ones. -/
theorem new_delivery (h : Adds db db' a) (hrefs : db.Coherent) {d : Delivery}
    (hd : d ∈ db'.deliveries) (hmessage : d.messageId = a.message.id) :
    (∃ d' ∈ a.mailed, d'.identity = d.identity) ∨ ∃ d' ∈ a.relayed, d'.identity = d.identity := by
  rcases h.mem_deliveries hd with ⟨d', hd', hsame⟩ | hnew
  · have hsome := hrefs.delivery_message d' hd'
    rw [(Delivery.identity_eq_iff.1 hsame).2.1, hmessage, h.message_fresh] at hsome
    cases hsome
  · exact hnew

theorem owed_old (h : Adds db db' a) (ha : a.Wf) (howed : db.Owed n report row failed recipient) :
    ∃ row', db'.Owed n report row' failed recipient := by
  obtain ⟨row', hrow', hsame⟩ := h.exists_delivery (Or.inl howed.row_mem)
  obtain ⟨hid, hmessage, -, hroute⟩ := Delivery.identity_eq_iff.1 hsame
  refine ⟨row', { howed with
    report_mem := h.messages ▸ List.mem_append_left _ howed.report_mem
    row_mem := hrow'
    row_id := hid.trans howed.row_id
    row_route := hroute.trans howed.row_route
    failed_mem := h.messages ▸ List.mem_append_left _ howed.failed_mem
    failed_id := howed.failed_id.trans hmessage.symm
    addressed := ?_ }⟩
  intro d hd hreport
  obtain ⟨d', hd', hsame'⟩ := h.old_delivery ha howed.report_mem hd hreport
  obtain ⟨-, hmessage', hrecipient, hroute'⟩ := Delivery.identity_eq_iff.1 hsame'
  rw [← hroute', ← hrecipient]
  exact howed.addressed d' hd' (hmessage'.trans hreport)

theorem owed_new (h : Adds db db' a) (ha : a.Wf) (horigin : a.Origin db) (hrefs : db.Coherent)
    (hn : a.report = some n) : ∃ report row failed recipient, db'.Owed n report row failed recipient := by
  cases horigin with
  | accepted hkey hreport =>
      rw [hn] at hreport
      cases hreport
  | imported hkey hreport =>
      rw [hn] at hreport
      cases hreport
  | @reported id now recipient row failed hkey hsource haccount hreport hrow hroute hmessage hfailed
      hauthor hsender hmailed hrelayed =>
      obtain rfl : n = ⟨id, a.message.id, now⟩ := Option.some.inj (hn.symm.trans hreport)
      obtain ⟨row', hrow', hsame⟩ := h.exists_delivery (Or.inl (Keyed.mem_of_lookup hrow))
      obtain ⟨hid, hmessage', -, hroute'⟩ := Delivery.identity_eq_iff.1 hsame
      refine ⟨a.message, row', failed, recipient, ?_⟩
      constructor
      · rw [h.messages]
        exact List.mem_append_right _ List.mem_cons_self
      · rfl
      · exact hsource
      · exact hkey
      · exact hrow'
      · exact hid.trans (Keyed.lookup_some_key hrow)
      · exact hroute'.trans hroute
      · rw [h.messages]
        exact List.mem_append_left _ (Keyed.mem_of_lookup hmessage)
      · exact (Keyed.lookup_some_key hmessage).trans hmessage'.symm
      · exact hfailed
      · exact hauthor
      · exact hsender
      · intro d hd hreport
        rcases h.new_delivery hrefs hd hreport with ⟨d', hd', hsame'⟩ | ⟨d', hd', hsame'⟩
        all_goals obtain ⟨-, -, hrecipient, hroute''⟩ := Delivery.identity_eq_iff.1 hsame'
        · exact Or.inr ⟨hroute''.symm.trans (ha.mailed d' hd').2, hrecipient.symm.trans (hmailed d' hd')⟩
        · exact Or.inl ⟨hroute''.symm.trans (ha.relayed d' hd').2.1,
            hrecipient.symm.trans (hrelayed d' hd')⟩

theorem reports (h : Adds db db' a) (ha : a.Wf) (horigin : a.Origin db) (hrefs : db.Coherent)
    (hw : db.Reports) : db'.Reports := by
  constructor
  · intro n hn
    rw [h.notifications, List.mem_append] at hn
    rcases hn with hold | hnew
    · obtain ⟨report, row, failed, recipient, howed⟩ := hw.owed n hold
      obtain ⟨row', howed'⟩ := h.owed_old ha howed
      exact ⟨report, row', failed, recipient, howed'⟩
    · exact h.owed_new ha horigin hrefs (Option.mem_toList.1 hnew)
  · intro m hm hdsn
    rw [h.messages, List.mem_append, List.mem_singleton] at hm
    rw [h.notifications]
    rcases hm with hold | rfl
    · obtain ⟨n, hn, hlink⟩ := hw.recorded m hold hdsn
      exact ⟨n, List.mem_append_left _ hn, hlink⟩
    · cases horigin with
      | accepted hkey hreport hsource =>
          rw [hdsn] at hsource
          split_ifs at hsource
      | imported hkey hreport hsource =>
          rw [hdsn] at hsource
          cases hsource
      | @reported id now _ _ _ hkey hsource haccount hreport =>
          refine ⟨⟨id, a.message.id, now⟩, List.mem_append_right _ ?_, rfl, hkey⟩
          rw [hreport]
          exact List.mem_cons_self

end Adds

theorem Commits.reports (h : Commits w op db db') (hrefs : db.Coherent) (hw : db.Reports) :
    db'.Reports := by
  rcases h.cases_adds with hsame | ⟨a, ha, horigin, hadds⟩
  · exact hsame.reports hw
  · exact hadds.reports ha horigin hrefs hw

theorem World.Reachable.reports (h : w.Reachable) : w.store.db.Reports := by
  refine (h.of_commits (fun db => db.Coherent ∧ db.Reports) ⟨.empty, ?_⟩ ?_).2
  · constructor <;> simp
  · intro w op db db' hcommit hw
    exact ⟨hcommit.coherent hw.1, hcommit.reports hw.1 hw.2⟩

/-! ### Reports are not taken back -/

theorem Lifecycle.Step.notificationState {e : LifeEvent} {v v' : View} (hstep : Step e v v')
    (hrow : v.row = some row) (hsettled : row.notificationState ≠ .pending) :
    ∃ row', v'.row = some row' ∧ row'.notificationState = row.notificationState := by
  cases hstep with
  | created hfresh hnew => simp [hrow] at hnew
  | bodyMarked hold hroute hleased hphase => exact ⟨row, hrow, rfl⟩
  | suppressed hold hroute hfailed hpending | reported hold hroute hfailed hcertain hpending =>
      rw [hrow] at hold
      cases hold
      exact absurd hpending hsettled
  | postponed hold =>
      rw [hrow] at hold
      cases hold
      refine ⟨_, rfl, ?_⟩
      unfold Delivery.postponeReport
      split_ifs <;> rfl
  | leased hold | exhausted hold | renewed hold | finished hold | recovered hold | expired hold
  | held hold | retried hold | closed hold =>
      rw [hrow] at hold
      cases hold
      exact ⟨_, rfl, rfl⟩

theorem World.next_notificationState (hkeys : w.store.db.Keys) {id : Text}
    (hrow : w.store.db.delivery? id = some row) (hsettled : row.notificationState ≠ .pending)
    (op : Op) : ∃ row', (w.next op).store.db.delivery? id = some row'
      ∧ row'.notificationState = row.notificationState := by
  refine (w.next_evolves hkeys op id).keeps
    (fun v => ∃ row', v.row = some row' ∧ row'.notificationState = row.notificationState) ?_
    ⟨row, hrow, rfl⟩
  rintro e v v' - hstep ⟨middle, hmiddle, hsame⟩
  obtain ⟨row', hrow', hsame'⟩ := hstep.notificationState hmiddle (hsame ▸ hsettled)
  exact ⟨row', hrow', hsame'.trans hsame⟩

theorem CommitsAll.notification_kept {id : Text} (h : CommitsAll w op db db')
    (hn : db.notification? id = some n) : db'.notification? id = some n := by
  induction h with
  | refl => exact hn
  | tail _ hlast ih =>
      unfold Db.notification? at ih ⊢
      rcases hlast.cases_adds with hsame | ⟨a, -, -, hadds⟩
      · rw [hsame.notifications]
        exact ih
      · rw [hadds.notifications]
        exact Keyed.lookup_append_of_some ih _

theorem World.run_notification {id : Text} (hn : w.store.db.notification? id = some n)
    (ops : List Op) : (w.run ops).store.db.notification? id = some n :=
  Runs.invariant (fun w : World => w.store.db.notification? id = some n) hn
    (fun w op h => (w.next_commits op).notification_kept h) ops

section Commit

variable {s s' : Store} {prepared : PreparedNotification} {delivery : Uuid} {reading : Reading}
  {faults : Faults} {accepted : AcceptedMessage}

/-- With the row already there a commit reads it back, or is stopped by the guard; it writes
nothing. -/
theorem notificationCommit_replay (hn : s.db.notification? prepared.plan.deliveryId = some n) :
    (notificationCommit s prepared delivery reading faults).1.db = s.db
      ∧ (prepared.message.root = s.root →
        (∀ now, (s.queue.now reading).2 = .ok now →
          (notificationCommit s prepared delivery reading faults).2
            = .ok ⟨n.reportMessageId, true⟩)
        ∧ ∀ e, (s.queue.now reading).2 = .error e →
          (notificationCommit s prepared delivery reading faults).2 = .error e) := by
  unfold notificationCommit
  by_cases hroot : prepared.message.root = s.root
  · rw [if_pos hroot]
    cases hnow : s.queue.now reading with
    | mk queue clock =>
        cases clock with
        | error e =>
            refine ⟨rfl, fun _ => ⟨fun now hclock => ?_, fun _ hclock => ?_⟩⟩
            · cases hclock
            · cases hclock
              rfl
        | ok now =>
            have htx : notificationCommitTx delivery prepared now faults s.db
                = .ok (s.db, ⟨n.reportMessageId, true⟩) := by
              unfold notificationCommitTx
              rw [hn]
            dsimp only
            unfold Store.transaction
            dsimp only
            rw [htx]
            refine ⟨rfl, fun _ => ⟨fun _ _ => rfl, fun e hclock => ?_⟩⟩
            cases hclock
  · rw [if_neg hroot]
    exact ⟨rfl, fun hsame => absurd hsame hroot⟩

theorem commitReport_ok {accepted' : AcceptedMessage}
    (h : Store.commitReport faults s db accepted = (s', .ok accepted')) :
    accepted' = accepted
      ∧ (accepted.alreadyCommitted = true ∧ s' = s
        ∨ accepted.alreadyCommitted = false ∧ s' = { s with db := db }) := by
  unfold Store.commitReport at h
  by_cases hcommitted : accepted.alreadyCommitted = true
  · rw [if_pos hcommitted, Prod.mk.injEq, Except.ok.injEq] at h
    exact ⟨h.2.symm, Or.inl ⟨hcommitted, h.1.symm⟩⟩
  · rw [if_neg hcommitted] at h
    split_ifs at h
    · cases h
    · split at h <;> cases h
    · split at h
      · cases h
      · cases h
      · rw [Prod.mk.injEq, Except.ok.injEq] at h
        exact ⟨h.2.symm, Or.inr ⟨Bool.eq_false_iff.2 hcommitted, h.1.symm⟩⟩

theorem writeReport_notification {now : Int}
    (h : writeReport delivery prepared now db = .ok db') :
    db'.notification? prepared.plan.deliveryId
      = some ⟨prepared.plan.deliveryId, prepared.plan.reportId.text, now⟩ := by
  obtain ⟨-, placed, noted, -, hnoted, rfl⟩ := writeReport_eq_ok h
  obtain ⟨⟨hfresh, -⟩, rfl⟩ := Db.insertNotification_eq_ok.1 hnoted
  change Keyed.lookup Notification.deliveryId (placed.notifications ++ [_]) _ = _
  rw [Keyed.lookup_append_singleton hfresh, if_pos rfl]

/-- A commit that succeeds names the report that is recorded. -/
theorem notificationCommit_ok
    (h : notificationCommit s prepared delivery reading faults = (s', .ok accepted)) :
    ∃ n, s'.db.notification? prepared.plan.deliveryId = some n
      ∧ accepted.messageId = n.reportMessageId := by
  unfold notificationCommit at h
  split_ifs at h with hroot
  · cases hnow : s.queue.now reading with
    | mk queue clock =>
        rw [hnow] at h
        cases clock with
        | error e => cases h
        | ok now =>
            dsimp only at h
            unfold Store.transaction at h
            dsimp only at h
            cases htx : notificationCommitTx delivery prepared now faults s.db with
            | error e =>
                rw [htx] at h
                cases h
            | ok result =>
                obtain ⟨db, value⟩ := result
                rw [htx] at h
                obtain ⟨rfl, hend⟩ := commitReport_ok h
                rcases notificationCommitTx_eq_ok.1 htx with
                  ⟨row, hrow, rfl, rfl⟩ | ⟨-, -, -, hwrite, rfl⟩
                · rcases hend with ⟨-, rfl⟩ | ⟨hfalse, -⟩
                  · exact ⟨row, hrow, rfl⟩
                  · cases hfalse
                · rcases hend with ⟨htrue, -⟩ | ⟨-, rfl⟩
                  · cases htrue
                  · exact ⟨_, writeReport_notification hwrite, rfl⟩
  · cases h

end Commit

/-- At most one report for a delivery, only when it is owed, and never undone: every report is about
a definitely failed delivery of an authenticated submission and goes to its sender; committing again
reads the first report back, or gets the error of the clock guard; and a settled notification state
never changes. -/
theorem one_report_when_owed (w : World) (hreach : w.Reachable) :
    (∀ id, w.store.db.notifications.countP (fun n => decide (n.deliveryId = id)) ≤ 1
        ∧ w.store.db.messages.countP
          (fun m => decide (m.source = .dsn) && decide (m.ingestKey = dsnKey id)) ≤ 1)
      ∧ (∀ m ∈ w.store.db.messages, m.source = .dsn → ∃ n ∈ w.store.db.notifications,
        n.reportMessageId = m.id ∧ m.ingestKey = dsnKey n.deliveryId)
      ∧ (∀ n ∈ w.store.db.notifications, ∃ report row failed recipient,
        w.store.db.Owed n report row failed recipient ∧ row.state = .failed
          ∧ row.possiblyDelivered = false ∧ failed.reversePath ≠ [])
      ∧ (∀ d ∈ w.store.db.deliveries, ∀ m ∈ w.store.db.messages, m.id = d.messageId →
        m.source = .dsn → w.store.db.notification? d.id = none)
      ∧ (∀ (prepared : PreparedNotification) (delivery : Uuid) (reading : Reading) (faults : Faults) n,
        w.store.db.notification? prepared.plan.deliveryId = some n →
        (notificationCommit w.store prepared delivery reading faults).1.db = w.store.db
          ∧ (prepared.message.root = w.store.root →
            (∀ now, (w.store.queue.now reading).2 = .ok now →
              (notificationCommit w.store prepared delivery reading faults).2
                = .ok ⟨n.reportMessageId, true⟩)
            ∧ ∀ e, (w.store.queue.now reading).2 = .error e →
              (notificationCommit w.store prepared delivery reading faults).2 = .error e))
      ∧ (∀ prepared delivery reading faults accepted later,
        (w.step (.notificationCommit prepared delivery reading faults)).2 = .accepted (.ok accepted) →
        ∃ n, ((w.next (.notificationCommit prepared delivery reading faults)).run
            later).store.db.notification? prepared.plan.deliveryId = some n
          ∧ n.reportMessageId = accepted.messageId)
      ∧ ∀ id row op, w.store.db.delivery? id = some row → row.notificationState ≠ .pending →
        ∃ row', (w.next op).store.db.delivery? id = some row'
          ∧ row'.notificationState = row.notificationState := by
  have hkeys := hreach.keys
  have howed := hreach.reports
  refine ⟨?_, howed.recorded, ?_, ?_, ?_, ?_, ?_⟩
  · intro id
    refine ⟨Keyed.countP_le_one hkeys.notifications id, ?_⟩
    refine le_trans (List.countP_mono_left ?_) (Keyed.countP_le_one hkeys.ingestKeys (dsnKey id))
    intro m _ hm
    exact (Bool.and_eq_true_iff.1 hm).2
  · intro n hn
    obtain ⟨report, row, failed, recipient, h⟩ := howed.owed n hn
    have hrow : (w.store.db.view row.id).row = some row :=
      Keyed.lookup_of_mem hkeys.deliveries h.row_mem
    have hwf := (hreach.view_wf row.id).relay row hrow h.row_route
    have hreported : (w.store.db.view row.id).report.isSome = true :=
      Keyed.lookup_isSome_iff.2 ⟨n, hn, h.row_id.symm⟩
    have hcreated := hwf.created_iff.2 hreported
    have hstate := hwf.settled_failed (by simp [hcreated])
    refine ⟨report, row, failed, recipient, h, hstate, hwf.certain_flag (Or.inr hstate), ?_⟩
    rw [h.sender]
    exact Address.text_ne_nil recipient
  · intro d hd m hm hid hdsn
    by_contra hsome
    obtain ⟨n, hn⟩ := Option.ne_none_iff_exists'.1 hsome
    obtain ⟨report, row, failed, recipient, h⟩ := howed.owed n (Keyed.mem_of_lookup hn)
    have hrow : row = d := by
      refine List.inj_on_of_nodup_map hkeys.deliveries h.row_mem hd ?_
      rw [h.row_id, Keyed.lookup_some_key hn]
    have hmessage : failed = m := by
      refine List.inj_on_of_nodup_map hkeys.messages h.failed_mem hm ?_
      rw [h.failed_id, hrow, hid]
    have hsource := h.failed_source
    rw [hmessage, hdsn] at hsource
    cases hsource
  · intro prepared delivery reading faults n hn
    exact notificationCommit_replay hn
  · intro prepared delivery reading faults accepted later hreply
    have hcall : (w.call fun s => notificationCommit s prepared delivery reading faults).2
        = .ok accepted := Reply.accepted.inj hreply
    by_cases hopen : w.opened = true
    · rw [World.call_opened hopen] at hcall
      obtain ⟨n, hn, hname⟩ := notificationCommit_ok (Prod.ext rfl hcall)
      refine ⟨n, World.run_notification ?_ later, hname.symm⟩
      change (w.call fun s => notificationCommit s prepared delivery reading faults).1.store.db.notification?
        prepared.plan.deliveryId = some n
      rw [World.call_opened hopen]
      exact hn
    · rw [World.call_closed hopen] at hcall
      cases hcall
  · intro id row op hrow hsettled
    exact World.next_notificationState hkeys hrow hsettled op

/-- A report for the sample delivery, to be placed in the sender's own mailbox. -/
def Sample.bounce (reportId blob : Uuid) : PreparedNotification :=
  ⟨⟨Sample.deliveryId.text, reportId, Sample.recipient, true, 3600⟩, ⟨[], blob, 5, [], Sample.small⟩⟩

/-- A submission to a remote recipient that refused it, with one report committed. -/
def Sample.bounced : World :=
  Sample.fresh.run
    [.createAccount Sample.recipient 100 Sample.reading (fun _ => 1) {},
      .createCredential Sample.recipient Sample.token.text "mail" .mail
        (ascii "$argon2id$v=19$") Sample.reading,
      .setSendAs Sample.recipient Sample.recipient true {},
      .acceptRelaySubmission ⟨Sample.messageId, fun _ => Sample.deliveryId, fun _ => Sample.deliveryId⟩
        Sample.prepared ⟨Sample.operationId.text, some Sample.recipient, []⟩
        ⟨⟨1, 1, 2, .mail⟩, Sample.recipient⟩
        ⟨[Sample.remote], .sevenBit, 3600⟩ Sample.reading {},
      Sample.claim,
      Sample.finish 0 (.permanent 550),
      .notificationCommit (Sample.bounce Sample.token Sample.token) Sample.token Sample.reading {}]

/-- A second report for the same failure is answered with the first. -/
theorem one_report_when_owed_second_commit :
    Sample.bounced.store.db.notifications.length = 1
      ∧ (notificationCommit Sample.bounced.store (Sample.bounce Sample.messageId Sample.blobId)
          Sample.blobId Sample.reading {}).2 = .ok ⟨Sample.token.text, true⟩ := by
  obtain ⟨-, -, -, -, hreplay, -⟩ := one_report_when_owed Sample.bounced (Sample.reachable _)
  refine ⟨by decide, ?_⟩
  exact ((hreplay (Sample.bounce Sample.messageId Sample.blobId) Sample.blobId Sample.reading {}
    ⟨Sample.deliveryId.text, Sample.token.text, 1000⟩ (by decide)).2 (by decide)).1 1000 (by decide)

/-- With the wall clock one millisecond back, the second commit is not told of the first. -/
theorem second_commit_clock_back :
    Sample.bounced.store.db.notification? Sample.deliveryId.text
        = some ⟨Sample.deliveryId.text, Sample.token.text, 1000⟩
      ∧ (notificationCommit Sample.bounced.store (Sample.bounce Sample.messageId Sample.blobId)
          Sample.blobId ⟨some 999, 0⟩ {}).2 = .error .clockChanged
      ∧ (notificationCommit Sample.bounced.store (Sample.bounce Sample.messageId Sample.blobId)
          Sample.blobId ⟨some 999, 0⟩ {}).2 ≠ .ok ⟨Sample.token.text, true⟩ :=
  ⟨by decide, by decide, by decide⟩

end Rustymail
