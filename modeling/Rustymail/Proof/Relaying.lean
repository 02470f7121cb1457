import Rustymail.Proof.Coherence
import Rustymail.Proof.Ownership
import Rustymail.Proof.PrepareLemmas
import Rustymail.Proof.Rendering
import Rustymail.Relays

/-!
# Whatever is stored can be relayed

Every lease still says what the rows of its message say, and these rows say what was accepted. So the
message a lease hands to the client is the one that `receive_message` has checked line by line.
-/

namespace Rustymail

open Checked World

theorem Rfc2822.printable {date : Int → Option Text} (h : Rfc2822 date) {seconds : Int} {text : Text}
    (htext : text ∈ date seconds) : Rustymail.printable text = true := by
  unfold Rustymail.printable
  rw [List.all_eq_true]
  intro b hmem
  obtain ⟨hlow, hhigh⟩ := (h seconds text htext).1 b hmem
  simp only [printableByte, Bool.and_eq_true, decide_eq_true_eq]
  exact ⟨hlow, hhigh⟩

theorem Rfc2822.plain {date : Int → Option Text} (h : Rfc2822 date) (seconds : Int) :
    ∀ text ∈ date seconds, Rustymail.plain text = true :=
  fun _ htext => plain_of_printable (h.printable htext)

/-- **A message that can be sent is relayed**, without the prefix that is left out. -/
theorem Client.Sendable.relays {message : Client.Message} {stored sent : Text}
    (h : Client.Sendable message stored) (hsent : stored = message.omitPrefix ++ sent) :
    Client.Relays message stored sent where
  fits seen hfaithful hfailed := by
    have hall := Client.sendBody_transfers stored (message.storedSize + 1) {} (.start message) rfl
      (Nat.zero_le _) (Nat.lt_succ_self _)
    exact hall.reaches hfailed rfl h hfaithful
  sends seen hfaithful hdone := by
    have hall := Client.sendBody_transfers stored (message.storedSize + 1) {} (.start message) rfl
      (Nat.zero_le _) (Nat.lt_succ_self _)
    obtain ⟨-, hended, hwritten⟩ := hall.reaches hdone
    obtain ⟨lines, hlines, hread, hwire⟩ := h.body
    have hwhole : (Client.Transfer.after seen).read = stored := hfaithful.ended hended
    refine ⟨lines.map (· ++ crlf), ?_, ?_⟩
    · rw [hsent] at hread
      rw [← List.flatMap_def]
      exact (List.append_cancel_left hread).symm
    · intro pieces further hpieces
      change (Client.Transfer.after seen).written
        = Client.written message (Client.Transfer.after seen).read at hwritten
      rw [hwritten, hwhole, hwire] at hpieces
      obtain ⟨rest, hrest, hloop⟩ := collect_lines lines [] further hlines pieces hpieces
      exact ⟨rest, hloop, hrest⟩

/-! ### Leases -/

section Leases

variable {w : World} {op : Op} {db db' : Db} {l : QueueLease}

theorem Commits.recorded (h : Commits w op db db') (hl : db.Recorded l) : db'.Recorded l := by
  obtain ⟨message, queued, blob, hjoin, hrest⟩ := hl
  refine ⟨message, queued, blob, ?_, hrest⟩
  unfold claimMessage Db.message? Db.queueMessage? Db.blob? at hjoin ⊢
  simp only [Option.bind_eq_bind, Option.bind_eq_some_iff] at hjoin ⊢
  obtain ⟨message', hmessage, queued', hqueued, blob', hblob, hsame⟩ := hjoin
  rcases h.cases_adds with hrefs | ⟨a, -, -, hadds⟩
  · rw [hrefs.messages, hrefs.queueMessages, hrefs.blobs]
    exact ⟨message', hmessage, queued', hqueued, blob', hblob, hsame⟩
  · rw [hadds.messages, hadds.queueMessages, hadds.blobs]
    exact ⟨message', Keyed.lookup_append_of_some hmessage _, queued',
      Keyed.lookup_append_of_some hqueued _, blob', Keyed.lookup_append_of_some hblob _, hsame⟩

theorem CommitsAll.recorded (h : CommitsAll w op db db') (hl : db.Recorded l) : db'.Recorded l := by
  induction h with
  | refl => exact hl
  | tail _ hlast ih => exact hlast.recorded ih

/-- **Every lease says what the rows of its message say.** -/
theorem World.Reachable.recorded (h : w.Reachable) : ∀ l ∈ w.issued, w.store.db.Recorded l := by
  refine h.induct (fun w => ∀ l ∈ w.issued, w.store.db.Recorded l) ?_ ?_
  · intro root maxMessageBytes l hl
    cases hl
  · intro w op hreach hw l hl
    have hcommits := w.next_commits op
    cases w.next_volatile hreach.keys op with
    | loosens _ _ hissued =>
        rw [hissued] at hl
        exact hcommits.recorded (hw l hl)
    | reads _ _ hsame =>
        rw [hsame] at hl ⊢
        exact hw l hl
    | @claims policy limit keepLease keepReader input leases hop hclaim =>
        rw [hclaim.issued_eq] at hl
        rcases List.mem_append.1 hl with hold | hnew
        · exact hcommits.recorded (hw l hold)
        · rcases hclaim.handsOut with rfl | ⟨ctx, swept, -, hout, -⟩
          · cases hnew
          · exact hout.recorded l hnew
    | reopens _ _ _ _ hissued =>
        rw [hissued] at hl
        exact hcommits.recorded (hw l hl)

/-- What a lease of an accepted message says about it. -/
theorem Db.Recorded.of_holds {message : PreparedMessage} {plan : Acceptance}
    {identity : SubmissionIdentity} {relay : Option RelayAcceptance} (hrecorded : db.Recorded l)
    (hkeys : db.Keys)
    (hholds : db.Holds plan.operationId
      (acceptanceFingerprint message plan (some identity) relay) l.messageId) :
    l.sender = plan.sender ∧ l.storedSize = message.size ∧ l.submission = true
      ∧ ∃ r, relay = some r ∧ l.body = r.body := by
  obtain ⟨row, queued, blob, hjoin, hsender, hbody, -, hsize, hsubmission⟩ := hrecorded
  obtain ⟨held, hmem, blob', hid, -, hblob', hfingerprint⟩ := hholds
  unfold claimMessage at hjoin
  simp only [Option.bind_eq_bind, Option.bind_eq_some_iff, Option.some.injEq, Prod.mk.injEq] at hjoin
  obtain ⟨_, hmessage, _, hqueued, _, hblob, rfl, rfl, rfl⟩ := hjoin
  have hlookup : db.message? l.messageId = some held := by
    rw [← hid]
    exact Keyed.lookup_of_mem hkeys.messages hmem
  obtain rfl : held = _ := Option.some.inj (hlookup.symm.trans hmessage)
  obtain rfl : blob' = _ := Option.some.inj (hblob'.symm.trans hblob)
  have hpath : held.reversePath = reversePathOf plan.sender := congrArg Fingerprint.sender hfingerprint
  have hstored : blob'.sizeBytes = message.size := congrArg Fingerprint.size hfingerprint
  have hkind : held.source = .submission := congrArg Fingerprint.kind hfingerprint
  have hqueue : (db.queueMessage? held.id).map queueFingerprint = relay.map relayFingerprint :=
    congrArg Fingerprint.queue hfingerprint
  rw [hpath, parseSender_reversePathOf] at hsender
  rw [hid, hqueued, Option.map_some] at hqueue
  obtain ⟨r, hr, hsame⟩ := Option.map_eq_some_iff.1 hqueue.symm
  refine ⟨(Except.ok.inj hsender).symm, hsize.trans hstored, ?_, r, hr, ?_⟩
  · rw [hsubmission, decide_eq_true hkind]
  · rw [hbody]
    exact (congrArg Prod.fst hsame).symm

end Leases

/-! ### Submissions -/

theorem relays_submissions {date : Int → Option Text} (hdate : Rfc2822 date) :
    RelaysSubmissions date := by
  intro limits faults trace envelope operation seconds traced root id bufferLimit maxSize limited
    pieces rest stage author sha256 config session identity request w lease htraced hreceived hrequest
    hreach hlease hholds
  subst hrequest
  obtain ⟨hsender, hsize, hsubmission, r, hrelay, hbody⟩ :=
    (hreach.recorded lease hlease).of_holds hreach.keys hholds
  have homit : lease.message.omitPrefix
      = ascii "Return-Path: <" ++ envelope.sender.elim [] Address.asStr ++ ascii ">" ++ crlf := by
    change lease.omittedPrefix = _
    unfold QueueLease.omittedPrefix
    rw [if_pos hsubmission, hsender]
    rfl
  have hseven : lease.message.body = .sevenBit → envelope.body = .sevenBit := by
    intro hmessage
    change Server.relayAcceptance config _ envelope.body = some r at hrelay
    unfold Server.relayAcceptance at hrelay
    split at hrelay
    · cases hrelay
    · cases hrelay
      by_contra hother
      rw [if_neg hother] at hbody
      rw [QueueLease.message, hbody] at hmessage
      cases hmessage
  have hsendable := Server.receiveMessage_sendable (hdate.plain seconds) htraced hreceived homit hseven
    hsize
  obtain ⟨others, -, hlines⟩ := Server.Trace.prefixText_lines (hdate.plain seconds) htraced
  obtain ⟨lines, -, hstored, -⟩ := hsendable.body
  refine ⟨_, _, (plain_clean (hlines _ List.mem_cons_self).1).2.2, ?_, hsendable.relays hstored⟩
  rw [← homit]
  exact hstored

/-! ### Reports -/

/-- Messages and deliveries go by generated identifiers. -/
structure Db.Identified (db : Db) : Prop where
  messages : ∀ m ∈ db.messages, validId m.id = true
  deliveries : ∀ d ∈ db.deliveries, validId d.id = true

section Identified

variable {w : World} {op : Op} {db db' : Db}

theorem Commits.identified (h : Commits w op db db') (hdb : db.Identified) : db'.Identified := by
  rcases h.cases_adds with hrefs | ⟨a, ha, -, hadds⟩
  · constructor
    · rw [hrefs.messages]
      exact hdb.messages
    · intro d hd
      obtain ⟨d', hd', hsame⟩ := exists_same_identity hrefs.deliveries hd
      rw [← (Delivery.identity_eq_iff.1 hsame).1]
      exact hdb.deliveries d' hd'
  · constructor
    · intro m hm
      rw [hadds.messages] at hm
      rcases List.mem_append.1 hm with hold | hnew
      · exact hdb.messages m hold
      · rw [List.mem_singleton.1 hnew]
        exact ha.id_valid
    · intro d hd
      obtain ⟨d', hd', hsame⟩ := exists_same_identity hadds.deliveries hd
      rw [← (Delivery.identity_eq_iff.1 hsame).1]
      rcases List.mem_append.1 hd' with hold | hnew
      · exact hdb.deliveries d' hold
      · exact ha.ids_valid d' hnew

theorem World.Reachable.identified (h : w.Reachable) : w.store.db.Identified :=
  h.of_commits Db.Identified ⟨by simp, by simp⟩ fun _ _ _ _ => Commits.identified

end Identified

theorem prepareReport_renders {store : Store} {policy : NotificationPolicy} {postmaster : Address}
    {failure : Failure} {now : Int} {input : NotificationInput} {task : NotificationTask}
    (h : prepareReport store policy postmaster failure now input = .ok task) :
    render input.date failure task.plan policy postmaster now = .ok task.bytes := by
  unfold prepareReport at h
  simp only [bind_eq_ok] at h
  obtain ⟨recipient, -, bytes, hrender, h⟩ := h
  split_ifs at h with hlocal
  · simp only [bind_eq_ok, pure_eq_ok] at h
    obtain ⟨_, -, _, -, _, -, rfl⟩ := h
    exact hrender
  · simp only [bind_eq_ok, pure_eq_ok] at h
    obtain ⟨_, -, _, -, rfl⟩ := h
    exact hrender

/-- The report a task holds was rendered for a failure in the database. -/
theorem notificationNext_renders {store : Store} {policy : NotificationPolicy}
    {input : NotificationInput} {task : NotificationTask}
    (h : (notificationNext store policy input).2 = .ok (.prepare task)) :
    ∃ failure postmaster now, validDomain policy.hostname = true
      ∧ nextFailure now store.db = some failure
      ∧ render input.date failure task.plan policy postmaster now = .ok task.bytes := by
  obtain ⟨postmaster, now, failure, hvalidate, -, hdue, queue, hprepared⟩ := notificationNext_task h
  exact ⟨failure, postmaster, now, hostname_of_validate hvalidate, hdue,
    prepareReport_renders hprepared⟩

/-- A report consists of short lines of plain text, with a separator among them. -/
theorem render_lines {date : Int → Option Text} (hdate : Rfc2822 date) {f : Failure}
    {plan : NotificationPlan} {policy : NotificationPolicy} {postmaster : Address} {now : Int}
    {bytes : Text} (hid : validId f.id = true) (hmessage : validId f.messageId = true)
    (hhostname : validDomain policy.hostname = true)
    (h : render date f plan policy postmaster now = .ok bytes) :
    ∃ lines : List Text, bytes = lines.flatMap (· ++ crlf) ∧ [] ∈ lines
      ∧ ∀ line ∈ lines, plain line = true ∧ line.length ≤ 998 := by
  unfold render at h
  simp only [bind_eq_ok, found_eq_ok, pure_eq_ok] at h
  obtain ⟨recipient, -, text, htext, ⟨⟩, -, rfl⟩ := h
  have hprintable := hdate.printable htext
  have hshort := (hdate _ text htext).2
  refine ⟨_, rfl, by simp [reportLines], fun line hmem => ⟨?_, ?_⟩⟩
  · exact plain_of_printable (printable_reportLines postmaster recipient (printable_id hid)
      (printable_id hmessage) (printable_domain hhostname) hprintable line hmem)
  · exact reportLines_length postmaster recipient (Uuid.length ⟨_, hid⟩) (Uuid.length ⟨_, hmessage⟩)
      (domain_length hhostname) hshort line hmem

theorem nextFailure_identified {db : Db} (hdb : db.Identified) {now : Int} {failure : Failure}
    (h : nextFailure now db = some failure) :
    validId failure.id = true ∧ validId failure.messageId = true := by
  obtain ⟨row, hrow, hid, -⟩ := nextFailure_row h
  refine ⟨hid ▸ hdb.deliveries row hrow, ?_⟩
  unfold nextFailure at h
  simp only [Option.bind_eq_bind, Option.bind_eq_some_iff, Option.some.injEq] at h
  obtain ⟨first, -, message, hmessage, rfl⟩ := h
  exact hdb.messages message (Keyed.mem_of_lookup hmessage)

theorem relays_reports {date : Int → Option Text} (hdate : Rfc2822 date) : RelaysReports date := by
  rintro w policy input task message hreach rfl hstep - hbody hsize homit
  have hnext : (notificationNext w.store policy input).2 = .ok (.prepare task) := by
    change Reply.work (w.call fun s => notificationNext s policy input).2 = _ at hstep
    unfold World.call at hstep
    split_ifs at hstep with hopened
    · exact Reply.work.inj hstep
    · cases hstep
  obtain ⟨failure, postmaster, now, hhostname, hdue, hrender⟩ := notificationNext_renders hnext
  obtain ⟨hid, hmessage⟩ := nextFailure_identified hreach.identified hdue
  obtain ⟨lines, hbytes, hseparated, hlines⟩ := render_lines hdate hid hmessage hhostname hrender
  have hkept := Client.Kept.of_plain hlines (Or.inl homit)
  rw [← hbytes] at hkept
  refine (hkept.sendable hseparated hsize.symm).relays ?_
  rw [homit, List.nil_append]

/-! ### All three -/

/-- Whatever the program stores for relaying, it can relay: submissions without the line it has put in
front of them, and the messages of the command line and its own reports as they are. -/
theorem stored_is_relayed (date : Int → Option Text) (hdate : Rfc2822 date) :
    RelaysSubmissions date ∧ RelaysSnapshots ∧ RelaysReports date := by
  refine ⟨relays_submissions hdate, ?_, relays_reports hdate⟩
  intro limits created flushed input snapshot sender recipient hprepared
  exact (Client.prepare_sendable hprepared sender recipient).relays rfl

namespace Sample

/-- The time of the samples, as the formatter writes it. -/
def date (seconds : Int) : Option Text :=
  if seconds = 1 then some (ascii "Thu, 01 Jan 1970 00:00:01 +0000") else none

theorem date_rfc2822 : Rfc2822 date := by
  intro seconds text htext
  unfold date at htext
  split_ifs at htext
  · cases htext
    decide +kernel
  · cases htext

def trace : Server.Trace :=
  ⟨ascii "mx.b.c", some (ascii "client.b.c"), .v4 (Vector.replicate 4 127), true, true, true⟩

def envelope : Server.Envelope := ⟨some recipient, [remote], .sevenBit⟩

def traced : Text := (trace.prefixText envelope.sender operationId (date 1)).getD []

theorem traced_eq : trace.prefixText envelope.sender operationId (date 1) = some traced := by
  have hsome : (trace.prefixText envelope.sender operationId (date 1)).isSome = true := by
    decide +kernel
  obtain ⟨text, htext⟩ := Option.isSome_iff_exists.1 hsome
  unfold traced
  rw [htext]
  rfl

theorem roomy : 2000 ≤ maxStoredBytes := by decide

/-- A submission with a stuffed line and a field that is not passed on, in two pieces. -/
def submission : Except Server.ServerError (StagedMessage × Option Address × List Text) :=
  Server.receiveMessage ⟨1000, 1000⟩ {} true envelope.body traced (.new [] blobId 1024 2000 roomy)
    [ascii "From: a@b.c\r\nBc", ascii "c: x@y.z\r\n\r\n..dot\r\n.\r\n"]

def request (stage : StagedMessage) : Server.AcceptRequest :=
  Server.acceptRequest ⟨[ascii "b.c"], 3600, 1⟩ 0 operationId envelope (stage.prepared fun _ => [])
    (some ⟨⟨1, 1, 2, .mail⟩, recipient⟩)

/-- The submission of the only account is accepted, and claimed. -/
def forwarded (message : PreparedMessage) : World :=
  (World.init [] 4000).run
    [.createAccount recipient 100 reading (fun _ => 1) {},
      .createCredential recipient token.text "mail" .mail (ascii "$argon2id$v=19$") reading,
      .setSendAs recipient recipient true {},
      .acceptRelaySubmission ⟨messageId, fun _ => deliveryId, fun _ => deliveryId⟩ message
        ⟨operationId.text, some recipient, []⟩
        ⟨⟨1, 1, 2, .mail⟩, recipient⟩ ⟨[remote], .sevenBit, 3600⟩ reading {},
      claim]

theorem forwarded_reachable (message : PreparedMessage) : (forwarded message).Reachable :=
  ⟨[], 4000, _, rfl⟩

theorem submission_leased : ∃ stage author rest lease, submission = .ok (stage, author, rest)
    ∧ lease ∈ (forwarded (request stage).message).issued
    ∧ (forwarded (request stage).message).store.db.Holds (request stage).plan.operationId
      (acceptanceFingerprint (request stage).message (request stage).plan (request stage).identity
        (request stage).relay) lease.messageId := by
  have hcheck : (submission.toOption.any fun result : StagedMessage × Option Address × List Text =>
      decide (∃ lease ∈ (forwarded (request result.1).message).issued,
        ∃ message ∈ (forwarded (request result.1).message).store.db.messages,
          message.id = lease.messageId ∧ message.ingestKey = (request result.1).plan.operationId
            ∧ ((forwarded (request result.1).message).store.db.blob? message.blobId).any (fun blob =>
              decide ((forwarded (request result.1).message).store.db.fingerprint message blob
                = acceptanceFingerprint (request result.1).message (request result.1).plan
                  (request result.1).identity (request result.1).relay)) = true)) = true := by
    decide +kernel
  rw [Option.any_eq_true] at hcheck
  obtain ⟨⟨stage, author, rest⟩, hreceived, hfound⟩ := hcheck
  obtain ⟨lease, hlease, message, hmessage, hid, hkey, hblob⟩ := of_decide_eq_true hfound
  rw [Option.any_eq_true] at hblob
  obtain ⟨blob, hblob, hsame⟩ := hblob
  exact ⟨stage, author, rest, lease, toOption_eq_some.1 hreceived, hlease, message, hmessage, blob,
    hid, hkey, hblob, of_decide_eq_true hsame⟩

def snapshot : Client.Snapshot :=
  ⟨ascii "Subject: x\r\n\r\n.dot\r\n", 20, .sevenBit⟩

def author : Address := recipient

/-- The remote server has refused the submission. -/
def turnedAway : World := (forwarded prepared).next (finish 0 (.permanent 550))

def elsewhere : NotificationPolicy := ⟨ascii "mx.q.c", [ascii "q.c"], 3600⟩

def reporting : NotificationInput := ⟨reading, reading, operationId, date, .ok ()⟩

def staged : NotificationWork → Option NotificationTask
  | .empty => none
  | .suppressed => none
  | .prepare task => some task

theorem report_prepared : ∃ task,
    (turnedAway.step (.notificationNext elsewhere reporting)).2 = .work (.ok (.prepare task))
      ∧ task.plan.isLocal = false := by
  have hcheck : (((turnedAway.call fun s => notificationNext s elsewhere reporting).2.toOption.bind
      staged).any fun task => !task.plan.isLocal) = true := by
    decide +kernel
  rw [Option.any_eq_true] at hcheck
  obtain ⟨task, htask, hremote⟩ := hcheck
  obtain ⟨work, hwork, hstaged⟩ := Option.bind_eq_some_iff.1 htask
  cases work with
  | empty => cases hstaged
  | suppressed => cases hstaged
  | prepare task' =>
      cases hstaged
      exact ⟨task, congrArg Reply.work (toOption_eq_some.1 hwork), Bool.not_eq_true' _ ▸ hremote⟩

end Sample

/-- A submission goes out without the line put in front of it, a snapshot and a report as they are. -/
theorem sample_is_relayed :
    (∃ stage author rest, Sample.submission = .ok (stage, author, rest)
        ∧ ∃ lease ∈ (Sample.forwarded (Sample.request stage).message).issued, ∃ line sent : Text,
          lf ∉ line ∧ stage.hashed = line ++ crlf ++ sent
            ∧ Client.Relays lease.message stage.hashed sent)
      ∧ Client.Relays (Sample.snapshot.message Sample.author Sample.author) Sample.snapshot.bytes
        Sample.snapshot.bytes
      ∧ ∃ task, (Sample.turnedAway.step (.notificationNext Sample.elsewhere Sample.reporting)).2
          = .work (.ok (.prepare task))
        ∧ Client.Relays ⟨none, Sample.author, .sevenBit, task.bytes.length, []⟩ task.bytes
          task.bytes := by
  obtain ⟨hsubmissions, hsnapshots, hreports⟩ := stored_is_relayed Sample.date Sample.date_rfc2822
  refine ⟨?_, ?_, ?_⟩
  · obtain ⟨stage, author, rest, lease, hreceived, hlease, hheld⟩ := Sample.submission_leased
    refine ⟨stage, author, rest, hreceived, lease, hlease, ?_⟩
    exact hsubmissions _ _ _ _ _ _ _ _ _ _ _ _ _ _ _ _ (fun _ => []) _ _ _ _ _ _ Sample.traced_eq
      hreceived rfl (Sample.forwarded_reachable _) hlease hheld
  · have hsnapshot := hsnapshots {} true true
      [⟨some (ascii "Bcc: y\r\nSubject: x\r\n\r"), true⟩, ⟨some (ascii "\n.dot\r\n"), true⟩]
      Sample.snapshot
    have hrelays := hsnapshot Sample.author Sample.author rfl
    exact hrelays
  · obtain ⟨task, hreply, hremote⟩ := Sample.report_prepared
    refine ⟨task, hreply, ?_⟩
    exact hreports _ _ _ _ _ ((Sample.forwarded_reachable _).next _) rfl hreply hremote rfl rfl rfl

end Rustymail
