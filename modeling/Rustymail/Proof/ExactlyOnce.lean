import Rustymail.Acceptances
import Rustymail.Attempts
import Rustymail.Proof.ClockGuard
import Rustymail.Proof.Reports

/-!
# Acceptance happens once

The message rows tell how they came in: submissions have an account, imports a queue row and no local
delivery, reports a key no caller can use. So the comparison each call makes is the comparison of
whole fingerprints, and a fresh acceptance leaves the fingerprint it asked for.
-/

namespace Rustymail

open Checked Loops

/-- What the source of a message says about its other rows. -/
structure Db.Sources (db : Db) : Prop where
  submission : ∀ m ∈ db.messages, m.source = .submission ↔ m.authenticatedAccountId.isSome
  imported : ∀ m ∈ db.messages, m.source = .imported → (db.queueMessage? m.id).isSome
    ∧ ∀ d ∈ db.deliveries, d.messageId = m.id → d.route = .relay
  no_append : ∀ m ∈ db.messages, m.source ≠ .append

variable {w : World} {op : Op} {db db' : Db} {a : Added}

theorem SameRefs.sources (h : SameRefs db db') (hw : db.Sources) : db'.Sources := by
  constructor
  · rw [h.messages]
    exact hw.submission
  · rw [h.messages]
    intro m hm hsource
    obtain ⟨hqueued, hroutes⟩ := hw.imported m hm hsource
    unfold Db.queueMessage?
    rw [h.queueMessages]
    refine ⟨hqueued, ?_⟩
    intro d hd hmessage
    obtain ⟨d', hd', hsame⟩ := exists_same_identity h.deliveries hd
    obtain ⟨-, hmessage', -, hroute⟩ := Delivery.identity_eq_iff.1 hsame
    exact hroute.symm.trans (hroutes d' hd' (hmessage'.trans hmessage))
  · rw [h.messages]
    exact hw.no_append

theorem Adds.sources (h : Adds db db' a) (ha : a.Wf) (horigin : a.Origin db) (hrefs : db.Coherent)
    (hw : db.Sources) : db'.Sources := by
  constructor
  · intro m hm
    rw [h.messages, List.mem_append, List.mem_singleton] at hm
    rcases hm with hold | rfl
    · exact hw.submission m hold
    · cases horigin with
      | accepted hkey hreport hsource =>
          rw [hsource]
          split_ifs with haccount <;> simp [haccount]
      | imported hkey hreport hsource haccount => simp [hsource, haccount]
      | reported hkey hsource haccount => simp [hsource, haccount]
  · intro m hm hsource
    rw [h.messages, List.mem_append, List.mem_singleton] at hm
    rcases hm with hold | rfl
    · obtain ⟨hqueued, hroutes⟩ := hw.imported m hold hsource
      obtain ⟨q, hq⟩ := Option.isSome_iff_exists.1 hqueued
      refine ⟨by simp [h.queueMessage_old hq], ?_⟩
      intro d hd hmessage
      obtain ⟨d', hd', hsame⟩ := h.old_delivery ha hold hd hmessage
      obtain ⟨-, hmessage', -, hroute⟩ := Delivery.identity_eq_iff.1 hsame
      exact hroute.symm.trans (hroutes d' hd' (hmessage'.trans hmessage))
    · cases horigin with
      | accepted hkey hreport hsource' =>
          rw [hsource] at hsource'
          split_ifs at hsource'
      | imported hkey hreport hsource' haccount hqueued hmailed =>
          obtain ⟨q, hq⟩ := Option.isSome_iff_exists.1 hqueued
          constructor
          · refine Keyed.lookup_isSome_iff.2 ⟨q, ?_, ha.queued q hq⟩
            rw [h.queueMessages, hq]
            exact List.mem_append_right _ List.mem_cons_self
          · intro d hd hmessage
            rcases h.new_delivery hrefs hd hmessage with ⟨d', hd', -⟩ | ⟨d', hd', hsame⟩
            · simp [hmailed] at hd'
            · obtain ⟨-, -, -, hroute⟩ := Delivery.identity_eq_iff.1 hsame
              exact hroute.symm.trans (ha.relayed d' hd').2.1
      | reported hkey hsource' =>
          rw [hsource] at hsource'
          cases hsource'
  · intro m hm
    rw [h.messages, List.mem_append, List.mem_singleton] at hm
    rcases hm with hold | rfl
    · exact hw.no_append m hold
    · cases horigin with
      | accepted hkey hreport hsource =>
          rw [hsource]
          split_ifs <;> simp
      | imported hkey hreport hsource => simp [hsource]
      | reported hkey hsource => simp [hsource]

theorem World.Reachable.sources (h : w.Reachable) : w.store.db.Sources := by
  refine (h.of_commits (fun db => db.Coherent ∧ db.Sources) ⟨.empty, ?_⟩ ?_).2
  · constructor <;> simp
  · intro w op db db' hcommit hw
    refine ⟨hcommit.coherent hw.1, ?_⟩
    rcases hcommit.cases_adds with hsame | ⟨a, ha, horigin, hadds⟩
    · exact hsame.sources hw.2
    · exact hadds.sources ha horigin hw.1 hw.2

/-! ### Sets of texts -/

theorem btreeSet_self {texts : List Text} (hnodup : texts.Nodup) (hsorted : texts.Pairwise (· ≤ ·)) :
    btreeSet texts = texts := by
  unfold btreeSet
  rw [hnodup.dedup, hsorted.insertionSort_eq]

theorem btreeSet_idem (texts : List Text) : btreeSet (btreeSet texts) = btreeSet texts := by
  apply btreeSet_self
  · exact (List.perm_insertionSort _ _).nodup_iff.2 (List.nodup_dedup texts)
  · exact List.pairwise_insertionSort _ _

/-! ### The fingerprint of a fresh message -/

section Fresh

variable {blob : Blob} {message : Message} {ids relayIds : Text → Uuid} {locals remotes : List Text}
  {queue : Option (QueueBody × Nat)} {now : Int}

theorem Db.Coherent.no_deliveries (hrefs : db.Coherent) (hfresh : db.message? message.id = none) :
    ∀ d ∈ db.deliveries, d.messageId ≠ message.id := by
  intro d hd hmessage
  have hsome := hrefs.delivery_message d hd
  rw [hmessage, hfresh] at hsome
  cases hsome

theorem AddsMessage.recorded (h : AddsMessage db db' blob message ids relayIds locals remotes queue now)
    (hrefs : db.Coherent) (hfresh : db.message? message.id = none) :
    recordedRecipients db' message.id (· == .localMail) = btreeSet locals
      ∧ recordedRecipients db' message.id (· == .relay) = btreeSet remotes := by
  obtain ⟨expires, hdeliveries⟩ := h.deliveries
  have hold : ∀ onRoute : Route → Bool, db.deliveries.filter
      (fun d => decide (d.messageId = message.id) && onRoute d.route) = [] := by
    intro onRoute
    rw [List.filter_eq_nil_iff]
    intro d hd
    simp [hrefs.no_deliveries hfresh d hd]
  unfold recordedRecipients
  rw [hdeliveries]
  constructor
  · rw [List.filter_append, List.filter_append, hold (· == .localMail), List.nil_append]
    congr 1
    simp [localRows, relayRows, localDelivery, relayDelivery, List.filter_map, Function.comp_def]
  · rw [List.filter_append, List.filter_append, hold (· == .relay), List.nil_append]
    congr 1
    simp [localRows, relayRows, localDelivery, relayDelivery, List.filter_map, Function.comp_def]

theorem AddsMessage.queued (h : AddsMessage db db' blob message ids relayIds locals remotes queue now)
    (hrefs : db.Coherent) (hfresh : db.message? message.id = none) :
    (db'.queueMessage? message.id).map queueFingerprint = queue := by
  have hnone : db.queueMessage? message.id = none := by
    rw [Db.queueMessage?, Keyed.lookup_none_iff]
    intro q hq hid
    obtain ⟨d, hd, hmessage, -⟩ := hrefs.queued_relay q hq
    exact hrefs.no_deliveries hfresh d hd (hmessage.trans hid)
  unfold Db.queueMessage? at hnone ⊢
  rw [h.queueMessages, Keyed.lookup_append, hnone]
  cases queue with
  | none => rfl
  | some q => simp [Keyed.lookup, queueFingerprint]

/-- The rows of a fresh message carry the fingerprint that was asked for. -/
theorem AddsMessage.holds (h : AddsMessage db db' blob message ids relayIds locals remotes queue now)
    (hrefs : db.Coherent) (hfresh : db.message? message.id = none)
    (hblob : db.blob? blob.id = none) (hlink : message.blobId = blob.id)
    (hlocals : btreeSet locals = locals) (hremotes : btreeSet remotes = remotes) :
    db'.Holds message.ingestKey ⟨message.source, message.reversePath, blob.sha256, blob.sizeBytes,
      locals, remotes, queue, message.authenticatedAccountId⟩ message.id := by
  obtain ⟨hlocal, hremote⟩ := h.recorded hrefs hfresh
  refine ⟨message, ?_, blob, rfl, rfl, ?_, ?_⟩
  · rw [h.messages]
    exact List.mem_append_right _ List.mem_cons_self
  · unfold Db.blob?
    rw [h.blobs, hlink, Keyed.lookup_append_singleton hblob, if_pos rfl]
  · unfold Db.fingerprint
    rw [hlocal, hremote, hlocals, hremotes, h.queued hrefs hfresh]

end Fresh

theorem writeAcceptance_adds_message {i : Intake} {now : Int}
    (hvalid : validAcceptance w.store i.message i.plan i.relay)
    (h : writeAcceptance i.ids i.message i.plan i.identity i.relay now db = .ok db') :
    AddsMessage db db' (i.message.blobRow now) (acceptedRow i.ids i.message i.plan i.identity now)
      i.ids.deliver i.ids.relay (localKeys i.plan) (remoteKeys i.relay)
      (i.relay.map relayFingerprint) now := by
  obtain ⟨-, delivered, hlocal, hrelay⟩ := writeAcceptance_eq_ok h
  obtain ⟨hsame, hdeliveries, entries, hentries, hshape⟩ := deliver_all hlocal
  rcases hrelay with ⟨hnone, rfl⟩ | ⟨r, hr, hinsert⟩
  · rw [hnone]
    refine ⟨hsame.blobs, hsame.messages, ⟨0, ?_⟩, ⟨entries, hentries, hshape⟩, ?_, ?_,
      hsame.credentials, hsame.addresses, hsame.notifications, hsame.queueLeases, hsame.adminEvents⟩
    · rw [hdeliveries]
      exact (List.append_nil _).symm
    · exact hsame.queueMessages.trans (List.append_nil _).symm
    · simp [remoteKeys, btreeSet]
  · obtain ⟨expires, -, rfl⟩ := insertRelay_all hinsert
    have hnonempty : remoteKeys (some r) ≠ [] := by
      have hrecipients := (hvalid.2.2.2.2 r hr).1
      exact btreeSet_ne_nil (by simpa using hrecipients)
    rw [hr]
    refine ⟨hsame.blobs, hsame.messages, ⟨expires, ?_⟩, ⟨entries, hentries, hshape⟩, ?_, ?_,
      hsame.credentials, hsame.addresses, hsame.notifications, hsame.queueLeases, hsame.adminEvents⟩
    · dsimp only
      rw [hdeliveries]
      rfl
    · dsimp only
      rw [hsame.queueMessages]
      rfl
    · simp [hnonempty]

theorem writeEnqueue_adds_message {ids : FreshIds} {message : PreparedMessage} {plan : QueuePlan}
    {now : Int} (hvalid : validEnqueue w.store message plan)
    (h : writeEnqueue ids message plan now db = .ok db') :
    AddsMessage db db' (message.blobRow now) (enqueuedRow ids message plan now) ids.deliver ids.relay
      [] (queueKeys plan) (some (plan.body, plan.maxAgeSeconds)) now := by
  obtain ⟨-, hinsert⟩ := writeEnqueue_eq_ok h
  obtain ⟨expires, -, rfl⟩ := insertRelay_all hinsert
  have hnonempty : queueKeys plan ≠ [] := btreeSet_ne_nil (by simpa using hvalid.2.2.1)
  refine ⟨rfl, rfl, ⟨expires, ?_⟩, ⟨[], (List.append_nil _).symm, rfl⟩, rfl, by simp [hnonempty], rfl,
    rfl, rfl, rfl, rfl⟩
  simp [localRows, Db.withMessage, enqueuedRow]

/-! ### Comparing with an earlier acceptance -/

theorem previousAcceptance_eq_some (hkeys : db.Keys) {operationId : Text} {message : Message}
    {blob : Blob} : previousAcceptance db operationId = some (message, blob) ↔
      (message ∈ db.messages ∧ message.ingestKey = operationId) ∧ db.blob? message.blobId = some blob := by
  unfold previousAcceptance
  simp only [Option.bind_eq_bind, Option.bind_eq_some_iff, Option.some.injEq, Prod.mk.injEq]
  rw [← Keyed.lookup_eq_some_iff hkeys.ingestKeys]
  constructor
  · rintro ⟨message', hmessage, blob', hblob, rfl, rfl⟩
    exact ⟨hmessage, hblob⟩
  · rintro ⟨hmessage, hblob⟩
    exact ⟨message, hmessage, blob, hblob, rfl, rfl⟩

theorem dsnKey_not_valid (id : Text) : validId (dsnKey id) = false := by
  have hletter : isAsciiDigit 115 = false := by decide
  simp [validId, dsnKey, ascii, hletter]

section Compare

variable {message : PreparedMessage} {previous : Message} {blob : Blob}

/-- No route but these two is ever written. -/
theorem recordedRecipients_remote (hroutes : ∀ d ∈ db.deliveries, d.route ≠ .direct) (id : Text) :
    recordedRecipients db id (· != .localMail) = recordedRecipients db id (· == .relay) := by
  unfold recordedRecipients
  congr 2
  apply List.filter_congr
  intro d hd
  cases hroute : d.route with
  | localMail => rfl
  | relay => rfl
  | direct => exact absurd hroute (hroutes d hd)

theorem World.Reachable.routes (h : w.Reachable) : ∀ d ∈ w.store.db.deliveries, d.route ≠ .direct := by
  intro d hd
  exact (h.view_wf d.id).route d (Keyed.lookup_of_mem h.keys.deliveries hd)

theorem sameAcceptance_iff (hreach : w.Reachable) {plan : Acceptance}
    {identity : Option SubmissionIdentity} {relay : Option RelayAcceptance}
    (hsubmission : relay.isSome → identity.isSome) (hmem : previous ∈ w.store.db.messages)
    (hkey : validId previous.ingestKey = true) :
    sameAcceptance w.store.db message plan identity relay previous blob ↔
      w.store.db.fingerprint previous blob = acceptanceFingerprint message plan identity relay := by
  unfold sameAcceptance Db.fingerprint acceptanceFingerprint
  rw [recordedRecipients_remote hreach.routes, Fingerprint.mk.injEq]
  constructor
  · rintro ⟨hremote, hqueue, hsender, hhash, hsize, hlocal, haccount⟩
    refine ⟨?_, hsender, hhash, hsize, hlocal, hremote, hqueue, haccount⟩
    cases hidentity : identity with
    | some i =>
        have hsome : previous.authenticatedAccountId.isSome := by
          simp [haccount, accountOf, hidentity]
        simpa using (hreach.sources.submission previous hmem).2 hsome
    | none =>
        have hrelay : relay = none := by
          by_contra hsome
          simpa [hidentity] using hsubmission (Option.ne_none_iff_isSome.1 hsome)
        cases hsource : previous.source with
        | smtp => rfl
        | submission =>
            have hsome := (hreach.sources.submission previous hmem).1 hsource
            simp [haccount, accountOf, hidentity] at hsome
        | imported =>
            obtain ⟨hqueued, -⟩ := hreach.sources.imported previous hmem hsource
            have hnone : w.store.db.queueMessage? previous.id = none := by
              simpa [hrelay] using hqueue
            rw [hnone] at hqueued
            cases hqueued
        | append => exact absurd hsource (hreach.sources.no_append previous hmem)
        | dsn =>
            obtain ⟨n, -, -, hdsn⟩ := hreach.reports.recorded previous hmem hsource
            rw [hdsn, dsnKey_not_valid] at hkey
            cases hkey
  · rintro ⟨-, hsender, hhash, hsize, hlocal, hremote, hqueue, haccount⟩
    exact ⟨hremote, hqueue, hsender, hhash, hsize, hlocal, haccount⟩

theorem sameEnqueue_iff (hreach : w.Reachable) {plan : QueuePlan}
    (hmem : previous ∈ w.store.db.messages) :
    sameEnqueue w.store.db message plan previous blob ↔
      w.store.db.fingerprint previous blob = enqueueFingerprint message plan := by
  unfold sameEnqueue Db.fingerprint enqueueFingerprint
  rw [Fingerprint.mk.injEq]
  constructor
  · rintro ⟨hsource, hsender, hhash, hsize, hremote, hqueue⟩
    obtain ⟨-, hrelayed⟩ := hreach.sources.imported previous hmem hsource
    have hlocal : recordedRecipients w.store.db previous.id (· == .localMail) = [] := by
      have hnone : w.store.db.deliveries.filter
          (fun d => decide (d.messageId = previous.id) && d.route == .localMail) = [] := by
        rw [List.filter_eq_nil_iff]
        intro d hd hsame
        rw [Bool.and_eq_true, decide_eq_true_eq] at hsame
        rw [hrelayed d hd hsame.1] at hsame
        cases hsame.2
      unfold recordedRecipients
      rw [hnone]
      rfl
    have haccount : previous.authenticatedAccountId = none := by
      by_contra hsome
      have hsubmission := (hreach.sources.submission previous hmem).2
        (Option.ne_none_iff_isSome.1 hsome)
      rw [hsource] at hsubmission
      cases hsubmission
    exact ⟨hsource, hsender, hhash, hsize, hlocal, hremote, hqueue, haccount⟩
  · rintro ⟨hsource, hsender, hhash, hsize, -, hremote, hqueue, -⟩
    exact ⟨hsource, hsender, hhash, hsize, hremote, hqueue⟩

end Compare

/-! ### The calls -/

theorem commitAcceptance_cases (faults : Faults) (s : Store) (db : Db) (accepted : AcceptedMessage) :
    (accepted.alreadyCommitted = true
        ∧ Store.commitAcceptance faults s db accepted = (s, .ok accepted))
      ∨ (accepted.alreadyCommitted = false
        ∧ ((∃ e, Store.commitAcceptance faults s db accepted = (s, .error e))
          ∨ Store.commitAcceptance faults s db accepted = ({ s with db := db }, .error .outcomeUnknown)
          ∨ Store.commitAcceptance faults s db accepted = ({ s with db := db }, .ok accepted))) := by
  unfold Store.commitAcceptance
  by_cases hcommitted : accepted.alreadyCommitted = true
  · rw [if_pos hcommitted]
    exact Or.inl ⟨hcommitted, rfl⟩
  · refine Or.inr ⟨Bool.eq_false_iff.2 hcommitted, ?_⟩
    rw [if_neg hcommitted]
    by_cases hbefore : faults.hit .beforeCommit = true
    · rw [if_pos hbefore]
      exact Or.inl ⟨_, rfl⟩
    · rw [if_neg hbefore]
      by_cases hcommit : faults.hit .commit = true
      · rw [if_pos hcommit]
        exact Or.inl ⟨_, rfl⟩
      · rw [if_neg hcommit]
        cases faults.report with
        | failed => exact Or.inl ⟨_, rfl⟩
        | failedButApplied => exact Or.inr (Or.inl rfl)
        | ok =>
            by_cases hafter : faults.hit .afterCommit = true
            · rw [if_pos hafter]
              exact Or.inr (Or.inl rfl)
            · rw [if_neg hafter]
              exact Or.inr (Or.inr rfl)

/-- A call that stops before its transaction. -/
theorem ExactlyOnce.of_refusal {s : Store} {operationId : Text} {permitted : Prop}
    {fingerprint : Fingerprint} {adds : Db → Prop} {e : StoreError}
    (hpermitted : ¬ permitted) :
    ExactlyOnce s.db operationId permitted fingerprint adds (s, .error e) := by
  refine ⟨fun id => ⟨?_, fun hheld => absurd hheld.1 hpermitted⟩, ?_, ?_, fun _ _ _ => rfl,
    fun _ => Or.inl rfl⟩
  · intro hok
    cases hok
  · intro id hok
    cases hok
  · intro id hok
    cases hok

/-- A call whose transaction replays, refuses or writes everything happens at most once. -/
theorem ExactlyOnce.of_transaction {s : Store} {operationId : Text} {permitted : Prop}
    {fingerprint : Fingerprint} {adds : Db → Prop} {faults : Faults}
    {body : Db → Except StoreError (Db × AcceptedMessage)}
    (hreplay : ∀ id, (∃ db', body s.db = .ok (db', ⟨id, true⟩)) ↔
      permitted ∧ s.db.Holds operationId fingerprint id)
    (hfresh : ∀ db' id, body s.db = .ok (db', ⟨id, false⟩) →
      adds db' ∧ db'.Holds operationId fingerprint id) :
    ExactlyOnce s.db operationId permitted fingerprint adds
      (s.transaction body (Store.commitAcceptance faults)) := by
  unfold Store.transaction
  cases hbody : body s.db with
  | error e =>
      refine ⟨fun id => ⟨?_, fun hheld => ?_⟩, fun id hok => (by cases hok), fun id hok => (by cases hok),
        fun _ _ _ => rfl, fun _ => Or.inl rfl⟩
      · intro hok
        cases hok
      · obtain ⟨db', hdone⟩ := (hreplay id).2 hheld
        rw [hbody] at hdone
        cases hdone
  | ok result =>
      obtain ⟨db', accepted⟩ := result
      dsimp only
      rcases commitAcceptance_cases faults s db' accepted with ⟨hcommitted, hcommit⟩ | ⟨hnew, hcommit⟩
      · rw [hcommit]
        obtain ⟨id, rfl⟩ : ∃ id, accepted = ⟨id, true⟩ := ⟨accepted.messageId, by simp [← hcommitted]⟩
        refine ⟨fun id' => ⟨fun hok => ?_, fun hheld => ?_⟩, fun _ _ => rfl, fun id' hok => (by cases hok),
          fun e herror => (by cases herror), fun herror => (by cases herror)⟩
        · cases hok
          exact (hreplay id).1 ⟨db', hbody⟩
        · obtain ⟨db'', hdone⟩ := (hreplay id').2 hheld
          rw [hbody] at hdone
          cases hdone
          rfl
      · obtain ⟨id, rfl⟩ : ∃ id, accepted = ⟨id, false⟩ := ⟨accepted.messageId, by simp [← hnew]⟩
        obtain ⟨hadds, hholds⟩ := hfresh db' id hbody
        have hnever : ∀ id', ¬ (permitted ∧ s.db.Holds operationId fingerprint id') := by
          intro id' hheld
          obtain ⟨db'', hdone⟩ := (hreplay id').2 hheld
          rw [hbody] at hdone
          cases hdone
        rcases hcommit with ⟨e, hcommit⟩ | hcommit | hcommit
        · rw [hcommit]
          exact ⟨fun id' => ⟨fun hok => (by cases hok), fun hheld => absurd hheld (hnever id')⟩,
            fun id' hok => (by cases hok), fun id' hok => (by cases hok), fun _ _ _ => rfl,
            fun _ => Or.inl rfl⟩
        · rw [hcommit]
          refine ⟨fun id' => ⟨fun hok => (by cases hok), fun hheld => absurd hheld (hnever id')⟩,
            fun id' hok => (by cases hok), fun id' hok => (by cases hok), ?_,
            fun _ => Or.inr ⟨hadds, id, hholds⟩⟩
          rintro e ⟨⟩ hne
          exact absurd rfl hne
        · rw [hcommit]
          refine ⟨fun id' => ⟨fun hok => (by cases hok), fun hheld => absurd hheld (hnever id')⟩,
            fun id' hok => (by cases hok), ?_, fun e herror => (by cases herror),
            fun herror => (by cases herror)⟩
          rintro id' ⟨⟩
          exact ⟨hadds, hholds⟩

section Calls

variable {reading : Reading} {faults : Faults}

theorem acceptInner_once (hreach : w.Reachable) (i : Intake)
    (hsubmission : i.relay.isSome → i.identity.isSome) :
    AcceptsOnce w.store i reading (acceptInner w.store i.ids i.message i.plan i.identity i.relay
      reading faults) := by
  unfold acceptInner AcceptsOnce
  by_cases hvalid : validAcceptance w.store i.message i.plan i.relay
  · rw [if_pos hvalid]
    apply ExactlyOnce.of_transaction
    · intro id
      simp only [acceptTx_eq_ok]
      constructor
      · rintro ⟨db', hauth, ⟨previous, blob, hprevious, hsame, rfl, haccepted⟩ | ⟨-, -, now, -, -, h⟩⟩
        · cases haccepted
          obtain ⟨⟨hmem, hkey⟩, hblob⟩ := (previousAcceptance_eq_some hreach.keys).1 hprevious
          rw [sameAcceptance_iff hreach hsubmission hmem (hkey ▸ hvalid.2.1)] at hsame
          exact ⟨⟨hvalid, hauth⟩, previous, hmem, blob, rfl, hkey, hblob, hsame⟩
        · cases h
      · rintro ⟨⟨-, hauth⟩, previous, hmem, blob, rfl, hkey, hblob, hsame⟩
        refine ⟨_, hauth, Or.inl ⟨previous, blob, ?_, ?_, rfl, rfl⟩⟩
        · exact (previousAcceptance_eq_some hreach.keys).2 ⟨⟨hmem, hkey⟩, hblob⟩
        · exact (sameAcceptance_iff hreach hsubmission hmem (hkey ▸ hvalid.2.1)).2 hsame
    · intro db' id hbody
      rw [acceptTx_eq_ok] at hbody
      obtain ⟨-, ⟨_, _, -, -, -, h⟩ | ⟨-, -, now, hnow, hwrite, h⟩⟩ := hbody
      · cases h
      · cases h
        have hadds := writeAcceptance_adds_message hvalid hwrite
        obtain ⟨⟨hblob, hid, -⟩, -⟩ := writeAcceptance_eq_ok hwrite
        refine ⟨⟨now, hnow, hadds⟩, ?_⟩
        have hholds := hadds.holds hreach.coherent hid hblob rfl (btreeSet_idem _) (btreeSet_idem _)
        simpa [acceptedRow, acceptanceFingerprint, accountOf, PreparedMessage.blobRow] using hholds
  · rw [if_neg hvalid]
    exact .of_refusal fun h => hvalid h.1

/-- Before it replays, an enqueueing call reads the clock. -/
theorem enqueue_readable (hreach : w.Reachable) (ids : FreshIds) (message : PreparedMessage)
    (plan : QueuePlan) :
    ExactlyOnce w.store.db plan.operationId
      (validEnqueue w.store message plan ∧ ∃ now, reading.nowMs = .ok now)
      (enqueueFingerprint message plan)
      (fun db' => ∃ now, reading.nowMs = .ok now
        ∧ AddsMessage w.store.db db' (message.blobRow now) (enqueuedRow ids message plan now)
          ids.deliver ids.relay [] (queueKeys plan) (some (plan.body, plan.maxAgeSeconds)) now)
      (enqueue w.store ids message plan reading faults) := by
  unfold enqueue
  by_cases hvalid : validEnqueue w.store message plan
  · rw [if_pos hvalid]
    cases hnow : reading.nowMs with
    | error e => exact .of_refusal (by simp)
    | ok now =>
        dsimp only
        apply ExactlyOnce.of_transaction
        · intro id
          simp only [enqueueTx_eq_ok]
          constructor
          · rintro ⟨db', ⟨previous, blob, hprevious, hsame, rfl, haccepted⟩ | ⟨-, -, -, h⟩⟩
            · cases haccepted
              obtain ⟨⟨hmem, hkey⟩, hblob⟩ := (previousAcceptance_eq_some hreach.keys).1 hprevious
              rw [sameEnqueue_iff hreach hmem] at hsame
              exact ⟨⟨hvalid, now, rfl⟩, previous, hmem, blob, rfl, hkey, hblob, hsame⟩
            · cases h
          · rintro ⟨-, previous, hmem, blob, rfl, hkey, hblob, hsame⟩
            refine ⟨_, Or.inl ⟨previous, blob, ?_, ?_, rfl, rfl⟩⟩
            · exact (previousAcceptance_eq_some hreach.keys).2 ⟨⟨hmem, hkey⟩, hblob⟩
            · exact (sameEnqueue_iff hreach hmem).2 hsame
        · intro db' id hbody
          rw [enqueueTx_eq_ok] at hbody
          obtain ⟨_, _, -, -, -, h⟩ | ⟨-, -, hwrite, h⟩ := hbody
          · cases h
          · cases h
            have hadds := writeEnqueue_adds_message hvalid hwrite
            obtain ⟨⟨hblob, hid, -⟩, -⟩ := writeEnqueue_eq_ok hwrite
            exact ⟨⟨now, rfl, hadds⟩,
              hadds.holds hreach.coherent hid hblob rfl rfl (btreeSet_idem _)⟩
  · rw [if_neg hvalid]
    exact .of_refusal fun h => hvalid h.1

theorem enqueue_once (hreach : w.Reachable) (ids : FreshIds) (message : PreparedMessage)
    (plan : QueuePlan) (hready : EnqueueReady w.store message plan reading) :
    EnqueuesOnce w.store ids message plan reading
      (enqueue w.store ids message plan reading faults) := by
  have honce := @enqueue_readable w reading faults hreach ids message plan
  refine ⟨?_, honce.replayed, honce.accepted, honce.refused, honce.unknown⟩
  intro id
  rw [honce.replayed_iff id]
  constructor
  · rintro ⟨⟨hvalid, -⟩, hheld⟩
    exact ⟨hvalid, hheld⟩
  · rintro ⟨hvalid, hheld⟩
    exact ⟨⟨hvalid, hready hvalid ⟨id, hheld⟩⟩, hheld⟩

theorem not_enqueueReady {s : Store} {message : PreparedMessage} {plan : QueuePlan} :
    ¬ EnqueueReady s message plan reading ↔ validEnqueue s message plan
      ∧ (∃ id, s.db.Holds plan.operationId (enqueueFingerprint message plan) id)
      ∧ reading.nowMs = .error .invalidInput := by
  unfold EnqueueReady
  rw [Classical.not_imp, Classical.not_imp]
  refine and_congr_right fun _ => and_congr_right fun _ => ?_
  cases hnow : reading.nowMs with
  | error e => simp [nowMs_error hnow]
  | ok now => simp

theorem enqueue_unready {s : Store} (ids : FreshIds) {message : PreparedMessage} {plan : QueuePlan}
    (h : ¬ EnqueueReady s message plan reading) :
    enqueue s ids message plan reading faults = (s, .error .invalidInput) := by
  obtain ⟨hvalid, -, hnow⟩ := not_enqueueReady.1 h
  unfold enqueue
  rw [if_pos hvalid, hnow]

theorem enqueue_once_iff (hreach : w.Reachable) (ids : FreshIds) (message : PreparedMessage)
    (plan : QueuePlan) :
    EnqueuesOnce w.store ids message plan reading
        (enqueue w.store ids message plan reading faults)
      ↔ EnqueueReady w.store message plan reading := by
  constructor
  · intro honce
    by_contra hready
    obtain ⟨hvalid, ⟨id, hheld⟩, -⟩ := not_enqueueReady.1 hready
    have hreplayed := (honce.replayed_iff id).2 ⟨hvalid, hheld⟩
    rw [enqueue_unready ids hready] at hreplayed
    cases hreplayed
  · exact enqueue_once hreach ids message plan

end Calls

namespace Sample

def freshIds : FreshIds := ⟨messageId, fun _ => deliveryId, fun _ => deliveryId⟩

def queuePlan : QueuePlan := ⟨operationId.text, none, [recipient], .sevenBit, 3600⟩

def accepted : World :=
  fresh.run [.enqueue freshIds prepared queuePlan reading { hit := (· == .afterCommit) }]

end Sample

/-- However the calls are mixed and wherever they fail, an operation id names at most one message,
and each call writes all of its rows, reads an equal message back, or changes nothing. Only an
enqueueing call that has a message to read back while the clock cannot be read is refused. -/
theorem acceptance_exactly_once (w : World) (hreach : w.Reachable) (reading : Reading)
    (faults : Faults) :
    (∀ operationId, w.store.db.messages.countP (fun m => m.ingestKey = operationId) ≤ 1)
      ∧ (∀ ids message plan, AcceptsOnce w.store ⟨ids, message, plan, none, none⟩ reading
          (accept w.store ids message plan reading faults))
      ∧ (∀ ids message plan identity,
          AcceptsOnce w.store ⟨ids, message, plan, some identity, none⟩ reading
            (acceptSubmission w.store ids message plan identity reading faults))
      ∧ (∀ ids message plan identity relay,
          AcceptsOnce w.store ⟨ids, message, plan, some identity, some relay⟩ reading
            (acceptRelaySubmission w.store ids message plan identity relay reading faults))
      ∧ (∀ ids message plan,
          EnqueuesOnce w.store ids message plan reading
              (enqueue w.store ids message plan reading faults)
            ↔ EnqueueReady w.store message plan reading)
      ∧ (∀ ids message plan, ¬ EnqueueReady w.store message plan reading →
          enqueue w.store ids message plan reading faults = (w.store, .error .invalidInput)) := by
  refine ⟨?_, ?_, ?_, ?_, ?_, ?_⟩
  · intro operationId
    exact Keyed.countP_le_one hreach.keys.ingestKeys operationId
  · intro ids message plan
    exact acceptInner_once hreach ⟨ids, message, plan, none, none⟩ (by simp)
  · intro ids message plan identity
    exact acceptInner_once hreach ⟨ids, message, plan, some identity, none⟩ (by simp)
  · intro ids message plan identity relay
    exact acceptInner_once hreach ⟨ids, message, plan, some identity, some relay⟩ (by simp)
  · intro ids message plan
    exact enqueue_once_iff hreach ids message plan
  · intro ids message plan hready
    exact enqueue_unready ids hready

/-- The commit was applied but reported as unknown; the same call then reads the message back. -/
theorem Sample.replayed :
    Sample.accepted.store.db.messages.length = 1
      ∧ (Rustymail.enqueue Sample.accepted.store Sample.freshIds Sample.prepared Sample.queuePlan
          Sample.reading {}).2 = .ok ⟨Sample.messageId.text, true⟩
      ∧ EnqueuesOnce Sample.accepted.store Sample.freshIds Sample.prepared Sample.queuePlan
          Sample.reading (Rustymail.enqueue Sample.accepted.store Sample.freshIds Sample.prepared
            Sample.queuePlan Sample.reading {}) :=
  ⟨by decide, by decide,
    ((acceptance_exactly_once Sample.accepted (Sample.reachable _) Sample.reading {}).2.2.2.2.1
      Sample.freshIds Sample.prepared Sample.queuePlan).2 fun _ _ => ⟨1000, by decide⟩⟩

/-- The same call again with a wall clock before the epoch: the message is there to be read back, and
the call is refused. -/
theorem Sample.replay_refused :
    Sample.accepted.store.db.Holds Sample.queuePlan.operationId
        (enqueueFingerprint Sample.prepared Sample.queuePlan) Sample.messageId.text
      ∧ validEnqueue Sample.accepted.store Sample.prepared Sample.queuePlan
      ∧ (Rustymail.enqueue Sample.accepted.store Sample.freshIds Sample.prepared Sample.queuePlan
          ⟨some (-1), 0⟩ {}).2 = .error .invalidInput
      ∧ ¬ EnqueuesOnce Sample.accepted.store Sample.freshIds Sample.prepared Sample.queuePlan
          ⟨some (-1), 0⟩ (Rustymail.enqueue Sample.accepted.store Sample.freshIds Sample.prepared
            Sample.queuePlan ⟨some (-1), 0⟩ {}) := by
  have honce : EnqueuesOnce Sample.accepted.store Sample.freshIds Sample.prepared Sample.queuePlan
      Sample.reading (Rustymail.enqueue Sample.accepted.store Sample.freshIds Sample.prepared
        Sample.queuePlan Sample.reading {}) :=
    enqueue_once (Sample.reachable _) _ _ _ fun _ _ => ⟨1000, by decide⟩
  obtain ⟨hvalid, hheld⟩ := (honce.replayed_iff Sample.messageId.text).1 (by decide)
  refine ⟨hheld, hvalid, by decide, ?_⟩
  intro hagain
  have hreplayed := (hagain.replayed_iff Sample.messageId.text).2 ⟨hvalid, hheld⟩
  revert hreplayed
  decide

end Rustymail
