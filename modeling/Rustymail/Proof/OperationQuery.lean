import Rustymail.Proof.OperationIds
import Rustymail.Proof.Relaying
import Rustymail.Store.Listings

/-!
# What has become of an operation

Who was told that an outcome is unknown asks for the operation id. The answer is nothing until an
acceptance under that id is committed, and from then on it is that acceptance.
-/

namespace Rustymail

open Checked Ledger Loops

/-- The operation id an acceptance carries, and the message it asks for. -/
def Op.asks? : Op → Option (Text × Fingerprint)
  | .enqueue _ message plan _ _ => some (plan.operationId, enqueueFingerprint message plan)
  | op => op.intake?.map fun i =>
      (i.plan.operationId, acceptanceFingerprint i.message i.plan i.identity i.relay)

/-- The answer is about a message with this fingerprint. -/
structure OperationSummary.Describes (s : OperationSummary) (f : Fingerprint) : Prop where
  hash : s.sha256 = f.hash
  size : s.sizeBytes = f.size
  recipients : s.recipients = f.localSet.length + f.remoteSet.length

variable {w : World} {op : Op} {db db' : Db} {id : Text} {s : OperationSummary}

theorem Db.operationSummary_eq_some : db.operationSummary id = some s ↔
    ∃ message, db.messageByKey? id = some message ∧ ∃ blob, db.blob? message.blobId = some blob
      ∧ s = ⟨id, message.id, blob.id, blob.sizeBytes, blob.sha256, message.acceptedAtMs,
        db.deliveries.countP fun d => decide (d.messageId = message.id)⟩ := by
  unfold Db.operationSummary
  simp only [bind, Option.bind_eq_some_iff, pure, Option.some.injEq]
  constructor
  · rintro ⟨message, hmessage, blob, hblob, rfl⟩
    exact ⟨message, hmessage, blob, hblob, rfl⟩
  · rintro ⟨message, hmessage, blob, hblob, rfl⟩
    exact ⟨message, hmessage, blob, hblob, rfl⟩

theorem countP_deliveries (rows : List Delivery) (message : Text) :
    rows.countP (fun d => decide (d.messageId = message))
      = (rows.map Delivery.identity).countP fun row => decide (row.2.1 = message) := by
  rw [List.countP_map]
  rfl

/-- Later messages bring deliveries of their own only. -/
theorem Commits.countP_deliveries (h : Commits w op db db') {message : Message}
    (hmessage : db.message? message.id = some message) :
    db'.deliveries.countP (fun d => decide (d.messageId = message.id))
      = db.deliveries.countP fun d => decide (d.messageId = message.id) := by
  rw [Rustymail.countP_deliveries, Rustymail.countP_deliveries db.deliveries]
  rcases h.cases_adds with hsame | ⟨a, ha, -, hadds⟩
  · rw [hsame.deliveries]
  · rw [hadds.deliveries, ← Rustymail.countP_deliveries, ← Rustymail.countP_deliveries,
      List.countP_append]
    have hothers : (a.mailed ++ a.relayed).countP (fun d => decide (d.messageId = message.id)) = 0 := by
      rw [List.countP_eq_zero]
      intro d hd hsame
      have hfresh := hadds.message_fresh
      have hnew : d.messageId = a.message.id := by
        rcases List.mem_append.1 hd with hmailed | hrelayed
        · exact (ha.mailed d hmailed).1
        · exact (ha.relayed d hrelayed).1
      rw [← hnew, of_decide_eq_true hsame, hmessage] at hfresh
      cases hfresh
    rw [hothers, Nat.add_zero]

/-- An answer stays as it is. -/
theorem Commits.operationSummary (h : Commits w op db db') (hkeys : db.Keys)
    (hs : db.operationSummary id = some s) : db'.operationSummary id = some s := by
  obtain ⟨message, hmessage, blob, hblob, rfl⟩ := Db.operationSummary_eq_some.1 hs
  have hcount := h.countP_deliveries (Keyed.lookup_of_mem hkeys.messages (Keyed.mem_of_lookup hmessage))
  have houtlasts : db.messages <+: db'.messages ∧ db.blobs <+: db'.blobs := by
    rcases h.cases_adds with hsame | ⟨a, -, -, hadds⟩
    · rw [hsame.messages, hsame.blobs]
      exact ⟨List.prefix_rfl, List.prefix_rfl⟩
    · rw [hadds.messages, hadds.blobs]
      exact ⟨List.prefix_append _ _, List.prefix_append _ _⟩
  obtain ⟨⟨more, hmore⟩, others, hothers⟩ := houtlasts
  refine Db.operationSummary_eq_some.2 ⟨message, ?_, blob, ?_, ?_⟩
  · unfold Db.messageByKey? at hmessage ⊢
    rw [← hmore]
    exact Keyed.lookup_append_of_some hmessage more
  · unfold Db.blob? at hblob ⊢
    rw [← hothers]
    exact Keyed.lookup_append_of_some hblob others
  · rw [hcount]

theorem Db.Coherent.operationSummary_none (hcoherent : db.Coherent)
    (h : db.operationSummary id = none) : db.messageByKey? id = none := by
  by_contra hsome
  obtain ⟨message, hmessage⟩ := Option.ne_none_iff_exists'.1 hsome
  obtain ⟨blob, hblob⟩ :=
    Option.isSome_iff_exists.1 (hcoherent.message_blob message (Keyed.mem_of_lookup hmessage))
  have hs := Db.operationSummary_eq_some.2 ⟨message, hmessage, blob, hblob, rfl⟩
  rw [h] at hs
  cases hs

/-- The answer about a fresh message is about that message. -/
theorem AddsMessage.summary {blob : Blob} {message : Message} {ids relayIds : Text → Uuid}
    {locals remotes : List Text} {queue : Option (QueueBody × Nat)} {now : Int}
    (h : AddsMessage db db' blob message ids relayIds locals remotes queue now)
    (hcoherent : db.Coherent) (hid : db.message? message.id = none)
    (hblob : db.blob? blob.id = none) (hlink : message.blobId = blob.id)
    (hnone : db.messageByKey? id = none) (hs : db'.operationSummary id = some s) :
    message.ingestKey = id ∧ s.sha256 = blob.sha256 ∧ s.sizeBytes = blob.sizeBytes
      ∧ s.recipients = locals.length + remotes.length := by
  obtain ⟨found, hfound, stored, hstored, rfl⟩ := Db.operationSummary_eq_some.1 hs
  obtain ⟨rfl, hkey⟩ : found = message ∧ message.ingestKey = id := by
    unfold Db.messageByKey? at hnone hfound
    have hmem := Keyed.mem_of_lookup hfound
    rw [h.messages] at hmem
    rcases List.mem_append.1 hmem with hold | hnew
    · exact absurd (Keyed.lookup_some_key hfound) (Keyed.lookup_none_iff.1 hnone found hold)
    · obtain rfl := List.mem_singleton.1 hnew
      exact ⟨rfl, Keyed.lookup_some_key hfound⟩
  obtain rfl : stored = blob := by
    unfold Db.blob? at hstored
    rw [h.blobs, hlink, Keyed.lookup_append_singleton hblob, if_pos rfl] at hstored
    exact (Option.some.inj hstored).symm
  obtain ⟨expires, hdeliveries⟩ := h.deliveries
  refine ⟨hkey, rfl, rfl, ?_⟩
  have hold : db.deliveries.countP (fun d => decide (d.messageId = found.id)) = 0 := by
    rw [List.countP_eq_zero]
    intro d hd hsame
    exact hcoherent.no_deliveries hid d hd (of_decide_eq_true hsame)
  have hlocal : (localRows ids found.id now locals).countP (fun d => decide (d.messageId = found.id))
      = locals.length := by
    rw [List.countP_eq_length.2 fun d hd => decide_eq_true (mem_localRows hd).1]
    exact List.length_map _
  have hrelay : (relayRows relayIds found.id now expires remotes).countP
      (fun d => decide (d.messageId = found.id)) = remotes.length := by
    rw [List.countP_eq_length.2 fun d hd => decide_eq_true (mem_relayRows hd).1]
    exact List.length_map _
  dsimp only
  rw [hdeliveries, List.countP_append, List.countP_append, hold, hlocal, hrelay, Nat.zero_add]

/-- An answer appears through an operation that asks for it. -/
theorem Commits.summary_new (h : Commits w op db db') (hcoherent : db.Coherent)
    (hvalid : validId id = true) (hnone : db.operationSummary id = none)
    (hs : db'.operationSummary id = some s) : ∃ f, op.asks? = some (id, f) ∧ s.Describes f := by
  have hunknown := hcoherent.operationSummary_none hnone
  have hsame : db'.messages ≠ db.messages := by
    intro hsame
    obtain ⟨message, hmessage, -⟩ := Db.operationSummary_eq_some.1 hs
    unfold Db.messageByKey? at hunknown hmessage
    rw [hsame, hunknown] at hmessage
    cases hmessage
  rcases h.cases_content with hcontent | ⟨hmail, -⟩ | hbrings
  · exact absurd hcontent.messages hsame
  · exact absurd hmail.messages hsame
  · cases hbrings with
    | @acceptance i now hop hok hauth hnew htx =>
        obtain ⟨⟨hblob, hid, -⟩, -⟩ := writeAcceptance_eq_ok htx
        obtain ⟨hkey, hhash, hsize, hcount⟩ :=
          (writeAcceptance_adds_message hok htx).summary hcoherent hid hblob rfl hunknown hs
        refine ⟨acceptanceFingerprint i.message i.plan i.identity i.relay, ?_, hhash, hsize, hcount⟩
        have hasks : op.asks? = op.intake?.map fun i =>
            (i.plan.operationId, acceptanceFingerprint i.message i.plan i.identity i.relay) := by
          cases op <;> first | rfl | cases hop
        rw [hasks, hop]
        exact congrArg (fun key => some (key, _)) hkey
    | @enqueued ids message plan now hop hok hnew htx =>
        obtain ⟨reading, faults, rfl⟩ := hop
        obtain ⟨⟨hblob, hid, -⟩, -⟩ := writeEnqueue_eq_ok htx
        obtain ⟨hkey, hhash, hsize, hcount⟩ :=
          (writeEnqueue_adds_message hok htx).summary hcoherent hid hblob rfl hunknown hs
        exact ⟨enqueueFingerprint message plan, congrArg (fun key => some (key, _)) hkey, hhash,
          hsize, hcount⟩
    | @report prepared delivery now hop hnew heligible htx =>
        -- The key of a report is no operation id.
        obtain ⟨message, hmessage, -⟩ := Db.operationSummary_eq_some.1 hs
        have hmem := Keyed.mem_of_lookup hmessage
        rw [writeReport_messages htx] at hmem
        unfold Db.messageByKey? at hunknown hmessage
        rcases List.mem_append.1 hmem with hold | hadded
        · exact absurd (Keyed.lookup_some_key hmessage) (Keyed.lookup_none_iff.1 hunknown _ hold)
        · obtain rfl := List.mem_singleton.1 hadded
          have hkey : (reportRow prepared now).ingestKey = id := Keyed.lookup_some_key hmessage
          change dsnKey prepared.plan.deliveryId = id at hkey
          rw [← hkey, dsnKey_not_valid] at hvalid
          cases hvalid

/-- What is known of the answers before and after an operation. -/
theorem CommitsAll.summaries (h : CommitsAll w op db db') (hkeys : db.Keys) (hcoherent : db.Coherent)
    (hvalid : validId id = true) :
    (∀ s, db.operationSummary id = some s → db'.operationSummary id = some s)
      ∧ (db.operationSummary id = none → ∀ s, db'.operationSummary id = some s →
        ∃ f, op.asks? = some (id, f) ∧ s.Describes f) := by
  have hall : db'.Keys ∧ db'.Coherent
      ∧ (∀ s, db.operationSummary id = some s → db'.operationSummary id = some s)
      ∧ (db.operationSummary id = none → ∀ s, db'.operationSummary id = some s →
        ∃ f, op.asks? = some (id, f) ∧ s.Describes f) := by
    induction h with
    | refl =>
        refine ⟨hkeys, hcoherent, fun s hs => hs, fun hnone s hs => ?_⟩
        rw [hnone] at hs
        cases hs
    | @tail mid last _ hlast ih =>
        obtain ⟨hkeys', hcoherent', hkept, hnew⟩ := ih
        refine ⟨hlast.keys hkeys', hlast.coherent hcoherent',
          fun s hs => hlast.operationSummary hkeys' (hkept s hs), fun hnone s hs => ?_⟩
        cases hmid : mid.operationSummary id with
        | none => exact hlast.summary_new hcoherent' hvalid hmid hs
        | some known =>
            have hlater := hlast.operationSummary hkeys' hmid
            rw [hs] at hlater
            cases hlater
            exact hnew hnone s hmid
  exact hall.2.2

/-! ### Answers and replies -/

theorem operation_eq_ok {answer : Option OperationSummary} :
    operation db id = .ok answer ↔ validId id = true ∧ db.operationSummary id = answer := by
  unfold operation
  cases validId id <;> simp

theorem Db.Keys.length_recorded (hkeys : db.Keys) (message : Text) (onRoute : Route → Bool) :
    (recordedRecipients db message onRoute).length
      = db.deliveries.countP fun d => decide (d.messageId = message) && onRoute d.route := by
  have hnodup : ((db.deliveries.filter fun d => decide (d.messageId = message) && onRoute d.route).map
      Delivery.recipient).Nodup := by
    have hpairs : ((db.deliveries.filter fun d => decide (d.messageId = message)
        && onRoute d.route).map fun d => (d.messageId, d.recipient)).Nodup :=
      hkeys.recipients.sublist (List.filter_sublist.map _)
    refine List.Nodup.of_map (fun recipient => (message, recipient)) ?_
    rw [List.map_map]
    refine (List.map_congr_left ?_) ▸ hpairs
    intro d hd
    have hmessage := (Bool.and_eq_true_iff.1 (List.mem_filter.1 hd).2).1
    exact congrArg (fun id => (id, d.recipient)) (of_decide_eq_true hmessage)
  unfold recordedRecipients btreeSet
  rw [hnodup.dedup, List.length_insertionSort, List.length_map, List.countP_eq_length_filter]

theorem countP_routes {rows : List Delivery} (hroutes : ∀ d ∈ rows, d.route ≠ .direct)
    (message : Text) : rows.countP (fun d => decide (d.messageId = message))
      = rows.countP (fun d => decide (d.messageId = message) && d.route == .localMail)
        + rows.countP fun d => decide (d.messageId = message) && d.route == .relay := by
  induction rows with
  | nil => rfl
  | cons first rest ih =>
      have hrest := ih fun d hd => hroutes d (List.mem_cons_of_mem first hd)
      rw [List.countP_cons, List.countP_cons, List.countP_cons, hrest]
      cases hroute : first.route with
      | localMail =>
          rw [show (Route.localMail == Route.localMail) = true from rfl,
            show (Route.localMail == Route.relay) = false from rfl, Bool.and_true, Bool.and_false,
            if_neg Bool.false_ne_true]
          omega
      | relay =>
          rw [show (Route.relay == Route.relay) = true from rfl,
            show (Route.relay == Route.localMail) = false from rfl, Bool.and_true, Bool.and_false,
            if_neg Bool.false_ne_true]
          omega
      | direct => exact absurd hroute (hroutes first List.mem_cons_self)

/-- A message held under an id is the answer about that id. -/
theorem Db.Holds.operationSummary {f : Fingerprint} {message : Text} (h : db.Holds id f message)
    (hkeys : db.Keys) (hroutes : ∀ d ∈ db.deliveries, d.route ≠ .direct) :
    ∃ s, db.operationSummary id = some s ∧ s.messageId = message ∧ s.Describes f := by
  obtain ⟨held, hmem, blob, rfl, hkey, hblob, rfl⟩ := h
  refine ⟨_, Db.operationSummary_eq_some.2 ⟨held, ?_, blob, hblob, rfl⟩, rfl, rfl, rfl, ?_⟩
  · rw [← hkey]
    exact Keyed.lookup_of_mem hkeys.ingestKeys hmem
  · unfold Db.fingerprint
    rw [hkeys.length_recorded, hkeys.length_recorded]
    exact countP_routes hroutes held.id

theorem ExactlyOnce.holds {permitted : Prop} {f : Fingerprint} {adds : Db → Prop}
    {result : Store × Except StoreError AcceptedMessage}
    (h : ExactlyOnce db id permitted f adds result) {accepted : AcceptedMessage}
    (hok : result.2 = .ok accepted) : result.1.db.Holds id f accepted.messageId := by
  obtain ⟨message, replayed⟩ := accepted
  cases replayed with
  | true =>
      rw [h.replayed message hok]
      exact ((h.replayed_iff message).1 hok).2
  | false => exact (h.accepted message hok).2

/-- What the reply to an acceptance says about its operation id and the store. -/
structure World.Replies (w : World) (id : Text) (f : Fingerprint)
    (outcome : World × Except StoreError AcceptedMessage) : Prop where
  valid : ∀ accepted, outcome.2 = .ok accepted → validId id = true
  holds : ∀ accepted, outcome.2 = .ok accepted →
    outcome.1.store.db.Holds id f accepted.messageId
  refused : ∀ e, outcome.2 = .error e → e ≠ .outcomeUnknown → outcome.1.store.db = w.store.db

theorem World.Replies.of_call {permitted : Prop} {f : Fingerprint} {adds : Db → Prop}
    {act : Store → Store × Except StoreError AcceptedMessage}
    (hvalid : ∀ accepted, (act w.store).2 = .ok accepted → validId id = true)
    (h : ExactlyOnce w.store.db id permitted f adds (act w.store)) : w.Replies id f (w.call act) := by
  by_cases hopen : w.opened = true
  · rw [World.call_opened hopen]
    exact ⟨hvalid, fun _ hok => h.holds hok, fun e he hne => h.refused e he hne⟩
  · rw [World.call_closed hopen]
    exact ⟨fun _ hok => (by cases hok), fun _ hok => (by cases hok), fun _ _ _ => rfl⟩

theorem acceptInner_valid {s : Store} {i : Intake} {reading : Reading} {faults : Faults}
    {accepted : AcceptedMessage} (h : (acceptInner s i.ids i.message i.plan i.identity i.relay
      reading faults).2 = .ok accepted) : validId i.plan.operationId = true := by
  unfold acceptInner at h
  split_ifs at h with hvalid
  exact hvalid.2.1

theorem enqueue_valid {s : Store} {ids : FreshIds} {message : PreparedMessage} {plan : QueuePlan}
    {reading : Reading} {faults : Faults} {accepted : AcceptedMessage}
    (h : (enqueue s ids message plan reading faults).2 = .ok accepted) :
    validId plan.operationId = true := by
  unfold enqueue at h
  split_ifs at h with hvalid
  exact hvalid.2.1

/-- Every acceptance answers for its operation id. -/
theorem World.Reachable.replies (hreach : w.Reachable) {f : Fingerprint}
    (hasks : op.asks? = some (id, f)) : ∃ outcome, w.step op = (outcome.1, .accepted outcome.2)
      ∧ w.Replies id f outcome := by
  cases op with
  | accept ids message plan reading faults =>
      cases hasks
      exact ⟨_, rfl, .of_call (fun _ => acceptInner_valid (i := ⟨ids, message, plan, none, none⟩))
        (acceptInner_once hreach ⟨ids, message, plan, none, none⟩ (by simp))⟩
  | acceptSubmission ids message plan identity reading faults =>
      cases hasks
      exact ⟨_, rfl, .of_call (fun _ => acceptInner_valid (i := ⟨ids, message, plan, some identity, none⟩))
        (acceptInner_once hreach ⟨ids, message, plan, some identity, none⟩ (by simp))⟩
  | acceptRelaySubmission ids message plan identity relay reading faults =>
      cases hasks
      exact ⟨_, rfl, .of_call
        (fun _ => acceptInner_valid (i := ⟨ids, message, plan, some identity, some relay⟩))
        (acceptInner_once hreach ⟨ids, message, plan, some identity, some relay⟩ (by simp))⟩
  | enqueue ids message plan reading faults =>
      cases hasks
      exact ⟨_, rfl, .of_call (fun _ => enqueue_valid) (enqueue_readable hreach ids message plan)⟩
  | _ => cases hasks

/-- **An unknown outcome can be looked up.** The answer about an operation id is nothing as long as
no acceptance under it is committed. One that appears is due to an operation of the run that carried
the id, describes the message that operation asked for, and is never changed again. A reply names
the message of the answer, and a refusal leaves the answer as it was. -/
theorem operation_settled (w : World) (hreach : w.Reachable) (id : Text) (ops : List Op) :
    (∀ s, operation w.store.db id = .ok (some s) →
        operation (w.run ops).store.db id = .ok (some s))
      ∧ (operation w.store.db id = .ok none → ∀ s, operation (w.run ops).store.db id = .ok (some s) →
        ∃ before op after f, ops = before ++ op :: after ∧ op.asks? = some (id, f) ∧ s.Describes f
          ∧ operation (w.run before).store.db id = .ok none
          ∧ operation (w.run (before ++ [op])).store.db id = .ok (some s))
      ∧ (∀ before op after f reply, ops = before ++ op :: after → op.asks? = some (id, f) →
        ((w.run before).step op).2 = .accepted reply →
        (∀ accepted, reply = .ok accepted → ∃ s, operation (w.run ops).store.db id = .ok (some s)
            ∧ s.messageId = accepted.messageId ∧ s.Describes f)
          ∧ (∀ e, reply = .error e → e ≠ .outcomeUnknown →
            operation (w.run (before ++ [op])).store.db id
              = operation (w.run before).store.db id)) := by
  have hkept : ∀ (w : World), w.Reachable → ∀ (ops : List Op) (s : OperationSummary),
      operation w.store.db id = .ok (some s) →
      operation (w.run ops).store.db id = .ok (some s) := by
    intro w hw ops s hs
    obtain ⟨hvalid, hs⟩ := operation_eq_ok.1 hs
    refine operation_eq_ok.2 ⟨hvalid, ?_⟩
    refine (Runs.invariant (fun w : World => w.Reachable ∧ w.store.db.operationSummary id = some s)
      ⟨hw, hs⟩ ?_ ops).2
    rintro w op ⟨hw, hs⟩
    exact ⟨hw.next op, ((w.next_commits op).summaries hw.keys hw.coherent hvalid).1 s hs⟩
  refine ⟨hkept w hreach ops, ?_, ?_⟩
  · intro hnone s hs
    obtain ⟨hvalid, hnone⟩ := operation_eq_ok.1 hnone
    induction ops using List.reverseRecOn with
    | nil =>
        cases (operation_eq_ok.2 ⟨hvalid, hnone⟩).symm.trans hs
    | append_singleton ops op ih =>
        cases hmid : (w.run ops).store.db.operationSummary id with
        | some known =>
            have hfound := operation_eq_ok.2 ⟨hvalid, hmid⟩
            obtain rfl : known = s := by
              have hlater := hkept _ (hreach.run ops) [op] known hfound
              unfold World.run at hs hlater
              rw [Runs.run_append, hlater] at hs
              exact Option.some.inj (Except.ok.inj hs)
            obtain ⟨before, first, after, f, rfl, hrest⟩ := ih hfound
            exact ⟨before, first, after ++ [op], f, by simp, hrest⟩
        | none =>
            have hstep := ((w.run ops).next_commits op).summaries (hreach.run ops).keys
              (hreach.run ops).coherent hvalid
            have hlast := hs
            unfold World.run at hlast
            rw [Runs.run_snoc] at hlast
            obtain ⟨f, hasks, hdescribes⟩ := hstep.2 hmid s (operation_eq_ok.1 hlast).2
            exact ⟨ops, op, [], f, rfl, hasks, hdescribes, operation_eq_ok.2 ⟨hvalid, hmid⟩, hs⟩
  · rintro before op after f reply rfl hasks hreply
    obtain ⟨outcome, hstep, hreplies⟩ := (hreach.run before).replies hasks
    rw [hstep] at hreply
    cases hreply
    have hnext : w.run (before ++ [op]) = outcome.1 := by
      unfold World.run
      rw [Runs.run_snoc]
      exact congrArg Prod.fst hstep
    constructor
    · intro accepted hok
      have hreach' : outcome.1.Reachable := hnext ▸ hreach.run (before ++ [op])
      obtain ⟨s, hs, hmessage, hdescribes⟩ :=
        (hreplies.holds accepted hok).operationSummary hreach'.keys hreach'.routes
      refine ⟨s, ?_, hmessage, hdescribes⟩
      have hfound := operation_eq_ok.2 ⟨hreplies.valid accepted hok, hs⟩
      have hrun : w.run (before ++ op :: after) = outcome.1.run after := by
        rw [← hnext, List.append_cons]
        exact Runs.run_append _ _
      rw [hrun]
      exact hkept _ hreach' after s hfound
    · intro e herror hne
      rw [hnext, hreplies.refused e herror hne]

/-- The caller was not told whether the message is stored; the operation id tells. -/
theorem Sample.committed_is_found :
    ∃ s, operation Sample.accepted.store.db Sample.operationId.text = .ok (some s)
      ∧ s.messageId = Sample.messageId.text
      ∧ operation (Sample.accepted.run [.crash, .reopen 1024]).store.db Sample.operationId.text
        = .ok (some s) := by
  refine ⟨_, rfl, rfl, ?_⟩
  exact (operation_settled Sample.accepted (Sample.reachable _) Sample.operationId.text
    [.crash, .reopen 1024]).1 _ rfl

end Rustymail
