import Rustymail.Lib.Timed
import Rustymail.Lib.Turns
import Rustymail.Proof.ClockChanged
import Rustymail.Proof.Coherence

/-!
# A due report is not overtaken

The failures whose report is owed, in the order `notification_next` takes them. Once the guard has
trusted a time after a failure fell due, every later due time lies behind it, so that no other failure
joins the ones ahead.
-/

namespace Rustymail

open Checked Lifecycle Timed

/-- A failure whose report has been neither written nor suppressed. -/
abbrev Delivery.Unreported (row : Delivery) : Prop :=
  row.state = .failed ∧ row.notificationState = .pending

/-- When the report falls due, and the id that breaks ties. -/
def Delivery.dueKey (row : Delivery) : Int × Text := (row.notificationDueMs, row.id)

def Db.pendingFailures (db : Db) : List (Int × Text) :=
  (db.deliveries.filter fun row => decide row.Unreported).map Delivery.dueKey

def Db.failuresBefore (db : Db) (key : Int × Text) : List (Int × Text) :=
  db.pendingFailures.filter fun k => decide (Earlier k key)

/-- The failure `notification_next` selects. -/
def World.selection (w : World) (policy : NotificationPolicy) (reading : Reading) :
    Option (Int × Text) :=
  if w.opened then do
    let _ ← policy.validate.toOption
    let now ← (w.store.queue.now reading).2.toOption
    let failure ← nextFailure now w.store.db
    let row ← w.store.db.delivery? failure.id
    some row.dueKey
  else none

/-- The failure an operation selects for a report. -/
def World.selects (w : World) : Op → Option (Int × Text)
  | .notificationNext policy input => w.selection policy input.reading
  | _ => none

section Selection

variable {db : Db} {key : Int × Text} {now : Int} {row : Delivery}

theorem mem_pendingFailures (hkeys : db.Keys) : key ∈ db.pendingFailures ↔
    ∃ row, db.delivery? key.2 = some row ∧ row.Unreported ∧ row.notificationDueMs = key.1 := by
  unfold Db.pendingFailures
  rw [List.mem_map]
  constructor
  · rintro ⟨row, hmem, rfl⟩
    rw [List.mem_filter, decide_eq_true_eq] at hmem
    exact ⟨row, Keyed.lookup_of_mem hkeys.deliveries hmem.1, hmem.2, rfl⟩
  · rintro ⟨row, hrow, hunreported, hdue⟩
    have hid : row.id = key.2 := Keyed.lookup_some_key hrow
    refine ⟨row, ?_, Prod.ext hdue hid⟩
    rw [List.mem_filter, decide_eq_true_eq]
    exact ⟨Keyed.mem_of_lookup hrow, hunreported⟩

theorem mem_dueFailures : row ∈ dueFailures now db ↔ row ∈ db.deliveries ∧ row.route = .relay
    ∧ row.Unreported ∧ row.notificationDueMs ≤ now ∧ (db.message? row.messageId).isSome := by
  unfold dueFailures
  rw [List.mem_insertionSort, List.mem_filter, decide_eq_true_eq, and_assoc (a := row.state = _)]

/-- The selected failure is the first of the due ones. -/
theorem nextFailure_first {failure : Failure} (h : nextFailure now db = some failure) :
    ∃ row ∈ dueFailures now db, failure.id = row.id
      ∧ ∀ other ∈ dueFailures now db, NoLater row.dueKey other.dueKey := by
  unfold nextFailure at h
  simp only [Option.bind_eq_bind, Option.bind_eq_some_iff, Option.some.injEq] at h
  obtain ⟨row, hhead, message, -, rfl⟩ := h
  refine ⟨row, List.mem_of_head? hhead, rfl, ?_⟩
  intro other hother
  have hmem := mem_dueFailures.1 hother
  have : Std.Total (timeThenId Delivery.notificationDueMs) := total_of Delivery.dueKey
  have : IsTrans _ (timeThenId Delivery.notificationDueMs) := isTrans_of Delivery.dueKey
  have hle : timeThenId Delivery.notificationDueMs row other :=
    Keyed.scan_head hhead hmem.1
      (decide_eq_true ⟨hmem.2.1, hmem.2.2.1.1, hmem.2.2.1.2, hmem.2.2.2⟩)
  exact hle

theorem nextFailure_none (h : nextFailure now db = none) : dueFailures now db = [] := by
  rw [List.eq_nil_iff_forall_not_mem]
  intro row hrow
  unfold nextFailure at h
  cases hdue : dueFailures now db with
  | nil =>
      rw [hdue] at hrow
      cases hrow
  | cons first rest =>
      have hfirst : first ∈ dueFailures now db := by
        rw [hdue]
        exact List.mem_cons_self
      obtain ⟨message, hmessage⟩ := Option.isSome_iff_exists.1 (mem_dueFailures.1 hfirst).2.2.2.2
      rw [hdue] at h
      simp only [List.head?_cons, Option.bind_eq_bind, Option.bind_some, hmessage] at h
      cases h

end Selection

namespace World

variable {w : World} {op : Op} {key : Int × Text} {time : Int}

/-- In a reachable world every pending failure is one that `notification_next` looks at. -/
theorem Reachable.mem_dueFailures (hreach : w.Reachable) {row : Delivery} {now : Int}
    (hrow : row ∈ w.store.db.deliveries) (hunreported : row.Unreported)
    (hdue : row.notificationDueMs ≤ now) : row ∈ dueFailures now w.store.db := by
  have hview : (w.store.db.view row.id).row = some row :=
    Keyed.lookup_of_mem hreach.keys.deliveries hrow
  have hroute : row.route = .relay :=
    (hreach.view_wf row.id).relay_of_ne hview (by rw [hunreported.1]; decide)
  exact Rustymail.mem_dueFailures.2
    ⟨hrow, hroute, hunreported, hdue, hreach.coherent.delivery_message row hrow⟩

theorem selects_eq_some : w.selects op = some key ↔ ∃ policy input postmaster now failure row,
    op = .notificationNext policy input ∧ w.opened = true ∧ policy.validate = .ok postmaster
      ∧ (w.store.queue.now input.reading).2 = .ok now
      ∧ nextFailure now w.store.db = some failure
      ∧ w.store.db.delivery? failure.id = some row ∧ row.dueKey = key := by
  constructor
  · intro h
    cases op with
    | notificationNext policy input =>
        change w.selection policy input.reading = some key at h
        unfold selection at h
        by_cases hopen : w.opened = true
        · rw [if_pos hopen] at h
          simp only [Option.bind_eq_bind, Option.bind_eq_some_iff, Option.some.injEq] at h
          obtain ⟨postmaster, hvalid, now, hnow, failure, hfailure, row, hrow, hkey⟩ := h
          exact ⟨policy, input, postmaster, now, failure, row, rfl, hopen,
            toOption_eq_some.1 hvalid, toOption_eq_some.1 hnow, hfailure,
            hrow, hkey⟩
        · rw [if_neg hopen] at h
          cases h
    | _ => cases h
  · rintro ⟨policy, input, postmaster, now, failure, row, rfl, hopen, hvalid, hnow, hfailure, hrow,
      hkey⟩
    change w.selection policy input.reading = some key
    unfold selection
    rw [if_pos hopen, hvalid, hnow]
    simp [Except.toOption, hfailure, hrow, hkey]

/-- A selection is the first of all pending failures, due or not. -/
theorem Reachable.selects_first (hreach : w.Reachable) (h : w.selects op = some key) :
    key ∈ w.store.db.pendingFailures
      ∧ ∀ other ∈ w.store.db.pendingFailures, NoLater key other := by
  obtain ⟨policy, input, postmaster, now, failure, row, -, -, -, -, hfailure, hrow, rfl⟩ :=
    selects_eq_some.1 h
  obtain ⟨first, hfirst, hid, hleast⟩ := nextFailure_first hfailure
  have hsame : row = first := by
    have hlookup := Keyed.lookup_of_mem hreach.keys.deliveries (Rustymail.mem_dueFailures.1 hfirst).1
    rw [hid] at hrow
    exact Option.some.inj (hrow.symm.trans hlookup)
  subst hsame
  obtain ⟨hmem, -, hunreported, hdue, -⟩ := Rustymail.mem_dueFailures.1 hfirst
  refine ⟨List.mem_map.2 ⟨row, List.mem_filter.2 ⟨hmem, decide_eq_true hunreported⟩, rfl⟩, ?_⟩
  rintro other hother
  obtain ⟨candidate, hcandidate, rfl⟩ := List.mem_map.1 hother
  rw [List.mem_filter, decide_eq_true_eq] at hcandidate
  by_cases hlate : candidate.notificationDueMs ≤ now
  · exact hleast candidate (hreach.mem_dueFailures hcandidate.1 hcandidate.2 hlate)
  · refine Or.inl ?_
    change row.notificationDueMs < candidate.notificationDueMs
    omega

/-- With a due failure there is a selection. -/
theorem Reachable.selects_some (hreach : w.Reachable) {policy : NotificationPolicy}
    {input : NotificationInput} {postmaster : Address} {now : Int} (hopen : w.opened = true)
    (hvalid : policy.validate = .ok postmaster)
    (hnow : (w.store.queue.now input.reading).2 = .ok now)
    (hkey : key ∈ w.store.db.pendingFailures) (hdue : key.1 ≤ now) :
    ∃ first, w.selects (.notificationNext policy input) = some first := by
  obtain ⟨row, hrow, rfl⟩ := List.mem_map.1 hkey
  rw [List.mem_filter, decide_eq_true_eq] at hrow
  have hmem := hreach.mem_dueFailures hrow.1 hrow.2 hdue
  cases hfailure : nextFailure now w.store.db with
  | none =>
      rw [nextFailure_none hfailure] at hmem
      cases hmem
  | some failure =>
      obtain ⟨first, hfirst, hid, -⟩ := nextFailure_first hfailure
      have hlookup := Keyed.lookup_of_mem hreach.keys.deliveries
        (Rustymail.mem_dueFailures.1 hfirst).1
      exact ⟨first.dueKey, selects_eq_some.2 ⟨policy, input, postmaster, now, failure, first, rfl,
        hopen, hvalid, hnow, hfailure, hid ▸ hlookup, rfl⟩⟩

/-! ### Nothing joins the failures ahead -/

theorem Trusts.notBefore {now : Int} (hsince : TrustedSince time w.store.queue.memory)
    (h : w.Trusts op now) : time ≤ now := by
  obtain ⟨before, reading, after, -, hok⟩ := h
  exact now_notBefore (watch_keeps now_trustedSince before hsince) hok

theorem Trusts.inRange {now : Int} (h : w.Trusts op now) : now ≤ i64Max := by
  obtain ⟨before, reading, after, -, hok⟩ := h
  exact (nowMs_eq_ok.1 (now_eq_ok hok).1).2.2

/-- What the guard trusts once it has seen one more reading is not before `time` either. -/
theorem lastTrusted_notBefore {wall : Int} {reading : Reading}
    (hsince : TrustedSince time w.store.queue.memory) (hwall : reading.nowMs = .ok wall) :
    ∃ trusted, w.store.queue.lastTrusted wall reading.mono = some trusted ∧ time ≤ trusted := by
  unfold QueueRuntime.lastTrusted
  by_cases hdistrusts : w.store.queue.distrusts wall reading.mono = true
  · rw [if_pos hdistrusts]
    exact hsince.2
  · rw [if_neg hdistrusts]
    refine ⟨wall, rfl, @now_notBefore _ reading wall time hsince ?_⟩
    rw [now_trusted hwall (Bool.eq_false_iff.2 hdistrusts)]

end World

/-- The delivery owes a report since `due`. -/
def View.Owing (due : Int) (v : View) : Prop :=
  ∃ row, v.row = some row ∧ row.Unreported ∧ row.notificationDueMs = due

section Overtaking

variable {w : World} {op : Op} {key : Int × Text} {time due : Int} {id : Text}

/-- No event lets a report fall due before the last trusted time. -/
theorem Lifecycle.Step.owing {e : LifeEvent} {v v' : View}
    (hsince : TrustedSince time w.store.queue.memory) (hdue : due < time)
    (hallowed : w.OnTrust op id e) (hstep : Step e v v') (h : v'.Owing due) : v.Owing due := by
  obtain ⟨row', hrow', ⟨hfailed, hpending⟩, hdue'⟩ := h
  cases hstep with
  | created hfresh hnew =>
      cases hrow'
      cases hfresh with
      | delivered => cases hfailed
      | pending => cases hfailed
  | bodyMarked hrow hroute hstate hphase => exact ⟨row', hrow', ⟨hfailed, hpending⟩, hdue'⟩
  | leased | exhausted | held | retried | closed =>
      cases hrow'
      cases hfailed
  | renewed hrow hroute hstate =>
      cases hrow'
      exact absurd (hstate.symm.trans hfailed) (by decide)
  | recovered hrow =>
      cases hrow'
      change (if _ then DeliveryState.uncertain else .deferred) = .failed at hfailed
      split_ifs at hfailed
  | @finished _ _ _ later _ row _ hrow =>
      obtain ⟨serial, outcome, reading, guardReading, faults, wall, -, hwall, htrusted⟩ := hallowed
      obtain ⟨trusted, hlast, hle⟩ := World.lastTrusted_notBefore hsince hwall
      cases hrow'
      have hlater : later = trusted := htrusted trusted hlast
      change later = due at hdue'
      omega
  | @expired now row _ hrow =>
      have hle := World.Trusts.notBefore hsince hallowed
      cases hrow'
      change now = due at hdue'
      omega
  | suppressed hrow hroute hold hunsettled =>
      cases hrow'
      unfold Delivery.suppress at hpending
      rw [if_pos hunsettled] at hpending
      cases hpending
  | @postponed reason later row _ hrow =>
      obtain ⟨now, htrusts, hlater⟩ := hallowed
      have hle := htrusts.notBefore hsince
      have hrange := htrusts.inRange
      cases hrow'
      unfold Delivery.postponeReport at hfailed hpending hdue'
      by_cases howes : row.state = .failed ∧ row.notificationState = .pending
      · rw [if_pos howes] at hdue'
        change later = due at hdue'
        omega
      · rw [if_neg howes] at hfailed hpending
        exact absurd ⟨hfailed, hpending⟩ howes
  | reported hrow =>
      cases hrow'
      cases hpending

namespace World

/-- Nothing joins the failures ahead of one that is overdue. -/
theorem Reachable.failuresBefore_next (hreach : w.Reachable)
    (hsince : TrustedSince time w.store.queue.memory) (hdue : due < time)
    (hkey : key ∈ (w.next op).store.db.failuresBefore (due, id)) :
    key ∈ w.store.db.failuresBefore (due, id) := by
  unfold Db.failuresBefore at hkey ⊢
  rw [List.mem_filter, decide_eq_true_eq] at hkey ⊢
  refine ⟨?_, hkey.2⟩
  have hbefore : key.1 < time := by
    rcases hkey.2 with hlt | ⟨heq, -⟩
    · exact lt_trans hlt hdue
    · exact heq ▸ hdue
  have howing := (mem_pendingFailures (hreach.next op).keys).1 hkey.1
  refine (mem_pendingFailures hreach.keys).2 ?_
  by_contra hnot
  refine Evolves.keeps (fun v => ¬ v.Owing key.1) (World.next_onTrust hreach.keys op key.2) ?_ hnot
    howing
  intro e v v' hallowed hstep hold hnew
  exact hold (hstep.owing hsince hbefore hallowed hnew)

/-- Only a new opening of the directory makes the guard forget. -/
theorem next_trustedSince (hsince : TrustedSince time w.store.queue.memory)
    (hopens : ∀ maxMessageBytes, op ≠ .reopen maxMessageBytes) :
    TrustedSince time (w.next op).store.queue.memory := by
  rcases w.next_guard op with hwatches | ⟨maxMessageBytes, hop, -⟩
  · exact hwatches.keeps now_trustedSince hsince
  · exact absurd hop (hopens maxMessageBytes)

theorem run_trustedSince (hsince : TrustedSince time w.store.queue.memory) (ops : List Op)
    (hopens : ∀ maxMessageBytes, Op.reopen maxMessageBytes ∉ ops) :
    TrustedSince time (w.run ops).store.queue.memory := by
  induction ops generalizing w with
  | nil => exact hsince
  | cons op rest ih =>
      refine ih (next_trustedSince hsince ?_) fun m hm => hopens m (List.mem_cons_of_mem op hm)
      rintro m rfl
      exact hopens m List.mem_cons_self

theorem Reachable.failuresBefore_run (hreach : w.Reachable)
    (hsince : TrustedSince time w.store.queue.memory) (hdue : due < time) (ops : List Op)
    (hopens : ∀ maxMessageBytes, Op.reopen maxMessageBytes ∉ ops)
    (hkey : key ∈ (w.run ops).store.db.failuresBefore (due, id)) :
    key ∈ w.store.db.failuresBefore (due, id) := by
  induction ops generalizing w with
  | nil => exact hkey
  | cons op rest ih =>
      have hsince' : TrustedSince time (w.next op).store.queue.memory := by
        refine next_trustedSince hsince ?_
        rintro m rfl
        exact hopens m List.mem_cons_self
      have hnext : key ∈ (w.next op).store.db.failuresBefore (due, id) :=
        ih (hreach.next op) hsince' (fun m hm => hopens m (List.mem_cons_of_mem op hm)) hkey
      exact hreach.failuresBefore_next hsince hdue hnext

/-- A call that hands out a task has selected the failure the task is about. -/
theorem Reachable.selects_of_prepare (hreach : w.Reachable) {task : NotificationTask}
    (h : (w.step op).2 = .work (.ok (.prepare task))) :
    ∃ due, w.selects op = some (due, task.plan.deliveryId) := by
  cases op with
  | notificationNext policy input =>
      change Reply.work (w.call fun s => notificationNext s policy input).2 = _ at h
      have hcall := Reply.work.inj h
      by_cases hopen : w.opened = true
      · rw [call_opened hopen] at hcall
        obtain ⟨postmaster, now, failure, hvalid, hnow, hfailure, queue, hprepared⟩ :=
          notificationNext_task hcall
        obtain ⟨row, hrow, hid, -⟩ := nextFailure_row hfailure
        have hlookup := Keyed.lookup_of_mem hreach.keys.deliveries hrow
        refine ⟨row.notificationDueMs, selects_eq_some.2 ⟨policy, input, postmaster, now, failure,
          row, rfl, hopen, hvalid, hnow, hfailure, hid ▸ hlookup, ?_⟩⟩
        rw [prepareReport_deliveryId hprepared, hid]
        rfl
      · rw [call_closed hopen] at hcall
        cases hcall
  | _ => cases h

/-- The failure is still owed its report, this call is not the one that takes it up, and the
directory is not opened again. -/
def Waits (key : Int × Text) (w : World) (op : Op) : Prop :=
  key ∈ w.store.db.pendingFailures ∧ w.selects op ≠ some key ∧ ∀ m, op ≠ .reopen m

end World

end Overtaking

/-- **A due report is not overtaken.** Once the guard has trusted a time after a failure fell due, no
failure joins those ahead of it; every call selects the first failure of all; and a failure that waits
sees no more selections than there were failures ahead of it, if each is dealt with before the next. -/
theorem due_failure_not_overtaken (w : World) (hreach : w.Reachable) (time due : Int) (id : Text)
    (hlast : w.store.queue.lastWall = some time) (hdue : due < time) :
    (∀ ops key, (∀ m, Op.reopen m ∉ ops) →
        key ∈ (w.run ops).store.db.failuresBefore (due, id) →
        key ∈ w.store.db.failuresBefore (due, id))
      ∧ (∀ ops op key, (w.run ops).selects op = some key →
        key ∈ (w.run ops).store.db.pendingFailures
          ∧ ∀ other ∈ (w.run ops).store.db.pendingFailures, NoLater key other)
      ∧ (∀ ops op task, ((w.run ops).step op).2 = .work (.ok (.prepare task)) →
        ∃ due, (w.run ops).selects op = some (due, task.plan.deliveryId))
      ∧ (∀ ops policy input postmaster now, (∀ m, Op.reopen m ∉ ops) →
        (due, id) ∈ (w.run ops).store.db.pendingFailures → (w.run ops).opened = true →
        policy.validate = .ok postmaster → ((w.run ops).store.queue.now input.reading).2 = .ok now →
        ∃ key, (w.run ops).selects (.notificationNext policy input) = some key
          ∧ (key = (due, id) ∨ key ∈ w.store.db.failuresBefore (due, id)))
      ∧ ∀ ops, Runs.Along World.next (World.Waits (due, id)) w ops →
        Runs.SettlesPicks World.next World.selects
          (fun w => w.store.db.failuresBefore (due, id)) w ops →
        (Runs.picked World.next World.selects w ops).length
          ≤ (w.store.db.failuresBefore (due, id)).length := by
  have hsince : TrustedSince time w.store.queue.memory := by
    have hsome : w.store.queue.memory.2.1.isSome = true := Option.isSome_iff_exists.2 ⟨time, hlast⟩
    exact ⟨hreach.started.trusted.2 hsome, time, hlast, le_refl time⟩
  refine ⟨?_, ?_, ?_, ?_, ?_⟩
  · intro ops key hopens hkey
    exact hreach.failuresBefore_run hsince hdue ops hopens hkey
  · intro ops op key hselects
    exact (hreach.run ops).selects_first hselects
  · intro ops op task hreply
    exact (hreach.run ops).selects_of_prepare hreply
  · intro ops policy input postmaster now hopens hwaits hopen hvalid hnow
    have hlate := now_notBefore (World.run_trustedSince hsince ops hopens) hnow
    obtain ⟨key, hkey⟩ := (hreach.run ops).selects_some hopen hvalid hnow hwaits
      (le_of_lt (lt_of_lt_of_le hdue hlate))
    obtain ⟨hpending, hleast⟩ := (hreach.run ops).selects_first hkey
    refine ⟨key, hkey, ?_⟩
    rcases (hleast _ hwaits).earlier_or_eq with hearlier | heq
    · refine Or.inr (hreach.failuresBefore_run hsince hdue ops hopens ?_)
      exact List.mem_filter.2 ⟨hpending, decide_eq_true hearlier⟩
    · exact Or.inl heq
  · intro ops hwaits hsettles
    refine @Runs.length_picked_le _ _ _ World.next World.selects _
      (fun w => w.Reachable ∧ TrustedSince time w.store.queue.memory) _ w ?_ ?_ ?_ ⟨hreach, hsince⟩
      ops hwaits hsettles
    · rintro w op ⟨hreach, hsince⟩ ⟨-, -, hopens⟩
      exact ⟨hreach.next op, World.next_trustedSince hsince hopens⟩
    · rintro w op key ⟨hreach, hsince⟩ - hkey
      exact hreach.failuresBefore_next hsince hdue hkey
    · rintro w op key ⟨hreach, hsince⟩ ⟨hpending, hother, -⟩ hselects
      obtain ⟨hmem, hleast⟩ := hreach.selects_first hselects
      refine List.mem_filter.2 ⟨hmem, decide_eq_true ?_⟩
      refine (hleast _ hpending).earlier_or_eq.resolve_right ?_
      rintro rfl
      exact hother hselects

namespace Sample

def firstRefused : Uuid := uuid 48 (by decide)

def secondRefused : Uuid := uuid 49 (by decide)

def thirdRefused : Uuid := uuid 50 (by decide)

def firstRemote : Address := remote

def secondRemote : Address := ⟨ascii "y@y.z", by decide, by decide⟩

def thirdRemote : Address := ⟨ascii "z@x.z", by decide, by decide⟩

/-- One second after every other reading. -/
def afterwards : Reading := ⟨some 2000, 1000⟩

/-- A submission that all its recipients have refused, and a trusted time after that. -/
def refusedBy (remotes : List Address) : World :=
  (World.init [] maxReport).run
    ([.createAccount recipient 100000 reading (fun _ => 1) {},
      .createCredential recipient token.text "mail" .mail (ascii "$argon2id$v=19$") reading,
      .setSendAs recipient recipient true {},
      .acceptRelaySubmission
        ⟨messageId, fun _ => deliveryId, fun remote =>
          if remote = firstRemote.asStr then firstRefused
          else if remote = secondRemote.asStr then secondRefused else thirdRefused⟩
        prepared ⟨operationId.text, some recipient, []⟩ ⟨⟨1, 1, 2, .mail⟩, recipient⟩
        ⟨remotes, .sevenBit, 3600⟩ reading {},
      .queueClaim {} remotes.length (fun _ => true) (fun _ => true)
        ⟨reading, reading, reading, {}, {}, {}, fun _ => token, fun _ _ => 0⟩]
      ++ (List.range remotes.length).map (finish · (.permanent 550))
      ++ [.queueExpire 1 afterwards {}])

def refused : World := refusedBy [firstRemote, secondRemote]

def thrice : World := refusedBy [firstRemote, secondRemote, thirdRemote]

/-- A call for work that stages a report. -/
def nextReport : Op :=
  .notificationNext ⟨ascii "b.c", [ascii "b.c"], 3600⟩
    ⟨afterwards, afterwards, token, fun _ => some (ascii "Thu, 01 Jan 1970 00:00:02 +0000"), .ok ()⟩

/-- The commit of the report on the first recipient. -/
def commitFirst : Op :=
  .notificationCommit
    ⟨⟨firstRefused.text, token, recipient, true, 3600⟩, ⟨[], token, 5, [], small⟩⟩ token afterwards {}

def reports : List Op := [nextReport, commitFirst, nextReport]

/-- The failures of the recipients, one second overdue. -/
def firstKey : Int × Text := (1000, firstRefused.text)

def secondKey : Int × Text := (1000, secondRefused.text)

def thirdKey : Int × Text := (1000, thirdRefused.text)

theorem refused_waits : World.Waits secondKey refused nextReport :=
  ⟨by decide +kernel, by decide +kernel, fun m => by simp [nextReport]⟩

/-- The first failure is selected and committed, then the second is selected; the third waits. -/
theorem thrice_selections :
    (thirdKey ∈ thrice.store.db.pendingFailures ∧ thrice.selects nextReport = some firstKey)
      ∧ thirdKey ∈ (thrice.next nextReport).store.db.pendingFailures
      ∧ thirdKey ∈ ((thrice.next nextReport).next commitFirst).store.db.pendingFailures
      ∧ ((thrice.next nextReport).next commitFirst).selects nextReport = some secondKey
      ∧ firstKey ∉ ((thrice.next nextReport).next commitFirst).store.db.failuresBefore thirdKey := by
  decide +kernel

theorem commitFirst_selects (w : World) : w.selects commitFirst = none := rfl

theorem thrice_waits : Runs.Along World.next (World.Waits thirdKey) thrice reports := by
  obtain ⟨⟨hfirst, hpicked⟩, hsecond, hthird, hnext, -⟩ := thrice_selections
  refine ⟨⟨hfirst, ?_, ?_⟩, ⟨hsecond, ?_, ?_⟩, ⟨hthird, ?_, ?_⟩, trivial⟩
  · rw [hpicked]
    decide
  · simp [nextReport]
  · simp [commitFirst_selects]
  · simp [commitFirst]
  · rw [hnext]
    decide
  · simp [nextReport]

/-- The first failure is dealt with when the second is selected. -/
theorem thrice_settles : Runs.SettlesPicks World.next World.selects
    (fun w => w.store.db.failuresBefore thirdKey) thrice reports := by
  intro before action middle again rest key key' heq hfirst hagain
  have hlength := congrArg List.length heq
  simp only [reports, List.length_append, List.length_cons, List.length_nil] at hlength
  rcases before with _ | ⟨x, before⟩
  · obtain ⟨rfl, htail⟩ := List.cons.inj heq
    rcases middle with _ | ⟨y, middle⟩
    · obtain ⟨rfl, -⟩ := List.cons.inj htail
      rw [commitFirst_selects] at hagain
      cases hagain
    · obtain ⟨rfl, -⟩ := List.cons.inj htail
      obtain rfl : middle = [] := List.length_eq_zero_iff.1 (by simp at hlength; omega)
      rw [Runs.run_nil, thrice_selections.1.2] at hfirst
      obtain rfl := Option.some.inj hfirst
      rw [List.nil_append, Runs.run_cons, Runs.run_cons, Runs.run_nil]
      exact thrice_selections.2.2.2.2
  · obtain ⟨rfl, htail⟩ := List.cons.inj heq
    obtain rfl : before = [] := List.length_eq_zero_iff.1 (by simp at hlength; omega)
    obtain ⟨rfl, -⟩ := List.cons.inj htail
    rw [commitFirst_selects] at hfirst
    cases hfirst

end Sample

/-- Two selections, with a commit between them, before the third failure has its turn. -/
theorem due_failure_not_overtaken_refused :
    Runs.picked World.next World.selects Sample.thrice Sample.reports
        = [Sample.firstKey, Sample.secondKey]
      ∧ (Runs.picked World.next World.selects Sample.thrice Sample.reports).length
        ≤ (Sample.thrice.store.db.failuresBefore Sample.thirdKey).length := by
  obtain ⟨⟨-, hfirst⟩, -, -, hsecond, -⟩ := Sample.thrice_selections
  refine ⟨by simp [Runs.picked, Sample.reports, hfirst, hsecond, Sample.commitFirst_selects], ?_⟩
  exact (due_failure_not_overtaken Sample.thrice (World.reachable_run _ _ _) 2000 1000
    Sample.thirdRefused.text (by decide +kernel) (by decide)).2.2.2.2 Sample.reports
    Sample.thrice_waits Sample.thrice_settles

/-- A failure whose report is staged and neither committed nor given up is selected again, and so more
often than there are failures ahead. -/
theorem staged_failure_selected_again :
    Sample.refused.store.queue.lastWall = some 2000
      ∧ Runs.Along World.next (World.Waits Sample.secondKey) Sample.refused
        [Sample.nextReport, Sample.nextReport]
      ∧ ¬ (Runs.picked World.next World.selects Sample.refused
          [Sample.nextReport, Sample.nextReport]).length
        ≤ (Sample.refused.store.db.failuresBefore Sample.secondKey).length := by
  refine ⟨by decide +kernel, ⟨Sample.refused_waits, ⟨?_, ?_, ?_⟩, trivial⟩, by decide +kernel⟩
  · decide +kernel
  · decide +kernel
  · intro m
    simp [Sample.nextReport]

end Rustymail
