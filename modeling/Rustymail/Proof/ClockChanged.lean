import Rustymail.Proof.ClockJump
import Rustymail.Proof.TrustedTimes

/-!
# The clock guard stops the queue

The guard's answers to a whole sequence of readings, and what follows for the store: once a call has
reported a changed clock, the guarded operations write nothing until the directory is opened again,
and whatever they wrote before rests on readings the guard let pass.
-/

namespace Rustymail

open Checked Lifecycle

section Sequences

variable {queue : QueueRuntime} {reading : Reading} {wall : Int}

/-- The first reading that has a wall time: what all later ones are compared with. -/
def firstReading : List Reading → Option (Int × Nat)
  | [] => none
  | reading :: rest =>
      match reading.nowMs with
      | .ok wall => some (wall, reading.mono)
      | .error _ => firstReading rest

theorem watch_append (queue : QueueRuntime) (first second : List Reading) :
    queue.watch (first ++ second) = (queue.watch first).watch second := by
  unfold QueueRuntime.watch
  rw [List.foldl_append]

theorem now_clock (queue : QueueRuntime) (reading : Reading) :
    (queue.now reading).1.clock = queue.clock.or (firstReading [reading]) := by
  unfold firstReading
  rcases now_cases queue reading with ⟨e, he⟩ | ⟨time, htime, hdistrusts | htrusts⟩
  · rw [now_unreadable he, he]
    simp [firstReading]
  · rw [now_distrusted htime hdistrusts, htime]
  · rw [now_trusted htime htrusts, htime]

theorem firstReading_cons (reading : Reading) (rest : List Reading) :
    firstReading (reading :: rest) = (firstReading [reading]).or (firstReading rest) := by
  simp only [firstReading]
  cases reading.nowMs with
  | error e => rfl
  | ok wall => rfl

theorem watch_clock (queue : QueueRuntime) (readings : List Reading) :
    (queue.watch readings).clock = queue.clock.or (firstReading readings) := by
  induction readings generalizing queue with
  | nil =>
      change queue.clock = queue.clock.or none
      rw [Option.or_none]
  | cons reading rest ih =>
      change ((queue.now reading).1.watch rest).clock = _
      rw [ih, now_clock, firstReading_cons reading rest, Option.or_assoc]

/-- The guard has trusted a time at least this late, and is at work. -/
def TrustedSince (time : Int) (memory : Option (Int × Nat) × Option Int × Bool) : Prop :=
  memory.1.isSome = true ∧ ∃ last, memory.2.1 = some last ∧ time ≤ last

theorem now_notBefore {time : Int} (h : TrustedSince time queue.memory)
    (hok : (queue.now reading).2 = .ok wall) : time ≤ wall := by
  obtain ⟨hclock, last, hlast, hle⟩ := h
  obtain ⟨first, hfirst⟩ := Option.isSome_iff_exists.1 hclock
  have htrusts := (now_eq_ok hok).2
  change queue.clock = some first at hfirst
  change queue.lastWall = some last at hlast
  unfold QueueRuntime.distrusts QueueRuntime.discontinuous at htrusts
  rw [hfirst, hlast] at htrusts
  simp only [Option.any_some, Bool.or_eq_false_iff, decide_eq_false_iff_not] at htrusts
  have hnot := htrusts.2.1.1
  omega

theorem now_trustedSince {time : Int} (queue : QueueRuntime) (reading : Reading)
    (h : TrustedSince time queue.memory) : TrustedSince time (queue.now reading).1.memory := by
  have hclock : (queue.now reading).1.clock.isSome = true := by
    have hold : queue.clock.isSome = true := h.1
    rw [now_clock, Option.isSome_or, hold]
    rfl
  refine ⟨hclock, ?_⟩
  rcases now_cases queue reading with ⟨e, he⟩ | ⟨now, hnow, hdistrusts | htrusts⟩
  · rw [now_unreadable he]
    exact h.2
  · rw [now_distrusted hnow hdistrusts]
    exact h.2
  · have hle : time ≤ now := now_notBefore h (by rw [now_trusted hnow htrusts])
    rw [now_trusted hnow htrusts]
    exact ⟨now, rfl, hle⟩

theorem now_ok_trustedSince (hok : (queue.now reading).2 = .ok wall) :
    TrustedSince wall (queue.now reading).1.memory := by
  obtain ⟨hnow, htrusts⟩ := now_eq_ok hok
  refine ⟨?_, wall, ?_, le_refl wall⟩
  · change (queue.now reading).1.clock.isSome = true
    rw [now_trusted hnow htrusts, Option.isSome_or]
    simp
  · rw [now_trusted hnow htrusts]
    rfl

/-- The guard's memory after more readings. -/
theorem watch_keeps {inv : Option (Int × Nat) × Option Int × Bool → Prop}
    (hnow : ∀ (queue : QueueRuntime) reading, inv queue.memory → inv (queue.now reading).1.memory)
    (readings : List Reading) (h : inv queue.memory) : inv (queue.watch readings).memory :=
  QueueRuntime.Watches.keeps hnow ⟨readings, rfl⟩ h

/-- The times the guard trusts never go back. -/
theorem answers_mono {before middle : List Reading} {first second : Reading} {time later : Int}
    (hfirst : ((queue.watch before).now first).2 = .ok time)
    (hsecond : ((queue.watch (before ++ first :: middle)).now second).2 = .ok later) :
    time ≤ later := by
  rw [watch_append] at hsecond
  exact now_notBefore (watch_keeps now_trustedSince middle (now_ok_trustedSince hfirst)) hsecond

/-- A trusted time stays within a minute of where the monotonic clock says it should be. -/
theorem answers_near {before : List Reading} (hfresh : queue.clock = none)
    (hok : ((queue.watch before).now reading).2 = .ok wall) {firstWall : Int} {firstMono : Nat}
    (hfirst : firstReading (before ++ [reading]) = some (firstWall, firstMono)) :
    (wall - (firstWall + ((reading.mono : Int) - firstMono))).natAbs ≤ 60000 := by
  obtain ⟨hnow, htrusts⟩ := now_eq_ok hok
  have hclock := watch_clock queue (before ++ [reading])
  rw [hfresh, Option.none_or, hfirst, watch_append] at hclock
  change ((queue.watch before).now reading).1.clock = _ at hclock
  rw [now_trusted hnow htrusts] at hclock
  unfold QueueRuntime.distrusts QueueRuntime.discontinuous at htrusts
  dsimp only at hclock
  cases hold : (queue.watch before).clock with
  | none =>
      rw [hold, Option.none_or, Option.some.injEq, Prod.mk.injEq] at hclock
      obtain ⟨rfl, rfl⟩ := hclock
      omega
  | some start =>
      obtain ⟨startWall, startMono⟩ := start
      rw [hold, Option.some_or, Option.some.injEq, Prod.mk.injEq] at hclock
      obtain ⟨rfl, rfl⟩ := hclock
      rw [hold] at htrusts
      simp only [Bool.or_eq_false_iff, decide_eq_false_iff_not] at htrusts
      have hskew := htrusts.2.2
      omega

/-- Once the guard has answered `ClockChanged`, it answers so to every reading that has a wall time,
and trusts none. -/
theorem answers_sticky {before middle : List Reading} {first second : Reading}
    (hfirst : ((queue.watch before).now first).2 = .error .clockChanged) :
    ((queue.watch (before ++ first :: middle)).now second).2 =
      match second.nowMs with
      | .ok _ => .error .clockChanged
      | .error e => .error e := by
  have hlatched : (queue.watch (before ++ first :: middle)).clockChanged = true := by
    rw [watch_append]
    exact @watch_keeps _ (fun memory => memory.2.2 = true) (fun _ _ => now_keeps_latch) middle
      (now_changed_latches hfirst)
  cases hnow : second.nowMs with
  | error e => rw [now_unreadable hnow]
  | ok wall =>
      have hdistrusts :
          (queue.watch (before ++ first :: middle)).distrusts wall second.mono = true := by
        unfold QueueRuntime.distrusts
        rw [hlatched, Bool.true_or]
      rw [now_distrusted hnow hdistrusts]

end Sequences

section Replies

variable {e : StoreError}

theorem Reply.error?_unit {result : Except StoreError Unit} :
    (Reply.unit result).error? = some e ↔ result = .error e := by
  cases result <;> simp [Reply.error?]

theorem Reply.error?_number {result : Except StoreError Nat} :
    (Reply.number result).error? = some e ↔ result = .error e := by
  cases result <;> simp [Reply.error?]

theorem Reply.error?_accepted {result : Except StoreError AcceptedMessage} :
    (Reply.accepted result).error? = some e ↔ result = .error e := by
  cases result <;> simp [Reply.error?]

theorem Reply.error?_leases {result : Except StoreError (List QueueLease)} :
    (Reply.leases result).error? = some e ↔ result = .error e := by
  cases result <;> simp [Reply.error?]

theorem Reply.error?_reader {result : Except StoreError QueuedReader} :
    (Reply.reader result).error? = some e ↔ result = .error e := by
  cases result <;> simp [Reply.error?]

theorem Reply.error?_work {result : Except StoreError NotificationWork} :
    (Reply.work result).error? = some e ↔ result = .error e := by
  cases result <;> simp [Reply.error?]

end Replies

namespace World

section Latched

variable {α : Type} {w : World} {op : Op}

/-- Behind a latched guard nothing is written. -/
theorem gated_latched {s s' : Store} {reading : Reading} {tx : Int → Db → Db → Prop}
    (hlatched : s.queue.clockChanged = true) (h : s.Gated reading tx s') : s'.db = s.db := by
  rcases h with hsame | ⟨now, hnow, -⟩
  · exact hsame
  · exact absurd hnow (now_latched hlatched now)

theorem call_db {f : Store → Store × Except StoreError α} (h : (f w.store).1.db = w.store.db) :
    (w.call f).1.store.db = w.store.db := by
  rcases w.call_cases f with hsame | hstore
  · rw [hsame]
  · rw [hstore]
    exact h

theorem callWith_db {serial : Nat} {f : QueueLease → Store → Store × Except StoreError α}
    (h : ∀ lease, (f lease w.store).1.db = w.store.db) :
    (w.callWith serial f).1.store.db = w.store.db := by
  rcases w.callWith_cases serial f with hsame | ⟨lease, -, hstore⟩
  · rw [hsame]
  · rw [hstore]
    exact h lease

theorem next_latched (hlatched : w.store.queue.clockChanged = true) (hguarded : op.Guarded) :
    (w.next op).store.db = w.store.db := by
  cases op with
  | queueExpire limit reading faults =>
      exact call_db (gated_latched hlatched (queueExpire_gated limit reading faults))
  | queueClaim policy limit keepLease keepReader input =>
      have hclaim : (queueClaim w.store policy limit w.live (w.without keepLease keepReader).live
          input).1.db = w.store.db := by
        rcases queueClaim_gated policy limit w.live (w.without keepLease keepReader).live input with
          hsame | ⟨now, recovered, expired, hnow, -⟩
        · exact hsame
        · exact absurd hnow (now_latched hlatched now)
      change (w.claim policy limit keepLease keepReader input).1.store.db = _
      rcases w.claim_cases policy limit keepLease keepReader input with
        hsame | ⟨e, -, hfailed⟩ | ⟨leases, -, hdone⟩
      · rw [hsame]
        rfl
      · rw [hfailed]
        exact hclaim
      · rw [hdone]
        exact hclaim
  | queueRenew serial seconds reading faults =>
      exact callWith_db fun lease =>
        gated_latched hlatched (queueRenew_gated lease seconds reading faults)
  | queueRetry id allowDuplicate extendExpired reading faults =>
      exact call_db
        (gated_latched hlatched (queueRetry_gated id allowDuplicate extendExpired reading faults))
  | notificationNext policy input =>
      refine call_db ?_
      rcases notificationNext_gated policy input with
        hsame | ⟨now, failure, reason, hnow, -⟩ | ⟨now, failure, reason, again, hnow, -⟩
      · exact hsame
      · exact absurd hnow (now_latched hlatched now)
      · exact absurd hnow (now_latched hlatched now)
  | notificationFailed id error reading =>
      exact call_db (gated_latched hlatched (notificationFailed_gated id error reading))
  | notificationCommit prepared delivery reading faults =>
      exact call_db
        (gated_latched hlatched (notificationCommit_gated prepared delivery reading faults))
  | _ => exact absurd rfl hguarded

/-- Only a new opening of the directory unlatches the guard. -/
theorem run_latched (hlatched : w.store.queue.clockChanged = true) (ops : List Op)
    (hopens : ∀ maxMessageBytes, Op.reopen maxMessageBytes ∉ ops) :
    (w.run ops).store.queue.clockChanged = true := by
  induction ops generalizing w with
  | nil => exact hlatched
  | cons op rest ih =>
      refine ih ?_ fun m hm => hopens m (List.mem_cons_of_mem op hm)
      rcases w.next_guard op with hwatches | ⟨m, rfl, -⟩
      · exact @QueueRuntime.Watches.keeps _ _ (fun memory => memory.2.2 = true)
          (fun _ _ => now_keeps_latch) hwatches hlatched
      · exact absurd List.mem_cons_self (hopens m)

theorem call_latches {f : Store → Store × Except StoreError α} (hheeds : w.store.Heeds (f w.store))
    (h : (w.call f).2 = .error .clockChanged) :
    (w.call f).1.store.queue.clockChanged = true := by
  by_cases hopen : w.opened = true
  · rw [call_opened hopen] at h ⊢
    exact hheeds.reports h
  · rw [call_closed hopen] at h
    cases h

theorem callWith_latches {serial : Nat} {f : QueueLease → Store → Store × Except StoreError α}
    (hheeds : ∀ lease, w.store.Heeds (f lease w.store))
    (h : (w.callWith serial f).2 = .error .clockChanged) :
    (w.callWith serial f).1.store.queue.clockChanged = true := by
  unfold callWith at h ⊢
  cases hlease : w.lease? serial with
  | none =>
      rw [hlease] at h
      cases h
  | some lease =>
      rw [hlease] at h
      exact call_latches (hheeds lease) h

/-- Whoever reports a changed clock has latched the guard. -/
theorem step_reports (htimeless : op.Timeless)
    (h : (w.step op).2.error? = some .clockChanged) :
    (w.next op).store.queue.clockChanged = true := by
  cases op with
  | createAccount address quotaBytes reading uidvalidity faults =>
      exact call_latches (createAccount_heeds _ address quotaBytes reading uidvalidity faults)
        (Reply.error?_unit.1 h)
  | setAccountQuota address bytes =>
      exact call_latches (setAccountQuota_heeds _ address bytes) (Reply.error?_unit.1 h)
  | finishAuthentication principal reading faults =>
      exact call_latches (finishAuthentication_heeds _ principal reading faults)
        (Reply.error?_unit.1 h)
  | createCredential login selector label scope phc reading =>
      exact call_latches (createCredential_heeds _ login selector label scope phc reading)
        (Reply.error?_number.1 h)
  | revokeCredential selector reading faults =>
      exact call_latches (revokeCredential_heeds _ selector reading faults) (Reply.error?_number.1 h)
  | disableAccount login reading faults =>
      exact call_latches (disableAccount_heeds _ login reading faults) (Reply.error?_number.1 h)
  | setSendAs login address enabled faults =>
      exact call_latches (setSendAs_heeds _ login address enabled faults) (Reply.error?_number.1 h)
  | insertAlias address accountId =>
      exact call_latches (insertAlias_heeds _ address accountId) (Reply.error?_unit.1 h)
  | accept ids message plan reading faults =>
      exact call_latches (acceptInner_heeds _ ids message plan none none reading faults)
        (Reply.error?_accepted.1 h)
  | acceptSubmission ids message plan identity reading faults =>
      exact call_latches (acceptInner_heeds _ ids message plan (some identity) none reading faults)
        (Reply.error?_accepted.1 h)
  | acceptRelaySubmission ids message plan identity relay reading faults =>
      exact call_latches
        (acceptInner_heeds _ ids message plan (some identity) (some relay) reading faults)
        (Reply.error?_accepted.1 h)
  | enqueue ids message plan reading faults =>
      exact call_latches (enqueue_heeds _ ids message plan reading faults) (Reply.error?_accepted.1 h)
  | queueExpire limit reading faults =>
      exact call_latches (queueExpire_heeds _ limit reading faults) (Reply.error?_number.1 h)
  | queueRecover limit reading faults =>
      exact call_latches (queueRecover_heeds _ limit w.live reading faults) (Reply.error?_number.1 h)
  | queueClaim policy limit keepLease keepReader input =>
      have hheeds := queueClaim_heeds w.store policy limit w.live
        (w.without keepLease keepReader).live input
      have hreply := Reply.error?_leases.1 h
      change (w.claim policy limit keepLease keepReader input).1.store.queue.clockChanged = true
      rcases w.claim_cases policy limit keepLease keepReader input with
        hclosed | ⟨e, herror, hfailed⟩ | ⟨leases, -, hdone⟩
      · rw [hclosed] at hreply
        cases hreply
      · rw [hfailed] at hreply ⊢
        cases hreply
        exact hheeds.reports herror
      · rw [hdone] at hreply
        cases hreply
  | queueRenew serial seconds reading faults =>
      exact callWith_latches (fun lease => queueRenew_heeds _ lease seconds reading faults)
        (Reply.error?_unit.1 h)
  | queueMarkBody serial faults =>
      exact callWith_latches (fun lease => queueMarkBody_heeds _ lease faults)
        (Reply.error?_unit.1 h)
  | queueOpenBody serial file =>
      have hopen : ∀ lease, w.store.Heeds (w.store, queueOpenBody w.store lease file) := by
        intro lease
        refine .reply rfl (.bind (checkLease_heeds _ _) fun _ _ => ?_)
        refine .bind (.require (by decide)) fun _ _ => ?_
        exact .bind (.found (by decide)) fun _ _ => .bind htimeless fun _ _ => .ok _
      have hreply := Reply.error?_reader.1 h
      have hcall := @callWith_latches _ w serial
        (fun lease store => (store, queueOpenBody store lease file)) hopen
      unfold openBody at hreply
      change (w.openBody serial file).1.store.queue.clockChanged = true
      unfold openBody
      split at hreply
      · rename_i w' e hresult
        rw [hresult] at hcall
        exact hcall hreply
      · cases hreply
  | queueFinish serial outcome reading guardReading faults =>
      exact callWith_latches (fun lease => queueFinish_heeds _ lease outcome reading guardReading faults)
        (Reply.error?_unit.1 h)
  | queueHold id reading faults =>
      exact call_latches (queueHold_heeds _ id reading faults) (Reply.error?_unit.1 h)
  | queueRetry id allowDuplicate extendExpired reading faults =>
      exact call_latches (queueRetry_heeds _ id allowDuplicate extendExpired reading faults)
        (Reply.error?_unit.1 h)
  | queueCloseUnknown id note reading faults =>
      exact call_latches (queueCloseUnknown_heeds _ id note reading faults) (Reply.error?_unit.1 h)
  | notificationNext policy input =>
      exact call_latches (notificationNext_heeds _ policy htimeless) (Reply.error?_work.1 h)
  | notificationFailed id error reading =>
      exact call_latches (notificationFailed_heeds _ id error reading) (Reply.error?_unit.1 h)
  | notificationCommit prepared delivery reading faults =>
      exact call_latches (notificationCommit_heeds _ prepared delivery reading faults)
        (Reply.error?_accepted.1 h)
  | dropLease serial => cases h
  | dropReader index => cases h
  | close => cases h
  | crash => cases h
  | reopen maxMessageBytes =>
      have hreply : (w.reopen maxMessageBytes).2 = .error .clockChanged := Reply.error?_unit.1 h
      unfold reopen at hreply
      split_ifs at hreply
      cases hreply

end Latched

/-- A failure is handed out for its report when that is due at a time the guard let pass. -/
theorem task_onTrust {w : World} {policy : NotificationPolicy} {input : NotificationInput}
    {task : NotificationTask} (hkeys : w.store.db.Keys)
    (h : (w.step (.notificationNext policy input)).2 = .work (.ok (.prepare task))) :
    ∃ now row, w.Trusts (.notificationNext policy input) now
      ∧ w.store.db.delivery? task.plan.deliveryId = some row
      ∧ row.route = .relay ∧ row.state = .failed ∧ row.notificationState = .pending
      ∧ row.notificationDueMs ≤ now := by
  have hcall : (w.call fun s => notificationNext s policy input).2 = .ok (.prepare task) :=
    Reply.work.inj h
  by_cases hopen : w.opened = true
  · rw [call_opened hopen] at hcall
    obtain ⟨postmaster, now, failure, -, hnow, hdue, queue, hprepared⟩ := notificationNext_task hcall
    obtain ⟨row, hmem, hid, hfailed⟩ := nextFailure_row hdue
    refine ⟨now, row, .first rfl hnow, ?_, hfailed⟩
    rw [prepareReport_deliveryId hprepared, hid]
    exact Keyed.lookup_of_mem hkeys.deliveries hmem
  · rw [call_closed hopen] at hcall
    cases hcall

end World

/-- **The clock guard.** Its trusted times never go back, stay within a minute of the monotonic
clock, and end for good with the first `ClockChanged`. After any call has reported that, the guarded
operations write nothing until the directory is opened again; what they bring to a delivery was due
at a reading the guard let pass and counts from it, recovery apart; and so was a failure whose report
they hand out. -/
theorem clock_guard_stops_scheduling :
    (∀ before first middle second time later,
        (((({} : QueueRuntime).watch before).now first).2 = .ok time →
          ((({} : QueueRuntime).watch (before ++ first :: middle)).now second).2 = .ok later →
          time ≤ later))
      ∧ (∀ before (reading : Reading) wall firstWall (firstMono : Nat),
        ((({} : QueueRuntime).watch before).now reading).2 = .ok wall →
          firstReading (before ++ [reading]) = some (firstWall, firstMono) →
          (wall - (firstWall + ((reading.mono : Int) - firstMono))).natAbs ≤ 60000)
      ∧ (∀ before first middle (second : Reading),
        ((({} : QueueRuntime).watch before).now first).2 = .error .clockChanged →
          ((({} : QueueRuntime).watch (before ++ first :: middle)).now second).2 =
            match second.nowMs with
            | .ok _ => .error .clockChanged
            | .error e => .error e)
      ∧ (∀ (w : World) op ops guarded, op.Timeless →
        (w.step op).2.error? = some .clockChanged →
          (∀ maxMessageBytes, Op.reopen maxMessageBytes ∉ ops) → guarded.Guarded →
          (((w.next op).run ops).next guarded).store.db = ((w.next op).run ops).store.db)
      ∧ (∀ (w : World) op id, w.Reachable → op.Guarded →
        Evolves (w.OnTrust op id) (w.store.db.view id) ((w.next op).store.db.view id))
      ∧ ∀ (w : World) policy input task, w.Reachable →
        (w.step (.notificationNext policy input)).2 = .work (.ok (.prepare task)) →
          ∃ now row, w.Trusts (.notificationNext policy input) now
            ∧ w.store.db.delivery? task.plan.deliveryId = some row
            ∧ row.route = .relay ∧ row.state = .failed ∧ row.notificationState = .pending
            ∧ row.notificationDueMs ≤ now := by
  refine ⟨?_, ?_, ?_, ?_, ?_, ?_⟩
  · intro before first middle second time later hfirst hsecond
    exact answers_mono hfirst hsecond
  · intro before reading wall firstWall firstMono hok hfirst
    exact answers_near rfl hok hfirst
  · intro before first middle second hfirst
    exact answers_sticky hfirst
  · intro w op ops guarded htimeless hreply hopens hguarded
    have hlatched := World.step_reports htimeless hreply
    exact World.next_latched (World.run_latched hlatched ops hopens) hguarded
  · intro w op id hreach _
    exact World.next_onTrust hreach.keys op id
  · intro w policy input task hreach hreply
    exact World.task_onTrust hreach.keys hreply

/-- A jump by a day stops expiry and, on a clock that looks right again, the next claim. -/
theorem claim_stopped_by_jump :
    (((Sample.attempted.next (.queueExpire 1 Sample.tomorrow {})).run [.dropLease 0]).next
        Sample.claim).store.db
      = ((Sample.attempted.next (.queueExpire 1 Sample.tomorrow {})).run [.dropLease 0]).store.db :=
  clock_guard_stops_scheduling.2.2.2.1 Sample.attempted (.queueExpire 1 Sample.tomorrow {})
    [.dropLease 0] Sample.claim trivial rfl
    (fun _ hmem => by simp at hmem) (by decide)

namespace Sample

/-- The only attempt has lost its owner. -/
def abandoned : World := fresh.run [enqueue, claim, .dropLease 0]

/-- A claim during which the clock jumps ahead by a day. -/
def claimAcrossJump : Op :=
  .queueClaim {} 1 (fun _ => true) (fun _ => true)
    ⟨reading, tomorrow, tomorrow, {}, {}, {}, fun _ => token, fun _ _ => 0⟩

theorem claimAcrossJump_trusts {now : Int} (h : abandoned.Trusts claimAcrossJump now) :
    now = 1000 := by
  obtain ⟨before, shown, after, hreadings, hok⟩ := h
  have hsplit : [reading, tomorrow] = before ++ shown :: after := hreadings
  cases before with
  | nil =>
      obtain ⟨rfl, -⟩ := List.cons.inj hsplit
      have hnow : (abandoned.store.queue.now reading).2 = .ok 1000 := rfl
      exact Except.ok.inj (hok.symm.trans hnow)
  | cons first rest =>
      obtain ⟨rfl, hrest⟩ := List.cons.inj hsplit
      cases rest with
      | nil =>
          obtain ⟨rfl, -⟩ := List.cons.inj hrest
          have hchanged : ((abandoned.store.queue.watch [reading]).now tomorrow).2
              = .error .clockChanged := rfl
          rw [hchanged] at hok
          cases hok
      | cons second rest =>
          have hlength := congrArg List.length hrest
          simp at hlength

end Sample

/-- Recovery inside a claim counts the next attempt from a reading the guard turns down; and a
reading before the epoch is refused as such, also after the guard has reported a changed clock. -/
theorem recovery_counts_from_tomorrow :
    ((({} : QueueRuntime).watch [Sample.reading]).now Sample.tomorrow).2 = .error .clockChanged
      ∧ ((({} : QueueRuntime).watch [Sample.reading, Sample.tomorrow]).now ⟨some (-1), 0⟩).2
        = .error .invalidInput
      ∧ (Sample.abandoned.step Sample.claimAcrossJump).2.error? = some .clockChanged
      ∧ ∃ row', (Sample.abandoned.next Sample.claimAcrossJump).store.db.delivery?
          Sample.deliveryId.text = some row'
        ∧ row'.state = .deferred ∧ row'.nextAttemptAtMs = 88201000
        ∧ ∀ now, Sample.abandoned.Trusts Sample.claimAcrossJump now →
          row'.nextAttemptAtMs ≠ now + 1800000 := by
  have hrow : ((Sample.abandoned.next Sample.claimAcrossJump).store.db.delivery?
      Sample.deliveryId.text).map (fun row => (row.state, row.nextAttemptAtMs))
        = some (.deferred, 88201000) := by decide
  obtain ⟨row', hrow', hvalues⟩ := Option.map_eq_some_iff.1 hrow
  obtain ⟨hstate, hnext⟩ := Prod.mk.inj hvalues
  refine ⟨rfl, rfl, rfl, row', hrow', hstate, hnext, ?_⟩
  intro now htrusts heq
  rw [hnext, Sample.claimAcrossJump_trusts htrusts] at heq
  exact absurd heq (by decide)

end Rustymail
