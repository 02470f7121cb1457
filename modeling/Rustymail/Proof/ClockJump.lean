import Rustymail.Attempts
import Rustymail.Proof.ClockAnswers

/-!
# Results recorded while the clock jumps

`queue_finish` records a result whatever the guard says of the clock. The due time of the report
comes from the guard; the next attempt is counted from the wall time as it was first read.
-/

namespace Rustymail

open Checked

/-- Neither time the row schedules by lies further off than the last trusted time allows. -/
def Delivery.Unpostponed (row : Delivery) (trusted retryMs : Int) : Prop :=
  row.notificationDueMs ≤ trusted ∧ row.nextAttemptAtMs ≤ trusted + retryMs

section Finish

variable {s : Store} {lease : QueueLease} {outcome : QueueResult} {phase : Phase}
  {result : DeliveryState × Option Nat × String} {reading guardReading : Reading} {now wall trusted : Int}

/-- A commit that takes effect, whatever is reported of it. -/
def Faults.TakesEffect (faults : Faults) : Prop :=
  faults.hit .queueBeforeCommit = false ∧ faults.report ≠ .failed

theorem commit_takesEffect {α : Type} {faults : Faults} (h : faults.TakesEffect) (s : Store) (db : Db)
    (value : α) : (Store.commit faults s db value).1 = { s with db := db } := by
  unfold Store.commit
  rw [if_neg (by rw [h.1]; decide)]
  cases hreport : faults.report with
  | failed => exact absurd hreport h.2
  | failedButApplied => rfl
  | ok =>
      dsimp only
      split_ifs <;> rfl

/-- What an accepted outcome leaves in the delivery's row. -/
theorem queueFinish_row (hcheck : checkLease s.db lease s.lock = .ok phase)
    (hresult : outcome.classify phase = .ok result) (hnow : reading.nowMs = .ok now)
    (hwall : guardReading.nowMs = .ok wall)
    (htrusted : s.queue.lastTrusted wall guardReading.mono = some trusted) {faults : Faults}
    (hfaults : faults.TakesEffect) :
    ∃ row, s.db.delivery? lease.id = some row
      ∧ (queueFinish s lease outcome reading guardReading faults).1.db.delivery? lease.id
        = some (Delivery.finish (settle row.possiblyDelivered result) outcome.reason
          (saturatingAdd now lease.retryMs) trusted row)
      ∧ (queueFinish s lease outcome reading guardReading faults).1.db.queueLease? lease.id = none := by
  obtain ⟨-, row, queued, hrow, -⟩ := checkLease_eq_ok.1 hcheck
  refine ⟨row, hrow, ?_⟩
  have hbody : finishTx lease s.lock outcome now trusted s.db = .ok
      ((s.db.updateDelivery lease.id (Delivery.finish (settle row.possiblyDelivered result)
        outcome.reason (saturatingAdd now lease.retryMs) trusted)).deleteQueueLease lease.id, ()) := by
    unfold finishTx
    rw [hcheck, bind_ok, hrow, found_some, bind_ok, hresult, bind_ok]
    rfl
  have hdb : (queueFinish s lease outcome reading guardReading faults).1.db
      = (s.db.updateDelivery lease.id (Delivery.finish (settle row.possiblyDelivered result)
        outcome.reason (saturatingAdd now lease.retryMs) trusted)).deleteQueueLease lease.id := by
    unfold queueFinish
    rw [hnow]
    dsimp only
    rw [notificationDue_lastTrusted hwall now htrusted]
    unfold Store.transaction
    dsimp only
    rw [hbody]
    dsimp only
    rw [commit_takesEffect hfaults]
  rw [hdb]
  constructor
  · have hupdated : (s.db.updateDelivery lease.id (Delivery.finish
        (settle row.possiblyDelivered result) outcome.reason (saturatingAdd now lease.retryMs)
        trusted)).delivery? lease.id = (s.db.delivery? lease.id).map (Delivery.finish
        (settle row.possiblyDelivered result) outcome.reason (saturatingAdd now lease.retryMs)
        trusted) :=
      (Db.delivery_updateDelivery (f := Delivery.finish _ _ _ _) fun _ => rfl).trans (if_pos rfl)
    rw [hrow] at hupdated
    exact hupdated
  · exact Keyed.lookup_remove.trans (if_pos rfl)

theorem saturatingAdd_le_iff (now retryMs : Int) :
    saturatingAdd now retryMs ≤ trusted + retryMs ↔ now ≤ trusted ∨ i64Max ≤ trusted + retryMs := by
  unfold saturatingAdd
  omega

end Finish

/-- **When a clock jump postpones nothing.** Every accepted outcome is recorded, and its report falls
due at the last time the guard trusted; the next attempt keeps to that time exactly if the first of
the two readings does, or if the sum is at the end of the clock. -/
theorem finish_unpostponed_iff {w : World} (hreach : w.Reachable) (hopen : w.opened = true)
    {serial : Nat} {lease : QueueLease} (hlease : w.lease? serial = some lease) {phase : Phase}
    (hcheck : checkLease w.store.db lease w.store.lock = .ok phase) {outcome : QueueResult}
    {result : DeliveryState × Option Nat × String} (hresult : outcome.classify phase = .ok result)
    {reading guardReading : Reading} {now wall : Int} (hnow : reading.nowMs = .ok now)
    (hwall : guardReading.nowMs = .ok wall) {faults : Faults} (hfaults : faults.TakesEffect) :
    ∃ row row' trusted, w.store.db.delivery? lease.id = some row
      ∧ w.store.queue.lastTrusted wall guardReading.mono = some trusted
      ∧ (w.next (.queueFinish serial outcome reading guardReading faults)).store.db.delivery? lease.id
        = some row'
      ∧ (row'.state, row'.lastSmtpCode, row'.diagnostic)
        = ((settle row.possiblyDelivered result).1, (settle row.possiblyDelivered result).2.1,
          some (settle row.possiblyDelivered result).2.2)
      ∧ row'.leaseToken = none
      ∧ (w.next (.queueFinish serial outcome reading guardReading faults)).store.db.queueLease?
        lease.id = none
      ∧ (row'.Unpostponed trusted lease.retryMs
        ↔ now ≤ trusted ∨ i64Max ≤ trusted + lease.retryMs) := by
  obtain ⟨trusted, htrusted⟩ := lastTrusted_some hreach.started wall guardReading.mono
  obtain ⟨row, hrow, hrow', hgone⟩ :=
    queueFinish_row hcheck hresult hnow hwall htrusted hfaults
  have hstore : (w.next (.queueFinish serial outcome reading guardReading faults)).store
      = (queueFinish w.store lease outcome reading guardReading faults).1 := by
    change ((w.callWith serial fun lease s =>
      queueFinish s lease outcome reading guardReading faults).1).store = _
    unfold World.callWith
    rw [hlease]
    dsimp only
    rw [World.call_opened hopen]
  rw [hstore]
  refine ⟨row, _, trusted, hrow, htrusted, hrow', rfl, rfl, hgone, ?_⟩
  constructor
  · rintro ⟨-, hnext⟩
    exact (saturatingAdd_le_iff now lease.retryMs).1 hnext
  · intro hkept
    exact ⟨le_refl trusted, (saturatingAdd_le_iff now lease.retryMs).2 hkept⟩

/-! ### A day ahead

The clock shows tomorrow while the first attempt is under way, and a temporary reply comes in. -/

namespace Sample

def tomorrow : Reading := ⟨some 86401000, 0⟩

def attempted : World := fresh.run [enqueue, claim]

def deferTomorrow : Op := .queueFinish 0 (.temporary 450) tomorrow tomorrow {}

/-- A claim in a new process, on a clock that has been put right: when the retry delay has passed. -/
def claimLater : Op :=
  .queueClaim {} 1 (fun _ => true) (fun _ => true)
    ⟨⟨some 1801000, 0⟩, ⟨some 1801000, 0⟩, ⟨some 1801000, 0⟩, {}, {}, {}, fun _ => token,
      fun _ _ => 0⟩

end Sample

/-- On a clock that stands still the same reply postpones nothing. -/
theorem retry_in_time :
    ∃ row', (Sample.attempted.next (Sample.finish 0 (.temporary 450))).store.db.delivery?
        Sample.deliveryId.text = some row' ∧ row'.Unpostponed 1000 1800000 := by
  obtain ⟨row, row', trusted, -, htrusted, hrow', -, -, -, hiff⟩ :=
    @finish_unpostponed_iff Sample.attempted (Sample.reachable _) rfl 0 _ rfl .ready rfl
      (.temporary 450) _ rfl Sample.reading Sample.reading 1000 1000 rfl rfl {} ⟨rfl, by decide⟩
  have hsame : Sample.attempted.store.queue.lastTrusted 1000 0 = some 1000 := rfl
  obtain rfl : 1000 = trusted := Option.some.inj (hsame.symm.trans htrusted)
  exact ⟨row', hrow', hiff.2 (Or.inl (le_refl _))⟩

/-- The jump is turned down, the deferral is recorded, and the next attempt waits for tomorrow, also
after the clock has been put right and the directory opened again. -/
theorem retry_waits_for_tomorrow :
    ∃ lease row', Sample.attempted.lease? 0 = some lease
      ∧ Sample.attempted.store.queue.lastTrusted 86401000 0 = some 1000
      ∧ (Sample.attempted.step Sample.deferTomorrow).2 = .unit (.ok ())
      ∧ (Sample.attempted.next Sample.deferTomorrow).store.db.delivery? lease.id = some row'
      ∧ row'.state = .deferred ∧ row'.notificationDueMs = 1000
      ∧ row'.nextAttemptAtMs = 86401000 + lease.retryMs
      ∧ ¬ row'.Unpostponed 1000 lease.retryMs
      ∧ (((Sample.attempted.next Sample.deferTomorrow).run [.close, .reopen 1000]).step
        Sample.claimLater).2 = .leases (.ok []) := by
  refine ⟨_, _, rfl, rfl, rfl, rfl, rfl, rfl, by decide, ?_, rfl⟩
  rintro ⟨-, hnext⟩
  exact absurd hnext (by decide)

end Rustymail
