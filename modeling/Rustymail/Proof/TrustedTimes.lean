import Rustymail.Proof.ClockAnswers
import Rustymail.Proof.Keys

/-!
# What rests on a trusted reading

Every event an operation brings to a delivery, with the reading its times are counted from. The
guarded operations show the guard a reading before they write, and count from what it let pass.
-/

namespace Rustymail

open Checked Lifecycle

/-- The readings an operation shows the guard before it writes, in order. -/
def Op.guardReadings : Op → List Reading
  | .queueExpire _ reading _ => [reading]
  | .queueClaim _ _ _ _ input => [input.guardReading, input.expireReading]
  | .queueRenew _ _ reading _ => [reading]
  | .queueRetry _ _ _ reading _ => [reading]
  | .notificationNext _ input => [input.reading, input.failedReading]
  | .notificationFailed _ _ reading => [reading]
  | .notificationCommit _ _ reading _ => [reading]
  | _ => []

/-- The operations that must not run on a clock the guard has turned down. -/
abbrev Op.Guarded (op : Op) : Prop := op.guardReadings ≠ []

/-- How long the lease lasts that an operation grants or extends. -/
def Op.leaseSeconds : Op → Nat
  | .queueClaim policy _ _ _ _ => policy.leaseSeconds
  | .queueRenew _ seconds _ _ => seconds
  | _ => 0

/-- The guard lets one of the operation's readings pass, and this is its wall time. -/
def World.Trusts (w : World) (op : Op) (now : Int) : Prop :=
  ∃ before reading after, op.guardReadings = before ++ reading :: after
    ∧ ((w.store.queue.watch before).now reading).2 = .ok now

/-- What an operation may bring to a delivery: what it decides by the clock it decides by a trusted
reading, and every time it stores is one plus the interval that is meant, and never beyond the end
of the clock. Only recovery counts from a reading the guard has not seen. -/
def World.OnTrust (w : World) (op : Op) (id : Text) : LifeEvent → Prop
  | .created row => op.Guarded → w.Trusts op row.nextAttemptAtMs
  | .leased _ now deadline => w.Trusts op now
      ∧ deadline = now + op.leaseSeconds * 1000 ∧ deadline ≤ i64Max
  | .exhausted now => w.Trusts op now
  | .renewed deadline => ∃ now, w.Trusts op now
      ∧ deadline = now + op.leaseSeconds * 1000 ∧ deadline ≤ i64Max
  | .bodyMarked => ¬ op.Guarded
  | .finished _ _ due => ∃ serial outcome reading guardReading faults wall,
      op = .queueFinish serial outcome reading guardReading faults
        ∧ guardReading.nowMs = .ok wall
        ∧ ∀ trusted, (w.store.queue.lastTrusted wall guardReading.mono) = some trusted → due = trusted
  | .recovered next => op.recovers = true ∧ ∃ raw, next = raw + 1800000 ∧ next ≤ i64Max
      ∧ ∀ policy limit keepLease keepReader input,
        op = .queueClaim policy limit keepLease keepReader input →
          input.recoverReading.nowMs = .ok raw
  | .expired now => w.Trusts op now
  | .held => ¬ op.Guarded
  | .retried _ _ now expires => w.Trusts op now ∧ ∃ row queued,
      w.store.db.delivery? id = some row ∧ w.store.db.queueMessage? row.messageId = some queued
        ∧ (expires = row.expiresAtMs
          ∨ (row.expiresAtMs ≤ now ∧ expires = now + queued.maxAgeSeconds * 1000
            ∧ expires ≤ i64Max))
  | .closed _ => ¬ op.Guarded
  | .suppressed _ now => w.Trusts op now
  | .postponed _ due => ∃ now, w.Trusts op now ∧ due = min (now + 60000) i64Max
  | .reported notification => w.Trusts op notification.createdAtMs

/-- The attempt an event schedules is not before the epoch, if no holder retries before now. -/
def World.Schedules (w : World) : LifeEvent → Prop
  | .created row => 0 ≤ row.nextAttemptAtMs
  | .finished _ next _ => (∀ l ∈ w.leases, 0 ≤ l.retryMs) → 0 ≤ next
  | .recovered next => 0 ≤ next
  | .retried _ _ now _ => 0 ≤ now
  | _ => True

section Gates

variable {α : Type} {s : Store} {tx : Int → Db → Db → Prop}

/-- Behind the guard: nothing is written, or a transaction counts from a time it let pass. -/
def Store.Gated (s : Store) (reading : Reading) (tx : Int → Db → Db → Prop) (s' : Store) : Prop :=
  s'.db = s.db ∨ ∃ now, (s.queue.now reading).2 = .ok now ∧ tx now s.db s'.db

theorem gated_now {reading : Reading} {f : QueueRuntime → Int → Store × Except StoreError α}
    (hf : ∀ now, (f (s.queue.now reading).1 now).1.db = s.db
      ∨ tx now s.db (f (s.queue.now reading).1 now).1.db) :
    s.Gated reading tx
      (match s.queue.now reading with
      | (queue, .error e) => ({ s with queue := queue }, Except.error e)
      | (queue, .ok now) => f queue now).1 := by
  unfold Store.Gated
  cases hnow : s.queue.now reading with
  | mk queue result =>
      rw [hnow] at hf
      cases result with
      | error e => exact Or.inl rfl
      | ok now => exact (hf now).imp_right fun htx => ⟨now, rfl, htx⟩

theorem queueExpire_gated (limit : Nat) (reading : Reading) (faults : Faults) :
    s.Gated reading (fun now db db' => ∃ count, expireTx now limit db = .ok (db', count))
      (queueExpire s limit reading faults).1 := by
  unfold queueExpire
  split_ifs
  · exact gated_now fun now =>
      (transaction_leaves _ (atomic_commitUnless (atomic_commit faults) (· = 0)) _).2
  · exact Or.inl rfl

theorem queueRenew_gated (lease : QueueLease) (seconds : Nat) (reading : Reading)
    (faults : Faults) :
    s.Gated reading (fun now db db' => ∃ u, renewTx lease s.lock now seconds db = .ok (db', u))
      (queueRenew s lease seconds reading faults).1 := by
  unfold queueRenew
  split_ifs
  · exact gated_now fun now => (transaction_leaves _ (atomic_commit faults) _).2
  · exact Or.inl rfl

theorem queueRetry_gated (id : Text) (allowDuplicate extendExpired : Bool) (reading : Reading)
    (faults : Faults) :
    s.Gated reading
      (fun now db db' => ∃ u, retryTx id allowDuplicate extendExpired now db = .ok (db', u))
      (queueRetry s id allowDuplicate extendExpired reading faults).1 := by
  unfold queueRetry
  split_ifs
  · exact gated_now fun now => (transaction_leaves _ (atomic_commit faults) _).2
  · exact Or.inl rfl

theorem notificationFailed_gated (id : Text) (error : StoreError) (reading : Reading) :
    s.Gated reading (fun now db db' => db' = db.updateDelivery id
        (Delivery.postponeReport (notificationReason error) (saturatingAdd now retryMs)))
      (notificationFailed s id error reading).1 := by
  unfold notificationFailed
  split_ifs
  · exact gated_now fun now => Or.inr rfl
  · exact Or.inl rfl

theorem notificationCommit_gated (prepared : PreparedNotification) (delivery : Uuid)
    (reading : Reading) (faults : Faults) :
    s.Gated reading (fun now db db' => ∃ accepted,
        notificationCommitTx delivery prepared now faults db = .ok (db', accepted))
      (notificationCommit s prepared delivery reading faults).1 := by
  unfold notificationCommit
  split_ifs
  · exact gated_now fun now => (transaction_leaves _ (atomic_commitReport faults) _).2
  · exact Or.inl rfl

/-- `notification_next` writes what its first reading lets it suppress, or what its second one lets
it postpone. -/
theorem notificationNext_gated (policy : NotificationPolicy) (input : NotificationInput) :
    (notificationNext s policy input).1.db = s.db
      ∨ (∃ now failure reason, (s.queue.now input.reading).2 = .ok now
        ∧ nextFailure now s.db = some failure ∧ failure.suppressed = some reason
        ∧ (notificationNext s policy input).1.db
          = s.db.updateDelivery failure.id (Delivery.suppress reason))
      ∨ ∃ now failure reason again, (s.queue.now input.reading).2 = .ok now
        ∧ nextFailure now s.db = some failure
        ∧ ((s.queue.now input.reading).1.now input.failedReading).2 = .ok again
        ∧ (notificationNext s policy input).1.db
          = s.db.updateDelivery failure.id
            (Delivery.postponeReport reason (saturatingAdd again retryMs)) := by
  unfold notificationNext
  cases policy.validate with
  | error e => exact Or.inl rfl
  | ok postmaster =>
      dsimp only
      cases hnow : s.queue.now input.reading with
      | mk queue result =>
          cases result with
          | error e => exact Or.inl rfl
          | ok now =>
              dsimp only
              cases hfailure : nextFailure now s.db with
              | none => exact Or.inl rfl
              | some failure =>
                  dsimp only
                  cases hreason : failure.suppressed with
                  | some reason =>
                      exact Or.inr (Or.inl ⟨now, failure, reason, rfl, hfailure, hreason, rfl⟩)
                  | none =>
                      dsimp only
                      split
                      · exact Or.inl rfl
                      · rename_i error _
                        have hfailed : Store.Gated { s with queue := queue } _ _ _ :=
                          notificationFailed_gated failure.id error input.failedReading
                        have hdone : (notificationFailed { s with queue := queue } failure.id error
                              input.failedReading).1.db = s.db
                            ∨ ∃ again, (queue.now input.failedReading).2 = .ok again
                              ∧ (notificationFailed { s with queue := queue } failure.id error
                                input.failedReading).1.db = s.db.updateDelivery failure.id
                                  (Delivery.postponeReport (notificationReason error)
                                    (saturatingAdd again retryMs)) := hfailed
                        split <;> rename_i hresult <;> rw [hresult] at hdone
                        · exact hdone.imp_right fun ⟨again, hagain, hdb⟩ =>
                            Or.inr ⟨now, failure, _, again, rfl, hfailure, hagain, hdb⟩
                        · exact hdone.imp_right fun ⟨again, hagain, hdb⟩ =>
                            Or.inr ⟨now, failure, _, again, rfl, hfailure, hagain, hdb⟩

/-- Recovery counts from the wall time as it reads it. -/
theorem queueRecover_raw (limit : Nat) (live : LeaseGuard → Bool) (reading : Reading)
    (faults : Faults) :
    (queueRecover s limit live reading faults).1.db = s.db
      ∨ ∃ raw result, reading.nowMs = .ok raw
        ∧ recoverTx (s.queue.retain live).active raw limit s.queue.recoveryCursor s.db
          = .ok ((queueRecover s limit live reading faults).1.db, result) := by
  unfold queueRecover
  split_ifs
  · cases reading.nowMs with
    | error e => exact Or.inl rfl
    | ok now =>
        have hleaves := (transaction_leaves
          (recoverTx (s.queue.retain live).active now limit s.queue.recoveryCursor)
          (atomic_commitUnless (atomic_commit faults)
            (fun result : Nat × List (Text × Bool) => result.1 = 0)) (s.retain live)).2
        dsimp only [Store.retain] at hleaves ⊢
        split <;> rename_i hresult <;> erw [hresult] at hleaves
        · exact hleaves.imp_right fun ⟨result, htx⟩ => ⟨now, result, rfl, htx⟩
        · exact hleaves.imp_right fun ⟨result, htx⟩ => ⟨now, result, rfl, htx⟩
  · exact Or.inl rfl

theorem claimReady_now (policy : QueuePolicy) (limit : Nat) (now : Int)
    (counted : LeaseGuard → Bool) (input : ClaimInput) :
    (claimReady s policy limit now counted input).1.db = s.db
      ∨ ∃ ctx cursor domains result, ctx.now = now ∧ ctx.policy = policy
        ∧ claimTx ctx cursor domains s.db
          = .ok ((claimReady s policy limit now counted input).1.db, result) := by
  unfold claimReady
  dsimp only
  split_ifs
  · exact Or.inl rfl
  · generalize hctx : (⟨policy, now, min (policy.concurrency - s.queue.active.length) limit,
      s.queue.active, s.lock, s.nextGuard, input.token, input.random⟩ : ClaimContext) = ctx
    have hnow : ctx.now = now := by rw [← hctx]
    have hpolicy : ctx.policy = policy := by rw [← hctx]
    have hleaves := (transaction_leaves
      (claimTx ctx (s.queue.readyCursor.getD (-1, [])) (activeDomains s.queue.active counted))
      (atomic_commit input.claimFaults) s).2
    split <;> rename_i hresult <;> rw [hresult] at hleaves
    · exact hleaves.imp_right fun ⟨result, htx⟩ => ⟨ctx, _, _, result, hnow, hpolicy, htx⟩
    · exact hleaves.imp_right fun ⟨result, htx⟩ => ⟨ctx, _, _, result, hnow, hpolicy, htx⟩

/-- The stages of a claim, each with the reading it counts from. -/
theorem queueClaim_gated (policy : QueuePolicy) (limit : Nat) (live counted : LeaseGuard → Bool)
    (input : ClaimInput) :
    (queueClaim s policy limit live counted input).1.db = s.db
      ∨ ∃ now recovered expired, (s.queue.now input.guardReading).2 = .ok now
        ∧ (recovered = s.db ∨ ∃ raw active cursor result, input.recoverReading.nowMs = .ok raw
          ∧ recoverTx active raw batch cursor s.db = .ok (recovered, result))
        ∧ (expired = recovered ∨ ∃ again count,
          ((s.queue.now input.guardReading).1.now input.expireReading).2 = .ok again
          ∧ expireTx again batch recovered = .ok (expired, count))
        ∧ ((queueClaim s policy limit live counted input).1.db = expired
          ∨ ∃ ctx cursor domains result, ctx.now = now ∧ ctx.policy = policy
            ∧ claimTx ctx cursor domains expired
              = .ok ((queueClaim s policy limit live counted input).1.db, result)) := by
  unfold queueClaim
  split_ifs
  swap
  · exact Or.inl rfl
  cases hnow : s.queue.now input.guardReading with
  | mk queue result =>
      cases result with
      | error e => exact Or.inl rfl
      | ok now =>
          right
          dsimp only
          have hfirst : (queueRecover { s with queue := queue } batch live input.recoverReading
              input.recoverFaults).1.db = s.db ∨ _ :=
            queueRecover_raw batch live input.recoverReading input.recoverFaults
          have hmemory : (queueRecover { s with queue := queue } batch live input.recoverReading
              input.recoverFaults).1.queue.memory = queue.memory :=
            queueRecover_memory _ batch live input.recoverReading input.recoverFaults
          generalize hr : queueRecover { s with queue := queue } batch live input.recoverReading
            input.recoverFaults = recover at hfirst hmemory
          obtain ⟨recovered, result⟩ := recover
          have hstage : recovered.db = s.db ∨ ∃ raw active cursor result,
              input.recoverReading.nowMs = .ok raw
                ∧ recoverTx active raw batch cursor s.db = .ok (recovered.db, result) :=
            hfirst.imp_right fun ⟨raw, result, hraw, htx⟩ => ⟨raw, _, _, result, hraw, htx⟩
          cases result with
          | error e =>
              exact ⟨now, recovered.db, recovered.db, rfl, hstage, Or.inl rfl, Or.inl rfl⟩
          | ok count =>
              dsimp only
              have hsecond : recovered.Gated input.expireReading _ (queueExpire recovered batch
                  input.expireReading input.expireFaults).1 :=
                queueExpire_gated batch input.expireReading input.expireFaults
              generalize he : queueExpire recovered batch input.expireReading input.expireFaults
                = expire at hsecond
              obtain ⟨expired, result⟩ := expire
              have hsweep : expired.db = recovered.db ∨ ∃ again count,
                  (queue.now input.expireReading).2 = .ok again
                    ∧ expireTx again batch recovered.db = .ok (expired.db, count) := by
                refine hsecond.imp_right fun ⟨again, hagain, count, htx⟩ => ⟨again, count, ?_, htx⟩
                rw [← (now_congr hmemory input.expireReading).2]
                exact hagain
              cases result with
              | error e =>
                  exact ⟨now, recovered.db, expired.db, rfl, hstage, hsweep, Or.inl rfl⟩
              | ok count' =>
                  exact ⟨now, recovered.db, expired.db, rfl, hstage, hsweep,
                    claimReady_now policy limit now counted input⟩

/-- A recorded result falls due for its report at the last time the guard trusts. -/
theorem queueFinish_due (lease : QueueLease) (outcome : QueueResult)
    (reading guardReading : Reading) (faults : Faults) :
    (queueFinish s lease outcome reading guardReading faults).1.db = s.db
      ∨ ∃ now wall due u, reading.nowMs = .ok now ∧ guardReading.nowMs = .ok wall
        ∧ (∀ trusted, s.queue.lastTrusted wall guardReading.mono = some trusted → due = trusted)
        ∧ finishTx lease s.lock outcome now due s.db
          = .ok ((queueFinish s lease outcome reading guardReading faults).1.db, u) := by
  unfold queueFinish
  cases hnow : reading.nowMs with
  | error e => exact Or.inl rfl
  | ok now =>
      dsimp only
      cases hdue : notificationDue (s.queue.now guardReading).1 now (s.queue.now guardReading).2 with
      | error e => exact Or.inl rfl
      | ok due =>
          have hleaves := (transaction_leaves (finishTx lease s.lock outcome now due)
            (atomic_commit faults) { s with queue := (s.queue.now guardReading).1 }).2
          rcases hleaves with hsame | ⟨u, htx⟩
          · exact Or.inl hsame
          · rcases now_cases s.queue guardReading with ⟨e, he⟩ | ⟨wall, hwall, -⟩
            · rw [now_unreadable he, nowMs_error he] at hdue
              cases hdue
            · refine Or.inr ⟨now, wall, due, u, rfl, hwall, ?_, htx⟩
              intro trusted htrusted
              rw [notificationDue_lastTrusted hwall now htrusted] at hdue
              exact (Except.ok.inj hdue).symm

end Gates

theorem later_eq_ok {now milliseconds time : Int} (h : later now milliseconds = .ok time) :
    time = now + milliseconds ∧ time ≤ i64Max := by
  unfold later at h
  split_ifs at h with hfits
  cases h
  exact ⟨rfl, hfits⟩

theorem retryExpiry_cases {row : Delivery} {age : Nat} {now expires : Int}
    (h : row.retryExpiry age now = .ok expires) :
    expires = row.expiresAtMs
      ∨ (row.expiresAtMs ≤ now ∧ expires = now + age * 1000 ∧ expires ≤ i64Max) := by
  unfold Delivery.retryExpiry at h
  split_ifs at h with hexpired
  · exact Or.inr ⟨hexpired, later_eq_ok h⟩
  · cases h
    exact Or.inl rfl

namespace World

section Steps

variable {α : Type} {w : World} {op : Op} {id : Text}

theorem Trusts.first {reading : Reading} {rest : List Reading} {now : Int}
    (hop : op.guardReadings = reading :: rest) (h : (w.store.queue.now reading).2 = .ok now) :
    w.Trusts op now :=
  ⟨[], reading, rest, hop, h⟩

theorem Trusts.nonneg {now : Int} (h : w.Trusts op now) : 0 ≤ now := by
  obtain ⟨before, reading, after, -, hok⟩ := h
  exact (nowMs_eq_ok.1 (now_eq_ok hok).1).2.1

theorem Trusts.second {reading again : Reading} {now : Int}
    (hop : op.guardReadings = [reading, again])
    (h : ((w.store.queue.now reading).1.now again).2 = .ok now) : w.Trusts op now :=
  ⟨[reading], again, [], hop, h⟩

/-- The view of every delivery, before and after. -/
def StepsOnTrust (w : World) (op : Op) (id : Text) (db : Db) : Prop :=
  Evolves (fun e => w.OnTrust op id e ∧ w.Schedules e) (w.store.db.view id) (db.view id)

theorem StepsOnTrust.same {db : Db} (h : db = w.store.db) : w.StepsOnTrust op id db := by
  rw [h]
  exact Evolves.refl _

theorem StepsOnTrust.mail {db : Db} (h : SameMail w.store.db db) : w.StepsOnTrust op id db := by
  unfold StepsOnTrust
  rw [h.view]
  exact Evolves.refl _

/-- What a transaction brings about, the operation brings about. -/
theorem StepsOnTrust.leaves {tx : Db → Db → Prop} {s : Store} (h : w.store.Leaves tx s)
    (htx : ∀ db, tx w.store.db db → w.StepsOnTrust op id db) : w.StepsOnTrust op id s.db := by
  rcases h.2 with hsame | hdone
  · exact .same hsame
  · exact htx _ hdone

theorem StepsOnTrust.gated {reading : Reading} {rest : List Reading} {tx : Int → Db → Db → Prop}
    {s : Store} (hop : op.guardReadings = reading :: rest) (h : w.store.Gated reading tx s)
    (htx : ∀ now db, w.Trusts op now → tx now w.store.db db → w.StepsOnTrust op id db) :
    w.StepsOnTrust op id s.db := by
  rcases h with hsame | ⟨now, hnow, hdone⟩
  · exact .same hsame
  · exact htx now _ (.first hop hnow) hdone

theorem StepsOnTrust.call {f : Store → Store × Except StoreError α}
    (h : w.StepsOnTrust op id (f w.store).1.db) : w.StepsOnTrust op id (w.call f).1.store.db := by
  rcases w.call_cases f with hsame | hstore
  · rw [hsame]
    exact .same rfl
  · rw [hstore]
    exact h

theorem StepsOnTrust.callWith {serial : Nat}
    {f : QueueLease → Store → Store × Except StoreError α}
    (h : ∀ lease ∈ w.leases, w.StepsOnTrust op id (f lease w.store).1.db) :
    w.StepsOnTrust op id (w.callWith serial f).1.store.db := by
  rcases w.callWith_cases serial f with hsame | ⟨lease, hlease, hstore⟩
  · rw [hsame]
    exact .same rfl
  · rw [hstore]
    exact h lease (List.mem_of_find?_eq_some hlease)

theorem created_onTrust {reading : Reading} {now : Int} (hop : op.guardReadings = [])
    (hnow : reading.nowMs = .ok now) (row : Delivery) (hrow : row.nextAttemptAtMs = now)
    (_ : row.destinationDomain = domainPart row.recipient) :
    w.OnTrust op id (.created row) ∧ w.Schedules (.created row) :=
  ⟨fun hguarded => absurd hop hguarded, le_of_le_of_eq (nowMs_eq_ok.1 hnow).2.1 hrow.symm⟩

end Steps

variable {w : World}

theorem recovers_nonneg {reading : Reading} {raw next : Int} (hraw : reading.nowMs = .ok raw)
    (hnext : next = raw + 1800000) : 0 ≤ next := by
  have hnow := (nowMs_eq_ok.1 hraw).2.1
  omega

theorem finishes_nonneg {reading : Reading} {now wait : Int} (hnow : reading.nowMs = .ok now)
    (hwait : 0 ≤ wait) : 0 ≤ saturatingAdd now wait :=
  le_min (Int.add_nonneg (nowMs_eq_ok.1 hnow).2.1 hwait) (by decide)

theorem claim_onTrust (hkeys : w.store.db.Keys) (policy : QueuePolicy) (limit : Nat)
    (keepLease : QueueLease → Bool) (keepReader : QueuedReader → Bool) (input : ClaimInput)
    (id : Text) :
    w.StepsOnTrust (.queueClaim policy limit keepLease keepReader input) id
      (queueClaim w.store policy limit w.live (w.without keepLease keepReader).live input).1.db := by
  rcases queueClaim_gated policy limit w.live (w.without keepLease keepReader).live input with
    hsame | ⟨now, recovered, expired, hnow, hrecover, hexpire, hclaim⟩
  · exact .same hsame
  · have htrusts : w.Trusts (.queueClaim policy limit keepLease keepReader input) now :=
      .first rfl hnow
    have hfirst : w.StepsOnTrust (.queueClaim policy limit keepLease keepReader input) id recovered
        ∧ recovered.Keys := by
      rcases hrecover with rfl | ⟨raw, active, cursor, result, hraw, htx⟩
      · exact ⟨.same rfl, hkeys⟩
      · refine ⟨recoverTx_evolves hkeys.deliveries htx ?_, (recoverTx_content htx).keys hkeys⟩
        intro next hnext _
        obtain ⟨hsum, hfits⟩ := later_eq_ok hnext
        refine ⟨⟨rfl, raw, hsum, hfits, ?_⟩, recovers_nonneg hraw hsum⟩
        rintro _ _ _ _ _ ⟨⟩
        exact hraw
    have hsecond : w.StepsOnTrust (.queueClaim policy limit keepLease keepReader input) id expired
        ∧ expired.Keys := by
      rcases hexpire with rfl | ⟨again, count, hagain, htx⟩
      · exact hfirst
      · refine ⟨Evolves.trans hfirst.1 ?_, (expireTx_content htx).keys hfirst.2⟩
        exact expireTx_evolves hfirst.2.deliveries htx ⟨Trusts.second rfl hagain, trivial⟩
    rcases hclaim with hsame | ⟨ctx, cursor, domains, result, rfl, rfl, htx⟩
    · rw [hsame]
      exact hsecond.1
    · refine Evolves.trans hsecond.1 (claimTx_evolves hsecond.2.deliveries htx ?_
        ⟨htrusts, trivial⟩)
      intro token deadline hdeadline
      exact ⟨⟨htrusts, later_eq_ok hdeadline⟩, trivial⟩

/-- Every event of an operation rests on a reading it may rest on. -/
theorem next_stepsOnTrust (hkeys : w.store.db.Keys) (op : Op) (id : Text) :
    w.StepsOnTrust op id (w.next op).store.db := by
  cases op with
  | createAccount address quotaBytes reading uidvalidity faults =>
      refine .call (.leaves (createAccount_leaves _ address quotaBytes reading uidvalidity faults) ?_)
      rintro db ⟨-, now, htx⟩
      exact .mail (createAccountTx_mail htx)
  | setAccountQuota address bytes =>
      refine .call (.leaves (setAccountQuota_leaves _ address bytes) ?_)
      rintro db ⟨-, account, -, -, rfl⟩
      exact .mail ⟨rfl, rfl, rfl, rfl, rfl, rfl, rfl, rfl, rfl⟩
  | finishAuthentication principal reading faults =>
      refine .call (.leaves (finishAuthentication_leaves _ principal reading faults) ?_)
      rintro db ⟨now, htx⟩
      exact .mail (finishAuthenticationTx_mail htx)
  | createCredential login selector label scope phc reading =>
      refine .call (.leaves (createCredential_leaves _ login selector label scope phc reading) ?_)
      rintro db ⟨row, -, -, -, htx⟩
      obtain ⟨-, rfl⟩ := Db.insertCredential_eq_ok.1 htx
      exact .mail ⟨rfl, rfl, rfl, rfl, rfl, rfl, rfl, rfl, rfl⟩
  | revokeCredential selector reading faults =>
      refine .call (.leaves (revokeCredential_leaves _ selector reading faults) ?_)
      rintro db ⟨now, account, htx⟩
      exact .mail (revokeCredentialTx_mail htx)
  | disableAccount login reading faults =>
      refine .call (.leaves (disableAccount_leaves _ login reading faults) ?_)
      rintro db ⟨now, account, htx⟩
      exact .mail (disableAccountTx_mail htx)
  | setSendAs login address enabled faults =>
      refine .call (.leaves (setSendAs_leaves _ login address enabled faults) ?_)
      rintro db ⟨account, htx⟩
      exact .mail (setSendAsTx_mail htx)
  | insertAlias address accountId =>
      refine .call (.leaves (insertAlias_leaves _ address accountId) ?_)
      rintro db ⟨row, htx⟩
      exact .mail (insertAddress_mail htx)
  | accept ids message plan reading faults =>
      refine .call (.leaves (acceptInner_leaves _ ids message plan none none reading faults) ?_)
      rintro db ⟨-, -, -, now, hnow, htx⟩
      exact writeAcceptance_evolves (created_onTrust rfl hnow) htx
  | acceptSubmission ids message plan identity reading faults =>
      refine .call
        (.leaves (acceptInner_leaves _ ids message plan (some identity) none reading faults) ?_)
      rintro db ⟨-, -, -, now, hnow, htx⟩
      exact writeAcceptance_evolves (created_onTrust rfl hnow) htx
  | acceptRelaySubmission ids message plan identity relay reading faults =>
      refine .call
        (.leaves (acceptInner_leaves _ ids message plan (some identity) (some relay) reading faults) ?_)
      rintro db ⟨-, -, -, now, hnow, htx⟩
      exact writeAcceptance_evolves (created_onTrust rfl hnow) htx
  | enqueue ids message plan reading faults =>
      refine .call (.leaves (enqueue_leaves _ ids message plan reading faults) ?_)
      rintro db ⟨-, -, now, hnow, htx⟩
      exact writeEnqueue_evolves (created_onTrust rfl hnow) htx
  | queueExpire limit reading faults =>
      refine .call (.gated rfl (queueExpire_gated limit reading faults) ?_)
      rintro now db htrusts ⟨count, htx⟩
      exact expireTx_evolves hkeys.deliveries htx ⟨htrusts, trivial⟩
  | queueRecover limit reading faults =>
      refine .call ?_
      rcases queueRecover_raw limit w.live reading faults with hsame | ⟨raw, result, hraw, htx⟩
      · exact .same hsame
      · refine recoverTx_evolves hkeys.deliveries htx ?_
        intro next hnext _
        obtain ⟨hsum, hfits⟩ := later_eq_ok hnext
        refine ⟨⟨rfl, raw, hsum, hfits, ?_⟩, recovers_nonneg hraw hsum⟩
        rintro _ _ _ _ _ ⟨⟩
  | queueClaim policy limit keepLease keepReader input =>
      have hclaim := claim_onTrust hkeys policy limit keepLease keepReader input id
      change w.StepsOnTrust _ id (w.claim policy limit keepLease keepReader input).1.store.db
      rcases w.claim_cases policy limit keepLease keepReader input with
        hsame | ⟨e, -, hfailed⟩ | ⟨leases, -, hdone⟩
      · rw [hsame]
        exact .same rfl
      · rw [hfailed]
        exact hclaim
      · rw [hdone]
        exact hclaim
  | queueRenew serial seconds reading faults =>
      refine .callWith fun lease _ => .gated rfl (queueRenew_gated lease seconds reading faults) ?_
      rintro now db htrusts ⟨⟨⟩, htx⟩
      refine renewTx_evolves htx ?_
      intro deadline hdeadline _
      exact ⟨⟨now, htrusts, later_eq_ok hdeadline⟩, trivial⟩
  | queueMarkBody serial faults =>
      refine .callWith fun lease _ => .leaves (queueMarkBody_leaves _ lease faults) ?_
      intro db htx
      exact markBodyTx_evolves htx fun _ => ⟨fun hguarded => hguarded rfl, trivial⟩
  | queueOpenBody serial file =>
      change w.StepsOnTrust _ id (w.openBody serial file).1.store.db
      rcases w.openBody_cases serial file with hsame | ⟨lease, reader, -, -, hw⟩
      · rw [hsame]
        exact .same rfl
      · rw [hw]
        exact .same rfl
  | queueFinish serial outcome reading guardReading faults =>
      refine StepsOnTrust.callWith fun lease hlease => ?_
      rcases queueFinish_due lease outcome reading guardReading faults with
        hsame | ⟨now, wall, due, u, hnow, hwall, hdue, htx⟩
      · exact .same hsame
      · refine finishTx_evolves htx fun _ => ⟨⟨_, _, _, _, _, _, rfl, hwall, hdue⟩, ?_⟩
        exact fun hpatient => finishes_nonneg hnow (hpatient lease hlease)
  | queueHold serial reading faults =>
      refine .call (.leaves (queueHold_leaves _ serial reading faults) ?_)
      rintro db ⟨now, htx⟩
      exact holdTx_evolves htx fun _ => ⟨fun hguarded => hguarded rfl, trivial⟩
  | queueRetry i allowDuplicate extendExpired reading faults =>
      refine .call (.gated rfl (queueRetry_gated i allowDuplicate extendExpired reading faults) ?_)
      rintro now db htrusts ⟨⟨⟩, htx⟩
      refine retryTx_evolves htx ?_
      rintro row queued expires hrow hqueued hexpires rfl
      exact ⟨⟨htrusts, row, queued, hrow, hqueued, retryExpiry_cases hexpires⟩, htrusts.nonneg⟩
  | queueCloseUnknown i note reading faults =>
      refine .call (.leaves (queueCloseUnknown_leaves _ i note reading faults) ?_)
      rintro db ⟨now, htx⟩
      exact closeUnknownTx_evolves htx fun _ _ => ⟨fun hguarded => hguarded rfl, trivial⟩
  | notificationNext policy input =>
      refine .call ?_
      rcases notificationNext_gated policy input with
        hsame | ⟨now, failure, reason, hnow, hfailure, hreason, hdb⟩ |
        ⟨now, failure, reason, again, -, -, hagain, hdb⟩
      · exact .same hsame
      · rw [hdb]
        exact suppress_evolves hkeys.deliveries hfailure ⟨Trusts.first rfl hnow, trivial⟩
      · rw [hdb]
        exact postpone_evolves ⟨⟨again, Trusts.second rfl hagain, rfl⟩, trivial⟩
  | notificationFailed i error reading =>
      refine .call (.gated rfl (notificationFailed_gated i error reading) ?_)
      rintro now db htrusts rfl
      exact postpone_evolves ⟨⟨now, htrusts, rfl⟩, trivial⟩
  | notificationCommit prepared delivery reading faults =>
      refine .call (.gated rfl (notificationCommit_gated prepared delivery reading faults) ?_)
      rintro now db htrusts ⟨accepted, htx⟩
      rcases notificationCommitTx_eq_ok.1 htx with ⟨_, -, hsame, -⟩ | ⟨hnew, heligible, -, hwrite, -⟩
      · exact .same hsame
      · refine writeReport_evolves ?_ hnew heligible hwrite ?_
        · rintro row rfl _
          exact ⟨fun _ => htrusts, htrusts.nonneg⟩
        · rintro notification rfl _
          exact ⟨htrusts, trivial⟩
  | dropLease serial => exact .same rfl
  | dropReader index => exact .same rfl
  | close => exact .same rfl
  | crash => exact .same rfl
  | reopen maxMessageBytes =>
      change w.StepsOnTrust _ id (w.reopen maxMessageBytes).1.store.db
      rcases w.reopen_cases maxMessageBytes with hsame | ⟨-, -, -, hw⟩
      · rw [hsame]
        exact .same rfl
      · rw [hw]
        exact .same rfl

theorem next_onTrust (hkeys : w.store.db.Keys) (op : Op) (id : Text) :
    Evolves (w.OnTrust op id) (w.store.db.view id) ((w.next op).store.db.view id) :=
  Evolves.mono (next_stepsOnTrust hkeys op id) fun _ => And.left

end World

end Rustymail
