import Rustymail.Proof.ClockGuard
import Rustymail.Proof.IntegrityLemmas

/-!
# Who reports a changed clock

Only the clock guard says `ClockChanged`. No transaction body raises it, so an operation that
reports it has shown the guard a reading that the guard turned down, and has latched it.
-/

namespace Rustymail

open Checked

section Bodies

variable {db : Db}

theorem insertRelay_heeds (ids : Text → Uuid) (message : Text) (recipients : List Text)
    (body : QueueBody) (age : Nat) (now : Int) :
    Avoids .clockChanged (insertRelay ids message recipients body age now db) := by
  unfold insertRelay
  refine .bind (later_avoids (by decide) _ _) fun expires _ => ?_
  refine .bind (.bind (.require (by decide)) fun _ _ => .ok _) fun db _ => ?_
  refine .foldlM (fun db recipient => ?_) _ _
  refine .bind (.found (by decide)) fun halves _ => ?_
  exact .bind (.require (by decide)) fun _ _ => .ok _

theorem target_heeds (recipient : Text) (size : Nat) :
    Avoids .clockChanged (target db recipient size) := by
  unfold target
  refine .bind (.found (by decide)) fun row _ => ?_
  refine .bind (.require (by decide)) fun _ _ => ?_
  exact .bind (.require (by decide)) fun _ _ => .ok _

theorem deliver_heeds (delivery : Uuid) (recipient message : Text) (size : Nat) (now : Int) :
    Avoids .clockChanged (deliver delivery recipient message size now db) := by
  unfold deliver
  refine .bind (target_heeds recipient size) fun t _ => ?_
  refine .bind (.found (by decide)) fun halves _ => ?_
  refine .bind (.bind (.require (by decide)) fun _ _ => .ok _) fun db _ => ?_
  refine .bind (.bind (.require (by decide)) fun _ _ => .ok _) fun db _ => ?_
  exact .bind (.bind (.require (by decide)) fun _ _ => .ok _) fun db _ => .ok _

theorem storeMessage_heeds (blob : Blob) (message : Message) :
    Avoids .clockChanged (storeMessage blob message db) := by
  unfold storeMessage
  refine .bind (.bind (.require (by decide)) fun _ _ => .ok _) fun db _ => ?_
  exact .bind (.require (by decide)) fun _ _ => .ok _

theorem nowMs_heeds (reading : Reading) : Avoids .clockChanged reading.nowMs := by
  intro h
  cases nowMs_error h

theorem createAccountTx_heeds (address : Address) (quotaBytes : Nat) (now : Int)
    (uidvalidity : Text → Nat) :
    Avoids .clockChanged (createAccountTx address quotaBytes now uidvalidity db) := by
  unfold createAccountTx
  refine .bind (.bind (.require (by decide)) fun _ _ => .ok _) fun db _ => ?_
  refine .bind (.bind (.require (by decide)) fun _ _ => .ok _) fun db _ => ?_
  refine .bind (.foldlM (fun db name => ?_) _ _) fun db _ => .ok _
  exact .bind (.require (by decide)) fun _ _ => .ok _

theorem setSendAsTx_heeds (login address : Address) (enabled : Bool) :
    Avoids .clockChanged (setSendAsTx login address enabled db) := by
  unfold setSendAsTx
  refine .bind (.found (by decide)) fun account _ => ?_
  refine .bind (.require (by decide)) fun _ _ => ?_
  refine .bind (.require (by decide)) fun _ _ => ?_
  refine .bind ?_ fun db _ => .ok _
  unfold upsertSendAs
  cases db.address? address.localKey with
  | some row => exact .ok _
  | none => exact .bind (.require (by decide)) fun _ _ => .ok _

theorem acceptTx_heeds (ids : FreshIds) (message : PreparedMessage) (plan : Acceptance)
    (identity : Option SubmissionIdentity) (relay : Option RelayAcceptance) (reading : Reading)
    (faults : Faults) :
    Avoids .clockChanged (acceptTx ids message plan identity relay reading faults db) := by
  unfold acceptTx
  refine .bind ?_ fun _ _ => ?_
  · unfold authorizeSubmission
    cases identity with
    | none => exact .ok ()
    | some identity => exact .bind (.found (by decide)) fun sender _ => .require (by decide)
  · cases previousAcceptance db plan.operationId with
    | some previous => exact .bind (.require (by decide)) fun _ _ => .ok _
    | none =>
        refine .bind (nowMs_heeds reading) fun now _ => ?_
        refine .bind (.require (by decide)) fun _ _ => ?_
        refine .bind ?_ fun db _ => .ok _
        unfold writeAcceptance
        refine .bind (storeMessage_heeds _ _) fun db _ => ?_
        refine .bind (.foldlM (fun db recipient => deliver_heeds _ _ _ _ _) _ _) fun db _ => ?_
        cases relay with
        | none => exact .ok _
        | some relay => exact insertRelay_heeds _ _ _ _ _ _

theorem enqueueTx_heeds (ids : FreshIds) (message : PreparedMessage) (plan : QueuePlan) (now : Int)
    (faults : Faults) : Avoids .clockChanged (enqueueTx ids message plan now faults db) := by
  unfold enqueueTx
  cases previousAcceptance db plan.operationId with
  | some previous => exact .bind (.require (by decide)) fun _ _ => .ok _
  | none =>
      refine .bind (.require (by decide)) fun _ _ => ?_
      refine .bind ?_ fun db _ => .ok _
      exact .bind (storeMessage_heeds _ _) fun db _ => insertRelay_heeds _ _ _ _ _ _

theorem checkLease_heeds (lease : QueueLease) (lock : Nat) :
    Avoids .clockChanged (checkLease db lease lock) := by
  unfold checkLease
  refine .bind (.require (by decide)) fun _ _ => ?_
  refine .bind (.found (by decide)) fun row _ => ?_
  refine .bind (.found (by decide)) fun queued _ => ?_
  exact .bind (.require (by decide)) fun _ _ => .ok _

theorem recoverTx_heeds (active : List (Text × LeaseGuard)) (now : Int) (limit : Nat)
    (cursor : Text) : Avoids .clockChanged (recoverTx active now limit cursor db) := by
  unfold recoverTx
  refine .bind (.foldlM (fun progress row => ?_) _ _) fun result _ => .ok _
  unfold recoverRow
  split_ifs
  · exact .ok _
  · exact .bind (later_avoids (by decide) _ _) fun next _ => .ok _

theorem claimTx_heeds (ctx : ClaimContext) (cursor : Int × Text) (domains : List Text) :
    Avoids .clockChanged (claimTx ctx cursor domains db) := by
  unfold claimTx
  refine .bind ?_ fun progress _ => .ok _
  generalize candidates ctx.now cursor db = rows
  generalize (⟨db, domains, [], none⟩ : ClaimProgress) = start
  induction rows generalizing start with
  | nil => exact .ok _
  | cons c rest ih =>
      unfold claimLoop
      refine .bind ?_ fun progress _ => ?_
      · unfold claimOne
        dsimp only
        split_ifs
        · exact .ok _
        · exact .ok _
        · exact .ok _
        · refine .bind (.found (by decide)) fun recipient _ => ?_
          split_ifs
          · exact .ok _
          · unfold grantLease
            refine .bind (.found (by decide)) fun joined _ => ?_
            refine .bind ?_ fun sender _ => ?_
            · unfold parseSender
              split_ifs
              · exact .ok _
              · exact .bind (.found (by decide)) fun address _ => .ok _
            · refine .bind (later_avoids (by decide) _ _) fun deadline _ => ?_
              exact .bind (.bind (.require (by decide)) fun _ _ => .ok _) fun db _ => .ok _
      · split_ifs
        · exact .ok _
        · exact ih progress

theorem renewTx_heeds (lease : QueueLease) (lock : Nat) (now : Int) (seconds : Nat) :
    Avoids .clockChanged (renewTx lease lock now seconds db) := by
  unfold renewTx
  refine .bind (checkLease_heeds lease lock) fun phase _ => ?_
  exact .bind (later_avoids (by decide) _ _) fun deadline _ => .ok _

theorem classify_heeds (outcome : QueueResult) (phase : Phase) :
    Avoids .clockChanged (outcome.classify phase) := by
  intro h
  unfold QueueResult.classify at h
  split at h
  · split_ifs at h
    cases h
  · cases h
  · split_ifs at h
    cases h
  · split_ifs at h
    cases h
  · cases h
  · cases h
  · cases h
  · cases h
  · cases h

theorem finishTx_heeds (lease : QueueLease) (lock : Nat) (outcome : QueueResult) (now due : Int) :
    Avoids .clockChanged (finishTx lease lock outcome now due db) := by
  unfold finishTx
  refine .bind (checkLease_heeds lease lock) fun phase _ => ?_
  refine .bind (.found (by decide)) fun row _ => ?_
  exact .bind (classify_heeds outcome phase) fun result _ => .ok _

theorem adminEvent_heeds (id : Text) (action : AdminAction) (old new : DeliveryState) (note : Text)
    (duplicate extend : Bool) (now : Int) :
    Avoids .clockChanged (adminEvent db id action old new note duplicate extend now) :=
  .bind (.require (by decide)) fun _ _ => .ok _

theorem holdTx_heeds (id : Text) (now : Int) : Avoids .clockChanged (holdTx id now db) := by
  unfold holdTx
  refine .bind (.found (by decide)) fun row _ => ?_
  refine .bind (.require (by decide)) fun _ _ => ?_
  exact .bind (adminEvent_heeds _ _ _ _ _ _ _ _) fun db _ => .ok _

theorem retryTx_heeds (id : Text) (allowDuplicate extendExpired : Bool) (now : Int) :
    Avoids .clockChanged (retryTx id allowDuplicate extendExpired now db) := by
  unfold retryTx
  refine .bind (.found (by decide)) fun row _ => ?_
  refine .bind (.found (by decide)) fun queued _ => ?_
  refine .bind (.require (by decide)) fun _ _ => ?_
  refine .bind ?_ fun expires _ => ?_
  · unfold Delivery.retryExpiry
    split_ifs
    · exact later_avoids (by decide) _ _
    · exact .ok _
  · exact .bind (adminEvent_heeds _ _ _ _ _ _ _ _) fun db _ => .ok _

theorem closeUnknownTx_heeds (id note : Text) (now : Int) :
    Avoids .clockChanged (closeUnknownTx id note now db) := by
  unfold closeUnknownTx
  refine .bind (.found (by decide)) fun row _ => ?_
  refine .bind (.require (by decide)) fun _ _ => ?_
  exact .bind (adminEvent_heeds _ _ _ _ _ _ _ _) fun db _ => .ok _

theorem notificationCommitTx_heeds (delivery : Uuid) (prepared : PreparedNotification) (now : Int)
    (faults : Faults) : Avoids .clockChanged (notificationCommitTx delivery prepared now faults db) := by
  unfold notificationCommitTx
  cases db.notification? prepared.plan.deliveryId with
  | some row => exact .ok _
  | none =>
      refine .bind (.require (by decide)) fun _ _ => ?_
      refine .bind (.require (by decide)) fun _ _ => ?_
      refine .bind ?_ fun db _ => .ok _
      unfold writeReport
      refine .bind (storeMessage_heeds _ _) fun db _ => ?_
      refine .bind ?_ fun db _ => ?_
      · unfold placeReport
        split_ifs
        · exact deliver_heeds _ _ _ _ _
        · exact insertRelay_heeds _ _ _ _ _ _
      · exact .bind (.bind (.require (by decide)) fun _ _ => .ok _) fun db _ => .ok _

theorem prepareReport_heeds (s : Store) (policy : NotificationPolicy) (postmaster : Address)
    (failure : Failure) (now : Int) {input : NotificationInput}
    (hstage : input.stage ≠ .error .clockChanged) :
    Avoids .clockChanged (prepareReport s policy postmaster failure now input) := by
  unfold prepareReport
  refine .bind (.found (by decide)) fun recipient _ => ?_
  refine .bind ?_ fun bytes _ => ?_
  · unfold render
    refine .bind (.found (by decide)) fun address _ => ?_
    refine .bind (.found (by decide)) fun date _ => ?_
    exact .bind (.require (by decide)) fun _ _ => .ok _
  · dsimp only
    split_ifs
    · refine .bind (.bind (target_heeds _ _) fun _ _ => .ok _) fun _ _ => ?_
      refine .bind (.require (by decide)) fun _ _ => ?_
      exact .bind hstage fun _ _ => .ok _
    · refine .bind (.require (by decide)) fun _ _ => ?_
      exact .bind hstage fun _ _ => .ok _

end Bodies

section Commits

variable {α β : Type}

/-- A commit never speaks of the clock. -/
def Timeless (commit : Store → Db → α → Store × Except StoreError β) : Prop :=
  Atomic commit ∧ ∀ s db value, Avoids .clockChanged (commit s db value).2

theorem timeless_commit (faults : Faults) : Timeless (Store.commit (α := α) faults) := by
  refine ⟨atomic_commit faults, fun s db value => ?_⟩
  unfold Store.commit
  split_ifs
  · exact .error (by decide)
  · split
    · exact .error (by decide)
    · exact .error (by decide)
    · exact .error (by decide)
  · split
    · exact .error (by decide)
    · exact .error (by decide)
    · exact .ok value

theorem timeless_commitPlain (faults : Faults) : Timeless (Store.commitPlain (α := α) faults) := by
  refine ⟨atomic_commitPlain faults, fun s db value => ?_⟩
  unfold Store.commitPlain
  split
  · exact .error (by decide)
  · exact .error (by decide)
  · exact .ok value

theorem timeless_commitUnless {commit : Store → Db → α → Store × Except StoreError α}
    (hcommit : Timeless commit) (skip : α → Prop) [DecidablePred skip] :
    Timeless fun s db value => if skip value then (s, .ok value) else commit s db value := by
  refine ⟨atomic_commitUnless hcommit.1 skip, fun s db value => ?_⟩
  dsimp only
  split_ifs
  · exact .ok value
  · exact hcommit.2 s db value

theorem timeless_commitAcceptance (faults : Faults) : Timeless (Store.commitAcceptance faults) := by
  refine ⟨atomic_commitAcceptance faults, fun s db accepted => ?_⟩
  unfold Store.commitAcceptance
  split_ifs
  · exact .ok accepted
  · exact .error (by decide)
  · exact .error (by decide)
  · split
    · exact .error (by decide)
    · exact .error (by decide)
    · exact .error (by decide)
  · split
    · exact .error (by decide)
    · exact .error (by decide)
    · exact .ok accepted

theorem timeless_commitReport (faults : Faults) : Timeless (Store.commitReport faults) := by
  refine ⟨atomic_commitReport faults, fun s db accepted => ?_⟩
  unfold Store.commitReport
  split_ifs
  · exact .ok accepted
  · exact .error (by decide)
  · split
    · exact .error (by decide)
    · exact .error (by decide)
    · exact .error (by decide)
  · split
    · exact .error (by decide)
    · exact .error (by decide)
    · exact .ok accepted

/-- The operation only showed the guard readings, and reports a changed clock only when the guard
has latched. -/
structure Store.Heeds (s : Store) (result : Store × Except StoreError α) : Prop where
  watches : s.queue.Watches result.1.queue
  reports : result.2 = .error .clockChanged → result.1.queue.clockChanged = true

variable {s s' : Store}

theorem Store.Heeds.reply {result : Except StoreError α} (hqueue : s'.queue.memory = s.queue.memory)
    (hresult : Avoids .clockChanged result) : s.Heeds (s', result) :=
  ⟨.of_eq hqueue, fun h => absurd h hresult⟩

theorem Store.Heeds.trans {result : Store × Except StoreError α} (hwatches : s.queue.Watches s'.queue)
    (h : s'.Heeds result) : s.Heeds result :=
  ⟨hwatches.trans h.watches, h.reports⟩

theorem heeds_transaction {body : Db → Except StoreError (Db × α)}
    {commit : Store → Db → α → Store × Except StoreError β} (htimeless : Timeless commit)
    (hbody : Avoids .clockChanged (body s.db)) : s.Heeds (s.transaction body commit) := by
  refine ⟨?_, fun h => absurd h (transaction_avoids hbody fun db value => htimeless.2 s db value)⟩
  rcases transaction_cases body htimeless.1 s with hsame | ⟨db, value, -, hstore⟩
  · rw [hsame]
    exact .of_eq rfl
  · rw [hstore]
    exact .of_eq rfl

theorem heeds_nowMs {reading : Reading} {f : Int → Store × Except StoreError α}
    (hf : ∀ now, s.Heeds (f now)) :
    s.Heeds
      (match reading.nowMs with
      | .error e => (s, Except.error e)
      | .ok now => f now) := by
  have hclock := nowMs_heeds reading
  cases hnow : reading.nowMs with
  | error e =>
      rw [hnow] at hclock
      exact .reply rfl (.error hclock.ne)
  | ok now => exact hf now

theorem heeds_now {reading : Reading} {f : QueueRuntime → Int → Store × Except StoreError α}
    (hf : ∀ queue now, Store.Heeds { s with queue := queue } (f queue now)) :
    s.Heeds
      (match s.queue.now reading with
      | (queue, .error e) => ({ s with queue := queue }, Except.error e)
      | (queue, .ok now) => f queue now) := by
  have hwatches := QueueRuntime.Watches.now s.queue reading
  have hlatches := @now_changed_latches s.queue reading
  cases hnow : s.queue.now reading with
  | mk queue result =>
      rw [hnow] at hwatches hlatches
      cases result with
      | error e =>
          exact ⟨hwatches, fun h => hlatches (congrArg Except.error (Except.error.inj h))⟩
      | ok now => exact .trans hwatches (hf queue now)

end Commits

section Operations

variable (s : Store)

theorem createAccount_heeds (address : Address) (quotaBytes : Nat) (reading : Reading)
    (uidvalidity : Text → Nat) (faults : Faults) :
    s.Heeds (createAccount s address quotaBytes reading uidvalidity faults) := by
  unfold createAccount
  split_ifs
  · exact .reply rfl (.error (by decide))
  · exact heeds_nowMs fun now =>
      heeds_transaction (timeless_commitPlain faults) (createAccountTx_heeds _ _ _ _)

theorem setAccountQuota_heeds (address : Address) (bytes : Nat) :
    s.Heeds (setAccountQuota s address bytes) := by
  unfold setAccountQuota
  split_ifs
  · exact .reply rfl (.error (by decide))
  · cases s.db.accountByLogin? address.localKey with
    | none => exact .reply rfl (.error (by decide))
    | some account =>
        dsimp only
        split_ifs
        · exact .reply rfl (.error (by decide))
        · exact .reply rfl (.ok ())

theorem finishAuthentication_heeds (principal : Principal) (reading : Reading) (faults : Faults) :
    s.Heeds (finishAuthentication s principal reading faults) :=
  heeds_nowMs fun _ => heeds_transaction (timeless_commitPlain faults)
    (.bind (.require (by decide)) fun _ _ => .ok _)

theorem createCredential_heeds (login : Address) (selector : Text) (label : String) (scope : Scope)
    (phc : Text) (reading : Reading) :
    s.Heeds (createCredential s login selector label scope phc reading) := by
  unfold createCredential
  split_ifs
  · cases s.db.accountByLogin? login.localKey with
    | none => exact .reply rfl (.error (by decide))
    | some account =>
        dsimp only
        split_ifs
        · exact .reply rfl (.error (by decide))
        · refine heeds_nowMs fun now => ?_
          have hinsert : ∀ row, Avoids .clockChanged (s.db.insertCredential row) := fun row =>
            .bind (.require (by decide)) fun _ _ => .ok _
          split
          · rename_i hresult
            exact .reply rfl (.error (hresult ▸ hinsert _).ne)
          · exact .reply rfl (.ok _)
  · exact .reply rfl (.error (by decide))

theorem revokeCredential_heeds (selector : Text) (reading : Reading) (faults : Faults) :
    s.Heeds (revokeCredential s selector reading faults) := by
  unfold revokeCredential
  split_ifs
  · exact heeds_nowMs fun now => heeds_transaction (timeless_commitPlain faults)
      (.bind (.found (by decide)) fun _ _ => .ok _)
  · exact .reply rfl (.error (by decide))

theorem disableAccount_heeds (login : Address) (reading : Reading) (faults : Faults) :
    s.Heeds (disableAccount s login reading faults) :=
  heeds_nowMs fun _ => heeds_transaction (timeless_commitPlain faults)
    (.bind (.found (by decide)) fun _ _ => .ok _)

theorem setSendAs_heeds (login address : Address) (enabled : Bool) (faults : Faults) :
    s.Heeds (setSendAs s login address enabled faults) :=
  heeds_transaction (timeless_commitPlain faults) (setSendAsTx_heeds login address enabled)

theorem insertAlias_heeds (address : Text) (accountId : Nat) :
    s.Heeds (insertAlias s address accountId) := by
  unfold insertAlias
  have hinsert : ∀ row, Avoids .clockChanged (s.db.insertAddress row) := fun row =>
    .bind (.require (by decide)) fun _ _ => .ok _
  split
  · rename_i hresult
    exact .reply rfl (.error (hresult ▸ hinsert _).ne)
  · exact .reply rfl (.ok _)

theorem acceptInner_heeds (ids : FreshIds) (message : PreparedMessage) (plan : Acceptance)
    (identity : Option SubmissionIdentity) (relay : Option RelayAcceptance) (reading : Reading)
    (faults : Faults) :
    s.Heeds (acceptInner s ids message plan identity relay reading faults) := by
  unfold acceptInner
  split_ifs
  · exact heeds_transaction (timeless_commitAcceptance faults) (acceptTx_heeds _ _ _ _ _ _ _)
  · exact .reply rfl (.error (by decide))

theorem enqueue_heeds (ids : FreshIds) (message : PreparedMessage) (plan : QueuePlan)
    (reading : Reading) (faults : Faults) :
    s.Heeds (enqueue s ids message plan reading faults) := by
  unfold enqueue
  split_ifs
  · exact heeds_nowMs fun now =>
      heeds_transaction (timeless_commitAcceptance faults) (enqueueTx_heeds _ _ _ _ _)
  · exact .reply rfl (.error (by decide))

theorem queueExpire_heeds (limit : Nat) (reading : Reading) (faults : Faults) :
    s.Heeds (queueExpire s limit reading faults) := by
  unfold queueExpire
  split_ifs
  · exact heeds_now fun queue now =>
      heeds_transaction (timeless_commitUnless (timeless_commit faults) (· = 0)) (.ok _)
  · exact .reply rfl (.error (by decide))

/-- Recovery asks the guard nothing. -/
theorem queueRecover_memory (limit : Nat) (live : LeaseGuard → Bool) (reading : Reading)
    (faults : Faults) :
    (queueRecover s limit live reading faults).1.queue.memory = s.queue.memory := by
  unfold queueRecover
  split_ifs
  · dsimp only
    cases reading.nowMs with
    | error e => exact rfl
    | ok now =>
        have hkept := transaction_cases
          (recoverTx (s.queue.retain live).active now limit s.queue.recoveryCursor)
          (timeless_commitUnless (timeless_commit faults)
            (fun result : Nat × List (Text × Bool) => result.1 = 0)).1 (s.retain live)
        have hmemory : ((s.retain live).transaction
            (recoverTx (s.queue.retain live).active now limit s.queue.recoveryCursor)
            fun store db result =>
              if result.1 = 0 then (store, .ok result)
              else store.commit faults db result).1.queue.memory = s.queue.memory := by
          rcases hkept with hsame | ⟨db, value, -, hstore⟩
          · rw [hsame]
            rfl
          · rw [hstore]
            rfl
        dsimp only [Store.retain] at hmemory ⊢
        split
        · rename_i hresult
          erw [hresult] at hmemory
          exact hmemory
        · rename_i hresult
          erw [hresult] at hmemory
          exact hmemory
  · rfl

theorem queueRecover_heeds (limit : Nat) (live : LeaseGuard → Bool) (reading : Reading)
    (faults : Faults) : s.Heeds (queueRecover s limit live reading faults) := by
  refine ⟨.of_eq (queueRecover_memory s limit live reading faults), ?_⟩
  unfold queueRecover
  split_ifs
  · dsimp only
    have hclock := nowMs_heeds reading
    cases hnow : reading.nowMs with
    | error e =>
        rw [hnow] at hclock
        exact fun h => absurd (Except.error.inj h) hclock.ne
    | ok now =>
        dsimp only
        split
        · rename_i hresult
          have hne := transaction_error_ne hresult (recoverTx_heeds _ _ _ _)
            ((timeless_commitUnless (timeless_commit faults)
              (fun result : Nat × List (Text × Bool) => result.1 = 0)).2 _)
          exact fun h => absurd (Except.error.inj h) hne
        · exact fun h => absurd h (Avoids.ok _)
  · exact fun h => absurd h (Avoids.error (by decide))

theorem claimReady_heeds (policy : QueuePolicy) (limit : Nat) (now : Int)
    (counted : LeaseGuard → Bool) (input : ClaimInput) :
    s.Heeds (claimReady s policy limit now counted input) := by
  unfold claimReady
  dsimp only
  split_ifs
  · exact .reply rfl (.ok _)
  · split
    · rename_i hresult
      have hheeds := heeds_transaction (s := s) (timeless_commit input.claimFaults)
        (@claimTx_heeds s.db
          ⟨policy, now, min (policy.concurrency - s.queue.active.length) limit, s.queue.active, s.lock,
            s.nextGuard, input.token, input.random⟩
          (s.queue.readyCursor.getD (-1, [])) (activeDomains s.queue.active counted))
      rw [hresult] at hheeds
      exact ⟨hheeds.watches, fun h => hheeds.reports (congrArg Except.error (Except.error.inj h))⟩
    · rename_i hresult
      obtain ⟨db, -, rfl⟩ := transaction_commit_ok hresult
      exact .reply rfl (.ok _)

theorem queueClaim_heeds (policy : QueuePolicy) (limit : Nat) (live counted : LeaseGuard → Bool)
    (input : ClaimInput) : s.Heeds (queueClaim s policy limit live counted input) := by
  unfold queueClaim
  split_ifs
  · refine heeds_now fun queue now => ?_
    have hrecover := queueRecover_heeds { s with queue := queue } batch live input.recoverReading
      input.recoverFaults
    cases hr : queueRecover { s with queue := queue } batch live input.recoverReading
        input.recoverFaults with
    | mk recovered result =>
        rw [hr] at hrecover
        cases result with
        | error e =>
            exact ⟨hrecover.watches, fun h =>
              hrecover.reports (congrArg Except.error (Except.error.inj h))⟩
        | ok count =>
            refine .trans hrecover.watches ?_
            have hexpire := queueExpire_heeds recovered batch input.expireReading input.expireFaults
            dsimp only
            cases he : queueExpire recovered batch input.expireReading input.expireFaults with
            | mk expired result =>
                rw [he] at hexpire
                cases result with
                | error e =>
                    exact ⟨hexpire.watches, fun h =>
                      hexpire.reports (congrArg Except.error (Except.error.inj h))⟩
                | ok count' =>
                    exact .trans hexpire.watches
                      (claimReady_heeds expired policy limit now counted input)
  · exact .reply rfl (.error (by decide))

theorem queueRenew_heeds (lease : QueueLease) (seconds : Nat) (reading : Reading)
    (faults : Faults) : s.Heeds (queueRenew s lease seconds reading faults) := by
  unfold queueRenew
  split_ifs
  · exact heeds_now fun queue now =>
      heeds_transaction (timeless_commit faults) (renewTx_heeds _ _ _ _)
  · exact .reply rfl (.error (by decide))

theorem queueMarkBody_heeds (lease : QueueLease) (faults : Faults) :
    s.Heeds (queueMarkBody s lease faults) :=
  heeds_transaction (timeless_commit faults) (.bind (checkLease_heeds _ _) fun _ _ => .ok _)

theorem queueFinish_heeds (lease : QueueLease) (outcome : QueueResult)
    (reading guardReading : Reading) (faults : Faults) :
    s.Heeds (queueFinish s lease outcome reading guardReading faults) := by
  refine heeds_nowMs fun now => ?_
  have hwatches := QueueRuntime.Watches.now s.queue guardReading
  cases hnow : s.queue.now guardReading with
  | mk queue guarded =>
      rw [hnow] at hwatches
      dsimp only
      cases hdue : notificationDue queue now guarded with
      | error e =>
          refine ⟨hwatches, fun h => ?_⟩
          obtain rfl : e = .clockChanged := Except.error.inj h
          unfold notificationDue at hdue
          split at hdue
          · cases hdue
          · rename_i hother
            exact absurd hdue (hother ·)
      | ok due =>
          have hfinish : Store.Heeds { s with queue := queue } _ :=
            heeds_transaction (timeless_commit faults) (finishTx_heeds lease s.lock outcome now due)
          exact .trans hwatches hfinish

theorem queueHold_heeds (id : Text) (reading : Reading) (faults : Faults) :
    s.Heeds (queueHold s id reading faults) := by
  unfold queueHold
  split_ifs
  · exact heeds_nowMs fun now => heeds_transaction (timeless_commit faults) (holdTx_heeds id now)
  · exact .reply rfl (.error (by decide))

theorem queueRetry_heeds (id : Text) (allowDuplicate extendExpired : Bool) (reading : Reading)
    (faults : Faults) : s.Heeds (queueRetry s id allowDuplicate extendExpired reading faults) := by
  unfold queueRetry
  split_ifs
  · exact heeds_now fun queue now =>
      heeds_transaction (timeless_commit faults) (retryTx_heeds _ _ _ _)
  · exact .reply rfl (.error (by decide))

theorem queueCloseUnknown_heeds (id note : Text) (reading : Reading) (faults : Faults) :
    s.Heeds (queueCloseUnknown s id note reading faults) := by
  unfold queueCloseUnknown
  split_ifs
  · exact heeds_nowMs fun now =>
      heeds_transaction (timeless_commit faults) (closeUnknownTx_heeds id note now)
  · exact .reply rfl (.error (by decide))

theorem notificationFailed_heeds (id : Text) (error : StoreError) (reading : Reading) :
    s.Heeds (notificationFailed s id error reading) := by
  unfold notificationFailed
  split_ifs
  · exact heeds_now fun queue now => .reply rfl (.ok ())
  · exact .reply rfl (.error (by decide))

theorem notificationNext_watches (policy : NotificationPolicy) (input : NotificationInput) :
    s.queue.Watches (notificationNext s policy input).1.queue := by
  unfold notificationNext
  cases policy.validate with
  | error e => exact .of_eq rfl
  | ok postmaster =>
      have hwatches := QueueRuntime.Watches.now s.queue input.reading
      dsimp only
      cases hnow : s.queue.now input.reading with
      | mk queue result =>
          rw [hnow] at hwatches
          cases result with
          | error e => exact hwatches
          | ok now =>
              dsimp only
              cases nextFailure now s.db with
              | none => exact hwatches
              | some failure =>
                  dsimp only
                  cases failure.suppressed with
                  | some reason => exact hwatches
                  | none =>
                      dsimp only
                      split
                      · exact hwatches
                      · rename_i error _
                        have hfailed := notificationFailed_heeds { s with queue := queue } failure.id
                          error input.failedReading
                        split
                        · rename_i hresult
                          rw [hresult] at hfailed
                          exact hwatches.trans hfailed.watches
                        · rename_i hresult
                          rw [hresult] at hfailed
                          exact hwatches.trans hfailed.watches

theorem notificationNext_heeds (policy : NotificationPolicy) {input : NotificationInput}
    (hstage : input.stage ≠ .error .clockChanged) :
    s.Heeds (notificationNext s policy input) := by
  refine ⟨notificationNext_watches s policy input, ?_⟩
  unfold notificationNext
  cases hpolicy : policy.validate with
  | error e =>
      have hvalid : Avoids .clockChanged policy.validate :=
        .bind (.require (by decide)) fun _ _ => .found (by decide)
      rw [hpolicy] at hvalid
      exact fun h => absurd (Except.error.inj h) hvalid.ne
  | ok postmaster =>
      have hlatches := @now_changed_latches s.queue input.reading
      dsimp only
      cases hnow : s.queue.now input.reading with
      | mk queue result =>
          rw [hnow] at hlatches
          cases result with
          | error e => exact fun h => hlatches (congrArg Except.error (Except.error.inj h))
          | ok now =>
              dsimp only
              cases nextFailure now s.db with
              | none => exact fun h => absurd h (Avoids.ok _)
              | some failure =>
                  dsimp only
                  cases failure.suppressed with
                  | some reason => exact fun h => absurd h (Avoids.ok _)
                  | none =>
                      dsimp only
                      have hprepare := prepareReport_heeds { s with queue := queue } policy
                        postmaster failure now hstage
                      split
                      · exact fun h => absurd h (Avoids.ok _)
                      · rename_i error hresult
                        rw [hresult] at hprepare
                        have hfailed := notificationFailed_heeds { s with queue := queue } failure.id
                          error input.failedReading
                        split
                        · rename_i hreport
                          rw [hreport] at hfailed
                          exact fun h =>
                            hfailed.reports (congrArg Except.error (Except.error.inj h))
                        · exact fun h => absurd (Except.error.inj h) hprepare.ne

theorem notificationCommit_heeds (prepared : PreparedNotification) (delivery : Uuid)
    (reading : Reading) (faults : Faults) :
    s.Heeds (notificationCommit s prepared delivery reading faults) := by
  unfold notificationCommit
  split_ifs
  · exact heeds_now fun queue now =>
      heeds_transaction (timeless_commitReport faults) (notificationCommitTx_heeds _ _ _ _)
  · exact .reply rfl (.error (by decide))

end Operations

/-- The error a call reports. -/
def Reply.error? : Reply → Option StoreError
  | .unit (.error e) => some e
  | .number (.error e) => some e
  | .accepted (.error e) => some e
  | .leases (.error e) => some e
  | .reader (.error e) => some e
  | .work (.error e) => some e
  | _ => none

/-- What opening or creating a file reports is never a changed clock. -/
def Op.Timeless : Op → Prop
  | .queueOpenBody _ file => file ≠ .error .clockChanged
  | .notificationNext _ input => input.stage ≠ .error .clockChanged
  | _ => True

/-- One operation shows the guard some readings, unless it opens the directory anew. -/
def World.GuardStep (w : World) (op : Op) (w' : World) : Prop :=
  w.store.queue.Watches w'.store.queue
    ∨ ∃ maxMessageBytes, op = .reopen maxMessageBytes ∧ w'.store.queue = {}

namespace World

variable {α : Type} {w : World} {op : Op}

theorem GuardStep.same (w : World) (op : Op) : w.GuardStep op w := Or.inl (.of_eq rfl)

theorem GuardStep.call {f : Store → Store × Except StoreError α}
    (h : w.store.queue.Watches (f w.store).1.queue) : w.GuardStep op (w.call f).1 := by
  rcases w.call_cases f with hsame | hstore
  · rw [hsame]
    exact .same w op
  · rw [hstore]
    exact Or.inl h

theorem GuardStep.callWith {serial : Nat} {f : QueueLease → Store → Store × Except StoreError α}
    (h : ∀ lease, w.store.queue.Watches (f lease w.store).1.queue) :
    w.GuardStep op (w.callWith serial f).1 := by
  rcases w.callWith_cases serial f with hsame | ⟨lease, -, hstore⟩
  · rw [hsame]
    exact .same w op
  · rw [hstore]
    exact Or.inl (h lease)

theorem next_guard (w : World) (op : Op) : w.GuardStep op (w.next op) := by
  cases op with
  | createAccount address quotaBytes reading uidvalidity faults =>
      exact .call (createAccount_heeds _ address quotaBytes reading uidvalidity faults).watches
  | setAccountQuota address bytes => exact .call (setAccountQuota_heeds _ address bytes).watches
  | finishAuthentication principal reading faults =>
      exact .call (finishAuthentication_heeds _ principal reading faults).watches
  | createCredential login selector label scope phc reading =>
      exact .call (createCredential_heeds _ login selector label scope phc reading).watches
  | revokeCredential selector reading faults =>
      exact .call (revokeCredential_heeds _ selector reading faults).watches
  | disableAccount login reading faults =>
      exact .call (disableAccount_heeds _ login reading faults).watches
  | setSendAs login address enabled faults =>
      exact .call (setSendAs_heeds _ login address enabled faults).watches
  | insertAlias address accountId => exact .call (insertAlias_heeds _ address accountId).watches
  | accept ids message plan reading faults =>
      exact .call (acceptInner_heeds _ ids message plan none none reading faults).watches
  | acceptSubmission ids message plan identity reading faults =>
      exact .call (acceptInner_heeds _ ids message plan (some identity) none reading faults).watches
  | acceptRelaySubmission ids message plan identity relay reading faults =>
      exact .call
        (acceptInner_heeds _ ids message plan (some identity) (some relay) reading faults).watches
  | enqueue ids message plan reading faults =>
      exact .call (enqueue_heeds _ ids message plan reading faults).watches
  | queueExpire limit reading faults => exact .call (queueExpire_heeds _ limit reading faults).watches
  | queueRecover limit reading faults =>
      exact .call (queueRecover_heeds _ limit w.live reading faults).watches
  | queueClaim policy limit keepLease keepReader input =>
      have hwatches := (queueClaim_heeds w.store policy limit w.live
        (w.without keepLease keepReader).live input).watches
      change w.GuardStep _ (w.claim policy limit keepLease keepReader input).1
      rcases w.claim_cases policy limit keepLease keepReader input with
        hsame | ⟨e, -, hfailed⟩ | ⟨leases, -, hdone⟩
      · rw [hsame]
        exact Or.inl (.of_eq rfl)
      · rw [hfailed]
        exact Or.inl hwatches
      · rw [hdone]
        exact Or.inl hwatches
  | queueRenew serial seconds reading faults =>
      exact .callWith fun lease => (queueRenew_heeds _ lease seconds reading faults).watches
  | queueMarkBody serial faults =>
      exact .callWith fun lease => (queueMarkBody_heeds _ lease faults).watches
  | queueOpenBody serial file =>
      change w.GuardStep _ (w.openBody serial file).1
      rcases w.openBody_cases serial file with hsame | ⟨lease, reader, -, -, hw⟩
      · rw [hsame]
        exact .same w _
      · rw [hw]
        exact Or.inl (.of_eq rfl)
  | queueFinish serial outcome reading guardReading faults =>
      have hcall : w.GuardStep (.queueFinish serial outcome reading guardReading faults)
          (w.callWith serial fun lease s =>
            queueFinish s lease outcome reading guardReading faults).1 :=
        .callWith fun lease => (queueFinish_heeds _ lease outcome reading guardReading faults).watches
      exact hcall
  | queueHold id reading faults => exact .call (queueHold_heeds _ id reading faults).watches
  | queueRetry id allowDuplicate extendExpired reading faults =>
      exact .call (queueRetry_heeds _ id allowDuplicate extendExpired reading faults).watches
  | queueCloseUnknown id note reading faults =>
      exact .call (queueCloseUnknown_heeds _ id note reading faults).watches
  | notificationNext policy input => exact .call (notificationNext_watches _ policy input)
  | notificationFailed id error reading =>
      exact .call (notificationFailed_heeds _ id error reading).watches
  | notificationCommit prepared delivery reading faults =>
      exact .call (notificationCommit_heeds _ prepared delivery reading faults).watches
  | dropLease serial => exact Or.inl (.of_eq rfl)
  | dropReader index => exact Or.inl (.of_eq rfl)
  | close => exact Or.inl (.of_eq rfl)
  | crash => exact Or.inl (.of_eq rfl)
  | reopen maxMessageBytes =>
      change w.GuardStep _ (w.reopen maxMessageBytes).1
      rcases w.reopen_cases maxMessageBytes with hsame | ⟨-, -, -, hw⟩
      · rw [hsame]
        exact .same w _
      · rw [hw]
        exact Or.inr ⟨maxMessageBytes, rfl, rfl⟩

/-- In a reachable world the guard that was started has a last trusted time. -/
theorem Reachable.started (h : w.Reachable) : Started w.store.queue.memory := by
  obtain ⟨root, maxMessageBytes, h⟩ := h
  have hempty : Started ({} : QueueRuntime).memory :=
    ⟨fun h => Bool.noConfusion h, Iff.rfl⟩
  refine h.invariant (fun w => Started w.store.queue.memory) hempty ?_
  intro w op hw
  rcases w.next_guard op with hwatches | ⟨m, -, hqueue⟩
  · exact hwatches.keeps now_started hw
  · rw [hqueue]
    exact hempty

end World

end Rustymail
