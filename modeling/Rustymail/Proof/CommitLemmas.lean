import Rustymail.Commits
import Rustymail.Lib.Checked

/-!
# Every operation leaves only its commits behind

For each operation of the store: the owner's data it keeps and the transaction it may leave behind,
whatever its faults and clock readings. The world's step follows.
-/

namespace Rustymail

open Checked

/-- The part of an open store that everything but recovery and claims leaves alone. -/
structure Store.SameOwner (s s' : Store) : Prop where
  root : s'.root = s.root
  maxMessageBytes : s'.maxMessageBytes = s.maxMessageBytes
  lock : s'.lock = s.lock
  nextGuard : s'.nextGuard = s.nextGuard
  active : s'.queue.active = s.queue.active

/-- The operation kept the owner's data and left at most one transaction behind. -/
def Store.Leaves (tx : Db → Db → Prop) (s s' : Store) : Prop :=
  s.SameOwner s' ∧ (s'.db = s.db ∨ tx s.db s'.db)

section Leaves

variable {s s' : Store} {tx tx' : Db → Db → Prop}

theorem Store.SameOwner.refl (s : Store) : s.SameOwner s := ⟨rfl, rfl, rfl, rfl, rfl⟩

theorem Store.Leaves.nothing (s : Store) : s.Leaves tx s := ⟨.refl s, Or.inl rfl⟩

theorem Store.Leaves.mono (hmono : ∀ db db', tx db db' → tx' db db') (h : s.Leaves tx s') :
    s.Leaves tx' s' :=
  ⟨h.1, h.2.imp_right (hmono _ _)⟩

theorem Store.Leaves.of_queue {queue : QueueRuntime} (hactive : queue.active = s.queue.active)
    (h : Store.Leaves tx { s with queue := queue } s') : s.Leaves tx s' :=
  ⟨⟨h.1.root, h.1.maxMessageBytes, h.1.lock, h.1.nextGuard, h.1.active.trans hactive⟩, h.2⟩

theorem Store.Leaves.queue {queue : QueueRuntime} (hactive : queue.active = s.queue.active) :
    s.Leaves tx { s with queue := queue } :=
  Store.Leaves.of_queue hactive (.nothing _)

theorem Store.Leaves.autocommit {db : Db} (htx : tx s.db db) :
    s.Leaves tx { s with db := db } :=
  ⟨⟨rfl, rfl, rfl, rfl, rfl⟩, Or.inr htx⟩

end Leaves

/-- A commit either takes over the new database as a whole or leaves the old one. -/
def Atomic {α β : Type} (commit : Store → Db → α → Store × Except StoreError β) : Prop :=
  ∀ s db value, (commit s db value).1 = s ∨ (commit s db value).1 = { s with db := db }

section Commit

variable {α β : Type}

theorem atomic_commit (faults : Faults) : Atomic (Store.commit (α := α) faults) := by
  intro s db value
  unfold Store.commit
  split_ifs
  · exact Or.inl rfl
  · split
    · exact Or.inl rfl
    · exact Or.inr rfl
    · exact Or.inr rfl
  · split
    · exact Or.inl rfl
    · exact Or.inr rfl
    · exact Or.inr rfl

theorem atomic_commitPlain (faults : Faults) : Atomic (Store.commitPlain (α := α) faults) := by
  intro s db value
  unfold Store.commitPlain
  split
  · exact Or.inl rfl
  · exact Or.inr rfl
  · exact Or.inr rfl

theorem atomic_commitUnless {commit : Store → Db → α → Store × Except StoreError α}
    (hcommit : Atomic commit) (skip : α → Prop) [DecidablePred skip] :
    Atomic fun s db value => if skip value then (s, .ok value) else commit s db value := by
  intro s db value
  dsimp only
  split_ifs
  · exact Or.inl rfl
  · exact hcommit s db value

theorem atomic_commitAcceptance (faults : Faults) : Atomic (Store.commitAcceptance faults) := by
  intro s db value
  unfold Store.commitAcceptance
  split_ifs
  any_goals exact Or.inl rfl
  · split
    · exact Or.inl rfl
    · exact Or.inr rfl
    · exact Or.inr rfl
  · split
    · exact Or.inl rfl
    · exact Or.inr rfl
    · exact Or.inr rfl

theorem atomic_commitReport (faults : Faults) : Atomic (Store.commitReport faults) := by
  intro s db value
  unfold Store.commitReport
  split_ifs
  any_goals exact Or.inl rfl
  · split
    · exact Or.inl rfl
    · exact Or.inr rfl
    · exact Or.inr rfl
  · split
    · exact Or.inl rfl
    · exact Or.inr rfl
    · exact Or.inr rfl

theorem transaction_cases (body : Db → Except StoreError (Db × α))
    {commit : Store → Db → α → Store × Except StoreError β} (hatomic : Atomic commit) (s : Store) :
    (s.transaction body commit).1 = s
      ∨ ∃ db value, body s.db = .ok (db, value)
        ∧ (s.transaction body commit).1 = { s with db := db } := by
  unfold Store.transaction
  cases hbody : body s.db with
  | error e => exact Or.inl rfl
  | ok result =>
      obtain ⟨db, value⟩ := result
      rcases hatomic s db value with hnone | hall
      · exact Or.inl hnone
      · exact Or.inr ⟨db, value, rfl, hall⟩

theorem transaction_leaves (body : Db → Except StoreError (Db × α))
    {commit : Store → Db → α → Store × Except StoreError β} (hatomic : Atomic commit) (s : Store) :
    s.Leaves (fun db db' => ∃ value, body db = .ok (db', value)) (s.transaction body commit).1 := by
  rcases transaction_cases body hatomic s with hsame | ⟨db, value, hbody, hstore⟩
  · rw [hsame]
    exact .nothing s
  · rw [hstore]
    exact .autocommit ⟨value, hbody⟩

/-- A commit that reports success has happened. -/
theorem transaction_commit_ok {body : Db → Except StoreError (Db × α)} {faults : Faults}
    {s s' : Store} {value : α} (h : s.transaction body (Store.commit faults) = (s', .ok value)) :
    ∃ db, body s.db = .ok (db, value) ∧ s' = { s with db := db } := by
  unfold Store.transaction at h
  cases hbody : body s.db with
  | error e => simp [hbody] at h
  | ok result =>
      obtain ⟨db, written⟩ := result
      rw [hbody] at h
      simp only [Store.commit] at h
      split_ifs at h
      · simp at h
      · split at h <;> simp at h
      · split at h
        · simp at h
        · simp at h
        · obtain ⟨rfl, hvalue⟩ := Prod.mk.inj h
          cases hvalue
          exact ⟨db, rfl, rfl⟩

theorem now_active (queue : QueueRuntime) (reading : Reading) :
    (queue.now reading).1.active = queue.active := by
  unfold QueueRuntime.now
  cases reading.nowMs with
  | error e => rfl
  | ok wall =>
      dsimp only
      split_ifs <;> rfl

/-- Operations that read the guarded clock first. -/
theorem leaves_now {tx : Db → Db → Prop} {s : Store} {reading : Reading}
    {f : QueueRuntime → Int → Store × Except StoreError β}
    (hf : ∀ queue now, Store.Leaves tx { s with queue := queue } (f queue now).1) :
    s.Leaves tx
      (match s.queue.now reading with
      | (queue, .error e) => ({ s with queue := queue }, Except.error e)
      | (queue, .ok now) => f queue now).1 := by
  have hactive := now_active s.queue reading
  cases hnow : s.queue.now reading with
  | mk queue result =>
      rw [hnow] at hactive
      cases result with
      | error e => exact .queue hactive
      | ok now => exact .of_queue hactive (hf queue now)

/-- Operations that read the wall clock first. -/
theorem leaves_nowMs {tx : Db → Db → Prop} {s : Store} {reading : Reading}
    {f : Int → Store × Except StoreError β}
    (hf : ∀ now, reading.nowMs = .ok now → s.Leaves tx (f now).1) :
    s.Leaves tx
      (match reading.nowMs with
      | .error e => (s, Except.error e)
      | .ok now => f now).1 := by
  cases hnow : reading.nowMs with
  | error e => exact .nothing s
  | ok now => exact hf now hnow

end Commit

section Operations

variable (s : Store)

theorem createAccount_leaves (address : Address) (quotaBytes : Nat) (reading : Reading)
    (uidvalidity : Text → Nat) (faults : Faults) :
    s.Leaves (fun db db' => quotaBytes ≤ i64Max
        ∧ ∃ now, createAccountTx address quotaBytes now uidvalidity db = .ok (db', ()))
      (createAccount s address quotaBytes reading uidvalidity faults).1 := by
  unfold createAccount
  split_ifs with hquota
  · exact .nothing s
  · refine leaves_nowMs fun now _ => ?_
    refine (transaction_leaves _ (atomic_commitPlain faults) s).mono ?_
    rintro db db' ⟨⟨⟩, htx⟩
    exact ⟨by omega, now, htx⟩

theorem setAccountQuota_leaves (address : Address) (bytes : Nat) :
    s.Leaves (fun db db' => bytes ≤ i64Max ∧ ∃ account,
        db.accountByLogin? address.localKey = some account ∧ account.usedBytes ≤ bytes
          ∧ db' = db.updateAccountByLogin address.localKey fun row => { row with quotaBytes := bytes })
      (setAccountQuota s address bytes).1 := by
  unfold setAccountQuota
  split_ifs with hbytes
  · exact .nothing s
  · cases haccount : s.db.accountByLogin? address.localKey with
    | none => exact .nothing s
    | some account =>
        dsimp only
        split_ifs with hused
        · exact .nothing s
        · exact .autocommit ⟨by omega, account, haccount, by omega, rfl⟩

theorem finishAuthentication_leaves (principal : Principal) (reading : Reading) (faults : Faults) :
    s.Leaves (fun db db' => ∃ now, finishAuthenticationTx principal now db = .ok (db', ()))
      (finishAuthentication s principal reading faults).1 := by
  refine leaves_nowMs fun now _ => ?_
  refine (transaction_leaves _ (atomic_commitPlain faults) s).mono ?_
  rintro db db' ⟨⟨⟩, htx⟩
  exact ⟨now, htx⟩

theorem createCredential_leaves (login : Address) (selector : Text) (label : String) (scope : Scope)
    (phc : Text) (reading : Reading) :
    s.Leaves (fun db db' => ∃ row : Credential, validCredential selector label phc = true
        ∧ row.selector = selector ∧ row.label = label ∧ db.insertCredential row = .ok db')
      (createCredential s login selector label scope phc reading).1 := by
  unfold createCredential
  split_ifs with hvalid
  · cases s.db.accountByLogin? login.localKey with
    | none => exact .nothing s
    | some account =>
        dsimp only
        split_ifs
        · exact .nothing s
        · refine leaves_nowMs fun now _ => ?_
          split
          · exact .nothing s
          · rename_i db hinsert
            exact .autocommit ⟨_, hvalid, rfl, rfl, hinsert⟩
  · exact .nothing s

theorem revokeCredential_leaves (selector : Text) (reading : Reading) (faults : Faults) :
    s.Leaves (fun db db' => ∃ now account, revokeCredentialTx selector now db = .ok (db', account))
      (revokeCredential s selector reading faults).1 := by
  unfold revokeCredential
  split_ifs
  · refine leaves_nowMs fun now _ => ?_
    refine (transaction_leaves _ (atomic_commitPlain faults) s).mono ?_
    rintro db db' ⟨account, htx⟩
    exact ⟨now, account, htx⟩
  · exact .nothing s

theorem disableAccount_leaves (login : Address) (reading : Reading) (faults : Faults) :
    s.Leaves (fun db db' => ∃ now account, disableAccountTx login now db = .ok (db', account))
      (disableAccount s login reading faults).1 := by
  refine leaves_nowMs fun now _ => ?_
  refine (transaction_leaves _ (atomic_commitPlain faults) s).mono ?_
  rintro db db' ⟨account, htx⟩
  exact ⟨now, account, htx⟩

theorem setSendAs_leaves (login address : Address) (enabled : Bool) (faults : Faults) :
    s.Leaves (fun db db' => ∃ account, setSendAsTx login address enabled db = .ok (db', account))
      (setSendAs s login address enabled faults).1 :=
  transaction_leaves _ (atomic_commitPlain faults) s

theorem insertAlias_leaves (address : Text) (accountId : Nat) :
    s.Leaves (fun db db' => ∃ row, db.insertAddress row = .ok db')
      (insertAlias s address accountId).1 := by
  unfold insertAlias
  split
  · exact .nothing s
  · rename_i db hinsert
    exact .autocommit ⟨_, hinsert⟩

/-- A replay reads; a fresh acceptance is authorised, new and written as a whole. -/
theorem acceptTx_eq_ok {ids : FreshIds} {message : PreparedMessage} {plan : Acceptance}
    {identity : Option SubmissionIdentity} {relay : Option RelayAcceptance} {reading : Reading}
    {faults : Faults} {db db' : Db} {accepted : AcceptedMessage} :
    acceptTx ids message plan identity relay reading faults db = .ok (db', accepted) ↔
      authorizeSubmission db identity plan.sender = .ok ()
        ∧ ((∃ previous blob, previousAcceptance db plan.operationId = some (previous, blob)
              ∧ sameAcceptance db message plan identity relay previous blob
              ∧ db' = db ∧ accepted = ⟨previous.id, true⟩)
          ∨ (previousAcceptance db plan.operationId = none ∧ faults.hit .databaseWrite = false
              ∧ ∃ now, reading.nowMs = .ok now
                ∧ writeAcceptance ids message plan identity relay now db = .ok db'
                ∧ accepted = ⟨ids.message.text, false⟩)) := by
  unfold acceptTx
  rw [bind_eq_ok]
  cases hprevious : previousAcceptance db plan.operationId with
  | some found =>
      obtain ⟨previous, blob⟩ := found
      simp only [require_pure_eq_ok, Prod.mk.injEq]
      constructor
      · rintro ⟨⟨⟩, hauth, hsame, rfl, rfl⟩
        exact ⟨hauth, Or.inl ⟨previous, blob, rfl, hsame, rfl, rfl⟩⟩
      · rintro ⟨hauth, ⟨_, _, heq, hsame, rfl, rfl⟩ | ⟨hnone, -⟩⟩
        · cases heq
          exact ⟨(), hauth, hsame, rfl, rfl⟩
        · cases hnone
  | none =>
      simp only [bind_eq_ok, require_eq_ok, pure_eq_ok, Prod.mk.injEq]
      constructor
      · rintro ⟨⟨⟩, hauth, now, hnow, ⟨⟩, hfault, written, hwrite, rfl, rfl⟩
        exact ⟨hauth, Or.inr ⟨trivial, hfault, now, hnow, hwrite, rfl⟩⟩
      · rintro ⟨hauth, ⟨_, _, hsome, -⟩ | ⟨-, hfault, now, hnow, hwrite, rfl⟩⟩
        · cases hsome
        · exact ⟨(), hauth, now, hnow, (), hfault, db', hwrite, rfl, rfl⟩

theorem acceptInner_leaves (ids : FreshIds) (message : PreparedMessage) (plan : Acceptance)
    (identity : Option SubmissionIdentity) (relay : Option RelayAcceptance) (reading : Reading)
    (faults : Faults) :
    s.Leaves (fun db db' => validAcceptance s message plan relay
        ∧ authorizeSubmission db identity plan.sender = .ok ()
        ∧ previousAcceptance db plan.operationId = none
        ∧ ∃ now, reading.nowMs = .ok now ∧ writeAcceptance ids message plan identity relay now db = .ok db')
      (acceptInner s ids message plan identity relay reading faults).1 := by
  unfold acceptInner
  split_ifs with hvalid
  · obtain ⟨howner, hdb⟩ := transaction_leaves
      (acceptTx ids message plan identity relay reading faults) (atomic_commitAcceptance faults) s
    refine ⟨howner, ?_⟩
    rcases hdb with hsame | ⟨accepted, htx⟩
    · exact Or.inl hsame
    · obtain ⟨hauth, ⟨_, _, _, _, hsame, _⟩ | ⟨hnew, _, now, hnow, hwrite, _⟩⟩ := acceptTx_eq_ok.1 htx
      · exact Or.inl hsame
      · exact Or.inr ⟨hvalid, hauth, hnew, now, hnow, hwrite⟩
  · exact .nothing s

theorem enqueueTx_eq_ok {ids : FreshIds} {message : PreparedMessage} {plan : QueuePlan} {now : Int}
    {faults : Faults} {db db' : Db} {accepted : AcceptedMessage} :
    enqueueTx ids message plan now faults db = .ok (db', accepted) ↔
      (∃ previous blob, previousAcceptance db plan.operationId = some (previous, blob)
          ∧ sameEnqueue db message plan previous blob ∧ db' = db ∧ accepted = ⟨previous.id, true⟩)
        ∨ (previousAcceptance db plan.operationId = none ∧ faults.hit .databaseWrite = false
            ∧ writeEnqueue ids message plan now db = .ok db'
            ∧ accepted = ⟨ids.message.text, false⟩) := by
  unfold enqueueTx
  cases hprevious : previousAcceptance db plan.operationId with
  | some found =>
      obtain ⟨previous, blob⟩ := found
      simp only [require_pure_eq_ok, Prod.mk.injEq]
      constructor
      · rintro ⟨hsame, rfl, rfl⟩
        exact Or.inl ⟨previous, blob, rfl, hsame, rfl, rfl⟩
      · rintro (⟨_, _, heq, hsame, rfl, rfl⟩ | ⟨hnone, -⟩)
        · cases heq
          exact ⟨hsame, rfl, rfl⟩
        · cases hnone
  | none =>
      simp only [bind_eq_ok, require_eq_ok, pure_eq_ok, Prod.mk.injEq]
      constructor
      · rintro ⟨⟨⟩, hfault, written, hwrite, rfl, rfl⟩
        exact Or.inr ⟨trivial, hfault, hwrite, rfl⟩
      · rintro (⟨_, _, hsome, -⟩ | ⟨-, hfault, hwrite, rfl⟩)
        · cases hsome
        · exact ⟨(), hfault, db', hwrite, rfl, rfl⟩

theorem enqueue_leaves (ids : FreshIds) (message : PreparedMessage) (plan : QueuePlan)
    (reading : Reading) (faults : Faults) :
    s.Leaves (fun db db' => validEnqueue s message plan
        ∧ previousAcceptance db plan.operationId = none
        ∧ ∃ now, reading.nowMs = .ok now ∧ writeEnqueue ids message plan now db = .ok db')
      (enqueue s ids message plan reading faults).1 := by
  unfold enqueue
  split_ifs with hvalid
  · refine leaves_nowMs fun now hnow => ?_
    obtain ⟨howner, hdb⟩ := transaction_leaves (enqueueTx ids message plan now faults)
      (atomic_commitAcceptance faults) s
    refine ⟨howner, ?_⟩
    rcases hdb with hsame | ⟨accepted, htx⟩
    · exact Or.inl hsame
    · obtain ⟨_, _, _, _, hsame, _⟩ | ⟨hnew, _, hwrite, _⟩ := enqueueTx_eq_ok.1 htx
      · exact Or.inl hsame
      · exact Or.inr ⟨hvalid, hnew, now, hnow, hwrite⟩
  · exact .nothing s

theorem queueExpire_leaves (limit : Nat) (reading : Reading) (faults : Faults) :
    s.Leaves (fun db db' => ∃ now count, expireTx now limit db = .ok (db', count))
      (queueExpire s limit reading faults).1 := by
  unfold queueExpire
  split_ifs
  · refine leaves_now fun queue now => ?_
    refine (transaction_leaves _ (atomic_commitUnless (atomic_commit faults) (· = 0)) _).mono ?_
    rintro db db' ⟨count, htx⟩
    exact ⟨now, count, htx⟩
  · exact .nothing s

theorem queueRenew_leaves (lease : QueueLease) (seconds : Nat) (reading : Reading)
    (faults : Faults) :
    s.Leaves (fun db db' => ∃ now, renewTx lease s.lock now seconds db = .ok (db', ()))
      (queueRenew s lease seconds reading faults).1 := by
  unfold queueRenew
  split_ifs
  · refine leaves_now fun queue now => ?_
    refine (transaction_leaves _ (atomic_commit faults) _).mono ?_
    rintro db db' ⟨⟨⟩, htx⟩
    exact ⟨now, htx⟩
  · exact .nothing s

theorem queueMarkBody_leaves (lease : QueueLease) (faults : Faults) :
    s.Leaves (fun db db' => markBodyTx lease s.lock db = .ok (db', ()))
      (queueMarkBody s lease faults).1 := by
  refine (transaction_leaves _ (atomic_commit faults) s).mono ?_
  rintro db db' ⟨⟨⟩, htx⟩
  exact htx

theorem queueFinish_leaves (lease : QueueLease) (outcome : QueueResult)
    (reading guardReading : Reading) (faults : Faults) :
    s.Leaves (fun db db' => ∃ now due, finishTx lease s.lock outcome now due db = .ok (db', ()))
      (queueFinish s lease outcome reading guardReading faults).1 := by
  refine leaves_nowMs fun now _ => ?_
  have hactive := now_active s.queue guardReading
  cases hnow : s.queue.now guardReading with
  | mk queue guarded =>
      rw [hnow] at hactive
      dsimp only
      cases notificationDue queue now guarded with
      | error e => exact .queue hactive
      | ok due =>
          refine .of_queue hactive ?_
          refine (transaction_leaves _ (atomic_commit faults) _).mono ?_
          rintro db db' ⟨⟨⟩, htx⟩
          exact ⟨now, due, htx⟩

theorem queueHold_leaves (id : Text) (reading : Reading) (faults : Faults) :
    s.Leaves (fun db db' => ∃ now, holdTx id now db = .ok (db', ()))
      (queueHold s id reading faults).1 := by
  unfold queueHold
  split_ifs
  · refine leaves_nowMs fun now _ => ?_
    refine (transaction_leaves _ (atomic_commit faults) s).mono ?_
    rintro db db' ⟨⟨⟩, htx⟩
    exact ⟨now, htx⟩
  · exact .nothing s

theorem queueRetry_leaves (id : Text) (allowDuplicate extendExpired : Bool) (reading : Reading)
    (faults : Faults) :
    s.Leaves (fun db db' => ∃ now, retryTx id allowDuplicate extendExpired now db = .ok (db', ()))
      (queueRetry s id allowDuplicate extendExpired reading faults).1 := by
  unfold queueRetry
  split_ifs
  · refine leaves_now fun queue now => ?_
    refine (transaction_leaves _ (atomic_commit faults) _).mono ?_
    rintro db db' ⟨⟨⟩, htx⟩
    exact ⟨now, htx⟩
  · exact .nothing s

theorem queueCloseUnknown_leaves (id note : Text) (reading : Reading) (faults : Faults) :
    s.Leaves (fun db db' => ∃ now, closeUnknownTx id note now db = .ok (db', ()))
      (queueCloseUnknown s id note reading faults).1 := by
  unfold queueCloseUnknown
  split_ifs
  · refine leaves_nowMs fun now _ => ?_
    refine (transaction_leaves _ (atomic_commit faults) s).mono ?_
    rintro db db' ⟨⟨⟩, htx⟩
    exact ⟨now, htx⟩
  · exact .nothing s

theorem notificationFailed_leaves (id : Text) (error : StoreError) (reading : Reading) :
    s.Leaves (fun db db' => ∃ reason due,
        db' = db.updateDelivery id (Delivery.postponeReport reason due))
      (notificationFailed s id error reading).1 := by
  unfold notificationFailed
  split_ifs
  · refine leaves_now fun queue now => ?_
    exact .autocommit ⟨_, _, rfl⟩
  · exact .nothing s

theorem notificationNext_leaves (policy : NotificationPolicy) (input : NotificationInput) :
    s.Leaves (fun db db' =>
        (∃ now failure reason, nextFailure now db = some failure
          ∧ failure.suppressed = some reason
          ∧ db' = db.updateDelivery failure.id (Delivery.suppress reason))
        ∨ ∃ id reason due, db' = db.updateDelivery id (Delivery.postponeReport reason due))
      (notificationNext s policy input).1 := by
  unfold notificationNext
  cases policy.validate with
  | error e => exact .nothing s
  | ok postmaster =>
      refine leaves_now fun queue now => ?_
      dsimp only
      cases hfailure : nextFailure now s.db with
      | none => exact .nothing _
      | some failure =>
          dsimp only
          cases hreason : failure.suppressed with
          | some reason => exact .autocommit (Or.inl ⟨now, failure, reason, hfailure, hreason, rfl⟩)
          | none =>
              dsimp only
              split
              · exact .nothing _
              · rename_i error _
                have hfailed := notificationFailed_leaves { s with queue := queue } failure.id error
                  input.failedReading
                split <;> rename_i hresult <;> rw [hresult] at hfailed
                · exact hfailed.mono fun db db' ⟨reason, due, heq⟩ =>
                    Or.inr ⟨failure.id, reason, due, heq⟩
                · exact hfailed.mono fun db db' ⟨reason, due, heq⟩ =>
                    Or.inr ⟨failure.id, reason, due, heq⟩

theorem notificationCommitTx_eq_ok {delivery : Uuid} {prepared : PreparedNotification} {now : Int}
    {faults : Faults} {db db' : Db} {accepted : AcceptedMessage} :
    notificationCommitTx delivery prepared now faults db = .ok (db', accepted) ↔
      (∃ row, db.notification? prepared.plan.deliveryId = some row ∧ db' = db
          ∧ accepted = ⟨row.reportMessageId, true⟩)
        ∨ (db.notification? prepared.plan.deliveryId = none ∧ eligible db prepared.plan = true
            ∧ faults.hit .databaseWrite = false ∧ writeReport delivery prepared now db = .ok db'
            ∧ accepted = ⟨prepared.plan.reportId.text, false⟩) := by
  unfold notificationCommitTx
  cases hrow : db.notification? prepared.plan.deliveryId with
  | some row =>
      simp only [Except.ok.injEq, Prod.mk.injEq]
      constructor
      · rintro ⟨rfl, rfl⟩
        exact Or.inl ⟨row, rfl, rfl, rfl⟩
      · rintro (⟨_, heq, rfl, rfl⟩ | ⟨hnone, -⟩)
        · cases heq
          exact ⟨rfl, rfl⟩
        · cases hnone
  | none =>
      simp only [bind_eq_ok, require_eq_ok, pure_eq_ok, Prod.mk.injEq]
      constructor
      · rintro ⟨⟨⟩, heligible, ⟨⟩, hfault, written, hwrite, rfl, rfl⟩
        exact Or.inr ⟨trivial, heligible, hfault, hwrite, rfl⟩
      · rintro (⟨_, hsome, -⟩ | ⟨-, heligible, hfault, hwrite, rfl⟩)
        · cases hsome
        · exact ⟨(), heligible, (), hfault, db', hwrite, rfl, rfl⟩

theorem notificationCommit_leaves (prepared : PreparedNotification) (delivery : Uuid)
    (reading : Reading) (faults : Faults) :
    s.Leaves (fun db db' => db.notification? prepared.plan.deliveryId = none
        ∧ eligible db prepared.plan = true ∧ ∃ now, writeReport delivery prepared now db = .ok db')
      (notificationCommit s prepared delivery reading faults).1 := by
  unfold notificationCommit
  split_ifs
  · refine leaves_now fun queue now => ?_
    obtain ⟨howner, hdb⟩ := transaction_leaves (notificationCommitTx delivery prepared now faults)
      (atomic_commitReport faults) { s with queue := queue }
    refine ⟨howner, ?_⟩
    rcases hdb with hsame | ⟨accepted, htx⟩
    · exact Or.inl hsame
    · obtain ⟨_, _, hsame, _⟩ | ⟨hnew, heligible, _, hwrite, _⟩ := notificationCommitTx_eq_ok.1 htx
      · exact Or.inl hsame
      · exact Or.inr ⟨hnew, heligible, now, hwrite⟩
  · exact .nothing s

/-- Recovery forgets the dead guards before anything else. -/
def Store.retain (s : Store) (live : LeaseGuard → Bool) : Store :=
  { s with queue := s.queue.retain live }

theorem queueRecover_invalid {limit : Nat} (hlimit : ¬ (1 ≤ limit ∧ limit ≤ batch))
    (live : LeaseGuard → Bool) (reading : Reading) (faults : Faults) :
    queueRecover s limit live reading faults = (s, .error .invalidInput) := by
  unfold queueRecover
  rw [if_neg hlimit]

theorem queueRecover_leaves {limit : Nat} (hlimit : 1 ≤ limit ∧ limit ≤ batch)
    (live : LeaseGuard → Bool) (reading : Reading) (faults : Faults) :
    (s.retain live).Leaves (fun db db' => ∃ now result,
        recoverTx (s.queue.retain live).active now limit s.queue.recoveryCursor db
          = .ok (db', result))
      (queueRecover s limit live reading faults).1 := by
  unfold queueRecover
  rw [if_pos hlimit]
  refine leaves_nowMs fun now _ => ?_
  have hleaves := transaction_leaves
    (recoverTx (s.queue.retain live).active now limit s.queue.recoveryCursor)
    (atomic_commitUnless (atomic_commit faults)
      (fun result : Nat × List (Text × Bool) => result.1 = 0)) (s.retain live)
  dsimp only [Store.retain] at hleaves ⊢
  split
  · rename_i hresult
    erw [hresult] at hleaves
    exact hleaves.mono fun db db' ⟨result, htx⟩ => ⟨now, result, htx⟩
  · rename_i hresult
    erw [hresult] at hleaves
    obtain ⟨howner, hdb⟩ := hleaves
    refine ⟨⟨howner.root, howner.maxMessageBytes, howner.lock, howner.nextGuard, howner.active⟩, ?_⟩
    exact hdb.imp_right fun ⟨result, htx⟩ => ⟨now, result, htx⟩

/-- What the claim proper did when it handed out leases. -/
structure Claimed (s : Store) (policy : QueuePolicy) (limit : Nat) (counted : LeaseGuard → Bool)
    (s' : Store) (leases : List QueueLease) where
  ctx : ClaimContext
  cursor : Int × Text
  progress : ClaimProgress
  rows : List Delivery
  policy_eq : ctx.policy = policy
  available_eq : ctx.available = min (policy.concurrency - s.queue.active.length) limit
  available_pos : 0 < ctx.available
  active_eq : ctx.active = s.queue.active
  lock_eq : ctx.lock = s.lock
  guard_eq : ctx.nextGuard = s.nextGuard
  tx : claimTx ctx cursor (activeDomains s.queue.active counted) s.db
    = .ok (s'.db, progress, rows)
  leases_eq : leases = progress.leases
  root : s'.root = s.root
  lock : s'.lock = s.lock
  nextGuard : s'.nextGuard = s.nextGuard + leases.length
  active : s'.queue.active = s.queue.active ++ leases.map fun l => (l.id, l.guard)

theorem claimReady_cases (policy : QueuePolicy) (limit : Nat) (now : Int)
    (counted : LeaseGuard → Bool) (input : ClaimInput) :
    claimReady s policy limit now counted input = (s, .ok [])
      ∨ (∃ e, (claimReady s policy limit now counted input).2 = .error e
          ∧ s.Leaves (fun db db' => ∃ ctx cursor domains result,
              claimTx ctx cursor domains db = .ok (db', result))
            (claimReady s policy limit now counted input).1)
      ∨ ∃ leases, (claimReady s policy limit now counted input).2 = .ok leases
          ∧ Nonempty (Claimed s policy limit counted
              (claimReady s policy limit now counted input).1 leases) := by
  unfold claimReady
  dsimp only
  split_ifs with havailable
  · exact Or.inl rfl
  · right
    generalize hctx : (⟨policy, now, min (policy.concurrency - s.queue.active.length) limit,
      s.queue.active, s.lock, s.nextGuard, input.token, input.random⟩ : ClaimContext) = ctx
    have hleaves := transaction_leaves
      (claimTx ctx (s.queue.readyCursor.getD (-1, [])) (activeDomains s.queue.active counted))
      (atomic_commit input.claimFaults) s
    cases hresult : s.transaction
        (claimTx ctx (s.queue.readyCursor.getD (-1, [])) (activeDomains s.queue.active counted))
        (Store.commit input.claimFaults) with
    | mk s' result =>
        rw [hresult] at hleaves
        cases result with
        | error e =>
            exact Or.inl ⟨e, rfl, hleaves.mono fun db db' ⟨value, htx⟩ => ⟨ctx, _, _, value, htx⟩⟩
        | ok value =>
            obtain ⟨progress, rows⟩ := value
            obtain ⟨db, hbody, rfl⟩ := transaction_commit_ok hresult
            right
            refine ⟨progress.leases, rfl, ⟨?_⟩⟩
            subst hctx
            exact
              { ctx := _
                cursor := _
                progress := progress
                rows := rows
                policy_eq := rfl
                available_eq := rfl
                available_pos := Nat.pos_of_ne_zero havailable
                active_eq := rfl
                lock_eq := rfl
                guard_eq := rfl
                tx := hbody
                leases_eq := rfl
                root := rfl
                lock := rfl
                nextGuard := rfl
                active := rfl }

/-- The store between the start of a claim and the claim proper. -/
structure Swept (s : Store) (live : LeaseGuard → Bool) (s' : Store) : Prop where
  root : s'.root = s.root
  maxMessageBytes : s'.maxMessageBytes = s.maxMessageBytes
  lock : s'.lock = s.lock
  nextGuard : s'.nextGuard = s.nextGuard
  active : s'.queue.active = s.queue.active ∨ s'.queue.active = (s.queue.retain live).active
  db : ∃ middle, (middle = s.db ∨ ∃ now cursor result,
        recoverTx (s.queue.retain live).active now batch cursor s.db = .ok (middle, result))
      ∧ (s'.db = middle ∨ ∃ now count, expireTx now batch middle = .ok (s'.db, count))

theorem Swept.of_queue {queue : QueueRuntime} (hactive : queue.active = s.queue.active)
    (live : LeaseGuard → Bool) : Swept s live { s with queue := queue } :=
  ⟨rfl, rfl, rfl, rfl, Or.inl hactive, s.db, Or.inl rfl, Or.inl rfl⟩

theorem Swept.of_recover {queue : QueueRuntime} (hactive : queue.active = s.queue.active)
    (live : LeaseGuard → Bool) (reading : Reading) (faults : Faults) :
    Swept s live (queueRecover { s with queue := queue } batch live reading faults).1
      ∧ (queueRecover { s with queue := queue } batch live reading faults).1.queue.active
        = (s.queue.retain live).active
      ∧ ((queueRecover { s with queue := queue } batch live reading faults).1.db = s.db
        ∨ ∃ now cursor result, recoverTx (s.queue.retain live).active now batch cursor s.db
          = .ok ((queueRecover { s with queue := queue } batch live reading faults).1.db, result)) := by
  obtain ⟨howner, hdb⟩ := queueRecover_leaves { s with queue := queue } ⟨by decide, le_rfl⟩ live
    reading faults
  have hretained : (queue.retain live).active = (s.queue.retain live).active := by
    simp [QueueRuntime.retain, hactive]
  have hsame := howner.active.trans hretained
  have hdone := hdb.imp_right fun ⟨now, result, htx⟩ =>
    (⟨now, queue.recoveryCursor, result, hretained ▸ htx⟩ : ∃ now cursor result,
      recoverTx (s.queue.retain live).active now batch cursor s.db = Except.ok (_, result))
  exact ⟨⟨howner.root, howner.maxMessageBytes, howner.lock, howner.nextGuard, Or.inr hsame, _, hdone,
    Or.inl rfl⟩, hsame, hdone⟩

theorem Swept.expire {s s' : Store} {live : LeaseGuard → Bool} (h : Swept s live s')
    (hdb : s'.db = s.db ∨ ∃ now cursor result,
      recoverTx (s.queue.retain live).active now batch cursor s.db = .ok (s'.db, result))
    (reading : Reading) (faults : Faults) :
    Swept s live (queueExpire s' batch reading faults).1
      ∧ (queueExpire s' batch reading faults).1.queue.active = s'.queue.active := by
  obtain ⟨howner, hexpired⟩ := queueExpire_leaves s' batch reading faults
  refine ⟨⟨howner.root.trans h.root, howner.maxMessageBytes.trans h.maxMessageBytes,
    howner.lock.trans h.lock, howner.nextGuard.trans h.nextGuard, ?_, s'.db, hdb, hexpired⟩,
    howner.active⟩
  rw [howner.active]
  exact h.active

/-- A claim sweeps first, and then fails, finds nothing, or hands out leases. -/
theorem queueClaim_cases (policy : QueuePolicy) (limit : Nat) (live counted : LeaseGuard → Bool)
    (input : ClaimInput) :
    (∃ e swept, (queueClaim s policy limit live counted input).2 = .error e ∧ Swept s live swept
        ∧ ((queueClaim s policy limit live counted input).1 = swept
          ∨ swept.Leaves (fun db db' => ∃ ctx cursor domains result,
              claimTx ctx cursor domains db = .ok (db', result))
            (queueClaim s policy limit live counted input).1))
      ∨ ∃ leases swept, (queueClaim s policy limit live counted input).2 = .ok leases
        ∧ policy.Valid ∧ Swept s live swept
        ∧ swept.queue.active = (s.queue.retain live).active
        ∧ ((leases = [] ∧ (queueClaim s policy limit live counted input).1 = swept)
          ∨ Nonempty (Claimed swept policy limit counted
              (queueClaim s policy limit live counted input).1 leases)) := by
  unfold queueClaim
  split_ifs with hvalid
  swap
  · exact Or.inl ⟨_, s, rfl, .of_queue s rfl live, Or.inl rfl⟩
  · cases hnow : s.queue.now input.guardReading with
    | mk queue result =>
        have hactive : queue.active = s.queue.active := by
          have hkept := now_active s.queue input.guardReading
          rwa [hnow] at hkept
        cases result with
        | error e => exact Or.inl ⟨e, _, rfl, .of_queue s hactive live, Or.inl rfl⟩
        | ok now =>
            dsimp only
            obtain ⟨hrecover, hretained, hfirst⟩ := Swept.of_recover s hactive live
              input.recoverReading input.recoverFaults
            cases hr : queueRecover { s with queue := queue } batch live input.recoverReading
                input.recoverFaults with
            | mk recovered result =>
                rw [hr] at hrecover hretained hfirst
                cases result with
                | error e => exact Or.inl ⟨e, recovered, rfl, hrecover, Or.inl rfl⟩
                | ok count =>
                    dsimp only
                    obtain ⟨hexpire, hkept⟩ := hrecover.expire hfirst input.expireReading
                      input.expireFaults
                    cases he : queueExpire recovered batch input.expireReading input.expireFaults with
                    | mk expired result =>
                        rw [he] at hexpire hkept
                        cases result with
                        | error e => exact Or.inl ⟨e, expired, rfl, hexpire, Or.inl rfl⟩
                        | ok count' =>
                            dsimp only
                            rcases claimReady_cases expired policy limit now counted input with
                              hnone | ⟨e, herror, hleaves⟩ | ⟨leases, hok, hclaimed⟩
                            · rw [hnone]
                              exact Or.inr ⟨[], expired, rfl, hvalid.1, hexpire,
                                hkept.trans hretained, Or.inl ⟨rfl, rfl⟩⟩
                            · exact Or.inl ⟨e, expired, herror, hexpire, Or.inr hleaves⟩
                            · exact Or.inr ⟨leases, expired, hok, hvalid.1, hexpire,
                                hkept.trans hretained, Or.inr hclaimed⟩

end Operations

end Rustymail
