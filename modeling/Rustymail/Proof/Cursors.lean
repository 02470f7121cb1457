import Rustymail.Proof.StepLemmas

/-!
# Where the scans resume

Only recovery moves the recovery cursor, and only a claim the ready cursor. Every other operation
leaves both where they are, and a new opening of the directory starts them afresh.
-/

namespace Rustymail

open Checked

/-- Where recovery and claims resume their scans. -/
def QueueRuntime.cursors (queue : QueueRuntime) : Text × Option (Int × Text) :=
  (queue.recoveryCursor, queue.readyCursor)

def Store.SameCursors (s s' : Store) : Prop := s'.queue.cursors = s.queue.cursors

section Rules

variable {α β : Type} {s : Store}

theorem now_cursors (queue : QueueRuntime) (reading : Reading) :
    (queue.now reading).1.cursors = queue.cursors := by
  unfold QueueRuntime.now
  cases reading.nowMs with
  | error e => rfl
  | ok wall =>
      dsimp only
      split_ifs
      · rfl
      · rfl

theorem Store.SameCursors.transaction (body : Db → Except StoreError (Db × α))
    {commit : Store → Db → α → Store × Except StoreError β} (hatomic : Atomic commit) :
    s.SameCursors (s.transaction body commit).1 := by
  rcases transaction_cases body hatomic s with hsame | ⟨db, value, -, hstore⟩
  · rw [hsame]
    rfl
  · rw [hstore]
    rfl

theorem Store.SameCursors.now {reading : Reading}
    {f : QueueRuntime → Int → Store × Except StoreError β}
    (hf : ∀ queue now, Store.SameCursors { s with queue := queue } (f queue now).1) :
    s.SameCursors
      (match s.queue.now reading with
      | (queue, .error e) => ({ s with queue := queue }, Except.error e)
      | (queue, .ok now) => f queue now).1 := by
  have hcursors := now_cursors s.queue reading
  cases hnow : s.queue.now reading with
  | mk queue result =>
      rw [hnow] at hcursors
      cases result with
      | error e => exact hcursors
      | ok now => exact Eq.trans (hf queue now) hcursors

theorem Store.SameCursors.nowMs {reading : Reading} {f : Int → Store × Except StoreError β}
    (hf : ∀ now, s.SameCursors (f now).1) :
    s.SameCursors
      (match reading.nowMs with
      | .error e => (s, Except.error e)
      | .ok now => f now).1 := by
  cases reading.nowMs with
  | error e => rfl
  | ok now => exact hf now

end Rules

section Operations

variable (s : Store)

theorem createAccount_cursors (address : Address) (quotaBytes : Nat) (reading : Reading)
    (uidvalidity : Text → Nat) (faults : Faults) :
    s.SameCursors (createAccount s address quotaBytes reading uidvalidity faults).1 := by
  unfold createAccount
  split_ifs
  · rfl
  · exact .nowMs fun _ => .transaction _ (atomic_commitPlain faults)

theorem setAccountQuota_cursors (address : Address) (bytes : Nat) :
    s.SameCursors (setAccountQuota s address bytes).1 := by
  unfold setAccountQuota
  split_ifs
  · rfl
  · cases s.db.accountByLogin? address.localKey with
    | none => rfl
    | some account =>
        dsimp only
        split_ifs
        · rfl
        · rfl

theorem finishAuthentication_cursors (principal : Principal) (reading : Reading) (faults : Faults) :
    s.SameCursors (finishAuthentication s principal reading faults).1 :=
  .nowMs fun _ => .transaction _ (atomic_commitPlain faults)

theorem createCredential_cursors (login : Address) (selector : Text) (label : String) (scope : Scope)
    (phc : Text) (reading : Reading) :
    s.SameCursors (createCredential s login selector label scope phc reading).1 := by
  unfold createCredential
  split_ifs
  · cases s.db.accountByLogin? login.localKey with
    | none => rfl
    | some account =>
        dsimp only
        split_ifs
        · rfl
        · refine .nowMs fun now => ?_
          split
          · rfl
          · rfl
  · rfl

theorem revokeCredential_cursors (selector : Text) (reading : Reading) (faults : Faults) :
    s.SameCursors (revokeCredential s selector reading faults).1 := by
  unfold revokeCredential
  split_ifs
  · exact .nowMs fun _ => .transaction _ (atomic_commitPlain faults)
  · rfl

theorem disableAccount_cursors (login : Address) (reading : Reading) (faults : Faults) :
    s.SameCursors (disableAccount s login reading faults).1 :=
  .nowMs fun _ => .transaction _ (atomic_commitPlain faults)

theorem setSendAs_cursors (login address : Address) (enabled : Bool) (faults : Faults) :
    s.SameCursors (setSendAs s login address enabled faults).1 :=
  .transaction _ (atomic_commitPlain faults)

theorem insertAlias_cursors (address : Text) (accountId : Nat) :
    s.SameCursors (insertAlias s address accountId).1 := by
  unfold insertAlias
  split
  · rfl
  · rfl

theorem acceptInner_cursors (ids : FreshIds) (message : PreparedMessage) (plan : Acceptance)
    (identity : Option SubmissionIdentity) (relay : Option RelayAcceptance) (reading : Reading)
    (faults : Faults) :
    s.SameCursors (acceptInner s ids message plan identity relay reading faults).1 := by
  unfold acceptInner
  split_ifs
  · exact .transaction _ (atomic_commitAcceptance faults)
  · rfl

theorem enqueue_cursors (ids : FreshIds) (message : PreparedMessage) (plan : QueuePlan)
    (reading : Reading) (faults : Faults) :
    s.SameCursors (enqueue s ids message plan reading faults).1 := by
  unfold enqueue
  split_ifs
  · exact .nowMs fun _ => .transaction _ (atomic_commitAcceptance faults)
  · rfl

theorem queueExpire_cursors (limit : Nat) (reading : Reading) (faults : Faults) :
    s.SameCursors (queueExpire s limit reading faults).1 := by
  unfold queueExpire
  split_ifs
  · exact .now fun _ _ => .transaction _ (atomic_commitUnless (atomic_commit faults) (· = 0))
  · rfl

theorem queueRenew_cursors (lease : QueueLease) (seconds : Nat) (reading : Reading)
    (faults : Faults) : s.SameCursors (queueRenew s lease seconds reading faults).1 := by
  unfold queueRenew
  split_ifs
  · exact .now fun _ _ => .transaction _ (atomic_commit faults)
  · rfl

theorem queueMarkBody_cursors (lease : QueueLease) (faults : Faults) :
    s.SameCursors (queueMarkBody s lease faults).1 :=
  .transaction _ (atomic_commit faults)

theorem queueFinish_cursors (lease : QueueLease) (outcome : QueueResult)
    (reading guardReading : Reading) (faults : Faults) :
    s.SameCursors (queueFinish s lease outcome reading guardReading faults).1 := by
  refine .nowMs fun now => ?_
  have hcursors := now_cursors s.queue guardReading
  cases hnow : s.queue.now guardReading with
  | mk queue guarded =>
      rw [hnow] at hcursors
      dsimp only
      cases notificationDue queue now guarded with
      | error e => exact hcursors
      | ok due =>
          have hkept : Store.SameCursors { s with queue := queue } (Store.transaction _ _ _).1 :=
            .transaction (finishTx lease s.lock outcome now due) (atomic_commit faults)
          exact Eq.trans hkept hcursors

theorem queueHold_cursors (id : Text) (reading : Reading) (faults : Faults) :
    s.SameCursors (queueHold s id reading faults).1 := by
  unfold queueHold
  split_ifs
  · exact .nowMs fun _ => .transaction _ (atomic_commit faults)
  · rfl

theorem queueRetry_cursors (id : Text) (allowDuplicate extendExpired : Bool) (reading : Reading)
    (faults : Faults) :
    s.SameCursors (queueRetry s id allowDuplicate extendExpired reading faults).1 := by
  unfold queueRetry
  split_ifs
  · exact .now fun _ _ => .transaction _ (atomic_commit faults)
  · rfl

theorem queueCloseUnknown_cursors (id note : Text) (reading : Reading) (faults : Faults) :
    s.SameCursors (queueCloseUnknown s id note reading faults).1 := by
  unfold queueCloseUnknown
  split_ifs
  · exact .nowMs fun _ => .transaction _ (atomic_commit faults)
  · rfl

theorem notificationFailed_cursors (id : Text) (error : StoreError) (reading : Reading) :
    s.SameCursors (notificationFailed s id error reading).1 := by
  unfold notificationFailed
  split_ifs
  · exact .now fun _ _ => rfl
  · rfl

theorem notificationNext_cursors (policy : NotificationPolicy) (input : NotificationInput) :
    s.SameCursors (notificationNext s policy input).1 := by
  unfold notificationNext
  cases policy.validate with
  | error e => rfl
  | ok postmaster =>
      refine .now fun queue now => ?_
      dsimp only
      cases nextFailure now s.db with
      | none => rfl
      | some failure =>
          dsimp only
          cases failure.suppressed with
          | some reason => rfl
          | none =>
              dsimp only
              split
              · rfl
              · rename_i error _
                have hfailed := notificationFailed_cursors { s with queue := queue } failure.id error
                  input.failedReading
                split <;> rename_i hresult <;> rw [hresult] at hfailed
                · exact hfailed
                · exact hfailed

theorem notificationCommit_cursors (prepared : PreparedNotification) (delivery : Uuid)
    (reading : Reading) (faults : Faults) :
    s.SameCursors (notificationCommit s prepared delivery reading faults).1 := by
  unfold notificationCommit
  split_ifs
  · exact .now fun _ _ => .transaction _ (atomic_commitReport faults)
  · rfl

end Operations

namespace World

variable {α : Type} {w : World}

theorem call_cursors {f : Store → Store × Except StoreError α}
    (h : w.store.SameCursors (f w.store).1) : w.store.SameCursors (w.call f).1.store := by
  rcases w.call_cases f with hsame | hstore
  · rw [hsame]
    rfl
  · rw [hstore]
    exact h

theorem callWith_cursors {serial : Nat} {f : QueueLease → Store → Store × Except StoreError α}
    (h : ∀ lease, w.store.SameCursors (f lease w.store).1) :
    w.store.SameCursors (w.callWith serial f).1.store := by
  rcases w.callWith_cases serial f with hsame | ⟨lease, -, hstore⟩
  · rw [hsame]
    rfl
  · rw [hstore]
    exact h lease

theorem next_cursors {op : Op} (hother : op.recovers = false) (hopens : ∀ m, op ≠ .reopen m) :
    w.store.SameCursors (w.next op).store := by
  cases op with
  | createAccount address quotaBytes reading uidvalidity faults =>
      exact call_cursors (createAccount_cursors _ address quotaBytes reading uidvalidity faults)
  | setAccountQuota address bytes => exact call_cursors (setAccountQuota_cursors _ address bytes)
  | finishAuthentication principal reading faults =>
      exact call_cursors (finishAuthentication_cursors _ principal reading faults)
  | createCredential login selector label scope phc reading =>
      exact call_cursors (createCredential_cursors _ login selector label scope phc reading)
  | revokeCredential selector reading faults =>
      exact call_cursors (revokeCredential_cursors _ selector reading faults)
  | disableAccount login reading faults =>
      exact call_cursors (disableAccount_cursors _ login reading faults)
  | setSendAs login address enabled faults =>
      exact call_cursors (setSendAs_cursors _ login address enabled faults)
  | insertAlias address accountId => exact call_cursors (insertAlias_cursors _ address accountId)
  | accept ids message plan reading faults =>
      exact call_cursors (acceptInner_cursors _ ids message plan none none reading faults)
  | acceptSubmission ids message plan identity reading faults =>
      exact call_cursors (acceptInner_cursors _ ids message plan (some identity) none reading faults)
  | acceptRelaySubmission ids message plan identity relay reading faults =>
      exact call_cursors
        (acceptInner_cursors _ ids message plan (some identity) (some relay) reading faults)
  | enqueue ids message plan reading faults =>
      exact call_cursors (enqueue_cursors _ ids message plan reading faults)
  | queueExpire limit reading faults => exact call_cursors (queueExpire_cursors _ limit reading faults)
  | queueRecover => cases hother
  | queueClaim => cases hother
  | queueRenew serial seconds reading faults =>
      exact callWith_cursors fun lease => queueRenew_cursors _ lease seconds reading faults
  | queueMarkBody serial faults =>
      exact callWith_cursors fun lease => queueMarkBody_cursors _ lease faults
  | queueOpenBody serial file =>
      change w.store.SameCursors (w.openBody serial file).1.store
      rcases w.openBody_cases serial file with hsame | ⟨lease, reader, -, -, hw⟩
      · rw [hsame]
        rfl
      · rw [hw]
        rfl
  | queueFinish serial outcome reading guardReading faults =>
      exact @callWith_cursors _ _ serial _ fun lease =>
        queueFinish_cursors _ lease outcome reading guardReading faults
  | queueHold id reading faults => exact call_cursors (queueHold_cursors _ id reading faults)
  | queueRetry id allowDuplicate extendExpired reading faults =>
      exact call_cursors (queueRetry_cursors _ id allowDuplicate extendExpired reading faults)
  | queueCloseUnknown id note reading faults =>
      exact call_cursors (queueCloseUnknown_cursors _ id note reading faults)
  | notificationNext policy input => exact call_cursors (notificationNext_cursors _ policy input)
  | notificationFailed id error reading =>
      exact call_cursors (notificationFailed_cursors _ id error reading)
  | notificationCommit prepared delivery reading faults =>
      exact call_cursors (notificationCommit_cursors _ prepared delivery reading faults)
  | dropLease serial => rfl
  | dropReader index => rfl
  | close => rfl
  | crash => rfl
  | reopen maxMessageBytes => exact absurd rfl (hopens maxMessageBytes)

end World

end Rustymail
