import Rustymail.Store.Acceptance

/-!
# The durable queue

`queue.rs` after acceptance: leasing, fencing, recording results, recovery, expiry and the
administrator's operations. Each operation is a transaction body on the database, named `...Tx`, and
the operation proper, which checks its arguments, reads the clock and commits.
-/

namespace Rustymail

open Checked

def batch : Nat := 128

structure QueuePolicy where
  concurrency : Nat := 16
  perDomain : Nat := 2
  leaseSeconds : Nat := 300
  retrySeconds : List Nat := [1800, 3600, 7200, 14400]
  jitterPercent : Nat := 20
  deriving DecidableEq

/-- `QueuePolicy::validate`. -/
abbrev QueuePolicy.Valid (policy : QueuePolicy) : Prop :=
  (1 ≤ policy.concurrency ∧ policy.concurrency ≤ batch)
    ∧ (1 ≤ policy.perDomain ∧ policy.perDomain ≤ policy.concurrency)
    ∧ (1 ≤ policy.leaseSeconds ∧ policy.leaseSeconds ≤ 3600)
    ∧ policy.retrySeconds ≠ [] ∧ policy.retrySeconds.length ≤ 32
    ∧ (∀ n ∈ policy.retrySeconds, 1 ≤ n ∧ n ≤ 86400)
    ∧ policy.jitterPercent ≤ 50

/-- `QueuePolicy::delay_ms`. The random value is the leading 64 bits of the SHA-256 of the delivery
id and the attempt number. -/
def QueuePolicy.delayMs (policy : QueuePolicy) (random : Text → Nat → Nat) (id : Text)
    (attempts : Nat) : Int :=
  let index := min (attempts - 1) (policy.retrySeconds.length - 1)
  let base := policy.retrySeconds.getD index 0 * 1000
  let spread := base * policy.jitterPercent / 100
  ((base + random id attempts % (spread + 1) : Nat) : Int)

structure QueueLease where
  id : Text
  token : Text
  generation : Nat
  guard : LeaseGuard
  retryMs : Int
  messageId : Text
  recipient : Address
  sender : Option Address
  body : QueueBody
  blobId : Text
  storedSize : Nat
  submission : Bool
  deriving DecidableEq

/-- A body reader: it keeps the guard of its lease alive. -/
structure QueuedReader where
  guard : LeaseGuard
  blobId : Text
  expectedSize : Nat
  expectedHash : Text
  deriving DecidableEq

inductive QueueResult where
  | delivered (code : Nat)
  | temporary (code : Nat)
  | permanent (code : Nat)
  | connectionLost
  | hold
  | deferred
  deriving DecidableEq, Repr

/-- `check_lease`: the phase of the lease the delivery is currently under. -/
def checkLease (db : Db) (lease : QueueLease) (lock : Nat) : Except StoreError Phase := do
  require (lock = lease.guard.lock) .staleLease
  let row ← found .staleLease (db.delivery? lease.id)
  let queued ← found .staleLease (db.queueLease? lease.id)
  require (row.route = .relay ∧ row.state = .leased ∧ row.leaseToken = some lease.token
    ∧ row.generation = lease.generation) .staleLease
  pure queued.phase

/-- `ORDER BY` a time column, then the id. -/
abbrev timeThenId (time : Delivery → Int) (a b : Delivery) : Prop :=
  time a < time b ∨ (time a = time b ∧ a.id ≤ b.id)

/-- `state IN ('pending','deferred')`. -/
abbrev Delivery.Ready (row : Delivery) : Prop := row.state = .pending ∨ row.state = .deferred

/-! ### Expiry -/

def Delivery.expire (now : Int) (row : Delivery) : Delivery :=
  { row with
    state := if row.possiblyDelivered then .uncertain else .failed
    lifecycleReason := some .expired
    diagnostic := some (if row.possiblyDelivered then
      "expired retry; earlier outcome remains unknown" else "delivery lifetime exceeded")
    notificationDueMs := now }

def expiredIds (now : Int) (limit : Nat) (db : Db) : List Text :=
  (((db.deliveries.filter fun d =>
      decide (d.route = .relay ∧ d.Ready ∧ d.expiresAtMs ≤ now)).insertionSort
    (timeThenId Delivery.expiresAtMs)).take limit).map Delivery.id

def expireTx (now : Int) (limit : Nat) (db : Db) : Except StoreError (Db × Nat) :=
  let ids := expiredIds now limit db
  .ok (ids.foldl (fun db id => db.updateDelivery id (Delivery.expire now)) db, ids.length)

def queueExpire (store : Store) (limit : Nat) (reading : Reading) (faults : Faults) :
    Store × Except StoreError Nat :=
  if 1 ≤ limit ∧ limit ≤ batch then
    match store.queue.now reading with
    | (queue, .error e) => ({ store with queue := queue }, .error e)
    | (queue, .ok now) =>
        ({ store with queue := queue } : Store).transaction (expireTx now limit)
          fun store db count =>
            if count = 0 then (store, .ok count) else store.commit faults db count
  else (store, .error .invalidInput)

/-! ### Recovery -/

def Delivery.recover (unknown : Bool) (next : Int) (row : Delivery) : Delivery :=
  { row with
    state := if unknown then .uncertain else .deferred
    leaseToken := none
    leaseUntilMs := none
    nextAttemptAtMs := next
    lastSmtpCode := none
    diagnostic := some "attempt owner disappeared"
    possiblyDelivered := unknown }

/-- The scanned rows: each leased delivery with `phase='body' OR possibly_delivered=1`. -/
def recoverableRows (limit : Nat) (cursor : Text) (db : Db) : List (Text × Bool) :=
  (((db.deliveries.filter fun d =>
      decide (d.route = .relay ∧ d.state = .leased ∧ cursor < d.id
        ∧ (db.queueLease? d.id).isSome)).insertionSort fun a b => a.id ≤ b.id).take limit).map
    fun d => (d.id, (db.queueLease? d.id).any (fun q => decide (q.phase = .body))
      || d.possiblyDelivered)

def recoverRow (active : List (Text × LeaseGuard)) (now : Int) (progress : Db × Nat)
    (row : Text × Bool) : Except StoreError (Db × Nat) :=
  if active.any fun entry => entry.1 = row.1 then .ok progress
  else do
    let next ← later now 1800000
    let db := progress.1.updateDelivery row.1 (Delivery.recover row.2 next)
    pure (db.deleteQueueLease row.1, progress.2 + 1)

def recoverTx (active : List (Text × LeaseGuard)) (now : Int) (limit : Nat) (cursor : Text)
    (db : Db) : Except StoreError (Db × Nat × List (Text × Bool)) := do
  let rows := recoverableRows limit cursor db
  let (db, recovered) ← rows.foldlM (recoverRow active now) (db, 0)
  pure (db, recovered, rows)

/-- `active.retain(|_, weak| weak.strong_count() > 0)`. -/
def QueueRuntime.retain (queue : QueueRuntime) (live : LeaseGuard → Bool) : QueueRuntime :=
  { queue with active := queue.active.filter fun entry => live entry.2 }

def queueRecover (store : Store) (limit : Nat) (live : LeaseGuard → Bool) (reading : Reading)
    (faults : Faults) : Store × Except StoreError Nat :=
  if 1 ≤ limit ∧ limit ≤ batch then
    let store := { store with queue := store.queue.retain live }
    match reading.nowMs with
    | .error e => (store, .error e)
    | .ok now =>
        match store.transaction
            (recoverTx store.queue.active now limit store.queue.recoveryCursor)
            (fun store db result =>
              if result.1 = 0 then (store, .ok result) else store.commit faults db result) with
        | (store, .error e) => (store, .error e)
        | (store, .ok (recovered, rows)) =>
            let cursor := if rows.length = limit then (rows.getLast?.map Prod.fst).getD [] else []
            ({ store with queue := { store.queue with recoveryCursor := cursor } }, .ok recovered)
  else (store, .error .invalidInput)

/-! ### Claiming -/

def Delivery.lease (token : Text) (deadline : Int) (row : Delivery) : Delivery :=
  { row with
    state := .leased
    attempts := row.attempts + 1
    generation := row.generation + 1
    leaseToken := some token
    leaseUntilMs := some deadline }

def Delivery.exhaust (row : Delivery) : Delivery :=
  { row with
    state := .hold
    lifecycleReason := some .counter
    diagnostic := some "attempt counter exhausted" }

/-- What a claim takes from the runtime and from outside. -/
structure ClaimContext where
  policy : QueuePolicy
  now : Int
  available : Nat
  active : List (Text × LeaseGuard)
  lock : Nat
  nextGuard : Nat
  token : Text → Uuid
  random : Text → Nat → Nat

structure ClaimProgress where
  db : Db
  domains : List Text
  leases : List QueueLease
  last : Option (Int × Text)

def candidates (now : Int) (cursor : Int × Text) (db : Db) : List Delivery :=
  ((db.deliveries.filter fun d =>
      decide (d.route = .relay ∧ d.Ready ∧ d.nextAttemptAtMs ≤ now
        ∧ (cursor.1 < d.nextAttemptAtMs
          ∨ (cursor.1 = d.nextAttemptAtMs ∧ cursor.2 < d.id)))).insertionSort
    (timeThenId Delivery.nextAttemptAtMs)).take batch

/-- The join of message, queue row and blob that a lease is built from. -/
def claimMessage (db : Db) (messageId : Text) : Option (Message × QueueMessage × Blob) := do
  let message ← db.message? messageId
  let queued ← db.queueMessage? messageId
  let blob ← db.blob? message.blobId
  some (message, queued, blob)

/-- An empty reverse path is the null sender; any other must parse. -/
def parseSender (reversePath : Text) : Except StoreError (Option Address) :=
  if reversePath = [] then .ok none
  else do
    let address ← found .integrity (Address.parse reversePath)
    pure (some address)

/-- Lease one candidate that has passed every check. -/
def grantLease (ctx : ClaimContext) (candidate : Delivery) (recipient : Address)
    (progress : ClaimProgress) : Except StoreError ClaimProgress := do
  let (message, queued, blob) ← found .database (claimMessage progress.db candidate.messageId)
  let sender ← parseSender message.reversePath
  let deadline ← later ctx.now (ctx.policy.leaseSeconds * 1000)
  let token := (ctx.token candidate.id).text
  let db := progress.db.updateDelivery candidate.id (Delivery.lease token deadline)
  let db ← db.insertQueueLease { deliveryId := candidate.id, phase := .ready }
  let lease : QueueLease :=
    { id := candidate.id
      token := token
      generation := candidate.generation + 1
      guard := ⟨ctx.nextGuard + progress.leases.length, ctx.lock, recipient.domain⟩
      retryMs := ctx.policy.delayMs ctx.random candidate.id (candidate.attempts + 1)
      messageId := candidate.messageId
      recipient := recipient
      sender := sender
      body := queued.bodyMode
      blobId := message.blobId
      storedSize := blob.sizeBytes
      submission := decide (message.source = .submission) }
  pure { progress with
    db := db
    domains := recipient.domain :: progress.domains
    leases := progress.leases ++ [lease] }

/-- One round of the claim loop. -/
def claimOne (ctx : ClaimContext) (candidate : Delivery) (progress : ClaimProgress) :
    Except StoreError ClaimProgress :=
  let progress := { progress with last := some (candidate.nextAttemptAtMs, candidate.id) }
  if ctx.active.any (fun entry => entry.1 = candidate.id) then .ok progress
  else if candidate.expiresAtMs ≤ ctx.now then .ok progress
  else if candidate.attempts = i64Max ∨ candidate.generation = i64Max then
    .ok { progress with db := progress.db.updateDelivery candidate.id Delivery.exhaust }
  else do
    let recipient ← found .integrity (Address.parse candidate.recipient)
    if ctx.policy.perDomain ≤ progress.domains.count recipient.domain then pure progress
    else grantLease ctx candidate recipient progress

def claimLoop (ctx : ClaimContext) : List Delivery → ClaimProgress → Except StoreError ClaimProgress
  | [], progress => .ok progress
  | candidate :: rest, progress => do
      let progress ← claimOne ctx candidate progress
      if progress.leases.length = ctx.available then pure progress
      else claimLoop ctx rest progress

def claimTx (ctx : ClaimContext) (cursor : Int × Text) (domains : List Text) (db : Db) :
    Except StoreError (Db × ClaimProgress × List Delivery) := do
  let rows := candidates ctx.now cursor db
  let progress ← claimLoop ctx rows ⟨db, domains, [], none⟩
  pure (progress.db, progress, rows)

/-- Where the next claim resumes: at the start once the scan has passed its last candidate. -/
def nextReadyCursor (rows : List Delivery) (last : Option (Int × Text)) : Option (Int × Text) :=
  if rows.length < batch ∧ last = rows.getLast?.map (fun d => (d.nextAttemptAtMs, d.id)) then none
  else last

/-- The clock readings, faults, tokens and guard deaths of one `queue_claim` call. `live` is the
state of the guards when `active` is pruned, `counted` a moment later when domains are counted. -/
structure ClaimInput where
  guardReading : Reading
  recoverReading : Reading
  expireReading : Reading
  recoverFaults : Faults
  expireFaults : Faults
  claimFaults : Faults
  token : Text → Uuid
  random : Text → Nat → Nat

def activeDomains (active : List (Text × LeaseGuard)) (live : LeaseGuard → Bool) : List Text :=
  (active.filter fun entry => live entry.2).map fun entry => entry.2.domain

/-- The claim proper, after recovery and expiry. -/
def claimReady (store : Store) (policy : QueuePolicy) (limit : Nat) (now : Int)
    (counted : LeaseGuard → Bool) (input : ClaimInput) :
    Store × Except StoreError (List QueueLease) :=
  let available := min (policy.concurrency - store.queue.active.length) limit
  if available = 0 then (store, .ok [])
  else
    let ctx : ClaimContext :=
      ⟨policy, now, available, store.queue.active, store.lock, store.nextGuard, input.token,
        input.random⟩
    let cursor := store.queue.readyCursor.getD (-1, [])
    match store.transaction
        (claimTx ctx cursor (activeDomains store.queue.active counted))
        (Store.commit input.claimFaults) with
    | (store, .error e) => (store, .error e)
    | (store, .ok (progress, rows)) =>
        let queue := { store.queue with
          readyCursor := nextReadyCursor rows progress.last
          active := store.queue.active ++ progress.leases.map fun l => (l.id, l.guard) }
        ({ store with queue := queue, nextGuard := store.nextGuard + progress.leases.length },
          .ok progress.leases)

def queueClaim (store : Store) (policy : QueuePolicy) (limit : Nat) (live counted : LeaseGuard → Bool)
    (input : ClaimInput) : Store × Except StoreError (List QueueLease) :=
  if policy.Valid ∧ 1 ≤ limit ∧ limit ≤ batch then
    match store.queue.now input.guardReading with
    | (queue, .error e) => ({ store with queue := queue }, .error e)
    | (queue, .ok now) =>
        match queueRecover { store with queue := queue } batch live input.recoverReading
            input.recoverFaults with
        | (store, .error e) => (store, .error e)
        | (store, .ok _) =>
            match queueExpire store batch input.expireReading input.expireFaults with
            | (store, .error e) => (store, .error e)
            | (store, .ok _) => claimReady store policy limit now counted input
  else (store, .error .invalidInput)

/-! ### Calls under a lease -/

/-- `SET lease_until_ms=max(lease_until_ms,?2)`, which keeps a `NULL`. -/
def Delivery.extend (deadline : Int) (row : Delivery) : Delivery :=
  { row with leaseUntilMs := row.leaseUntilMs.map fun old => max old deadline }

def renewTx (lease : QueueLease) (lock : Nat) (now : Int) (seconds : Nat) (db : Db) :
    Except StoreError (Db × Unit) := do
  let _ ← checkLease db lease lock
  let deadline ← later now (seconds * 1000)
  pure (db.updateDelivery lease.id (Delivery.extend deadline), ())

def queueRenew (store : Store) (lease : QueueLease) (seconds : Nat) (reading : Reading)
    (faults : Faults) : Store × Except StoreError Unit :=
  if 1 ≤ seconds ∧ seconds ≤ 3600 then
    match store.queue.now reading with
    | (queue, .error e) => ({ store with queue := queue }, .error e)
    | (queue, .ok now) =>
        ({ store with queue := queue } : Store).transaction
          (renewTx lease store.lock now seconds) (Store.commit faults)
  else (store, .error .invalidInput)

def QueueLeaseRow.markBody (row : QueueLeaseRow) : QueueLeaseRow := { row with phase := .body }

def markBodyTx (lease : QueueLease) (lock : Nat) (db : Db) : Except StoreError (Db × Unit) := do
  let _ ← checkLease db lease lock
  pure (db.updateQueueLease lease.id QueueLeaseRow.markBody, ())

def queueMarkBody (store : Store) (lease : QueueLease) (faults : Faults) :
    Store × Except StoreError Unit :=
  store.transaction (markBodyTx lease store.lock) (Store.commit faults)

/-- `queue_open_body`; `file` is what opening the blob's file reports. -/
def queueOpenBody (store : Store) (lease : QueueLease) (file : Except StoreError Unit) :
    Except StoreError QueuedReader := do
  let _ ← checkLease store.db lease store.lock
  require (validId lease.blobId = true) .invalidId
  let blob ← found .database (store.db.blob? lease.blobId)
  file
  pure ⟨lease.guard, lease.blobId, blob.sizeBytes, blob.sha256⟩

def QueueResult.reason : QueueResult → Option LifecycleReason
  | .permanent _ => some .smtpPermanent
  | .hold => some .content
  | _ => none

/-- How `queue_finish` reads a result in the phase its lease reached. -/
def QueueResult.classify (outcome : QueueResult) (phase : Phase) :
    Except StoreError (DeliveryState × Option Nat × String) :=
  match outcome, phase with
  | .delivered code, .body =>
      if 200 ≤ code ∧ code < 300 then .ok (.delivered, some code, "remote accepted")
      else .error .invalidInput
  | .delivered _, .ready => .error .invalidInput
  | .temporary code, _ =>
      if 400 ≤ code ∧ code < 500 then .ok (.deferred, some code, "temporary SMTP rejection")
      else .error .invalidInput
  | .permanent code, _ =>
      if 500 ≤ code ∧ code < 600 then .ok (.failed, some code, "permanent SMTP rejection")
      else .error .invalidInput
  | .connectionLost, .body => .ok (.uncertain, none, "connection lost after body boundary")
  | .connectionLost, .ready => .ok (.deferred, none, "connection lost before body boundary")
  | .hold, _ => .ok (.hold, none, "local outbound content or capability failure")
  | .deferred, .ready => .ok (.deferred, none, "relay setup or authentication unavailable")
  | .deferred, .body => .error .invalidInput

/-- An earlier unknown outcome outlives every result except a delivery. -/
def settle (wasUnknown : Bool) (result : DeliveryState × Option Nat × String) :
    DeliveryState × Option Nat × String :=
  if wasUnknown = true ∧ result.1 ≠ .delivered then
    (.uncertain, result.2.1, "retry ended; earlier outcome remains unknown")
  else result

def Delivery.finish (result : DeliveryState × Option Nat × String) (reason : Option LifecycleReason)
    (next due : Int) (row : Delivery) : Delivery :=
  { row with
    state := result.1
    leaseToken := none
    leaseUntilMs := none
    lastSmtpCode := result.2.1
    diagnostic := some result.2.2
    nextAttemptAtMs := next
    lifecycleReason := reason
    possiblyDelivered := decide (result.1 = .uncertain)
    notificationDueMs := due }

def finishTx (lease : QueueLease) (lock : Nat) (outcome : QueueResult) (now due : Int) (db : Db) :
    Except StoreError (Db × Unit) := do
  let phase ← checkLease db lease lock
  let row ← found .database (db.delivery? lease.id)
  let result ← outcome.classify phase
  let db := db.updateDelivery lease.id (Delivery.finish (settle row.possiblyDelivered result)
    outcome.reason (saturatingAdd now lease.retryMs) due)
  pure (db.deleteQueueLease lease.id, ())

/-- The time a failure becomes due for a report: the last trusted one if the guard has tripped. -/
def notificationDue (queue : QueueRuntime) (now : Int) : Except StoreError Int → Except StoreError Int
  | .error .clockChanged => .ok (queue.lastWall.getD now)
  | other => other

/-- `queue_finish` reads the wall clock twice, the second time through the clock guard. -/
def queueFinish (store : Store) (lease : QueueLease) (outcome : QueueResult)
    (reading guardReading : Reading) (faults : Faults) : Store × Except StoreError Unit :=
  match reading.nowMs with
  | .error e => (store, .error e)
  | .ok now =>
      let (queue, guarded) := store.queue.now guardReading
      let store := { store with queue := queue }
      match notificationDue queue now guarded with
      | .error e => (store, .error e)
      | .ok due =>
          store.transaction (finishTx lease store.lock outcome now due) (Store.commit faults)

/-! ### The administrator -/

def adminEvent (db : Db) (id : Text) (action : AdminAction) (old new : DeliveryState) (note : Text)
    (duplicate extend : Bool) (now : Int) : Except StoreError Db :=
  db.insertAdminEvent
    { id := nextRowId (db.adminEvents.map AdminEvent.id)
      deliveryId := id
      action := action
      beforeState := old
      afterState := new
      note := note
      allowDuplicate := duplicate
      extendExpired := extend
      createdAtMs := now }

/-- `SELECT ... FROM delivery WHERE id=?1 AND route='relay'`. -/
def relayRow (db : Db) (id : Text) : Option Delivery :=
  (db.delivery? id).filter fun row => decide (row.route = .relay)

def Delivery.holdManually (row : Delivery) : Delivery :=
  { row with
    state := .hold
    lifecycleReason := some .manual
    possiblyDelivered := row.possiblyDelivered || decide (row.state = .uncertain)
    diagnostic := some "held by administrator" }

def holdTx (id : Text) (now : Int) (db : Db) : Except StoreError (Db × Unit) := do
  let row ← found .notFound (relayRow db id)
  require (row.closedAtMs = none
    ∧ row.state ∈ [DeliveryState.pending, .deferred, .uncertain, .hold]) .invalidInput
  let db ← adminEvent (db.updateDelivery id Delivery.holdManually) id .hold row.state .hold
    (ascii "operator requested hold") false false now
  pure (db, ())

def queueHold (store : Store) (id : Text) (reading : Reading) (faults : Faults) :
    Store × Except StoreError Unit :=
  if validId id then
    match reading.nowMs with
    | .error e => (store, .error e)
    | .ok now => store.transaction (holdTx id now) (Store.commit faults)
  else (store, .error .invalidId)

def Delivery.retry (now expires : Int) (row : Delivery) : Delivery :=
  { row with
    state := .pending
    nextAttemptAtMs := now
    expiresAtMs := expires
    lifecycleReason := none
    diagnostic := some "explicit administrator retry" }

/-- A hold can hide an unknown outcome, so `uncertain` and `hold` both need consent. -/
abbrev Delivery.Retryable (row : Delivery) (allowDuplicate extendExpired : Bool) (now : Int) :
    Prop :=
  row.state ∈ [DeliveryState.deferred, .uncertain, .hold] ∧ row.closedAtMs = none
    ∧ (row.state = .uncertain ∨ row.state = .hold → allowDuplicate = true)
    ∧ (row.expiresAtMs ≤ now → extendExpired = true)

/-- An expired delivery starts a new lifetime. -/
def Delivery.retryExpiry (row : Delivery) (maxAgeSeconds : Nat) (now : Int) :
    Except StoreError Int :=
  if row.expiresAtMs ≤ now then later now (maxAgeSeconds * 1000) else .ok row.expiresAtMs

def retryTx (id : Text) (allowDuplicate extendExpired : Bool) (now : Int) (db : Db) :
    Except StoreError (Db × Unit) := do
  let row ← found .notFound (relayRow db id)
  let queued ← found .notFound (db.queueMessage? row.messageId)
  require (row.Retryable allowDuplicate extendExpired now) .invalidInput
  let expires ← row.retryExpiry queued.maxAgeSeconds now
  let db ← adminEvent (db.updateDelivery id (Delivery.retry now expires)) id .retry row.state
    .pending (ascii "operator requested retry") allowDuplicate extendExpired now
  pure (db, ())

def queueRetry (store : Store) (id : Text) (allowDuplicate extendExpired : Bool) (reading : Reading)
    (faults : Faults) : Store × Except StoreError Unit :=
  if validId id then
    match store.queue.now reading with
    | (queue, .error e) => ({ store with queue := queue }, .error e)
    | (queue, .ok now) =>
        ({ store with queue := queue } : Store).transaction
          (retryTx id allowDuplicate extendExpired now) (Store.commit faults)
  else (store, .error .invalidId)

def Delivery.closeUnknown (now : Int) (row : Delivery) : Delivery :=
  { row with
    state := .uncertain
    closedAtMs := some now
    diagnostic := some "unknown outcome closed by administrator" }

def closeUnknownTx (id note : Text) (now : Int) (db : Db) : Except StoreError (Db × Unit) := do
  let row ← found .notFound (relayRow db id)
  require ((row.state = .uncertain ∨ row.state = .hold) ∧ row.possiblyDelivered = true
    ∧ row.closedAtMs = none) .invalidInput
  let db ← adminEvent (db.updateDelivery id (Delivery.closeUnknown now)) id .closeUnknown row.state
    .uncertain note false false now
  pure (db, ())

def validNote (note : Text) : Bool :=
  !note.isEmpty && decide (note.length ≤ 512) && note.all fun b => 32 ≤ b && b ≤ 126

def queueCloseUnknown (store : Store) (id note : Text) (reading : Reading) (faults : Faults) :
    Store × Except StoreError Unit :=
  if validId id && validNote note then
    match reading.nowMs with
    | .error e => (store, .error e)
    | .ok now => store.transaction (closeUnknownTx id note now) (Store.commit faults)
  else (store, .error .invalidInput)

end Rustymail
