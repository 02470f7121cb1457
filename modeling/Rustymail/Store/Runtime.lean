import Rustymail.Store.Schema

/-!
# Clock, faults and the owner's volatile state

Everything an operation takes from outside is an argument: the clock readings it makes, the fault
points that strike, and how SQLite reports a commit. A transaction is a checked computation on the
database; an error rolls it back, and a commit either happens as a whole or not at all, whatever is
reported about it.
-/

namespace Rustymail

open Checked

/-- One reading of the `Clock`: the wall time, when it can be told, and the monotonic time. -/
structure Reading where
  wall : Option Int
  mono : Nat
  deriving DecidableEq

/-- `StorageRuntime::now_ms`. -/
def Reading.nowMs (reading : Reading) : Except StoreError Int :=
  match reading.wall with
  | none => .error .invalidInput
  | some wall => if 0 ≤ wall ∧ wall ≤ i64Max then .ok wall else .error .invalidInput

inductive FaultPoint where
  | stageCreate
  | append
  | flush
  | fileSync
  | fileSynced
  | rename
  | renamed
  | blobDirectorySync
  | stagingDirectorySync
  | directoriesSynced
  | databaseWrite
  | beforeCommit
  | commit
  | afterCommit
  | gcPlanned
  | gcUnlinked
  | gcDirectorySync
  | queueBeforeCommit
  | queueAfterCommit
  | notificationBeforeCommit
  | notificationAfterCommit
  deriving DecidableEq, Repr

/-- How SQLite's own commit ends: reported truthfully, or reported as failed although applied. -/
inductive CommitReport where
  | ok
  | failed
  | failedButApplied
  deriving DecidableEq, Repr

structure Faults where
  hit : FaultPoint → Bool := fun _ => false
  report : CommitReport := .ok

/-- The allocation behind an `Arc<LeaseGuard>`; `serial` identifies it. -/
structure LeaseGuard where
  serial : Nat
  lock : Nat
  domain : Text
  deriving DecidableEq

structure QueueRuntime where
  active : List (Text × LeaseGuard) := []
  readyCursor : Option (Int × Text) := none
  recoveryCursor : Text := []
  clock : Option (Int × Nat) := none
  lastWall : Option Int := none
  clockChanged : Bool := false
  deriving DecidableEq

/-- Does this reading contradict the first one by more than a minute, or run backwards? -/
def QueueRuntime.discontinuous (queue : QueueRuntime) (wall : Int) (mono : Nat) : Bool :=
  match queue.clock with
  | none => false
  | some (oldWall, oldMono) =>
      queue.lastWall.any (fun old => wall < old) || decide (mono < oldMono)
        || decide (((wall - oldWall) - ((mono : Int) - oldMono)).natAbs > 60000)

/-- `QueueRuntime::now`. The first failed comparison latches `clock_changed`. -/
def QueueRuntime.now (queue : QueueRuntime) (reading : Reading) :
    QueueRuntime × Except StoreError Int :=
  match reading.nowMs with
  | .error e => (queue, .error e)
  | .ok wall =>
      let changed := queue.clockChanged || queue.discontinuous wall reading.mono
      let queue := { queue with
        clock := queue.clock.or (some (wall, reading.mono))
        clockChanged := changed }
      if changed then (queue, .error .clockChanged)
      else ({ queue with lastWall := some wall }, .ok wall)

/-- The open store: its directory, its database, its instance lock and its queue runtime.
`nextGuard` numbers the lease guards it allocates. -/
structure Store where
  root : Text
  maxMessageBytes : Nat
  db : Db
  lock : Nat
  queue : QueueRuntime
  nextGuard : Nat

/-- Run a transaction body; an error rolls it back. -/
def Store.transaction {α β : Type} (store : Store) (body : Db → Except StoreError (Db × α))
    (commit : Store → Db → α → Store × Except StoreError β) : Store × Except StoreError β :=
  match body store.db with
  | .error e => (store, .error e)
  | .ok (db, value) => commit store db value

/-- `queue::commit`. -/
def Store.commit {α : Type} (faults : Faults) (store : Store) (db : Db) (value : α) :
    Store × Except StoreError α :=
  if faults.hit .queueBeforeCommit then (store, .error .io)
  else
    match faults.report with
    | .failed => (store, .error .queueOutcomeUnknown)
    | .failedButApplied => ({ store with db := db }, .error .queueOutcomeUnknown)
    | .ok =>
        if faults.hit .queueAfterCommit then ({ store with db := db }, .error .queueOutcomeUnknown)
        else ({ store with db := db }, .ok value)

/-- `transaction.commit()?` without fault points: a failure is a database error. -/
def Store.commitPlain {α : Type} (faults : Faults) (store : Store) (db : Db) (value : α) :
    Store × Except StoreError α :=
  match faults.report with
  | .failed => (store, .error .database)
  | .failedButApplied => ({ store with db := db }, .error .database)
  | .ok => ({ store with db := db }, .ok value)

/-- A statement outside any transaction commits by itself. -/
def Store.autocommit {α : Type} (store : Store) (db : Db) (value : α) :
    Store × Except StoreError α :=
  ({ store with db := db }, .ok value)

/-- `later`: a time sum that must stay a signed 64-bit value. -/
def later (now milliseconds : Int) : Except StoreError Int :=
  if now + milliseconds ≤ i64Max then .ok (now + milliseconds) else .error .invalidInput

def saturatingAdd (now milliseconds : Int) : Int := min (now + milliseconds) i64Max

end Rustymail
