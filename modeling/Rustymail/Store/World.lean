import Rustymail.Store.Notification
import Rustymail.Lib.Runs

/-!
# The store in use

A data directory, the store opened on it, and the lease and reader objects its callers hold. A call
under a lease needs a lease that is still held; finishing consumes it. Leases and readers may be
dropped at any time, also while a claim is running, and each keeps the instance lock: the directory
can be opened again only when all of them are gone. A crash drops everything but the database.

Garbage collection, checkpoints and blob recovery write none of the modelled tables and are left out.
-/

namespace Rustymail

structure World where
  store : Store
  opened : Bool
  leases : List QueueLease
  readers : List QueuedReader
  /-- Every lease ever handed out, oldest first: history, not state of the program. -/
  issued : List QueueLease

/-- A freshly initialised directory, opened for the first time. -/
def World.init (root : Text) (maxMessageBytes : Nat) : World where
  store := ⟨root, maxMessageBytes, {}, 0, {}, 0⟩
  opened := true
  leases := []
  readers := []
  issued := []

/-- Does some lease or reader still hold the guard? -/
def World.live (w : World) (guard : LeaseGuard) : Bool :=
  w.leases.any (fun l => l.guard = guard) || w.readers.any fun r => r.guard = guard

inductive Op where
  | createAccount (address : Address) (quotaBytes : Nat) (reading : Reading)
      (uidvalidity : Text → Nat) (faults : Faults)
  | setAccountQuota (address : Address) (bytes : Nat)
  | finishAuthentication (principal : Principal) (reading : Reading) (faults : Faults)
  | createCredential (login : Address) (selector : Text) (label : String) (scope : Scope)
      (phc : Text) (reading : Reading)
  | revokeCredential (selector : Text) (reading : Reading) (faults : Faults)
  | disableAccount (login : Address) (reading : Reading) (faults : Faults)
  | setSendAs (login address : Address) (enabled : Bool) (faults : Faults)
  | insertAlias (address : Text) (accountId : Nat)
  | accept (ids : FreshIds) (message : PreparedMessage) (plan : Acceptance) (reading : Reading)
      (faults : Faults)
  | acceptSubmission (ids : FreshIds) (message : PreparedMessage) (plan : Acceptance)
      (identity : SubmissionIdentity) (reading : Reading) (faults : Faults)
  | acceptRelaySubmission (ids : FreshIds) (message : PreparedMessage) (plan : Acceptance)
      (identity : SubmissionIdentity) (relay : RelayAcceptance) (reading : Reading)
      (faults : Faults)
  | enqueue (ids : FreshIds) (message : PreparedMessage) (plan : QueuePlan) (reading : Reading)
      (faults : Faults)
  | queueExpire (limit : Nat) (reading : Reading) (faults : Faults)
  | queueRecover (limit : Nat) (reading : Reading) (faults : Faults)
  | queueClaim (policy : QueuePolicy) (limit : Nat) (keepLease : QueueLease → Bool)
      (keepReader : QueuedReader → Bool) (input : ClaimInput)
  | queueRenew (serial seconds : Nat) (reading : Reading) (faults : Faults)
  | queueMarkBody (serial : Nat) (faults : Faults)
  | queueOpenBody (serial : Nat) (file : Except StoreError Unit)
  | queueFinish (serial : Nat) (outcome : QueueResult) (reading guardReading : Reading)
      (faults : Faults)
  | queueHold (id : Text) (reading : Reading) (faults : Faults)
  | queueRetry (id : Text) (allowDuplicate extendExpired : Bool) (reading : Reading)
      (faults : Faults)
  | queueCloseUnknown (id note : Text) (reading : Reading) (faults : Faults)
  | notificationNext (policy : NotificationPolicy) (input : NotificationInput)
  | notificationFailed (id : Text) (error : StoreError) (reading : Reading)
  | notificationCommit (prepared : PreparedNotification) (delivery : Uuid) (reading : Reading)
      (faults : Faults)
  | dropLease (serial : Nat)
  | dropReader (index : Nat)
  | close
  | crash
  | reopen (maxMessageBytes : Nat)

inductive Reply where
  | unit (result : Except StoreError Unit)
  | number (result : Except StoreError Nat)
  | accepted (result : Except StoreError AcceptedMessage)
  | leases (result : Except StoreError (List QueueLease))
  | reader (result : Except StoreError QueuedReader)
  | work (result : Except StoreError NotificationWork)
  | silent

namespace World

/-- Run one store operation, if the store is open. -/
def call {α : Type} (w : World) (operation : Store → Store × Except StoreError α) :
    World × Except StoreError α :=
  if w.opened then
    let (store, result) := operation w.store
    ({ w with store := store }, result)
  else (w, .error .workerUnavailable)

/-- The held lease with this guard number. -/
def lease? (w : World) (serial : Nat) : Option QueueLease :=
  w.leases.find? fun l => l.guard.serial = serial

/-- A call under a held lease. -/
def callWith {α : Type} (w : World) (serial : Nat)
    (operation : QueueLease → Store → Store × Except StoreError α) :
    World × Except StoreError α :=
  match w.lease? serial with
  | none => (w, .error .staleLease)
  | some lease => w.call (operation lease)

def dropLease (w : World) (serial : Nat) : World :=
  { w with leases := w.leases.filter fun l => l.guard.serial ≠ serial }

def openBody (w : World) (serial : Nat) (file : Except StoreError Unit) :
    World × Except StoreError QueuedReader :=
  match w.callWith serial fun lease store => (store, queueOpenBody store lease file) with
  | (w, .error e) => (w, .error e)
  | (w, .ok reader) => ({ w with readers := w.readers ++ [reader] }, .ok reader)

/-- The world after some holders have gone away. -/
def without (w : World) (keepLease : QueueLease → Bool) (keepReader : QueuedReader → Bool) : World :=
  { w with leases := w.leases.filter keepLease, readers := w.readers.filter keepReader }

/-- A claim, with the holders that go away while it runs. -/
def claim (w : World) (policy : QueuePolicy) (limit : Nat) (keepLease : QueueLease → Bool)
    (keepReader : QueuedReader → Bool) (input : ClaimInput) :
    World × Except StoreError (List QueueLease) :=
  let rest := w.without keepLease keepReader
  match rest.call fun store => queueClaim store policy limit w.live rest.live input with
  | (w, .error e) => (w, .error e)
  | (w, .ok leases) =>
      ({ w with leases := w.leases ++ leases, issued := w.issued ++ leases }, .ok leases)

/-- `Store::open` on the same directory: a new lock and a fresh queue runtime. -/
def reopen (w : World) (maxMessageBytes : Nat) : World × Except StoreError Unit :=
  if w.opened ∨ w.leases ≠ [] ∨ w.readers ≠ [] then (w, .error .locked)
  else
    ({ w with
      opened := true
      store := { w.store with
        maxMessageBytes := maxMessageBytes
        lock := w.store.lock + 1
        queue := {} } }, .ok ())

/-- Put the result of a call into a reply. -/
def answer {α : Type} (reply : Except StoreError α → Reply) (result : World × Except StoreError α) :
    World × Reply :=
  (result.1, reply result.2)

/-- One operation and its reply. -/
def step (w : World) : Op → World × Reply
  | .createAccount address quotaBytes reading uidvalidity faults =>
      answer .unit (w.call fun s => createAccount s address quotaBytes reading uidvalidity faults)
  | .setAccountQuota address bytes =>
      answer .unit (w.call fun s => setAccountQuota s address bytes)
  | .finishAuthentication principal reading faults =>
      answer .unit (w.call fun s => finishAuthentication s principal reading faults)
  | .createCredential login selector label scope phc reading =>
      answer .number (w.call fun s => createCredential s login selector label scope phc reading)
  | .revokeCredential selector reading faults =>
      answer .number (w.call fun s => revokeCredential s selector reading faults)
  | .disableAccount login reading faults =>
      answer .number (w.call fun s => disableAccount s login reading faults)
  | .setSendAs login address enabled faults =>
      answer .number (w.call fun s => setSendAs s login address enabled faults)
  | .insertAlias address accountId =>
      answer .unit (w.call fun s => insertAlias s address accountId)
  | .accept ids message plan reading faults =>
      answer .accepted (w.call fun s => accept s ids message plan reading faults)
  | .acceptSubmission ids message plan identity reading faults =>
      answer .accepted (w.call fun s => acceptSubmission s ids message plan identity reading faults)
  | .acceptRelaySubmission ids message plan identity relay reading faults =>
      answer .accepted (w.call fun s =>
        acceptRelaySubmission s ids message plan identity relay reading faults)
  | .enqueue ids message plan reading faults =>
      answer .accepted (w.call fun s => enqueue s ids message plan reading faults)
  | .queueExpire limit reading faults =>
      answer .number (w.call fun s => queueExpire s limit reading faults)
  | .queueRecover limit reading faults =>
      answer .number (w.call fun s => queueRecover s limit w.live reading faults)
  | .queueClaim policy limit keepLease keepReader input =>
      answer .leases (w.claim policy limit keepLease keepReader input)
  | .queueRenew serial seconds reading faults =>
      answer .unit (w.callWith serial fun lease s => queueRenew s lease seconds reading faults)
  | .queueMarkBody serial faults =>
      answer .unit (w.callWith serial fun lease s => queueMarkBody s lease faults)
  | .queueOpenBody serial file => answer .reader (w.openBody serial file)
  | .queueFinish serial outcome reading guardReading faults =>
      let (w, result) := w.callWith serial fun lease s =>
        queueFinish s lease outcome reading guardReading faults
      (w.dropLease serial, .unit result)
  | .queueHold id reading faults =>
      answer .unit (w.call fun s => queueHold s id reading faults)
  | .queueRetry id allowDuplicate extendExpired reading faults =>
      answer .unit (w.call fun s => queueRetry s id allowDuplicate extendExpired reading faults)
  | .queueCloseUnknown id note reading faults =>
      answer .unit (w.call fun s => queueCloseUnknown s id note reading faults)
  | .notificationNext policy input =>
      answer .work (w.call fun s => notificationNext s policy input)
  | .notificationFailed id error reading =>
      answer .unit (w.call fun s => notificationFailed s id error reading)
  | .notificationCommit prepared delivery reading faults =>
      answer .accepted (w.call fun s => notificationCommit s prepared delivery reading faults)
  | .dropLease serial => (w.dropLease serial, .silent)
  | .dropReader index => ({ w with readers := w.readers.eraseIdx index }, .silent)
  | .close => ({ w with opened := false }, .silent)
  | .crash => ({ w with opened := false, leases := [], readers := [] }, .silent)
  | .reopen maxMessageBytes => answer .unit (w.reopen maxMessageBytes)

/-- The world after one operation. -/
def next (w : World) (op : Op) : World := (w.step op).1

/-- The world after a list of operations. -/
def run (w : World) (ops : List Op) : World := Runs.run next w ops

/-- A world that some list of operations leads to from a fresh directory. -/
def Reachable (w : World) : Prop :=
  ∃ root maxMessageBytes, Runs.Reachable next (World.init root maxMessageBytes) w

end World

end Rustymail
