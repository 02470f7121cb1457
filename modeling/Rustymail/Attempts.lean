import Rustymail.Store.World
import Rustymail.Commits

/-!
# Attempts

How an attempt at a delivery is seen from outside the store: under which generation it runs, whether
its body had begun, and how it ended.
-/

namespace Rustymail

/-- The delivery is leased under this generation. -/
def Db.OnAttempt (db : Db) (id : Text) (generation : Nat) : Prop :=
  ∃ row, db.delivery? id = some row ∧ row.state = .leased ∧ row.generation = generation

/-- The attempt under this generation has entered the phase `body`. -/
def Db.InBody (db : Db) (id : Text) (generation : Nat) : Prop :=
  db.OnAttempt id generation ∧ (db.queueLease? id).map QueueLeaseRow.phase = some .body

namespace World

/-- The operation is a `queue_finish` with this outcome, under a held lease of this delivery. -/
def FinishesWith (w : World) (op : Op) (id : Text) (outcome : QueueResult) : Prop :=
  ∃ serial reading guardReading faults lease,
    op = .queueFinish serial outcome reading guardReading faults
      ∧ w.lease? serial = some lease ∧ lease.id = id

/-- The operation ends an attempt whose body had begun, because the connection was lost or because
its owner disappeared. -/
def LosesOutcome (w : World) (op : Op) (id : Text) : Prop :=
  ∃ generation, w.store.db.InBody id generation ∧ ¬ (w.next op).store.db.OnAttempt id generation
    ∧ (w.FinishesWith op id .connectionLost ∨ op.recovers = true)

/-- The operation ends an attempt whose body had begun, and records neither a reply nor a hold. -/
def EndsUndetermined (w : World) (op : Op) (id : Text) : Prop :=
  ∃ generation, w.store.db.InBody id generation ∧ ¬ (w.next op).store.db.OnAttempt id generation
    ∧ ∀ outcome, w.FinishesWith op id outcome → outcome = .connectionLost ∨ outcome = .deferred

/-- The operation is a claim that leases the delivery, whether or not its caller hears of it. -/
def Leases (w : World) (op : Op) (id : Text) : Prop :=
  (∃ policy limit keepLease keepReader input,
      op = .queueClaim policy limit keepLease keepReader input)
    ∧ ∃ row row', w.store.db.delivery? id = some row
      ∧ (w.next op).store.db.delivery? id = some row' ∧ row.generation < row'.generation

/-- The operation is a `queue_retry` of this delivery that accepts a duplicate, and it took effect:
it left this event in the administrative history. -/
def Consents (w : World) (op : Op) (id : Text) (event : AdminEvent) : Prop :=
  (∃ extendExpired reading faults, op = .queueRetry id true extendExpired reading faults)
    ∧ event ∉ w.store.db.adminEvents ∧ event ∈ (w.next op).store.db.adminEvents
    ∧ event.deliveryId = id ∧ event.action = .retry ∧ event.allowDuplicate = true

/-- The operation records that the delivery was accepted with a 2xx code. -/
def RecordsDelivered (w : World) (op : Op) (id : Text) : Prop :=
  (∃ code, 200 ≤ code ∧ code < 300 ∧ w.FinishesWith op id (.delivered code))
    ∧ ∃ row, (w.next op).store.db.delivery? id = some row ∧ row.state = .delivered

end World

/-! ### A small directory

One message for one remote recipient, claimed and with its body begun. -/

namespace Sample

def uuid (digit : UInt8) (h : validId (List.replicate 32 digit) = true) : Uuid :=
  ⟨List.replicate 32 digit, h⟩

def messageId : Uuid := uuid 97 (by decide)

def blobId : Uuid := uuid 98 (by decide)

def deliveryId : Uuid := uuid 99 (by decide)

def operationId : Uuid := uuid 100 (by decide)

def token : Uuid := uuid 101 (by decide)

def recipient : Address := ⟨ascii "a@b.c", by decide, by decide⟩

/-- A clock that stands still. -/
def reading : Reading := ⟨some 1000, 0⟩

/-- Another recipient, elsewhere. -/
def remote : Address := ⟨ascii "x@y.z", by decide, by decide⟩

theorem small : 5 ≤ maxStoredBytes := by decide

def prepared : PreparedMessage := ⟨[], blobId, 5, [], small⟩

def enqueue : Op :=
  .enqueue ⟨messageId, fun _ => deliveryId, fun _ => deliveryId⟩ prepared
    ⟨operationId.text, none, [recipient], .sevenBit, 3600⟩ reading {}

def claim : Op :=
  .queueClaim {} 1 (fun _ => true) (fun _ => true)
    ⟨reading, reading, reading, {}, {}, {}, fun _ => token, fun _ _ => 0⟩

def finish (serial : Nat) (outcome : QueueResult) : Op :=
  .queueFinish serial outcome reading reading {}

def retry (allowDuplicate : Bool) : Op :=
  .queueRetry deliveryId.text allowDuplicate false reading {}

def fresh : World := World.init [] 1000

def inBody : World := fresh.run [enqueue, claim, .queueMarkBody 0 {}]

theorem reachable (ops : List Op) : (fresh.run ops).Reachable :=
  ⟨[], 1000, ops, rfl⟩

end Sample

end Rustymail
