import Rustymail.Store.Notification
import Mathlib.Logic.Relation

/-!
# The life of one delivery

What the store knows about one delivery: its row, the phase of its lease, its failure report and its
administrative history. The events below are everything that can happen to a delivery, each with
the condition under which it may happen; the operations of the store are shown to do nothing else.
-/

namespace Rustymail

/-- One delivery seen across the tables. -/
structure View where
  row : Option Delivery
  phase : Option Phase
  report : Option Notification
  events : List AdminEvent

def Db.view (db : Db) (id : Text) : View where
  row := db.delivery? id
  phase := (db.queueLease? id).map QueueLeaseRow.phase
  report := db.notification? id
  events := db.adminEvents.filter fun e => decide (e.deliveryId = id)

inductive LifeEvent where
  | created (row : Delivery)
  | leased (token : Uuid) (now deadline : Int)
  | exhausted (now : Int)
  | renewed (deadline : Int)
  | bodyMarked
  | finished (outcome : QueueResult) (next due : Int)
  | recovered (next : Int)
  | expired (now : Int)
  | held
  | retried (allowDuplicate extendExpired : Bool) (now expires : Int)
  | closed (now : Int)
  | suppressed (reason : String) (now : Int)
  | postponed (reason : String) (due : Int)
  | reported (notification : Notification)

/-- A row as it is first written: delivered on the spot, or waiting for its relay. -/
inductive Delivery.Fresh : Delivery → Prop
  | delivered (id : Uuid) (recipient domain message : Text) (now : Int) :
      Fresh (localDelivery id recipient domain message now)
  | pending (id : Uuid) (recipient domain message : Text) (now expires : Int) :
      Fresh (relayDelivery id recipient domain message now expires)

/-- Was the body already on its way, or an earlier attempt left unknown? -/
def Delivery.unknownIn (row : Delivery) (phase : Phase) : Bool :=
  decide (phase = .body) || row.possiblyDelivered

namespace Lifecycle

/-- What each event requires and what it makes of the delivery. -/
inductive Step : LifeEvent → View → View → Prop
  | created {row : Delivery} {v : View} (hrow : row.Fresh) (hnew : v.row = none) :
      Step (.created row) v { v with row := some row }
  | leased {token : Uuid} {now deadline : Int} {row : Delivery} {v : View} (hrow : v.row = some row)
      (hroute : row.route = .relay) (hready : row.Ready) (hphase : v.phase = none)
      (hdue : row.nextAttemptAtMs ≤ now) (halive : now < row.expiresAtMs) :
      Step (.leased token now deadline) v
        { v with row := some (row.lease token.text deadline), phase := some .ready }
  | exhausted {now : Int} {row : Delivery} {v : View} (hrow : v.row = some row)
      (hroute : row.route = .relay) (hready : row.Ready) (hdue : row.nextAttemptAtMs ≤ now)
      (halive : now < row.expiresAtMs) :
      Step (.exhausted now) v { v with row := some row.exhaust }
  | renewed {deadline : Int} {row : Delivery} {v : View} (hrow : v.row = some row)
      (hroute : row.route = .relay) (hstate : row.state = .leased) :
      Step (.renewed deadline) v { v with row := some (row.extend deadline) }
  | bodyMarked {phase : Phase} {row : Delivery} {v : View} (hrow : v.row = some row)
      (hroute : row.route = .relay) (hstate : row.state = .leased) (hphase : v.phase = some phase) :
      Step .bodyMarked v { v with phase := some .body }
  | finished {outcome : QueueResult} {result : DeliveryState × Option Nat × String}
      {next due : Int} {phase : Phase} {row : Delivery} {v : View} (hrow : v.row = some row)
      (hroute : row.route = .relay) (hstate : row.state = .leased) (hphase : v.phase = some phase)
      (hresult : outcome.classify phase = .ok result) :
      Step (.finished outcome next due) v
        { v with
          row := some (row.finish (settle row.possiblyDelivered result) outcome.reason next due)
          phase := none }
  | recovered {next : Int} {phase : Phase} {row : Delivery} {v : View} (hrow : v.row = some row)
      (hroute : row.route = .relay) (hstate : row.state = .leased) (hphase : v.phase = some phase) :
      Step (.recovered next) v
        { v with row := some (row.recover (row.unknownIn phase) next), phase := none }
  | expired {now : Int} {row : Delivery} {v : View} (hrow : v.row = some row)
      (hroute : row.route = .relay) (hready : row.Ready) (hover : row.expiresAtMs ≤ now) :
      Step (.expired now) v { v with row := some (row.expire now) }
  | held {row : Delivery} {event : AdminEvent} {v : View} (hrow : v.row = some row)
      (hroute : row.route = .relay) (hopen : row.closedAtMs = none)
      (hstate : row.state ∈ [DeliveryState.pending, .deferred, .uncertain, .hold]) :
      Step .held v { v with row := some row.holdManually, events := v.events ++ [event] }
  | retried {allowDuplicate extendExpired : Bool} {now expires : Int} {row : Delivery}
      {event : AdminEvent} {v : View} (hrow : v.row = some row) (hroute : row.route = .relay)
      (hretry : row.Retryable allowDuplicate extendExpired now) (haction : event.action = .retry)
      (hconsent : event.allowDuplicate = allowDuplicate) (hnew : event ∉ v.events) :
      Step (.retried allowDuplicate extendExpired now expires) v
        { v with row := some (row.retry now expires), events := v.events ++ [event] }
  | closed {now : Int} {row : Delivery} {event : AdminEvent} {v : View} (hrow : v.row = some row)
      (hroute : row.route = .relay) (hstate : row.state = .uncertain ∨ row.state = .hold)
      (hunknown : row.possiblyDelivered = true) (hopen : row.closedAtMs = none) :
      Step (.closed now) v
        { v with row := some (row.closeUnknown now), events := v.events ++ [event] }
  | suppressed {reason : String} {now : Int} {row : Delivery} {v : View} (hrow : v.row = some row)
      (hroute : row.route = .relay) (hstate : row.state = .failed)
      (hpending : row.notificationState = .pending) (hdue : row.notificationDueMs ≤ now) :
      Step (.suppressed reason now) v { v with row := some (row.suppress reason) }
  | postponed {reason : String} {due : Int} {row : Delivery} {v : View} (hrow : v.row = some row) :
      Step (.postponed reason due) v { v with row := some (row.postponeReport reason due) }
  | reported {notification : Notification} {row : Delivery} {v : View} (hrow : v.row = some row)
      (hroute : row.route = .relay) (hstate : row.state = .failed)
      (hcertain : row.possiblyDelivered = false) (hpending : row.notificationState = .pending)
      (hnone : v.report = none) :
      Step (.reported notification) v
        { v with row := some row.reportCreated, report := some notification }

/-- The delivery goes through some of the allowed events. -/
def Evolves (allowed : LifeEvent → Prop) : View → View → Prop :=
  Relation.ReflTransGen fun v v' => ∃ e, allowed e ∧ Step e v v'

end Lifecycle

/-- What always holds of a relayed delivery, its lease phase and whether it was reported. -/
structure Delivery.RelayWf (row : Delivery) (phase : Option Phase) (reported : Bool) : Prop where
  leased_iff : row.state = .leased ↔ phase.isSome
  token_iff : row.state = .leased ↔ ∃ token, row.leaseToken = some token ∧ token.length = 32
  token_none : row.state ≠ .leased → row.leaseToken = none
  until_iff : row.leaseUntilMs.isSome ↔ row.leaseToken.isSome
  uncertain_flag : row.state = .uncertain → row.possiblyDelivered = true
  certain_flag : row.state = .deferred ∨ row.state = .failed → row.possiblyDelivered = false
  closed_unknown : row.closedAtMs ≠ none → row.state = .uncertain ∧ row.possiblyDelivered = true
  created_iff : row.notificationState = .created ↔ reported = true
  settled_failed : row.notificationState ≠ .pending → row.state = .failed

/-- What always holds of a delivery into a local mailbox: nothing ever changes it. -/
structure Delivery.LocalWf (row : Delivery) (phase : Option Phase) (reported : Bool) : Prop where
  state_eq : row.state = .delivered
  no_phase : phase = none
  token_none : row.leaseToken = none
  until_none : row.leaseUntilMs = none
  certain : row.possiblyDelivered = false
  open_ : row.closedAtMs = none
  notification_pending : row.notificationState = .pending
  unreported : reported = false

/-- The representation invariant, as far as it concerns one delivery. -/
structure View.Wf (v : View) : Prop where
  absent : v.row = none → v.phase = none ∧ v.report = none
  route : ∀ row ∈ v.row, row.route ≠ .direct
  relay : ∀ row ∈ v.row, row.route = .relay → row.RelayWf v.phase v.report.isSome
  localMail : ∀ row ∈ v.row, row.route = .localMail → row.LocalWf v.phase v.report.isSome

end Rustymail
