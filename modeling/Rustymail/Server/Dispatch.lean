import Rustymail.Server.Relay
import Rustymail.Server.Startup
import Rustymail.Lib.Keyed

/-!
# The relay dispatcher

`relay::serve`: a loop that expires, claims and spawns once a second, joins what has ended, and on
shutdown waits for its tasks or aborts them. Each task is one `execute`; besides there is at most one
`notify_failure`. Between any two steps of the loop the tasks go on, and others use the store.
-/

namespace Rustymail

/-- Where `notify_failure` is. -/
inductive Notice where
  | asking
  | preparing (task : NotificationTask)
  | committing (prepared : PreparedNotification)
  | excusing (id : Text) (error : StoreError)
  | gone

/-- The calls of a notice to the store. -/
inductive NoticeCall where
  | next
  | commit (prepared : PreparedNotification)
  | failed (id : Text) (error : StoreError)

/-- What the performing of such a call takes from outside. -/
structure NoticeInput where
  work : NotificationInput
  delivery : Uuid
  reading : Reading
  faults : Faults

def NoticeCall.op (policy : NotificationPolicy) (input : NoticeInput) : NoticeCall → Op
  | .next => .notificationNext policy input.work
  | .commit prepared => .notificationCommit prepared input.delivery input.reading input.faults
  | .failed id error => .notificationFailed id error input.reading

/-- The call a notice is waiting for. -/
def Notice.pending : Notice → Option NoticeCall
  | .asking => some .next
  | .committing prepared => some (.commit prepared)
  | .excusing id error => some (.failed id error)
  | .preparing _ | .gone => none

/-- A notice whose call has been answered. -/
def Notice.answered (notice : Notice) (reply : Reply) : Notice :=
  match notice, reply with
  | .asking, .work (.ok (.prepare task)) => .preparing task
  | .committing prepared, .accepted (.error error) => .excusing prepared.plan.deliveryId error
  | _, _ => .gone

def Stage.isGone : Stage → Bool
  | .gone => true
  | _ => false

/-- A spawned `execute`. `joined` means that the dispatcher has taken it out of its set. -/
structure RelayTask where
  lease : QueueLease
  stage : Stage := .opening
  course : Client.Course := {}
  orphans : List TaskCall := []
  joined : Bool := false

def RelayTask.serial (task : RelayTask) : Nat := task.lease.guard.serial

/-- Where the loop is. While it expires or claims it waits for that call alone. -/
inductive LoopPhase where
  | selecting
  | expiring
  | claiming
  | draining
  | aborting
  | stopped
  deriving DecidableEq

/-- The dispatcher with its tasks and the store. `strays` are calls in the worker's queue whose notice
was aborted. Tasks stay in the list when they have ended. -/
structure Dispatcher where
  config : Core.Config
  client : Client.SmtpClient
  world : World
  phase : LoopPhase
  tasks : List RelayTask
  notices : List Notice
  strays : List NoticeCall

/-- The operations of those who neither hold a lease nor dispatch. -/
def Op.byOthers : Op → Bool
  | .queueRenew _ _ _ _ | .queueMarkBody _ _ | .queueOpenBody _ _ | .queueFinish _ _ _ _ _
  | .dropLease _ | .queueClaim _ _ _ _ _ | .crash => false
  | _ => true

/-- What a task does by itself: neither the process dies nor somebody else acts. -/
def Happening.own : Happening → Bool
  | .crash | .other _ => false
  | _ => true

/-- The steps of the dispatcher and of its surroundings. -/
inductive Dispatch where
  /-- `stop.changed()`. -/
  | stop
  /-- `tick.tick()`: the expiry is called. -/
  | tick
  /-- The worker performs the expiry. -/
  | expire (reading : Reading) (faults : Faults)
  /-- The worker performs the claim, while some who hold leases or readers let go of them. -/
  | claim (keepLease : QueueLease → Bool) (keepReader : QueuedReader → Bool) (input : ClaimInput)
  /-- The call the loop waits for fails without being performed. -/
  | unavailable
  /-- A relay task has ended and is joined. -/
  | join (serial : Nat)
  | joinNotice (index : Nat)
  /-- The tasks have not ended within the grace period. -/
  | timeout
  /-- Every task has been joined. -/
  | drained
  | task (serial : Nat) (happening : Happening)
  /-- The worker performs the call of a notice. -/
  | notice (index : Nat) (input : NoticeInput)
  /-- The call of a notice fails without being performed. -/
  | refuseNotice (index : Nat) (error : StoreError)
  /-- `NotificationTask::prepare` has ended. -/
  | prepared (index : Nat) (message : Except StoreError PreparedMessage)
  /-- A notice is aborted; its call may be in the worker's queue. -/
  | abortNotice (index : Nat) (queued : Bool)
  /-- The worker performs the call of an aborted notice, or drops it. -/
  | stray (index : Nat) (input : Option NoticeInput)
  | other (op : Op)
  | crash

namespace Dispatcher

/-- The dispatcher of a store just opened. -/
def start (config : Core.Config) (client : Client.SmtpClient) (world : World) : Dispatcher where
  config := config
  client := client
  world := world
  phase := .selecting
  tasks := []
  notices := []
  strays := []

/-- `tasks.len()`. -/
def unjoined (d : Dispatcher) : Nat := d.tasks.countP fun t => !t.joined

/-- One task, seen from within. -/
def execution (d : Dispatcher) (t : RelayTask) : Execution :=
  ⟨d.world, d.client, t.lease, t.stage, t.course, t.orphans⟩

def task? (d : Dispatcher) (serial : Nat) : Option RelayTask :=
  Keyed.lookup RelayTask.serial d.tasks serial

/-- Rewrite one task. -/
def update (d : Dispatcher) (serial : Nat) (f : RelayTask → RelayTask) : Dispatcher :=
  { d with tasks := Keyed.modify RelayTask.serial d.tasks serial f }

/-- A task takes a step. -/
def advance (d : Dispatcher) (t : RelayTask) (happening : Happening) : Dispatcher :=
  let e := (d.execution t).step happening
  { d with
    world := e.world
    tasks := Keyed.modify RelayTask.serial d.tasks t.serial fun t =>
      { t with stage := e.stage, course := e.course, orphans := e.orphans } }

/-- Has the task ended, so that what it held is dropped? Its lease may still be in an orphaned call. -/
def ended (d : Dispatcher) (t : RelayTask) : Bool :=
  t.stage.isGone && (!t.orphans.isEmpty || (d.world.lease? t.serial).isNone)

/-- `notices` is empty: one is spawned. -/
def notify (d : Dispatcher) : Dispatcher :=
  if d.notices.isEmpty then { d with notices := [.asking] } else d

/-- After the expiry. -/
def expired (d : Dispatcher) (world : World) (reply : Reply) : Dispatcher :=
  match reply with
  | .number (.ok _) =>
      let d := { d with world := world }.notify
      if d.config.delivery.concurrency ≤ d.unjoined then { d with phase := .selecting }
      else { d with phase := .claiming }
  | _ => { d with world := world, phase := .selecting }

/-- After the claim: a task for each lease. -/
def claimed (d : Dispatcher) (world : World) (reply : Reply) : Dispatcher :=
  match reply with
  | .leases (.ok leases) =>
      { d with
        world := world
        phase := .selecting
        tasks := d.tasks ++ leases.map fun lease => { lease := lease } }
  | _ => { d with world := world, phase := .selecting }

/-- May this lease be let go of by itself? -/
def free (d : Dispatcher) (lease : QueueLease) : Bool :=
  d.tasks.all fun t => t.lease != lease || (t.stage.isGone && t.orphans.isEmpty)

def expiry (d : Dispatcher) (reading : Reading) (faults : Faults) : Op :=
  .queueExpire d.config.delivery.batchSize reading faults

/-- Only leases that nobody needs any more go away during a claim. -/
def claiming (d : Dispatcher) (keepLease : QueueLease → Bool) (keepReader : QueuedReader → Bool)
    (input : ClaimInput) : Op :=
  .queueClaim (d.config.queuePolicy) d.config.delivery.batchSize
    (fun lease => keepLease lease || !d.free lease) keepReader input

def withNotice (d : Dispatcher) (index : Nat) (notice : Notice) : Dispatcher :=
  { d with notices := d.notices.set index notice }

/-- The worker performs a call of a notice. -/
def noticeOp (d : Dispatcher) (call : NoticeCall) (input : NoticeInput) : Op :=
  call.op (d.config.notificationPolicy) input

def step (d : Dispatcher) : Dispatch → Dispatcher
  | .stop => if d.phase = .selecting then { d with phase := .draining } else d
  | .tick => if d.phase = .selecting then { d with phase := .expiring } else d
  | .expire reading faults =>
      if d.phase = .expiring then
        let (world, reply) := d.world.step (d.expiry reading faults)
        d.expired world reply
      else d
  | .claim keepLease keepReader input =>
      if d.phase = .claiming then
        let (world, reply) := d.world.step (d.claiming keepLease keepReader input)
        d.claimed world reply
      else d
  | .unavailable =>
      if d.phase = .expiring ∨ d.phase = .claiming then { d with phase := .selecting } else d
  | .join serial =>
      if d.phase = .selecting ∨ d.phase = .draining ∨ d.phase = .aborting then
        match d.task? serial with
        | some t => if d.ended t then d.update serial fun t => { t with joined := true } else d
        | none => d
      else d
  | .joinNotice index =>
      if d.phase = .selecting ∨ d.phase = .draining ∨ d.phase = .aborting then
        match d.notices[index]? with
        | some .gone => { d with notices := d.notices.eraseIdx index }
        | _ => d
      else d
  | .timeout => if d.phase = .draining then { d with phase := .aborting } else d
  | .drained =>
      if (d.phase = .draining ∨ d.phase = .aborting) ∧ d.unjoined = 0 ∧ d.notices = [] then
        { d with phase := .stopped }
      else d
  | .task serial happening =>
      match d.task? serial with
      | some t => if happening.own then d.advance t happening else d
      | none => d
  | .notice index input =>
      match d.notices[index]? with
      | some notice =>
          match notice.pending with
          | some call =>
              let (world, reply) := d.world.step (d.noticeOp call input)
              ({ d with world := world } : Dispatcher).withNotice index (notice.answered reply)
          | none => d
      | none => d
  | .refuseNotice index error =>
      match d.notices[index]? with
      | some (.committing prepared) =>
          d.withNotice index (.excusing prepared.plan.deliveryId error)
      | some .asking | some (.excusing _ _) => d.withNotice index .gone
      | _ => d
  | .prepared index message =>
      match d.notices[index]?, message with
      | some (.preparing task), .ok message => d.withNotice index (.committing ⟨task.plan, message⟩)
      | some (.preparing task), .error error => d.withNotice index (.excusing task.plan.deliveryId error)
      | _, _ => d
  | .abortNotice index queued =>
      match d.notices[index]? with
      | some notice =>
          { d.withNotice index .gone with
            strays := d.strays ++ if queued then notice.pending.toList else [] }
      | none => d
  | .stray index input =>
      match d.strays[index]?, input with
      | some call, some input =>
          { d with
            world := d.world.next (d.noticeOp call input)
            strays := d.strays.eraseIdx index }
      | some _, none => { d with strays := d.strays.eraseIdx index }
      | none, _ => d
  | .other op => if op.byOthers then { d with world := d.world.next op } else d
  | .crash =>
      { d with
        world := d.world.next .crash
        phase := .stopped
        tasks := d.tasks.map fun t => { t with stage := .gone, orphans := [], joined := true }
        notices := []
        strays := [] }

/-- The dispatcher after a list of steps. -/
def run (d : Dispatcher) (steps : List Dispatch) : Dispatcher := Runs.run step d steps

end Dispatcher

end Rustymail
