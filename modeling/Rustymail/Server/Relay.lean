import Rustymail.Client.Smtp
import Rustymail.Store.World

/-!
# A relay attempt

`relay::execute`: the task that owns one lease, opens the body, runs the SMTP client, renews the lease
meanwhile and records the result. Its calls go through the queue of the store's worker, so that a
call may be performed although nobody waits for it any more, and an answer may never arrive. The task
can be aborted and the process can crash between any two steps, and everybody else may use the store
in between.
-/

namespace Rustymail

/-- The calls a task makes to the store. -/
inductive TaskCall where
  | openBody
  | markBody
  | renew
  | finish (result : QueueResult)
  deriving DecidableEq

/-- What the performing of a call takes from outside. -/
structure CallInput where
  file : Except StoreError Unit
  reading : Reading
  guardReading : Reading
  faults : Faults

/-- The operation behind a call under the lease with this guard number. -/
def TaskCall.op (serial : Nat) (input : CallInput) : TaskCall → Op
  | .openBody => .queueOpenBody serial input.file
  | .markBody => .queueMarkBody serial input.faults
  | .renew => .queueRenew serial 300 input.reading input.faults
  | .finish result => .queueFinish serial result input.reading input.guardReading input.faults

def Reply.succeeded : Reply → Bool
  | .unit (.ok _) => true
  | .reader (.ok _) => true
  | _ => false

/-- `QueueLease::omitted_prefix`. -/
def QueueLease.omittedPrefix (lease : QueueLease) : Text :=
  if lease.submission then
    ascii "Return-Path: <" ++ lease.sender.elim [] Address.asStr ++ ascii ">" ++ crlf
  else []

/-- The message of a lease, as `execute` hands it to `RelayClient::attempt`. -/
def QueueLease.message (lease : QueueLease) : Client.Message where
  sender := lease.sender
  recipient := lease.recipient
  body :=
    match lease.body with
    | .sevenBit => .sevenBit
    | .eightBitMime => .eightBitMime
  storedSize := lease.storedSize
  omitPrefix := lease.omittedPrefix

/-- How `RelayClient::attempt` passes a result on. -/
def Client.AttemptResult.queued : Client.AttemptResult → QueueResult
  | .delivered code => .delivered code
  | .temporary code => .temporary code
  | .permanent code => .permanent code
  | .connectionLost => .connectionLost
  | .hold => .hold
  | .deferred => .deferred

abbrev Attempt : Type := Client.Talk Client.Failure Client.AttemptResult

/-- The call inside `before_body`, while the attempt waits for it. -/
def awaitedCall : Attempt → List TaskCall
  | .ask .beforeBody _ => [.markBody]
  | _ => []

/-- Where `execute` is. While it renews, the attempt stands still. -/
inductive Stage where
  | opening
  | attempting (attempt : Attempt) (renewing : Bool)
  | concluded (result : QueueResult)
  | finishing (result : QueueResult)
  | gone

/-- The calls a task is waiting for. -/
def Stage.pending : Stage → List TaskCall
  | .opening => [.openBody]
  | .attempting attempt renewing => awaitedCall attempt ++ if renewing then [.renew] else []
  | .concluded _ => []
  | .finishing result => [.finish result]
  | .gone => []

/-- A task among everything else. `orphans` are calls in the worker's queue whose task is gone or has
stopped waiting for them; like the task they keep the lease. `course` is history, not state of the
program. -/
structure Execution where
  world : World
  client : Client.SmtpClient
  lease : QueueLease
  stage : Stage
  course : Client.Course
  orphans : List TaskCall

def Execution.start (client : Client.SmtpClient) (world : World) (lease : QueueLease) : Execution where
  world := world
  client := client
  lease := lease
  stage := .opening
  course := {}
  orphans := []

/-- The steps of an execution and of its surroundings. -/
inductive Happening where
  /-- The worker performs a call; its answer may get lost on the way. When a renewal fails, the
  attempt is dropped, and the call it was waiting for may be in the worker's queue by then. -/
  | perform (call : TaskCall) (input : CallInput) (answered queued : Bool)
  /-- A call fails without being performed. -/
  | refuse (call : TaskCall) (queued : Bool)
  /-- What the attempt asks for happens, with this answer. A task that is aborted right after it never
  got to know the answer. -/
  | wire (answer : (question : Client.Ask) → question.Answer)
  /-- It is time to renew the lease. -/
  | tick
  /-- The attempt has ended. -/
  | conclude
  /-- `Arc::try_unwrap`. -/
  | unwrap (sole : Bool)
  /-- The task is aborted; what it was waiting for may be in the worker's queue. -/
  | abort (queued : Bool)
  /-- The worker performs an orphaned call. -/
  | performOrphan (call : TaskCall) (input : CallInput)
  /-- The orphaned calls are dropped with the worker. -/
  | dropOrphans
  /-- The last holder of the lease lets go of it. -/
  | release
  | crash
  /-- Somebody else uses the store. -/
  | other (op : Op)

/-- Is this the operation of somebody who does not hold the lease? -/
def Op.foreign (w : World) (serial : Nat) : Op → Bool
  | .queueRenew s _ _ _ | .queueMarkBody s _ | .queueOpenBody s _ | .queueFinish s _ _ _ _
  | .dropLease s => s != serial
  | .queueClaim _ _ keepLease _ _ => (w.lease? serial).all keepLease
  | .crash => false
  | _ => true

namespace Execution

def serial (e : Execution) : Nat := e.lease.guard.serial

/-- A call has been answered. -/
def answered (e : Execution) (call : TaskCall) (ok queued : Bool) : Execution :=
  match e.stage, call with
  | .opening, .openBody =>
      { e with
        stage :=
          if ok then .attempting (e.client.tryAttempt e.lease.message) false else .concluded .hold }
  | .attempting (.ask .beforeBody next) renewing, .markBody =>
      { e with
        stage := .attempting (next ok) renewing
        course := e.course.observe .beforeBody ok }
  | .attempting attempt true, .renew =>
      if ok then { e with stage := .attempting attempt false }
      else
        { e with
          stage := .concluded .connectionLost
          orphans := e.orphans ++ if queued then awaitedCall attempt else [] }
  | .finishing _, .finish _ => { e with stage := .gone }
  | _, _ => e

/-- The worker performs a call on the store. -/
def performed (e : Execution) (call : TaskCall) (input : CallInput) : Execution :=
  { e with world := e.world.next (call.op e.serial input) }

def step (e : Execution) : Happening → Execution
  | .perform call input answered queued =>
      if call ∈ e.stage.pending then
        (e.performed call input).answered call
          ((e.world.step (call.op e.serial input)).2.succeeded && answered) queued
      else e
  | .refuse call queued => if call ∈ e.stage.pending then e.answered call false queued else e
  | .wire answer =>
      match e.stage with
      | .attempting (.ask .beforeBody _) _ => e
      | .attempting (.ask question next) false =>
          { e with
            stage := .attempting (next (answer question)) false
            course := e.course.observe question (answer question) }
      | _ => e
  | .tick =>
      match e.stage with
      | .attempting attempt _ => { e with stage := .attempting attempt true }
      | _ => e
  | .conclude =>
      match e.stage with
      | .attempting (.done result) false =>
          { e with stage := .concluded (Client.attemptResult (.ok result)).queued }
      | .attempting (.failed failure) false =>
          { e with stage := .concluded (Client.attemptResult (.error failure)).queued }
      | _ => e
  | .unwrap sole =>
      match e.stage with
      | .concluded result =>
          { e with stage := if sole = true ∧ e.orphans = [] then .finishing result else .gone }
      | _ => e
  | .abort queued =>
      { e with
        stage := .gone
        orphans := e.orphans ++ if queued then e.stage.pending else [] }
  | .performOrphan call input =>
      if call ∈ e.orphans then
        { e.performed call input with orphans := e.orphans.erase call }
      else e
  | .dropOrphans => { e with orphans := [] }
  | .release =>
      match e.stage, e.orphans with
      | .gone, [] => { e with world := e.world.next (.dropLease e.serial) }
      | _, _ => e
  | .crash => { e with world := e.world.next .crash, stage := .gone, orphans := [] }
  | .other op => if op.foreign e.world e.serial then { e with world := e.world.next op } else e

/-- The execution after a list of happenings. -/
def run (e : Execution) (happenings : List Happening) : Execution := Runs.run step e happenings

end Execution

/-- How an attempt may leave its delivery once its terminator is out: settled by a complete reply, or
as an unknown outcome. -/
def SettledBy (course : Client.Course) (before after : Delivery) : Prop :=
  (after.state = .delivered
      ∧ ∃ code, 200 ≤ code ∧ code < 300 ∧ Client.IsReply code course.reply)
    ∨ (after.state = .deferred ∧ before.possiblyDelivered = false
      ∧ ∃ code, 400 ≤ code ∧ code < 500 ∧ Client.IsReply code course.reply)
    ∨ (after.state = .failed ∧ before.possiblyDelivered = false
      ∧ ∃ code, 500 ≤ code ∧ code < 600 ∧ Client.IsReply code course.reply)
    ∨ (after.state = .uncertain ∧ after.possiblyDelivered = true)

end Rustymail
