import Rustymail.Store.World

/-!
# The owner of the store

The requests in the bounded channel of `StoreWorker`, and what the thread behind it makes of one. A
call is any operation of the rest of the server; an acceptance carries the sender of the oneshot
channel on which its session waits.
-/

namespace Rustymail

/-- The operations that `Request::Call` closures perform. Leases and readers are dropped by whoever
holds them, and opening and closing are not requests. -/
def Op.requested : Op → Bool
  | .dropLease _ | .dropReader _ | .close | .crash | .reopen _ => false
  | _ => true

/-- The operations of those who hold leases and readers. -/
def Op.drops : Op → Bool
  | .dropLease _ | .dropReader _ => true
  | _ => false

/-- The operation id under which an operation may commit a message. -/
def Op.operationId? : Op → Option Text
  | .accept _ _ plan _ _ | .acceptSubmission _ _ plan _ _ _ | .acceptRelaySubmission _ _ plan _ _ _ _ =>
      some plan.operationId
  | .enqueue _ _ plan _ _ => some plan.operationId
  | _ => none

namespace Server

/-- A oneshot channel: the session that waits, and the transaction it waits for. -/
structure ReplyTo where
  session : Nat
  operation : Uuid

structure AcceptRequest where
  message : PreparedMessage
  plan : Acceptance
  identity : Option SubmissionIdentity
  relay : Option RelayAcceptance
  reply : ReplyTo

inductive Request where
  | call (op : Op)
  | accept (request : AcceptRequest)

def Request.operationId? : Request → Option Text
  | .call op => op.operationId?
  | .accept request => some request.plan.operationId

/-- What an acceptance takes from outside while the worker performs it. -/
structure WorkInput where
  ids : FreshIds
  reading : Reading
  faults : Faults

/-- The `Request::Accept` arm of the worker's loop. -/
def AcceptRequest.perform (request : AcceptRequest) (input : WorkInput) (w : World) :
    World × Except StoreError AcceptedMessage :=
  match request.identity, request.relay with
  | some identity, some relay =>
      w.call fun s => acceptRelaySubmission s input.ids request.message request.plan identity relay
        input.reading input.faults
  | some identity, none =>
      w.call fun s => acceptSubmission s input.ids request.message request.plan identity
        input.reading input.faults
  | none, none =>
      w.call fun s => accept s input.ids request.message request.plan input.reading input.faults
  | none, some _ => (w, .error .permissionDenied)

end Server

end Rustymail
