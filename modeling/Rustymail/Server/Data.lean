import Rustymail.Protocol.Session
import Rustymail.Server.Worker
import Rustymail.Lib.Runs
import Mathlib.Logic.Function.Basic

/-!
# DATA transactions

The `BeginData` arm of `smtp_session`, for any number of sessions that share one store worker. The
session stages the message, receives it, hands it to the worker through a channel that may be full or
closed, and waits at most a minute for the result; the worker goes on with the request although
nobody waits any more. What `receive_message` makes of the input, when deadlines pass and when
authority is revoked are left to the run.
-/

namespace Rustymail.Server

/-- What a session writes to its peer: a fixed reply, or the acceptance of a message. -/
inductive Written where
  | reply (reply : Reply)
  | accepted (messageId : Text)
  deriving DecidableEq

inductive ErrorKind where
  | invalidData
  | timedOut
  | unexpectedEof
  | other
  deriving DecidableEq

inductive ServerError where
  | config
  | storage (error : StoreError)
  | io (kind : ErrorKind)
  | task
  | invalidHeaders
  deriving DecidableEq

/-- The part of the configuration a DATA transaction reads. -/
structure Config where
  localDomains : List Text
  maxAgeSeconds : Nat
  writerQueue : Nat

def Config.isLocal (config : Config) (recipient : Address) : Bool :=
  config.localDomains.any fun d => eqIgnoreAsciiCase d recipient.domain

/-- Remote recipients go to the queue, if there are any. -/
def relayAcceptance (config : Config) (remote : List Address) (body : Body) :
    Option RelayAcceptance :=
  if remote.isEmpty then none
  else
    some
      { recipients := remote
        body := if body = .sevenBit then .sevenBit else .eightBitMime
        maxAgeSeconds := config.maxAgeSeconds }

/-- An author without a principal, or a principal without an author, ends the session. -/
def submissionIdentity : Option Principal → Option Address → Option (Option SubmissionIdentity)
  | some principal, some author => some (some ⟨principal, author⟩)
  | none, none => some none
  | _, _ => none

/-- The acceptance of a received message. -/
def acceptRequest (config : Config) (session : Nat) (operation : Uuid) (envelope : Envelope)
    (message : PreparedMessage) (identity : Option SubmissionIdentity) : AcceptRequest :=
  let (recipients, remote) := envelope.recipients.partition config.isLocal
  { message := message
    plan := ⟨operation.text, envelope.sender, recipients⟩
    identity := identity
    relay := relayAcceptance config remote envelope.body
    reply := ⟨session, operation⟩ }

/-- How `timeout(data_total_seconds, receive_message(..))` ends. -/
inductive Received where
  | finished (result : Except ServerError (PreparedMessage × Option Address))
  | elapsed

/-- The reply to a message that could not be received. -/
def receiveReply : ServerError → Reply
  | .storage .sizeLimit => ⟨552, "5.3.4 Message or headers too large"⟩
  | .storage .permissionDenied => ⟨550, "5.7.1 Invalid submission identity headers"⟩
  | .invalidHeaders => ⟨550, "5.6.0 Invalid message headers"⟩
  | .io .invalidData => ⟨554, "5.6.0 Invalid DATA framing or encoding"⟩
  | .io .timedOut => ⟨421, "4.4.2 DATA timeout"⟩
  | _ => ⟨451, "4.3.0 DATA incomplete or unavailable"⟩

/-- The reply to a message that was not accepted, unless that is unknown. -/
def acceptReply : StoreError → Option Reply
  | .outcomeUnknown => none
  | .quota => some ⟨452, "4.2.2 Mailbox quota exceeded"⟩
  | .permissionDenied => some ⟨550, "5.7.1 Submission identity denied or revoked"⟩
  | .recipientUnavailable => some ⟨451, "4.3.0 Recipient changed; retry transaction"⟩
  | _ => some ⟨451, "4.3.0 Commit rejected"⟩

/-- The receiving end of the oneshot channel. -/
inductive Fate where
  | awaited
  | answered (result : Except StoreError AcceptedMessage)
  | dropped

/-- Where a session is: not connected yet, between commands, or in a DATA transaction. -/
inductive Phase where
  | absent
  | idle
  | receiving (operation : Uuid) (principal : Option Principal) (envelope : Envelope)
  | dispatching (request : AcceptRequest)
  | waiting (operation : Uuid) (fate : Fate)
  | closed

/-- The DATA transaction a session is in. -/
def Phase.operation? : Phase → Option Uuid
  | .receiving operation _ _ => some operation
  | .dispatching request => some request.reply.operation
  | .waiting operation _ => some operation
  | _ => none

/-- What a step makes of a session, and what it writes. -/
abbrev Turn : Type := Phase × Option Written

/-- After a reply the session goes on, unless the reply cannot be written. -/
def replied (wrote : Bool) (written : Written) : Turn :=
  (if wrote then .idle else .closed, some written)

/-- Everything the start of a DATA transaction depends on. -/
structure BeginInput where
  permit : Bool
  staged : Bool
  operation : Uuid
  prefixed : Bool
  principal : Option Principal
  envelope : Envelope
  wrote : Bool

namespace Phase

def connect : Phase → Turn
  | .absent => (.idle, none)
  | phase => (phase, none)

/-- The start of the arm, up to its 354. -/
def beginData (input : BeginInput) : Phase → Turn
  | .idle =>
      if input.permit = false then
        replied input.wrote (.reply ⟨452, "4.3.1 Ingest capacity exhausted"⟩)
      else if input.staged = false then
        replied input.wrote (.reply ⟨452, "4.3.1 Storage unavailable"⟩)
      else if input.prefixed = false then (.closed, none)
      else
        (if input.wrote then .receiving input.operation input.principal input.envelope else .closed,
          some (.reply ⟨354, "Send message; end with <CRLF>.<CRLF>"⟩))
  | phase => (phase, none)

/-- `Revocations::wait` returns. Without a principal it never does. -/
def revoked : Phase → Turn
  | .receiving operation principal envelope =>
      if principal.isSome then
        (.closed, some (.reply ⟨421, "4.7.0 Session authorization changed"⟩))
      else (.receiving operation principal envelope, none)
  | phase => (phase, none)

def received (config : Config) (session : Nat) (result : Received) : Phase → Turn
  | .receiving operation principal envelope =>
      match result with
      | .elapsed => (.closed, some (.reply ⟨421, "4.4.2 DATA timeout"⟩))
      | .finished (.error error) => (.closed, some (.reply (receiveReply error)))
      | .finished (.ok (message, author)) =>
          match submissionIdentity principal author with
          | none => (.closed, none)
          | some identity =>
              (.dispatching (acceptRequest config session operation envelope message identity), none)
  | phase => (phase, none)

/-- The result of `StoreClient::accept`, which has arrived in time. -/
def concluded (wrote : Bool) : Except StoreError AcceptedMessage → Turn
  | .ok accepted => replied wrote (.accepted accepted.messageId)
  | .error error =>
      match acceptReply error with
      | none => (.closed, none)
      | some reply => replied wrote (.reply reply)

/-- The channel's receiver is gone, so that nothing can be sent. -/
def unsent (wrote : Bool) : Phase → Turn
  | .dispatching _ => concluded wrote (.error .workerUnavailable)
  | phase => (phase, none)

/-- The sixty seconds are over, whether the request has been sent or not. -/
def elapse : Phase → Turn
  | .dispatching _ => (.closed, none)
  | .waiting _ _ => (.closed, none)
  | phase => (phase, none)

/-- The oneshot channel has a result, or its sender is gone. -/
def hear (wrote : Bool) : Phase → Turn
  | .waiting _ (.answered result) => concluded wrote result
  | .waiting _ .dropped => concluded wrote (.error .outcomeUnknown)
  | phase => (phase, none)

/-- The session's task ends. -/
def abort : Phase → Turn
  | .absent => (.absent, none)
  | _ => (.closed, none)

/-- A result arrives on a oneshot channel, if anybody still waits there. -/
def answer (reply : ReplyTo) (result : Except StoreError AcceptedMessage) : Phase → Phase
  | .waiting operation .awaited =>
      if operation = reply.operation then .waiting operation (.answered result)
      else .waiting operation .awaited
  | phase => phase

/-- The worker is gone, and with it the sender. -/
def orphan : Phase → Phase
  | .waiting operation .awaited => .waiting operation .dropped
  | phase => phase

end Phase

inductive Action where
  | connect (session : Nat)
  | beginData (session : Nat) (input : BeginInput)
  | revoked (session : Nat)
  | received (session : Nat) (result : Received)
  | send (session : Nat) (wrote : Bool)
  | elapse (session : Nat)
  | hear (session : Nat) (wrote : Bool)
  | abort (session : Nat)
  /-- Somebody sends another request to the worker. -/
  | call (op : Op)
  /-- Somebody drops a lease or a reader. -/
  | release (op : Op)
  /-- The worker performs the next request; it may die before it can answer. -/
  | work (input : WorkInput) (dies : Bool)
  /-- The worker's thread ends. -/
  | die
  /-- The process ends. -/
  | crash
  /-- A new process starts on the same directory. -/
  | restart (maxMessageBytes : Nat)

/-- The sessions, the worker's channel and the store. The worker lives as long as its store is open. -/
structure Service where
  config : Config
  world : World
  queue : List Request
  sessions : Nat → Phase

def Service.init (config : Config) (root : Text) (maxMessageBytes : Nat) : Service where
  config := config
  world := World.init root maxMessageBytes
  queue := []
  sessions := fun _ => .absent

namespace Service

/-- A session takes its turn. -/
def turn (s : Service) (session : Nat) (turn : Phase → Turn) : Service × Option (Nat × Written) :=
  let (phase, written) := turn (s.sessions session)
  ({ s with sessions := Function.update s.sessions session phase }, written.map (session, ·))

/-- The worker ends: the channel, its requests and their reply channels are gone. -/
def die (s : Service) : Service :=
  { s with
    world := s.world.next .close
    queue := []
    sessions := fun n => (s.sessions n).orphan }

def crash (s : Service) : Service :=
  { s with
    world := s.world.next .crash
    queue := []
    sessions := fun n => (s.sessions n).abort.1 }

def restart (s : Service) (maxMessageBytes : Nat) : Service :=
  let s := s.crash
  { s with world := s.world.next (.reopen maxMessageBytes) }

/-- `Sender::send`: a closed channel refuses, a full one makes the session wait. -/
def send (s : Service) (session : Nat) (wrote : Bool) : Service × Option (Nat × Written) :=
  if s.world.opened = false then s.turn session (Phase.unsent wrote)
  else
    match s.sessions session with
    | .dispatching request =>
        if s.queue.length < s.config.writerQueue then
          ({ s with
            queue := s.queue ++ [.accept request]
            sessions := Function.update s.sessions session
              (.waiting request.reply.operation .awaited) }, none)
        else (s, none)
    | _ => (s, none)

/-- Another request enters the channel. -/
def call (s : Service) (op : Op) : Service :=
  if op.requested ∧ s.world.opened = true ∧ s.queue.length < s.config.writerQueue then
    { s with queue := s.queue ++ [.call op] }
  else s

/-- The worker has performed an acceptance, and answers unless it dies first. -/
def performed (s : Service) (rest : List Request) (request : AcceptRequest)
    (outcome : World × Except StoreError AcceptedMessage) (dies : Bool) : Service :=
  let s := { s with world := outcome.1, queue := rest }
  if dies then s.die
  else
    { s with
      sessions := Function.update s.sessions request.reply.session
        ((s.sessions request.reply.session).answer request.reply outcome.2) }

/-- One round of the worker's loop. -/
def work (s : Service) (input : WorkInput) (dies : Bool) : Service :=
  if s.world.opened = false then s
  else
    match s.queue with
    | [] => s
    | .call op :: rest =>
        let s := { s with world := s.world.next op, queue := rest }
        if dies then s.die else s
    | .accept request :: rest =>
        s.performed rest request (request.perform input s.world) dies

/-- One step, and what it writes to which session. -/
def step (s : Service) : Action → Service × Option (Nat × Written)
  | .connect session => s.turn session Phase.connect
  | .beginData session input => s.turn session (Phase.beginData input)
  | .revoked session => s.turn session Phase.revoked
  | .received session result => s.turn session (Phase.received s.config session result)
  | .send session wrote => s.send session wrote
  | .elapse session => s.turn session Phase.elapse
  | .hear session wrote => s.turn session (Phase.hear wrote)
  | .abort session => s.turn session Phase.abort
  | .call op => (s.call op, none)
  | .release op => (if op.drops then { s with world := s.world.next op } else s, none)
  | .work input dies => (s.work input dies, none)
  | .die => (s.die, none)
  | .crash => (s.crash, none)
  | .restart maxMessageBytes => (s.restart maxMessageBytes, none)

def next (s : Service) (action : Action) : Service := (s.step action).1

/-- What a step writes to this session. -/
def writes (s : Service) (action : Action) (session : Nat) (written : Written) : Prop :=
  (s.step action).2 = some (session, written)

def run (s : Service) (actions : List Action) : Service := Runs.run next s actions

/-- Is a message with this operation id in the store? -/
def Committed (s : Service) (operationId : Text) : Prop :=
  ∃ message ∈ s.world.store.db.messages, message.ingestKey = operationId

end Service

/-- The operation ids a step draws with `Uuid::new_v4`. -/
def Action.drawn : Action → List Uuid
  | .beginData _ input => if input.permit = true ∧ input.staged = true then [input.operation] else []
  | _ => []

/-- The operation ids that other requests bring along. -/
def Action.named : Action → List Text
  | .call op => op.operationId?.toList
  | _ => []

/-- Generated operation ids are unique: no two transactions draw the same one, and no other request
brings one of them along. -/
structure Fresh (actions : List Action) : Prop where
  nodup : (actions.flatMap Action.drawn).Nodup
  apart : ∀ operation ∈ actions.flatMap Action.drawn, operation.text ∉ actions.flatMap Action.named

end Rustymail.Server
