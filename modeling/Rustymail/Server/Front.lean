import Rustymail.Lib.Distinct
import Rustymail.Protocol.History
import Rustymail.Server.Connection

/-!
# Sessions from their first line

The command loops of any number of sessions above the service that their DATA transactions share. A
session reads its next line only between transactions. What each line came to is written down, so
that later states can be compared with what the client was told.
-/

namespace Rustymail.Server

/-- One round of a session: the connection it began with, what arrived, and what came of it. -/
structure Entry where
  before : Connection
  incoming : Incoming
  outcome : Outcome

namespace Entry

def bytes (entry : Entry) : Text :=
  match entry.incoming with
  | .line bytes => bytes
  | _ => []

/-- Whether the first word of the line is MAIL, in any case. -/
def isMail (entry : Entry) : Bool := eqIgnoreAsciiCase (verbOf entry.bytes) (ascii "MAIL")

/-- The command of the line, if it is one. -/
def command? (entry : Entry) : Option Command := (parseCommand entry.bytes).toOption

/-- Whether a reply with this code was given. -/
def replies (entry : Entry) (code : Nat) : Bool :=
  entry.outcome.effects.any fun effect =>
    match effect with
    | .reply reply => reply.code == code
    | _ => false

/-- The recipient that an RCPT answered with 250 accepts. -/
def accepted? (entry : Entry) : Option Address :=
  match entry.command? with
  | some (.rcpt address) => if entry.replies 250 then some address else none
  | _ => none

/-- The lines that leave no transaction of before: every MAIL, the greetings, RSET, a DATA that
begins, and the upgrade to TLS. -/
def resets (entry : Entry) : Bool :=
  entry.isMail ||
    match entry.command? with
    | some (.ehlo _) => true
    | some (.helo _) => true
    | some .reset => true
    | some .data => entry.outcome.begun.isSome
    | some .startTls => entry.replies 220
    | _ => false

end Entry

/-- The recipients that a list of entries accepts, in order and with repetitions. -/
def accepted (entries : List Entry) : List Address := entries.filterMap Entry.accepted?

/-- A session from its first line on. -/
structure Talk where
  context : SessionContext
  connection : Option Connection
  log : List Entry

namespace Talk

def start (context : SessionContext) : Talk := ⟨context, some (.start context), []⟩

def record (talk : Talk) (entry : Entry) : Talk :=
  { talk with connection := entry.outcome.connection, log := talk.log ++ [entry] }

end Talk

/-- What the start of a DATA transaction takes from outside. -/
structure Staging where
  permit : Bool
  staged : Bool
  operation : Uuid
  prefixed : Bool
  wrote : Bool

def Staging.input (staging : Staging) (principal : Option Principal) (envelope : Envelope) :
    BeginInput where
  permit := staging.permit
  staged := staging.staged
  operation := staging.operation
  prefixed := staging.prefixed
  principal := principal
  envelope := envelope
  wrote := staging.wrote

/-- What the round asks of the service. -/
def Outcome.action? (outcome : Outcome) (session : Nat) (staging : Staging) : Option Action :=
  match outcome.connection, outcome.begun with
  | none, _ => some (.abort session)
  | some connection, some envelope =>
      some (.beginData session (staging.input connection.principal envelope))
  | some _, none => none

/-- The steps of the service that are not those of a command loop. -/
def Action.served : Action → Bool
  | .connect _ => false
  | .beginData _ _ => false
  | _ => true

structure Front where
  config : SessionConfig
  server : LabServer
  service : Service
  talks : Nat → Option Talk

namespace Front

def init (config : SessionConfig) (server : LabServer) (root : Text) (maxMessageBytes : Nat) : Front where
  config := config
  server := server
  service := Service.init config.toConfig root maxMessageBytes
  talks := fun _ => none

inductive Event where
  /-- A connection is accepted, on the submissions port after its handshake, and greeted. -/
  | connect (session : Nat) (role : Role)
  | round (session : Nat) (incoming : Incoming) (input : RoundInput) (staging : Staging)
  | act (action : Action)

/-- The service takes a step. -/
def serve (front : Front) (action : Action) : Front × Option (Nat × Written) :=
  let (service, written) := front.service.step action
  ({ front with service := service }, written)

def connect (front : Front) (session : Nat) (role : Role) : Front :=
  match front.service.sessions session with
  | .absent =>
      if listens : role ∈ front.server.roles then
        { front with
          service := front.service.next (.connect session)
          talks := Function.update front.talks session
            (some (.start ⟨front.config, front.server, role, listens⟩)) }
      else front
  | _ => front

/-- A session between transactions goes through one round of its loop. -/
def round (front : Front) (session : Nat) (incoming : Incoming) (input : RoundInput)
    (staging : Staging) : Front × Option (Nat × Written) :=
  match front.service.sessions session, front.talks session with
  | .idle, some talk =>
      match talk.connection with
      | none => (front, none)
      | some connection =>
          let outcome := connection.round talk.context input incoming
          let front :=
            { front with
              talks := Function.update front.talks session
                (some (talk.record ⟨connection, incoming, outcome⟩)) }
          match outcome.action? session staging with
          | none => (front, none)
          | some action => front.serve action
  | _, _ => (front, none)

/-- One step, and what its DATA transaction writes to which session. -/
def step (front : Front) : Event → Front × Option (Nat × Written)
  | .connect session role => (front.connect session role, none)
  | .round session incoming input staging => front.round session incoming input staging
  | .act action => if action.served then front.serve action else (front, none)

def next (front : Front) (event : Event) : Front := (front.step event).1

def run (front : Front) (events : List Event) : Front := Runs.run next front events

/-- What a step writes to this session. -/
def writes (front : Front) (event : Event) (session : Nat) (written : Written) : Prop :=
  (front.step event).2 = some (session, written)

end Front

end Rustymail.Server
