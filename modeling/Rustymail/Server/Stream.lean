import Rustymail.Lib.Machine
import Rustymail.Server.Connection
import Rustymail.Server.Receive
import Rustymail.Server.Revocation

/-!
# A session on its stream

`smtp_session` with the reader that it owns. A turn is one round of the loop, with the handshake or
the DATA transaction that the round comes to: what the session reads it takes from its stream, and
everything it writes, asks or hands over is a deed. What the store, the `AuthService`, the clock and
the transport answer are inputs of the turn.
-/

namespace Rustymail.Server

/-! ### The reader -/

/-- A `BufReader`: what has been read ahead, and the pieces the transport still has. -/
structure Reader where
  buffer : Text
  stream : List Text
  deriving DecidableEq

namespace Reader

/-- `BufReader::with_capacity`. -/
def withCapacity (stream : List Text) : Reader := ⟨[], stream⟩

def pieces (reader : Reader) : List Text := reader.buffer :: reader.stream

/-- The reader with only these pieces left. -/
def rest : List Text → Reader
  | [] => withCapacity []
  | buffer :: stream => ⟨buffer, stream⟩

/-- `line`: a line without its CRLF, unless the stream has ended. -/
def line (limit : Nat) (reader : Reader) : Except ErrorKind (Option Text × Reader) :=
  match fillLine (.new limit) reader.pieces with
  | .error e => .error e
  | .ok (_, left, false) => .ok (none, rest left)
  | .ok (decoder, left, true) => .ok (decoder.takeLine.2, rest left)

/-- `discard_read_buffer`: only the transport is left. -/
def discardReadBuffer (reader : Reader) : List Text := reader.stream

/-- The line behind a challenge, if anything comes of it. -/
def response (reader : Reader) (responds : Bool) : Option Text × Reader :=
  if responds then
    match reader.line 1024 with
    | .ok (some bytes, reader) => (some bytes, reader)
    | _ => (none, reader)
  else (none, reader)

end Reader

/-! ### Deeds -/

/-- What a session does, as its peer, the store and the `AuthService` notice it. -/
inductive Deed where
  | effect (effect : Effect)
  | principalCurrent (principal : Principal)
  | recipientExists (address : Address)
  | stage
  | receive (result : Except ServerError (StagedMessage × Option Address))
  | accept (request : AcceptRequest)
  | write (written : Written)

/-- The address that a line has looked up in the store. -/
def Connection.looksUp (connection : Connection) (context : SessionContext) :
    Incoming → Option Address
  | .line bytes =>
      if context.readLimit < bytes.length + 2
          ∨ lineLimit context.role (verbOf bytes) < bytes.length + 2 then none
      else
        match parseCommand bytes with
        | .ok (.rcpt address) =>
            if context.role.submission && !connection.encrypted then none
            else if context.auth && connection.principal.isNone then none
            else if connection.session.transaction.isNone then none
            else if context.config.isLocal address then some address
            else none
        | _ => none
  | _ => none

/-- Whether a challenge was written. -/
def Outcome.challenges (outcome : Outcome) : Bool :=
  outcome.effects.any fun effect =>
    match effect with
    | .challenge => true
    | _ => false

/-- What moves `wait` on while the session waits for its peer. -/
inductive WaitMove where
  | poll (version : Nat) (closed : Bool)
  | serve (db : Db)
  | refuse

namespace Guarded

/-- One move, and the check that it hands over. -/
def move (session : Guarded) : WaitMove → Guarded × List Deed
  | .poll version closed =>
      (session.poll version closed,
        match session.principal, session.wait with
        | some principal, .sending => [.principalCurrent principal]
        | _, _ => [])
  | .serve db => (session.serve db, [])
  | .refuse => (session.refuse, [])

def moves (session : Guarded) : List WaitMove → Guarded × List Deed
  | [] => (session, [])
  | next :: rest =>
      let (session, deeds) := session.move next
      let (session, more) := session.moves rest
      (session, deeds ++ more)

def returned (session : Guarded) : Bool :=
  match session.wait with
  | .returned _ => true
  | _ => false

end Guarded

/-! ### Turns -/

/-- What is settled before the first line. The number is the session's own. -/
structure Setting where
  context : SessionContext
  peer : IpAddr
  headerBytes : Nat
  sha256 : Text → Text
  number : Nat

def Setting.limits (setting : Setting) : ReceiveLimits :=
  ⟨setting.context.config.messageBytes, setting.headerBytes⟩

/-- What the surroundings answer in a DATA transaction. -/
structure DataInput where
  permit : Bool
  stage : Option StagedMessage
  operation : Uuid
  date : Option Text
  /-- Whether the 354 can be written, or the refusal in its place. -/
  wrote : Bool
  moves : List WaitMove
  /-- Whether the message comes too late. -/
  elapsed : Bool
  faults : ReceiveFaults
  /-- What the store makes of the acceptance within a minute. -/
  accepted : AcceptRequest → Option (Except StoreError AcceptedMessage)
  /-- Whether the reply to the message can be written. -/
  answered : Bool

/-- What the surroundings answer in one turn. A response that `answers` has gives way to the line
that is read, and the handshake makes of the transport's pieces what TLS delivers. -/
structure TurnInput where
  moves : List WaitMove
  elapsed : Bool
  broken : Bool
  answers : RoundInput
  responds : Bool
  handshake : List Text → List Text
  data : DataInput

/-- The variables of `smtp_session`. -/
structure Smtp where
  setting : Setting
  connection : Connection
  reader : Reader
  revocations : Revocations

namespace Smtp

/-- A session that has subscribed to this version of the changes. -/
def start (setting : Setting) (version : Nat) (stream : List Text) : Smtp where
  setting := setting
  connection := .start setting.context
  reader := .withCapacity stream
  revocations := ⟨version, false⟩

/-- `revocations.wait(..)`, called anew. -/
def guarded (s : Smtp) : Guarded :=
  Guarded.enter ⟨s.revocations, s.connection.principal, none, .idle⟩

/-- What ends the wait for a line, and the reader then. -/
def listen (s : Smtp) (input : TurnInput) : Incoming × Reader :=
  if (s.guarded.moves input.moves).1.returned then (.revoked, s.reader)
  else if input.elapsed then (.elapsed, s.reader)
  else if input.broken then (.invalid, s.reader)
  else
    match s.reader.line s.setting.context.readLimit with
    | .error _ => (.invalid, s.reader)
    | .ok (none, reader) => (.eof, reader)
    | .ok (some bytes, reader) => (.line bytes, reader)

def trace (s : Smtp) : Trace where
  hostname := s.setting.context.config.hostname
  greeting := s.connection.session.greeting
  peer := s.setting.peer
  extended := s.connection.session.extended
  encrypted := s.connection.encrypted
  authenticated := s.connection.principal.isSome

/-- The acceptance of a message that has been received. -/
def accept (s : Smtp) (request : AcceptRequest) (input : DataInput) : Option Smtp × List Deed :=
  match input.accepted request with
  | none => (none, [.accept request])
  | some result =>
      let (phase, written) := Phase.concluded input.answered result
      (match phase with
        | .idle => some s
        | _ => none, .accept request :: written.toList.map .write)

/-- The arm of DATA behind its 354. -/
def receive (s : Smtp) (envelope : Envelope) (input : DataInput) (stage : StagedMessage)
    (text : Text) : Option Smtp × List Deed :=
  let phase := Phase.receiving input.operation s.connection.principal envelope
  let (guarded, checks) := s.guarded.moves input.moves
  if guarded.returned then (none, checks ++ phase.revoked.2.toList.map .write)
  else if input.elapsed then
    (none, checks ++ (phase.received s.setting.context.config.toConfig s.setting.number
      .elapsed).2.toList.map .write)
  else
    let received := receiveMessage s.setting.limits input.faults s.setting.context.auth envelope.body
      text stage s.reader.pieces
    let deeds := checks ++ [.receive (received.map fun (stage, author, _) => (stage, author))]
    let (phase, written) := phase.received s.setting.context.config.toConfig s.setting.number
      (.finished (received.map fun (stage, author, _) =>
        (stage.prepared s.setting.sha256, author)))
    match phase, received with
    | .dispatching request, .ok (_, _, left) =>
        let s := { s with reader := .rest left, revocations := guarded.revocations }
        let (last, more) := s.accept request input
        (last, deeds ++ more)
    | _, _ => (none, deeds ++ written.toList.map .write)

/-- The arm of DATA. -/
def beginData (s : Smtp) (envelope : Envelope) (input : DataInput) : Option Smtp × List Deed :=
  let text := s.trace.prefixText envelope.sender input.operation input.date
  let (phase, written) := Phase.beginData
    { permit := input.permit
      staged := input.stage.isSome
      operation := input.operation
      prefixed := text.isSome
      principal := s.connection.principal
      envelope := envelope
      wrote := input.wrote } .idle
  let deeds := (if input.permit then [.stage] else []) ++ written.toList.map .write
  match phase, input.stage, text with
  | .idle, _, _ => (some s, deeds)
  | .receiving _ _ _, some stage, some text =>
      let (last, more) := s.receive envelope input stage text
      (last, deeds ++ more)
  | _, _, _ => (none, deeds)

/-- One round of the loop. Behind a challenge it reads a second line. -/
def round (s : Smtp) (input : TurnInput) : Outcome :=
  s.connection.round s.setting.context
    { input.answers with response := ((s.listen input).2.response input.responds).1 }
    (s.listen input).1

/-- The reader after a round. Only the upgrade turns encryption on. -/
def readerAfter (s : Smtp) (input : TurnInput) (next : Connection) : Reader :=
  if !s.connection.encrypted && next.encrypted then
    .withCapacity (input.handshake (s.listen input).2.discardReadBuffer)
  else if (s.round input).challenges then ((s.listen input).2.response input.responds).2
  else (s.listen input).2

/-- The session after a round. -/
def after (s : Smtp) (input : TurnInput) (next : Connection) : Smtp :=
  { s with
    connection := next
    reader := s.readerAfter input next
    revocations := (s.guarded.moves input.moves).1.revocations }

/-- What is done in a round. -/
def deeds (s : Smtp) (input : TurnInput) : List Deed :=
  (s.guarded.moves input.moves).2
    ++ (s.connection.looksUp s.setting.context (s.listen input).1).toList.map .recipientExists
    ++ (s.round input).effects.map .effect

/-- One round of the loop, with its DATA transaction. -/
def turn (s : Smtp) (input : TurnInput) : Option Smtp × List Deed :=
  match (s.round input).connection, (s.round input).begun with
  | none, _ => (none, s.deeds input)
  | some next, none => (some (s.after input next), s.deeds input)
  | some next, some envelope =>
      let (last, more) := (s.after input next).beginData envelope input.data
      (last, s.deeds input ++ more)

def run (s : Smtp) (inputs : List TurnInput) : Option Smtp × List Deed := Machine.run turn s inputs

/-- The session that some plaintext has led to, right after STARTTLS was answered with 220 and the
handshake succeeded. -/
def Upgraded (setting : Setting) (version : Nat) (s : Smtp) : Prop :=
  ∃ (stream : List Text) (plaintext : List TurnInput) (last : TurnInput) (before : Smtp),
    ((start setting version stream).run plaintext).1 = some before
      ∧ before.connection.encrypted = false
      ∧ (before.turn last).1 = some s ∧ s.connection.encrypted = true
      ∧ .effect (.reply ⟨220, "2.0.0 Ready to start TLS"⟩) ∈ (before.turn last).2

end Smtp

end Rustymail.Server
