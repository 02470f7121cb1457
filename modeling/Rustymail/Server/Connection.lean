import Rustymail.Protocol.Command
import Rustymail.Server.Data

/-!
# Command lines

The loop of `smtp_session` outside DATA: one round reads a line and answers it, asks the AUTH
dialogue, the store or the TLS handshake where the line calls for it, and leaves the connection that
the next round begins with. What these answer, whether a write succeeds and when deadlines pass are
inputs of the round.
-/

namespace Rustymail.Server

inductive Role where
  | receiver
  | implicitSubmission
  | startTlsSubmission
  deriving DecidableEq

def Role.submission (role : Role) : Bool := role != .receiver

/-- The two ways to make a `LabServer`. -/
inductive LabServer where
  | bindWithRuntime
  | bindSecure (allRoles : Bool)
  deriving DecidableEq

namespace LabServer

/-- The role of the first listener. -/
def role : LabServer → Role
  | .bindWithRuntime => .receiver
  | .bindSecure allRoles => if allRoles then .receiver else .implicitSubmission

/-- Whether there are the two other listeners. -/
def allRoles : LabServer → Bool
  | .bindWithRuntime => false
  | .bindSecure allRoles => allRoles

/-- Whether there are TLS settings. -/
def tls : LabServer → Bool
  | .bindWithRuntime => false
  | .bindSecure _ => true

/-- Whether there is an `AuthService`. -/
def auth : LabServer → Bool
  | .bindWithRuntime => false
  | .bindSecure _ => true

/-- The roles with which `accept` returns a connection. -/
def roles (server : LabServer) : List Role :=
  server.role :: if server.allRoles then [.startTlsSubmission, .implicitSubmission] else []

end LabServer

inductive DeliveryMode where
  | disabled
  | relay
  deriving DecidableEq

/-- The part of the configuration that the command loop reads. -/
structure SessionConfig extends Config where
  hostname : Text
  messageBytes : Nat
  recipientsPerMessage : Nat
  mode : DeliveryMode

/-- What a session is given: the role is one that its server listens for. -/
structure SessionContext where
  config : SessionConfig
  server : LabServer
  role : Role
  listens : role ∈ server.roles

/-- `auth.filter(|_| role.submission())`. -/
def SessionContext.auth (context : SessionContext) : Bool :=
  context.server.auth && context.role.submission

/-- The variables of the loop. -/
structure Connection where
  session : Session
  encrypted : Bool
  principal : Option Principal
  authAttempts : Nat
  deriving DecidableEq

inductive AuthError where
  | denied
  | busy
  deriving DecidableEq

/-- What a round does besides reading: it writes a reply, the answer to a greeting or a challenge,
has credentials decoded, or asks the store about a sender. -/
inductive Effect where
  | reply (reply : Reply)
  | hello (text : Text)
  | challenge
  | decode (encoded : Text)
  | authorize (principal : Principal) (sender : Address) (answer : Except StoreError Bool)

/-- How the wait for a line ends. -/
inductive Incoming where
  | line (bytes : Text)
  | eof
  | invalid
  | elapsed
  | revoked

/-- What the surroundings answer in one round. -/
structure RoundInput where
  /-- Whether the last write of the round succeeds. -/
  wrote : Bool
  /-- The line behind a challenge, if the challenge is written and a line arrives in time. -/
  response : Option Text
  /-- What decoding the credentials and authenticating them comes to before the deadline. -/
  authenticated : Text → Except AuthError Principal
  authorizeSender : Principal → Address → Except StoreError Bool
  recipientExists : Address → Except StoreError Bool
  /-- Whether there is a permit for a handshake. -/
  permit : Bool
  /-- Whether the certificate can be read. -/
  certified : Bool
  /-- Whether the handshake succeeds in time. -/
  upgraded : Bool

/-- The connection that goes on, what the round did, and the transaction whose DATA begins. -/
structure Outcome where
  connection : Option Connection
  effects : List Effect
  begun : Option Envelope

namespace Outcome

/-- The session ends. -/
def ended (effects : List Effect) : Outcome := ⟨none, effects, none⟩

/-- Something was done before. -/
def after (effect : Effect) (outcome : Outcome) : Outcome :=
  { outcome with effects := effect :: outcome.effects }

end Outcome

namespace Connection

/-- A connection goes on after its answer, unless that cannot be written. -/
def answer (connection : Connection) (input : RoundInput) (effect : Effect) : Outcome :=
  ⟨if input.wrote then some connection else none, [effect], none⟩

def reply (connection : Connection) (input : RoundInput) (code : Nat) (text : String) : Outcome :=
  connection.answer input (.reply ⟨code, text⟩)

/-- `state.apply(Command::Reset)`, with its action ignored. -/
def reset (connection : Connection) : Connection :=
  { connection with session := (connection.session.apply .reset).1 }

/-- The connection after `AuthOutcome::Failed`. -/
def failed (connection : Connection) : Connection :=
  { connection with authAttempts := connection.authAttempts + 1 }

/-- Whether there have been too many failures. -/
def exhausted (connection : Connection) : Bool :=
  decide (5 ≤ connection.authAttempts) && connection.principal.isNone

/-- `auth_dialog::authenticate` from the encoded credentials on. -/
def credentials (connection : Connection) (input : RoundInput) (encoded : Text) : Outcome :=
  if encoded = ascii "*" then connection.reply input 501 "5.7.0 Authentication cancelled"
  else
    .after (.decode encoded)
      (match input.authenticated encoded with
      | .ok identity =>
          { connection with principal := some identity }.reply input 235
            "2.7.0 Authentication successful"
      | .error .denied => connection.failed.reply input 535 "5.7.8 Authentication failed"
      | .error .busy =>
          connection.failed.reply input 454 "4.7.0 Authentication temporarily unavailable")

/-- `auth_dialog::authenticate`. -/
def authenticate (connection : Connection) (input : RoundInput) (bytes : Text) : Outcome :=
  match bytes.splitOn 32 with
  | [_, mechanism] =>
      if eqIgnoreAsciiCase mechanism (ascii "PLAIN") then
        match input.response with
        | none => .ended [.challenge]
        | some encoded => .after .challenge (connection.credentials input encoded)
      else connection.reply input 504 "5.5.4 Use AUTH PLAIN"
  | [_, mechanism, encoded] =>
      if eqIgnoreAsciiCase mechanism (ascii "PLAIN") then connection.credentials input encoded
      else connection.reply input 504 "5.5.4 Use AUTH PLAIN"
  | _ => connection.reply input 504 "5.5.4 Use AUTH PLAIN"

/-- The AUTH arm. -/
def auth (connection : Connection) (context : SessionContext) (input : RoundInput) (bytes : Text) :
    Outcome :=
  if context.role.submission = false then
    connection.reply input 502 "5.5.1 AUTH not available on receiver"
  else if connection.encrypted = false then
    connection.reply input 538 "5.7.11 Encryption required"
  else if context.auth = false then connection.reply input 538 "5.7.11 Encryption required"
  else if connection.principal.isSome ∨ connection.session.authenticationAllowed = false then
    connection.reply input 503 "5.5.1 AUTH not allowed in this state"
  else
    let outcome := connection.authenticate input bytes
    { outcome with connection := outcome.connection.filter fun connection => !connection.exhausted }

/-- The answer to a line that is no command. A MAIL that cannot be read has ended the transaction. -/
def malformed (connection : Connection) (input : RoundInput) (bytes : Text) (error : ParseError) :
    Outcome :=
  let connection :=
    if eqIgnoreAsciiCase (verbOf bytes) (ascii "MAIL") then connection.reset else connection
  match error with
  | .syntactic => connection.reply input 501 "5.5.2 Invalid syntax or unsupported mailbox form"
  | .unsupportedParameter => connection.reply input 555 "5.5.4 Unsupported parameter"

/-- The answer to a greeting. -/
def helloText (connection : Connection) (context : SessionContext) (extended : Bool) : Text :=
  if extended then
    ascii "250-" ++ context.config.hostname ++ crlf
      ++ ascii "250-SIZE " ++ decimal context.config.messageBytes ++ crlf
      ++ ascii "250-8BITMIME" ++ crlf ++ ascii "250-PIPELINING" ++ crlf
      ++ (if !connection.encrypted && context.server.tls then ascii "250-STARTTLS" ++ crlf
        else if connection.encrypted && context.auth && connection.principal.isNone then
          ascii "250-AUTH PLAIN" ++ crlf
        else [])
      ++ ascii "250 ENHANCEDSTATUSCODES" ++ crlf
  else ascii "250 " ++ context.config.hostname ++ crlf

/-- The connection once TLS is active: nothing of the session is left. -/
def upgrade (connection : Connection) (config : SessionConfig) : Connection :=
  { connection with
    session := Session.new config.messageBytes config.recipientsPerMessage
    encrypted := true
    principal := none }

/-- The STARTTLS arm. -/
def startTls (connection : Connection) (context : SessionContext) (input : RoundInput) : Outcome :=
  if connection.encrypted then connection.reply input 503 "5.5.1 TLS already active"
  else if context.server.tls = false then
    connection.reply input 502 "5.5.1 STARTTLS not available"
  else if input.permit = false then connection.reply input 454 "4.7.0 TLS capacity exhausted"
  else if input.certified = false then .ended []
  else if input.upgraded = false then .ended [.reply ⟨220, "2.0.0 Ready to start TLS"⟩]
  else (connection.upgrade context.config).reply input 220 "2.0.0 Ready to start TLS"

/-- Whether the server takes mail for an address: a local one if the store knows it, any other one
only from a submission that may relay. -/
def route (connection : Connection) (context : SessionContext) (input : RoundInput)
    (address : Address) : Except StoreError Bool :=
  if context.config.isLocal address then input.recipientExists address
  else
    .ok (decide (context.config.mode = .relay) && connection.principal.isSome
      && context.role.submission && connection.encrypted)

/-- The CheckRecipient arm. -/
def checkRecipient (connection : Connection) (context : SessionContext) (input : RoundInput)
    (address : Address) : Outcome :=
  match connection.route context input address with
  | .error _ => connection.reply input 451 "4.3.0 Recipient lookup unavailable"
  | .ok found =>
      let (session, reply) := connection.session.routedRecipientResult address found
        (context.config.isLocal address)
      { connection with session := session }.answer input (.reply reply)

/-- `state.apply(command)` and what its action asks for. -/
def perform (connection : Connection) (context : SessionContext) (input : RoundInput)
    (command : Command) : Outcome :=
  let (session, action) := connection.session.apply command
  let connection := { connection with session := session }
  match action with
  | .reply reply => connection.answer input (.reply reply)
  | .hello extended => connection.answer input (.hello (connection.helloText context extended))
  | .startTls => connection.startTls context input
  | .quit => .ended [.reply ⟨221, "2.0.0 Bye"⟩]
  | .checkRecipient address => connection.checkRecipient context input address
  | .beginData envelope => ⟨some connection, [], some envelope⟩

/-- The MAIL of a principal: the store is asked whether the sender is its own. -/
def authorize (connection : Connection) (context : SessionContext) (input : RoundInput)
    (sender : Option Address) (command : Command) : Outcome :=
  match connection.principal, sender with
  | some identity, some sender =>
      .after (.authorize identity sender (input.authorizeSender identity sender))
        (match input.authorizeSender identity sender with
        | .error _ => .ended []
        | .ok false => connection.reply input 553 "5.7.1 Sender identity not permitted"
        | .ok true => connection.perform context input command)
  | _, _ => connection.reply input 553 "5.7.1 Sender identity not permitted"

end Connection

/-- The commands that a submission takes before it is encrypted. -/
def Command.plaintext : Command → Bool
  | .ehlo _ | .helo _ | .reset | .noop | .help | .verify | .startTls | .quit => true
  | _ => false

/-- The commands that a submission takes from a principal only. -/
def Command.identified : Command → Bool
  | .mail _ _ _ | .rcpt _ | .data => true
  | _ => false

namespace Connection

/-- A command of a session with authentication. Its MAIL ends the older transaction first. -/
def guarded (connection : Connection) (context : SessionContext) (input : RoundInput)
    (command : Command) : Outcome :=
  let current := match command with
    | .mail _ _ _ => connection.reset
    | _ => connection
  if current.principal.isNone && command.identified then
    current.reply input 530 "5.7.0 Authentication required"
  else
    match command with
    | .mail sender _ _ => current.authorize context input sender command
    | _ => current.perform context input command

def command (connection : Connection) (context : SessionContext) (input : RoundInput)
    (command : Command) : Outcome :=
  if context.role.submission && !connection.encrypted && !command.plaintext then
    connection.reply input 530 "5.7.0 Must issue STARTTLS first"
  else if context.auth then connection.guarded context input command
  else connection.perform context input command

end Connection

/-- The longest line a verb may have, with its CRLF. -/
def lineLimit (role : Role) (verb : Text) : Nat :=
  if eqIgnoreAsciiCase verb (ascii "AUTH") && role.submission then 1024
  else if eqIgnoreAsciiCase verb (ascii "MAIL") then 538
  else 512

/-- The longest line that is read at all. -/
def SessionContext.readLimit (context : SessionContext) : Nat := if context.auth then 1024 else 538

namespace Connection

def line (connection : Connection) (context : SessionContext) (input : RoundInput) (bytes : Text) :
    Outcome :=
  if bytes.length + 2 > lineLimit context.role (verbOf bytes) then
    .ended [.reply ⟨500, "5.5.2 Command too long"⟩]
  else if eqIgnoreAsciiCase (verbOf bytes) (ascii "AUTH") then connection.auth context input bytes
  else
    match parseCommand bytes with
    | .error error => connection.malformed input bytes error
    | .ok command => connection.command context input command

/-- One round of the loop. Without a principal nothing is revoked. -/
def round (connection : Connection) (context : SessionContext) (input : RoundInput) :
    Incoming → Outcome
  | .revoked =>
      if connection.principal.isSome then
        .ended [.reply ⟨421, "4.7.0 Session authorization changed"⟩]
      else ⟨some connection, [], none⟩
  | .eof => .ended []
  | .invalid => .ended [.reply ⟨500, "5.5.2 Invalid framing"⟩]
  | .elapsed => .ended [.reply ⟨421, "4.4.2 Command timeout"⟩]
  | .line bytes =>
      if context.readLimit < bytes.length + 2 then .ended [.reply ⟨500, "5.5.2 Invalid framing"⟩]
      else connection.line context input bytes

/-- A new connection: encrypted from the start on the submissions port. -/
def start (context : SessionContext) : Connection where
  session := Session.new context.config.messageBytes context.config.recipientsPerMessage
  encrypted := decide (context.role = .implicitSubmission)
  principal := none
  authAttempts := 0

end Connection

end Rustymail.Server
