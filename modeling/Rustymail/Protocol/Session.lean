import Rustymail.Core.Address
import Rustymail.Protocol.Lines

/-!
# The SMTP session

The transitions of `Session`: which commands are answered how, and what becomes of the mail
transaction. Looking a recipient up is left to the caller, who reports back with
`routed_recipient_result`.
-/

namespace Rustymail.Server

structure Reply where
  code : Nat
  text : String
  deriving DecidableEq

structure Envelope where
  sender : Option Address
  recipients : List Address
  body : Body
  deriving DecidableEq

/-- `str::eq_ignore_ascii_case`. -/
def eqIgnoreAsciiCase (a b : Text) : Bool := lowercase a == lowercase b

inductive Command where
  | ehlo (name : Text)
  | helo (name : Text)
  | mail (sender : Option Address) (size : Option Nat) (body : Option Body)
  | rcpt (address : Address)
  | data
  | reset
  | noop
  | help
  | verify
  | startTls
  | quit
  | unsupported
  deriving DecidableEq

structure Session where
  greeting : Option Text
  extended : Bool
  transaction : Option Envelope
  maxMessageBytes : Nat
  maxRecipients : Nat
  deriving DecidableEq

namespace Session

/-- What the caller of `apply` has to do. -/
inductive Action where
  | reply (reply : Reply)
  | hello (extended : Bool)
  | checkRecipient (address : Address)
  | beginData (envelope : Envelope)
  | quit
  | startTls
  deriving DecidableEq

def authenticationAllowed (session : Session) : Bool :=
  session.extended && session.transaction.isNone

def new (maxMessageBytes maxRecipients : Nat) : Session :=
  ⟨none, false, none, maxMessageBytes, maxRecipients⟩

def hello (session : Session) (name : Text) (extended : Bool) : Session × Action :=
  ({ session with greeting := some name, extended := extended, transaction := none },
    .hello extended)

/-- The MAIL arm of `apply`. A MAIL that fails has ended the older transaction. -/
def mail (session : Session) (sender : Option Address) (size : Option Nat) (body : Option Body) :
    Session × Action :=
  let session := { session with transaction := none }
  if session.greeting.isNone then (session, .reply ⟨503, "5.5.1 Send HELO or EHLO first"⟩)
  else if !session.extended && (size.isSome || body.isSome) then
    (session, .reply ⟨555, "5.5.4 Parameters require EHLO"⟩)
  else if size.any (session.maxMessageBytes < ·) then
    (session, .reply ⟨552, "5.3.4 Message too large"⟩)
  else
    ({ session with transaction := some ⟨sender, [], body.getD .sevenBit⟩ },
      .reply ⟨250, "2.1.0 Sender accepted"⟩)

/-- The DATA arm of `apply`. -/
def data (session : Session) : Session × Action :=
  match session.transaction with
  | none => (session, .reply ⟨503, "5.5.1 Need accepted recipient"⟩)
  | some envelope =>
      if envelope.recipients.isEmpty then (session, .reply ⟨503, "5.5.1 Need accepted recipient"⟩)
      else ({ session with transaction := none }, .beginData envelope)

def apply (session : Session) : Command → Session × Action
  | .ehlo name => session.hello name true
  | .helo name => session.hello name false
  | .reset => ({ session with transaction := none }, .reply ⟨250, "2.0.0 Reset"⟩)
  | .noop => (session, .reply ⟨250, "2.0.0 OK"⟩)
  | .help =>
      (session, .reply ⟨214, "2.0.0 EHLO HELO MAIL RCPT DATA RSET NOOP QUIT VRFY HELP STARTTLS"⟩)
  | .verify => (session, .reply ⟨252, "2.5.2 Cannot verify user"⟩)
  | .quit => (session, .quit)
  | .startTls =>
      (session, if session.extended then .startTls else .reply ⟨503, "5.5.1 Send EHLO first"⟩)
  | .unsupported => (session, .reply ⟨502, "5.5.1 Command not supported"⟩)
  | .mail sender size body => session.mail sender size body
  | .rcpt address =>
      (session,
        if session.transaction.isNone then .reply ⟨503, "5.5.1 Send MAIL first"⟩
        else .checkRecipient address)
  | .data => session.data

/-- Whether an accepted recipient is the one asked for: only local accounts fold case. -/
def sameRecipient (isLocal : Bool) (old address : Address) : Bool :=
  if isLocal then eqIgnoreAsciiCase old.asStr address.asStr else old == address

/-- A recipient that was found and may be new to the transaction. -/
def addRecipient (session : Session) (envelope : Envelope) (address : Address) (isLocal : Bool) :
    Session × Reply :=
  if envelope.recipients.any (sameRecipient isLocal · address) then
    (session, ⟨250, "2.1.5 Recipient accepted"⟩)
  else if session.maxRecipients ≤ envelope.recipients.length then
    (session, ⟨452, "4.5.3 Too many recipients"⟩)
  else
    ({ session with
        transaction := some { envelope with recipients := envelope.recipients ++ [address] } },
      ⟨250, "2.1.5 Recipient accepted"⟩)

def routedRecipientResult (session : Session) (address : Address) (found isLocal : Bool) :
    Session × Reply :=
  match session.transaction with
  | none => (session, ⟨503, "5.5.1 Send MAIL first"⟩)
  | some envelope =>
      if found then session.addRecipient envelope address isLocal
      else (session, ⟨550, "5.1.1 Recipient unavailable; relay denied"⟩)

end Session

end Rustymail.Server
