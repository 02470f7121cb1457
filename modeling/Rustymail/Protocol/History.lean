import Rustymail.Lib.Distinct
import Rustymail.Lib.Runs
import Rustymail.Protocol.Session

/-!
# What a session's history says

The transaction of a `Session` told from the calls made and the answers given, without its state.
-/

namespace Rustymail.Server.Session

/-- A call of a session. Whether an address is local follows from its domain. -/
inductive Call where
  | apply (command : Command)
  | routed (address : Address) (found : Bool)
  deriving DecidableEq

/-- A call and what it returned. -/
structure Event where
  call : Call
  answer : Action
  deriving DecidableEq

section

variable (isLocal : Text → Bool)

def perform (session : Session) : Call → Session × Action
  | .apply command => session.apply command
  | .routed address found =>
      let (session, reply) := session.routedRecipientResult address found (isLocal address.domain)
      (session, .reply reply)

/-- A session together with everything that has happened in it. -/
structure Past where
  session : Session
  history : List Event

def Past.call (past : Past) (call : Call) : Past :=
  let (session, answer) := past.session.perform isLocal call
  ⟨session, past.history ++ [⟨call, answer⟩]⟩

def past (maxMessageBytes maxRecipients : Nat) (calls : List Call) : Past :=
  Runs.run (Past.call isLocal) ⟨new maxMessageBytes maxRecipients, []⟩ calls

/-- Two spellings of one recipient. -/
def same (old address : Address) : Bool := sameRecipient (isLocal address.domain) old address

end

namespace Event

/-- Whether the answer is a reply with code 250. -/
def positive (event : Event) : Bool :=
  match event.answer with
  | .reply reply => reply.code == 250
  | _ => false

/-- The greetings, RSET, every MAIL, and a DATA that begins. -/
def resets (event : Event) : Bool :=
  match event.call, event.answer with
  | .apply (.ehlo _), _ => true
  | .apply (.helo _), _ => true
  | .apply .reset, _ => true
  | .apply (.mail _ _ _), _ => true
  | .apply .data, .beginData _ => true
  | _, _ => false

/-- The recipient an event accepts. -/
def accepted? (event : Event) : Option Address :=
  match event.call with
  | .routed address _ => if event.positive then some address else none
  | _ => none

/-- Whether an event is a greeting, and then whether it is EHLO. -/
def greeted? (event : Event) : Option Bool :=
  match event.call with
  | .apply (.ehlo _) => some true
  | .apply (.helo _) => some false
  | _ => none

end Event

/-- The recipients accepted in a history, in order and with repetitions. -/
def accepted (events : List Event) : List Address := events.filterMap Event.accepted?

/-- The latest greeting. -/
def latestGreeting (history : List Event) : Option Bool :=
  (history.filterMap Event.greeted?).getLast?

/-- A MAIL that was accepted with 250 and that nothing has ended since. -/
def OpenMail (history : List Event) (sender : Option Address) (size : Option Nat)
    (body : Option Body) (since : List Event) : Prop :=
  ∃ before mail, history = before ++ mail :: since ∧ mail.call = .apply (.mail sender size body)
    ∧ mail.positive = true ∧ ∀ event ∈ since, event.resets = false

end Rustymail.Server.Session
