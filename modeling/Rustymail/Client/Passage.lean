import Rustymail.Client.Smtp
import Rustymail.Proof.FramingLemmas

/-!
# The phases of an attempt

What the other side of an attempt has seen and said: whether the connection is secured, the answer to
EHLO, the envelope with its replies, and the body with its reader. A handshake starts afresh.
-/

namespace Rustymail.Client

/-- `load`: every client outside the tests has a TLS configuration. -/
def SmtpClient.load (greeting : Text) (starttls : Bool) (authorization : Option Text) : SmtpClient :=
  ⟨greeting, true, starttls, authorization⟩

structure Passage where
  secured : Bool := false
  greeted : Bool := false
  offers : List Text := []
  envelope : Text := []
  codes : List Nat := []
  asked : Bool := false
  marked : Bool := false
  read : Text := []
  ended : Bool := false
  deriving DecidableEq

namespace Passage

/-- A command: EHLO asks for offers, MAIL opens the envelope, and what follows belongs to it. -/
def command (passage : Passage) (bytes : Text) : Passage :=
  if (ascii "EHLO ").isPrefixOf bytes then { passage with greeted := true, offers := [] }
  else if (ascii "MAIL FROM:").isPrefixOf bytes then
    { passage with greeted := false, envelope := bytes, codes := [] }
  else
    { passage with
      greeted := false
      envelope := if passage.envelope = [] then [] else passage.envelope ++ bytes }

/-- A line of a reply: an offer, or the end of a reply to the envelope. -/
def line (passage : Passage) (line : Text) : Passage :=
  if passage.greeted then { passage with offers := passage.offers ++ [line] }
  else if passage.envelope ≠ [] ∧ separator line = 32 then
    { passage with codes := passage.codes ++ [(replyCode line).getD 0] }
  else passage

def observe (passage : Passage) : (question : Ask) → question.Answer → Passage
  | .handshake, succeeded => if succeeded then { secured := true } else passage
  | .write .command bytes, _ => passage.command bytes
  | .line _, some (some text) => passage.line text
  | .beforeBody, succeeded => { passage with asked := true, marked := succeeded }
  | .pump, .bytes [] => { passage with ended := true }
  | .pump, .bytes chunk => { passage with read := passage.read ++ chunk }
  | _, _ => passage

/-- After these questions and answers. -/
def after (seen : List (Σ question : Ask, question.Answer)) : Passage :=
  seen.foldl (fun passage exchange => passage.observe exchange.1 exchange.2) {}

/-- A line of the answer to EHLO, after its first, lists AUTH with PLAIN. -/
def ListsPlain (offers : List Text) : Prop :=
  ∃ line ∈ offers.tail, replyCode line = some 250
    ∧ uppercase ((asciiWords (line.drop 4)).headD []) = ascii "AUTH"
    ∧ ∃ word ∈ (asciiWords (line.drop 4)).tail, uppercase word = ascii "PLAIN"

/-- The commands that a secured connection may carry besides EHLO and AUTH. -/
def EnvelopeCommand (message : Message) (bytes : Text) : Prop :=
  ∃ capabilities size, bytes ∈
    [message.mailCommand capabilities size, message.rcptCommand, ascii "DATA" ++ crlf,
      message.mailCommand capabilities size ++ message.rcptCommand ++ ascii "DATA" ++ crlf]

/-- A command that may be written now. -/
def MayCommand (client : SmtpClient) (message : Message) (passage : Passage) (bytes : Text) : Prop :=
  (bytes = ascii "EHLO " ++ client.greeting ++ crlf
      ∧ (passage.secured = true ∨ client.starttls = true))
    ∨ (bytes = ascii "STARTTLS" ++ crlf ∧ passage.secured = false ∧ client.starttls = true)
    ∨ (passage.secured = true ∧ ListsPlain passage.offers
      ∧ ∃ token, client.authorization = some token
        ∧ (bytes = ascii "AUTH PLAIN " ++ token ++ crlf ∨ bytes = token ++ crlf))
    ∨ (passage.secured = true ∧ EnvelopeCommand message bytes)

/-- The envelope is complete, its replies were two successes and a go-ahead, and `before_body` agreed. -/
structure MayWriteBody (message : Message) (passage : Passage) : Prop where
  secured : passage.secured = true
  envelope : ∃ capabilities size, passage.envelope
    = message.mailCommand capabilities size ++ message.rcptCommand ++ ascii "DATA" ++ crlf
  codes : ∃ mail rcpt, passage.codes = [mail, rcpt, 354] ∧ success mail = true ∧ success rcpt = true
  marked : passage.marked = true

/-- The reader has come to a successful end with the whole message, all of it lines, one of them the
separator behind the headers. -/
structure MayTerminate (message : Message) (passage : Passage) : Prop where
  ended : passage.ended = true
  whole : passage.read.length = message.storedSize
  lines : ∃ lines : List Text, passage.read = lines.flatMap (· ++ crlf)
    ∧ (∀ line ∈ lines, Framing.Clean line) ∧ [] ∈ lines

def permits (client : SmtpClient) (message : Message) (passage : Passage) : Ask → Prop
  | .write .command bytes => passage.MayCommand client message bytes
  | .write .dataWrite bytes => passage.MayWriteBody message
      ∧ (bytes = terminator → passage.MayTerminate message)
  | .write _ _ => False
  | .handshake => passage.secured = false
  | .beforeBody => passage.asked = false
  | _ => True

end Passage

end Rustymail.Client
