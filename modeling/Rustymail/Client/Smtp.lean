import Rustymail.Core.Address
import Rustymail.Lib.Dialogue
import Rustymail.Protocol.Lines

/-!
# The SMTP client

One attempt to hand one message to a relay, as a dialogue with everything outside it: the network,
which may answer anything or break off at any time, the reader of the stored body, and the caller's
`before_body`. A deadline that passes is a failed answer. The read buffer belongs to the network's
side: a line is what `line` makes of the bytes received, and a handshake starts with none of them.
-/

namespace Rustymail.Client

/-- Which of the configured limits bounds a step. -/
inductive Deadline where
  | banner
  | command
  | dataCommand
  | dataWrite
  | finalReply
  deriving DecidableEq, Repr

/-- What the client asks of its surroundings. -/
inductive Ask where
  | connect
  | handshake
  | write (deadline : Deadline) (bytes : Text)
  | line (deadline : Deadline)
  | prefetched
  | beforeBody
  | pump
  deriving DecidableEq

/-- A read of the stored body: a chunk, empty at its verified end, an error, or no answer in time. -/
inductive Pumped where
  | bytes (chunk : Text)
  | failed
  | elapsed

/-- The answers: success or not, a line or the end of the input or an error, whether anything has
been read ahead, and a piece of the body. -/
abbrev Ask.Answer : Ask → Type
  | .connect | .handshake | .write _ _ | .prefetched | .beforeBody => Bool
  | .line _ => Option (Option Text)
  | .pump => Pumped

/-- A dialogue of the client that fails with `ε`. -/
abbrev Talk (ε α : Type) : Type := Dialogue Ask Ask.Answer ε α

inductive Failure where
  | connection
  | setup
  | content
  deriving DecidableEq, Repr

inductive AttemptResult where
  | delivered (code : Nat)
  | temporary (code : Nat)
  | permanent (code : Nat)
  | connectionLost
  | hold
  | deferred
  deriving DecidableEq, Repr

structure SmtpClient where
  greeting : Text
  tls : Bool
  starttls : Bool
  authorization : Option Text

structure Message where
  sender : Option Address
  recipient : Address
  body : Body
  storedSize : Nat
  omitPrefix : Text

structure Capabilities where
  pipelining : Bool := false
  starttls : Bool := false
  eightBit : Bool := false
  plain : Bool := false
  size : Option (Option Nat) := none
  deriving DecidableEq

structure Response where
  code : Nat
  capabilities : Capabilities

open Dialogue

/-! ### Replies -/

/-- `str::split_ascii_whitespace`. -/
def asciiWords (text : Text) : List Text :=
  (text.splitOnP isAsciiWhitespace).filter fun word => !word.isEmpty

def uppercaseByte (b : UInt8) : UInt8 := if isAsciiLowercase b then b - 32 else b

/-- `str::to_ascii_uppercase`. -/
def uppercase (text : Text) : Text := text.map uppercaseByte

def decimalValue (digits : Text) : Nat :=
  digits.foldl (fun value digit => value * 10 + (digit.toNat - 48)) 0

/-- `str::parse::<u64>`: an optional plus sign, then digits, below 2^64. -/
def parseU64 (text : Text) : Option Nat :=
  let digits := if text.head? = some 43 then text.tail else text
  if digits ≠ [] ∧ digits.all isAsciiDigit = true ∧ decimalValue digits < 2 ^ 64 then
    some (decimalValue digits)
  else none

/-- Read one line of an EHLO reply after the first. -/
def Capabilities.capture (capabilities : Capabilities) (text : Text) : Option Capabilities :=
  let words := asciiWords text
  let keyword := uppercase (words.headD [])
  if keyword = ascii "PIPELINING" then some { capabilities with pipelining := true }
  else if keyword = ascii "STARTTLS" then some { capabilities with starttls := true }
  else if keyword = ascii "8BITMIME" then some { capabilities with eightBit := true }
  else if keyword = ascii "AUTH" then
    some { capabilities with
      plain := words.tail.any fun word => uppercase word == ascii "PLAIN" }
  else if keyword = ascii "SIZE" then
    match words.tail with
    | [] => some { capabilities with size := some none }
    | limit :: _ => (parseU64 limit).map fun n => { capabilities with size := some (some n) }
  else some capabilities

/-- The code of a reply line: three digits at its start. -/
def replyCode (line : Text) : Option Nat :=
  match line with
  | a :: b :: c :: _ =>
      if isAsciiDigit a && isAsciiDigit b && isAsciiDigit c then
        some ((a.toNat - 48) * 100 + (b.toNat - 48) * 10 + (c.toNat - 48))
      else none
  | _ => none

/-- What follows the code: a blank, also when nothing does, ends the reply. -/
def separator (line : Text) : UInt8 := line.getD 3 32

/-- Is the line clean, and its reply still within 16 KiB? -/
def acceptable (total : Nat) (line : Text) : Bool :=
  decide (total ≤ 16384) && line.all (fun b => b < 128)
    && !line.any fun b => isAsciiControl b && b != 9

/-- The lines of a reply, at most `remaining` more. -/
def responseLines (deadline : Deadline) (capture : Bool) :
    (remaining : Nat) → (first : Bool) → (code : Option Nat) → (total : Nat) → Capabilities →
      Talk Unit Response
  | 0, _, _, _, _ => .failed ()
  | remaining + 1, first, code, total, capabilities =>
      .ask (.line deadline) fun
        | none => .failed ()
        | some none => .failed ()
        | some (some line) => do
            let total := total + line.length + 2
            let number ← found () (replyCode line)
            require (acceptable total line = true ∧ 200 ≤ number ∧ number < 600
              ∧ (∀ old ∈ code, old = number)
              ∧ (separator line = 32 ∨ separator line = 45)) ()
            let capabilities ← found ()
              (if capture && !first && decide (number = 250) then capabilities.capture (line.drop 4)
              else some capabilities)
            if separator line = 32 then pure ⟨number, capabilities⟩
            else responseLines deadline capture remaining false (some number) total capabilities

/-- `response`. -/
def response (deadline : Deadline) (capture : Bool) : Talk Unit Response :=
  responseLines deadline capture 64 true none 0 {}

/-! ### The envelope -/

/-- An I/O error is a lost connection. -/
def lost {α : Type} (talk : Talk Unit α) : Talk Failure α := talk.mapError fun _ => .connection

def write (deadline : Deadline) (bytes : Text) : Talk Unit Unit :=
  insist (.write deadline bytes) id ()

def command (bytes : Text) (capture : Bool) : Talk Unit Response := do
  write .command bytes
  response .command capture

/-- `rejected`. -/
def rejected (code : Nat) : Talk Failure AttemptResult :=
  if 400 ≤ code ∧ code ≤ 499 then .done (.temporary code)
  else if 500 ≤ code ∧ code ≤ 599 then .done (.permanent code)
  else .failed .connection

def success (code : Nat) : Bool := decide (200 ≤ code ∧ code < 300)

namespace SmtpClient

variable (client : SmtpClient)

/-- `upgrade`: everything read ahead is dropped with the plaintext stream. -/
def upgrade : Talk Failure Unit := do
  require (client.tls = true) .setup
  insist .handshake id .setup

/-- Implicit TLS comes before everything else. -/
def secure : Talk Failure Unit :=
  if client.tls && !client.starttls then client.upgrade else pure ()

def hello : Talk Failure Response := do
  let ehlo ← lost (command (ascii "EHLO " ++ client.greeting ++ crlf) true)
  require (ehlo.code = 250) .setup
  pure ehlo

/-- Greet the peer, and once more under STARTTLS. -/
def negotiate : Talk Failure Capabilities := do
  let ehlo ← client.hello
  if client.starttls then
    require (ehlo.capabilities.starttls = true) .setup
    let ready ← lost (command (ascii "STARTTLS" ++ crlf) false)
    require (ready.code = 220) .setup
    client.upgrade
    let ehlo ← client.hello
    pure ehlo.capabilities
  else pure ehlo.capabilities

def authenticate (capabilities : Capabilities) : Talk Failure Unit :=
  match client.authorization with
  | none => pure ()
  | some token => do
      require (capabilities.plain = true ∧ client.tls = true) .setup
      let first ← lost (command (ascii "AUTH PLAIN " ++ token ++ crlf) false)
      if first.code = 334 then
        let second ← lost (command (token ++ crlf) false)
        require (second.code = 235) .setup
      else require (first.code = 235) .setup

end SmtpClient

namespace Message

variable (message : Message)

/-- The size on the wire; the omitted prefix must be part of the stored message. -/
def wireSize : Option Nat :=
  if message.omitPrefix.length ≤ message.storedSize then
    some (message.storedSize - message.omitPrefix.length)
  else none

/-- Can a peer with these capabilities not take the message? -/
def refused (capabilities : Capabilities) (size : Nat) : Bool :=
  (decide (message.body = .eightBitMime) && !capabilities.eightBit)
    || (capabilities.size.bind id).any fun limit => decide (limit < size)

def mailCommand (capabilities : Capabilities) (size : Nat) : Text :=
  ascii "MAIL FROM:<" ++ message.sender.elim [] Address.asStr ++ ascii ">"
    ++ (if capabilities.size.isSome then ascii " SIZE=" ++ decimal size else [])
    ++ (if capabilities.eightBit then
        (if message.body = .eightBitMime then ascii " BODY=8BITMIME" else ascii " BODY=7BIT")
      else [])
    ++ crlf

def rcptCommand : Text := ascii "RCPT TO:<" ++ message.recipient.asStr ++ ascii ">" ++ crlf

end Message

/-- The replies to a pipelined envelope; after a 421 no further one is waited for. -/
def pipelineReplies : List Deadline → Talk Unit (List Nat)
  | [] => pure []
  | deadline :: rest => do
      let reply ← response deadline false
      if reply.code = 421 then pure [reply.code]
      else
        let codes ← pipelineReplies rest
        pure (reply.code :: codes)

/-- `envelope_pipeline`. Writing and reading overlap, but both must succeed. Bytes beyond the last
reply are an error; the outer buffer was emptied into the inner one, so its own check never fails. -/
def envelopePipeline (commands : Text) : Talk Unit (List Nat) := do
  write .command commands
  let codes ← pipelineReplies [.command, .command, .dataCommand]
  insist .prefetched (fun ahead => !ahead) ()
  pure codes

/-- The codes are read by position: MAIL, RCPT, then DATA; a missing one counts as 0. An envelope
that is refused early gives the code that refused it, any other the reply to DATA. -/
def readPipeline (codes : List Nat) : Except Nat Nat :=
  if success (codes.getD 0 0) = false then .error (codes.getD 0 0)
  else if success (codes.getD 1 0) = false then .error (codes.getD 1 0)
  else .ok (codes.getD 2 0)

/-- The envelope command by command. -/
def envelopeSequence (mail rcpt : Text) : Talk Unit (Except Nat Nat) := do
  let first ← command mail false
  if success first.code = false then pure (.error first.code)
  else
    let second ← command rcpt false
    if success second.code = false then pure (.error second.code)
    else
      write .command (ascii "DATA" ++ crlf)
      let third ← response .dataCommand false
      pure (.ok third.code)

def envelope (message : Message) (capabilities : Capabilities) (size : Nat) :
    Talk Unit (Except Nat Nat) :=
  let mail := message.mailCommand capabilities size
  let rcpt := message.rcptCommand
  if capabilities.pipelining then do
    let codes ← envelopePipeline (mail ++ rcpt ++ ascii "DATA" ++ crlf)
    pure (readPipeline codes)
  else envelopeSequence mail rcpt

/-! ### The body -/

/-- What `send_body` knows about the message so far. -/
structure BodyProgress where
  decoder : LineDecoder
  total : Nat
  first : Bool
  headers : Bool

def BodyProgress.start : BodyProgress := ⟨LineDecoder.new 1000, 0, true, true⟩

def dot : UInt8 := 46

/-- Is a complete line fit to be sent? Headers are ASCII, and so is a seven-bit body; a first line
that is to be omitted must be the expected one. -/
def fitToSend (message : Message) (first headers : Bool) (frame : Text) : Bool :=
  !((headers || decide (message.body = .sevenBit)) && !frame.all fun b => b < 128)
    && (!(first && !message.omitPrefix.isEmpty) || frame == message.omitPrefix)

/-- A line as it goes on the wire: doubled leading dot, or nothing for the omitted first line. -/
def onWire (message : Message) (first : Bool) (frame : Text) : Text :=
  if first && !message.omitPrefix.isEmpty then []
  else if frame.head? = some dot then dot :: frame
  else frame

/-- One complete line of the body. -/
def sendFrame (message : Message) (progress : BodyProgress) (output : Text) (frame : Text) :
    Option (BodyProgress × Text) :=
  if fitToSend message progress.first progress.headers frame then
    some
      ({ progress with
          decoder := progress.decoder.clear
          first := false
          headers := progress.headers && decide (frame ≠ crlf) },
        output ++ onWire message progress.first frame)
  else none

/-- The bytes of one chunk. The loop over a chunk and the loop inside `feed_buffered` are one. -/
def sendChunk (message : Message) :
    Text → BodyProgress → Text → Option (BodyProgress × Text)
  | [], progress, output => some (progress, output)
  | byte :: rest, progress, output =>
      match progress.decoder.push byte with
      | .error _ => none
      | .ok decoder =>
          match decoder.frame with
          | none => sendChunk message rest { progress with decoder := decoder } output
          | some frame =>
              match sendFrame message { progress with decoder := decoder } output frame with
              | none => none
              | some (progress, output) => sendChunk message rest progress output

/-- `send_body`. Each round takes at least one byte and `stored_size` bounds them, so that
`stored_size + 1` rounds are enough. -/
def sendBody (message : Message) : (rounds : Nat) → BodyProgress → Talk Failure Unit
  | 0, _ => .failed .content
  | rounds + 1, progress =>
      .ask .pump fun
        | .elapsed => .failed .connection
        | .failed => .failed .content
        | .bytes [] =>
            require (progress.total = message.storedSize ∧ progress.decoder.bufferedBytes = 0
              ∧ progress.headers = false) .content
        | .bytes (byte :: rest) => do
            let total := progress.total + (byte :: rest).length
            require (total ≤ message.storedSize) .content
            let (progress, output) ← found .content
              (sendChunk message (byte :: rest) { progress with total := total } [])
            lost (write .dataWrite output)
            sendBody message rounds progress

/-- The line that ends the message. -/
def terminator : Text := dot :: crlf

/-- From the go-ahead to the final reply. -/
def transmit (message : Message) : Talk Failure AttemptResult := do
  insist .beforeBody id .connection
  sendBody message (message.storedSize + 1) .start
  lost (write .dataWrite terminator)
  let reply ← lost (response .finalReply false)
  if success reply.code then pure (.delivered reply.code) else rejected reply.code

/-- `try_attempt`. -/
def SmtpClient.tryAttempt (client : SmtpClient) (message : Message) :
    Talk Failure AttemptResult := do
  insist .connect id .connection
  client.secure
  let banner ← lost (response .banner false)
  require (banner.code = 220) .setup
  let capabilities ← client.negotiate
  client.authenticate capabilities
  let size ← found .content message.wireSize
  require (message.refused capabilities size = false) .content
  let outcome ← lost (envelope message capabilities size)
  match outcome with
  | .error code => rejected code
  | .ok code => if code = 354 then transmit message else rejected code

/-- `attempt`: what an attempt that ended this way is called. -/
def attemptResult : Except Failure AttemptResult → AttemptResult
  | .ok result => result
  | .error .connection => .connectionLost
  | .error .setup => .deferred
  | .error .content => .hold

/-! ### The course of an attempt -/

/-- A complete reply with this code: every line carries it, and only the last ends the reply. -/
def IsReply (code : Nat) (lines : List Text) : Prop :=
  200 ≤ code ∧ code < 600 ∧ ∃ first last, lines = first ++ [last]
    ∧ (∀ line ∈ first, replyCode line = some code ∧ separator line = 45)
    ∧ replyCode last = some code ∧ separator last = 32

/-- How far an attempt has come: whether `before_body` has succeeded, whether the terminator has been
handed to the wire, and the lines read since then. -/
structure Course where
  marked : Bool := false
  terminated : Bool := false
  reply : List Text := []
  deriving DecidableEq

def Course.observe (course : Course) : (question : Ask) → question.Answer → Course
  | .beforeBody, succeeded => { course with marked := course.marked || succeeded }
  | .write .dataWrite bytes, _ =>
      if bytes = terminator then { course with terminated := true, reply := [] } else course
  | .line _, some (some line) =>
      if course.terminated then { course with reply := course.reply ++ [line] } else course
  | _, _ => course

/-- Nothing of a message is written before `before_body` has succeeded. -/
def Course.permits (course : Course) : Ask → Prop
  | .write .dataWrite _ => course.marked = true
  | _ => True

/-- What an attempt may be called once its terminator is on the wire. -/
def AttemptResult.Honest (course : Course) : AttemptResult → Prop
  | .delivered code => 200 ≤ code ∧ code < 300 ∧ IsReply code course.reply
  | .temporary code => 400 ≤ code ∧ code < 500 ∧ IsReply code course.reply
  | .permanent code => 500 ≤ code ∧ code < 600 ∧ IsReply code course.reply
  | .connectionLost => True
  | .hold | .deferred => False

end Rustymail.Client
