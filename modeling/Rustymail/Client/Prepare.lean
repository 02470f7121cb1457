import Rustymail.Client.Smtp
import Rustymail.Protocol.Headers

/-!
# Preparing a message on the command line

`message::prepare`: everything is read and checked once before the network is used, and what is kept
goes to a temporary file that every attempt reads again.
-/

namespace Rustymail.Client

structure InputLimits where
  messageBytes : Nat := 25 * 1024 * 1024
  headerBytes : Nat := 65536

/-- `InputLimits::validate`. -/
abbrev InputLimits.Valid (limits : InputLimits) : Prop :=
  (1024 ≤ limits.messageBytes ∧ limits.messageBytes ≤ 25 * 1024 * 1024)
    ∧ limits.headerBytes ≠ 0 ∧ limits.headerBytes ≤ limits.messageBytes

inductive PrepareError where
  | io
  | frame (error : FrameError)
  | header
  | other (text : String)
  deriving DecidableEq

/-- One round of the loop: what the reader gives, if it does not fail, and whether the temporary file
takes what is written to it. -/
structure InputRound where
  read : Option Text
  wrote : Bool := true

/-- The temporary file's bytes, and what is known about them. -/
structure Snapshot where
  bytes : Text
  size : Nat
  body : Body

structure Preparing where
  line : LineDecoder := .new 1000
  filter : HeaderFilter := .submission
  inputSize : Nat := 0
  size : Nat := 0
  headerBytes : Nat := 0
  headers : Bool := true
  body : Body := .sevenBit

namespace Preparing

/-- A complete line: is it kept? -/
def retain (limits : InputLimits) (state : Preparing) (frame : Text) :
    Except PrepareError (Preparing × Bool) :=
  if state.headers then
    let state := { state with headerBytes := state.headerBytes + frame.length }
    if limits.headerBytes < state.headerBytes then .error (.other "message headers exceed limit")
    else if frame = crlf then .ok ({ state with headers := false }, true)
    else
      match state.filter.retain frame with
      | none => .error .header
      | some (filter, kept) => .ok ({ state with filter := filter }, kept)
  else .ok ({ state with body := if isAscii frame then state.body else .eightBitMime }, true)

/-- The bytes of one chunk. The loop over a chunk and the loop inside `feed_buffered` are one. -/
def chunk (limits : InputLimits) :
    Text → Preparing → (output : Text) → Except PrepareError (Preparing × Text)
  | [], state, output => .ok (state, output)
  | byte :: rest, state, output =>
      match state.line.push byte with
      | .error e => .error (.frame e)
      | .ok line =>
          match line.frame with
          | none => chunk limits rest { state with line := line } output
          | some frame =>
              match state.retain limits frame with
              | .error e => .error e
              | .ok (state, kept) =>
                  chunk limits rest { state with line := line.clear }
                    (if kept then output ++ frame else output)

/-- The loop over the reader. Its list ends where nothing more can be read. -/
def rounds (limits : InputLimits) :
    List InputRound → Preparing → (file : Text) → Except PrepareError (Preparing × Text)
  | [], state, file => .ok (state, file)
  | round :: rest, state, file =>
      match round.read with
      | none => .error .io
      | some [] => .ok (state, file)
      | some (byte :: bytes) =>
          let inputSize := state.inputSize + (byte :: bytes).length
          if limits.messageBytes < inputSize then .error (.other "message exceeds input limit")
          else
            match chunk limits (byte :: bytes) { state with inputSize := inputSize } [] with
            | .error e => .error e
            | .ok (state, output) =>
                if round.wrote then
                  rounds limits rest { state with size := state.size + output.length }
                    (file ++ output)
                else .error .io

end Preparing

/-- `prepare`. Creating the temporary file may fail, and so may flushing it. -/
def prepare (limits : InputLimits) (created flushed : Bool) (input : List InputRound) :
    Except PrepareError Snapshot :=
  if ¬ limits.Valid then .error (.other "invalid message input bounds")
  else if created = false then .error .io
  else
    match Preparing.rounds limits input {} [] with
    | .error e => .error e
    | .ok (state, file) =>
        if state.headers = true ∨ state.line.bufferedBytes ≠ 0 then
          .error (.other "mail requires complete CRLF lines and a header/body separator")
        else if flushed = false then .error .io
        else .ok ⟨file, state.size, state.body⟩

/-- The message of an attempt to send the snapshot. -/
def Snapshot.message (snapshot : Snapshot) (sender recipient : Address) : Message where
  sender := some sender
  recipient := recipient
  body := snapshot.body
  storedSize := snapshot.size
  omitPrefix := []

end Rustymail.Client
