import Rustymail.Client.Smtp

/-!
# Reading and writing a body

What a course of `send_body` has read from its reader and written to the wire.
-/

namespace Rustymail.Client

structure Transfer where
  read : Text := []
  ended : Bool := false
  broken : Bool := false
  written : Text := []
  deriving DecidableEq

namespace Transfer

def observe (transfer : Transfer) : (question : Ask) → question.Answer → Transfer
  | .pump, .bytes [] => { transfer with ended := true }
  | .pump, .bytes chunk => { transfer with read := transfer.read ++ chunk }
  | .pump, .failed => { transfer with broken := true }
  | .write _ bytes, _ => { transfer with written := transfer.written ++ bytes }
  | _, _ => transfer

/-- After these questions and answers. -/
def after (seen : List (Σ question : Ask, question.Answer)) : Transfer :=
  seen.foldl (fun transfer exchange => transfer.observe exchange.1 exchange.2) {}

/-- The reader has read from this text, in whatever chunks, and has not come to its end too early. -/
structure Faithful (stored : Text) (transfer : Transfer) : Prop where
  whole : transfer.broken = false
  within : transfer.read <+: stored
  ended : transfer.ended = true → transfer.read = stored

end Transfer

/-- `send_body` on a message. -/
def Message.send (message : Message) : Talk Failure Unit :=
  sendBody message (message.storedSize + 1) .start

end Rustymail.Client
