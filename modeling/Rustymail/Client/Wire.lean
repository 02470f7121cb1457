import Rustymail.Client.Peer
import Rustymail.Protocol.Framing

/-!
# The client's side of a connection

`line` on the `BufReader` that an attempt reads from: what has been read ahead, the pieces that are
still to come, and what comes behind them.
-/

namespace Rustymail.Client

open Dialogue

/-- What comes behind the last byte: the end, an error, or nothing until the deadline. -/
inductive Ending where
  | closed
  | broken
  | silent
  deriving DecidableEq, Repr

/-- A `BufReader`, the number of times it was asked for a line, and whether a deadline has passed. -/
structure Wire where
  pieces : List Text
  ending : Ending
  asked : Nat := 0
  elapsed : Bool := false
  deriving DecidableEq

namespace Wire

/-- The bytes that have not been consumed. -/
def bytes (wire : Wire) : Text := wire.pieces.flatten

/-- The loop of `line`. Bytes that end in an error are not consumed. -/
def lineLoop (wire : Wire) (decoder : LineDecoder) :
    List Text → Option (Option Text) × Wire
  | [] =>
      match wire.ending with
      | .closed =>
          (if decoder.bufferedBytes = 0 then some none else none, { wire with pieces := [] })
      | .broken => (none, { wire with pieces := [] })
      | .silent => (none, { wire with pieces := [], elapsed := true })
  | piece :: rest =>
      if piece.isEmpty then lineLoop wire decoder rest
      else
        match decoder.feedBuffered piece with
        | .error _ => (none, { wire with pieces := piece :: rest })
        | .ok (decoder, left) =>
            if decoder.complete then (some decoder.takeLine.2, { wire with pieces := left :: rest })
            else lineLoop wire decoder rest

/-- `line`. -/
def line (wire : Wire) (limit : Nat) : Option (Option Text) × Wire :=
  lineLoop { wire with asked := wire.asked + 1 } (.new limit) wire.pieces

/-- A reply is read line by line, and nothing else is asked meanwhile. -/
def answer (wire : Wire) : (question : Ask) → question.Answer × Wire
  | .line _ => wire.line 512
  | .prefetched => (!wire.bytes.isEmpty, wire)
  | .connect | .handshake | .write _ _ | .beforeBody => (true, wire)
  | .pump => (.failed, wire)

end Wire

/-- Does the question ask for a line? -/
def Ask.reads : Ask → Bool
  | .line _ => true
  | _ => false

/-- What becomes of a talk on this wire, up to its first question of another kind. -/
abbrev Wire.play {ε α : Type} (wire : Wire) (talk : Talk ε α) : Talk ε α × Wire :=
  Dialogue.play Ask.reads Wire.answer talk wire

/-- The capabilities after more lines; only those of a reply with code 250 list any. -/
def listing (capture : Bool) (code : Nat) (capabilities : Capabilities) (lines : List Text) :
    Option Capabilities :=
  if capture && decide (code = 250) then
    lines.foldlM (fun capabilities line => capabilities.capture (line.drop 4)) capabilities
  else some capabilities

/-- Every value behind a SIZE in the lines after the first is a number below 2^64. -/
def SizesReadable (lines : List Text) : Prop :=
  ∀ line ∈ lines.tail, ∀ keyword value others, asciiWords (line.drop 4) = keyword :: value :: others →
    uppercase keyword = ascii "SIZE" → (parseU64 value).isSome

/-- The lines as they were sent. -/
def onStream (lines : List Text) : Text := lines.flatMap (· ++ crlf)

end Rustymail.Client
