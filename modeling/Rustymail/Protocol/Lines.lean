import Rustymail.Core.Text
import Rustymail.Lib.Checked

/-!
# Line framing

`LineDecoder`, the incremental CRLF framing of both ends.
-/

namespace Rustymail

open Checked

/-- Transfer encoding, as MAIL announces it. -/
inductive Body where
  | sevenBit
  | eightBitMime
  deriving DecidableEq, Repr

inductive FrameError where
  | tooLong
  | invalidLineEnding
  deriving DecidableEq, Repr

structure LineDecoder where
  buffer : Text
  limit : Nat
  complete : Bool
  deriving DecidableEq

namespace LineDecoder

def new (limit : Nat) : LineDecoder := ⟨[], limit, false⟩

/-- The body of the loop in `feed_buffered`: take in one byte. -/
def push (decoder : LineDecoder) (byte : UInt8) : Except FrameError LineDecoder :=
  if decoder.buffer.length = decoder.limit then .error .tooLong
  else if byte = 0 ∨ (byte = lf ∧ decoder.buffer.getLast? ≠ some cr)
      ∨ (decoder.buffer.getLast? = some cr ∧ byte ≠ lf) then .error .invalidLineEnding
  else .ok { decoder with buffer := decoder.buffer ++ [byte], complete := decide (byte = lf) }

/-- `feed_buffered`, with the bytes it leaves over in place of the number it used. -/
def feedBuffered (decoder : LineDecoder) : Text → Except FrameError (LineDecoder × Text)
  | [] => .ok (decoder, [])
  | byte :: rest =>
      if decoder.complete then .ok (decoder, byte :: rest)
      else
        match decoder.push byte with
        | .error e => .error e
        | .ok decoder => if decoder.complete then .ok (decoder, rest) else decoder.feedBuffered rest

def frame (decoder : LineDecoder) : Option Text :=
  if decoder.complete then some decoder.buffer else none

def clear (decoder : LineDecoder) : LineDecoder := { decoder with buffer := [], complete := false }

def bufferedBytes (decoder : LineDecoder) : Nat := decoder.buffer.length

end LineDecoder

end Rustymail
