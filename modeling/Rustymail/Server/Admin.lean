import Rustymail.Lib.Json
import Rustymail.Store.Identity

/-!
# Management frames

`admin.rs`: one JSON value on one line, with a limit for each direction, and the page of credentials
that is answered in one.
-/

namespace Rustymail.Server

inductive FrameKind where
  | request
  | response
  deriving DecidableEq

def FrameKind.limit : FrameKind → Nat
  | .request => 16 * 1024
  | .response => 64 * 1024

inductive FrameError where
  | other (message : String)
  | transport
  deriving DecidableEq

/-! ### Reading -/

/-- `read_until` on a `take`: what arrives is taken up to the first newline or until there is no more
room. The end of the list is the end of the stream. -/
def readUntil (room : Nat) (bytes : Text) : List (Except FrameError Text) → Except FrameError Text
  | [] => .ok bytes
  | arrival :: rest =>
      if room = 0 then .ok bytes
      else
        match arrival with
        | .error e => .error e
        | .ok piece =>
            let taken := piece.take room
            if 10 ∈ taken then .ok (bytes ++ (taken.takeWhile (· ≠ 10) ++ [10]))
            else readUntil (room - taken.length) (bytes ++ taken) rest

def readFrame (kind : FrameKind) (arrivals : List (Except FrameError Text)) :
    Except FrameError Text :=
  match readUntil (kind.limit + 1) [] arrivals with
  | .error e => .error e
  | .ok bytes =>
      if kind.limit < bytes.length ∨ bytes.getLast? ≠ some 10 then
        .error (.other "invalid management frame")
      else .ok bytes

/-! ### Writing -/

/-- The sink that a value is serialized into: `limit - bytes.len()` does not underflow. -/
structure EncodedFrame where
  bytes : Text
  limit : Nat
  fits : bytes.length ≤ limit

namespace EncodedFrame

def new (limit : Nat) : EncodedFrame := ⟨[], limit, Nat.zero_le limit⟩

def write (frame : EncodedFrame) (piece : Text) : Except FrameError EncodedFrame :=
  if h : frame.limit - frame.bytes.length < piece.length then
    .error (.other "management response exceeds frame limit")
  else
    .ok ⟨frame.bytes ++ piece, frame.limit, by
      have hfits := frame.fits
      rw [List.length_append]
      omega⟩

end EncodedFrame

/-- What has been sent afterwards. -/
def writeFrame (json : Json.Serializer) (sent : Text) (value : json.Value) (kind : FrameKind) :
    Text × Except FrameError Unit :=
  match (json.pieces value).foldlM EncodedFrame.write (.new (kind.limit - 1)) with
  | .error e => (sent, .error e)
  | .ok frame => (sent ++ (frame.bytes ++ [10]), .ok ())

/-! ### A page of credentials -/

def scopeName : Scope → Text
  | .mail => ascii "mail"
  | .readOnly => ascii "read_only"

variable (json : Json.Serializer)

def optionalNumber : Option Int → json.Value
  | none => json.null
  | some n => json.number n

/-- A `Value` keeps its fields in the order of their names. -/
def summaryFields (summary : CredentialSummary) : List (Text × json.Value) :=
  [(ascii "id", json.number summary.id),
    (ascii "label", json.string summary.label),
    (ascii "last_used_at_ms", optionalNumber json summary.lastUsedAtMs),
    (ascii "revoked_at_ms", optionalNumber json summary.revokedAtMs),
    (ascii "scope", json.string (scopeName summary.scope)),
    (ascii "selector", json.string summary.selector)]

/-- The result of a `CredentialList` request. -/
def credentialsValue (page : List CredentialSummary) : json.Value :=
  json.object [(ascii "credentials",
    json.array (page.map fun summary => json.object (summaryFields json summary)))]

/-- The response to a request that was carried out. -/
def succeeded (result : json.Value) : json.Value :=
  json.object [(ascii "ok", json.bool true), (ascii "result", result)]

end Rustymail.Server
