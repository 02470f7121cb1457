import Rustymail.Protocol.Framing
import Rustymail.Protocol.Headers
import Rustymail.Server.Data
import Rustymail.Store.Blob

/-!
# Receiving a message

`receive_message` and what it is made of: `fill_line`, the header checks, and the trace that goes in
front of every message. The reader is the list of the pieces in which the stream arrives; a piece that
is used up gives way to the next one.
-/

namespace Rustymail.Server

/-! ### Lines of DATA -/

/-- `fill_line`: the decoder, the unread pieces, and whether there was a line. An unfinished line has
used its piece up. -/
def fillLine (decoder : LineDecoder) :
    List Text → Except ErrorKind (LineDecoder × List Text × Bool)
  | [] =>
      if decoder.bufferedBytes = 0 then .ok (decoder, [], false) else .error .unexpectedEof
  | piece :: rest =>
      if piece.isEmpty then fillLine decoder rest
      else
        match decoder.feedBuffered piece with
        | .error _ => .error .invalidData
        | .ok (decoder, left) =>
            if decoder.complete then .ok (decoder, left :: rest, true) else fillLine decoder rest

theorem feedBuffered_length {decoder decoder' : LineDecoder} {bytes left : Text}
    (hopen : decoder.complete = false) (h : decoder.feedBuffered bytes = .ok (decoder', left))
    (hcomplete : decoder'.complete = true) : left.length < bytes.length := by
  cases bytes with
  | nil =>
      cases h
      rw [hopen] at hcomplete
      cases hcomplete
  | cons byte bytes =>
      have htakes := LineDecoder.feedBuffered_takes h
      rw [hopen] at htakes
      exact htakes

theorem feedBuffered_open {decoder decoder' : LineDecoder} {bytes left : Text}
    (hopen : decoder.complete = false) (h : decoder.feedBuffered bytes = .ok (decoder', left)) :
    decoder'.complete = true ∨ left = [] := by
  induction bytes generalizing decoder with
  | nil =>
      cases h
      exact Or.inr rfl
  | cons byte bytes ih =>
      rw [LineDecoder.feedBuffered, if_neg (by simp [hopen])] at h
      cases hpush : decoder.push byte with
      | error e => simp [hpush] at h
      | ok next =>
          simp only [hpush] at h
          split_ifs at h with hcomplete
          · cases h
            exact Or.inl hcomplete
          · exact ih (by simpa using hcomplete) h

theorem fillLine_length {decoder decoder' : LineDecoder} {pieces rest : List Text}
    (hopen : decoder.complete = false) (h : fillLine decoder pieces = .ok (decoder', rest, true)) :
    rest.flatten.length < pieces.flatten.length := by
  induction pieces generalizing decoder with
  | nil =>
      unfold fillLine at h
      split_ifs at h
      cases h
  | cons piece pieces ih =>
      unfold fillLine at h
      rw [List.flatten_cons, List.length_append]
      split_ifs at h with hempty
      · have hlater := ih hopen h
        omega
      · cases hfeed : decoder.feedBuffered piece with
        | error e => simp [hfeed] at h
        | ok fed =>
            obtain ⟨next, left⟩ := fed
            simp only [hfeed] at h
            split_ifs at h with hcomplete
            · cases h
              have hless := feedBuffered_length hopen hfeed hcomplete
              rw [List.flatten_cons, List.length_append]
              omega
            · have hlater := ih (by simpa using hcomplete) h
              omega

/-- The loop of `receive_message`: every line goes to `line`, up to the end of the data. Waiting for
one may fail, too. -/
def dataLoop {σ : Type} (wait : σ → Option ServerError) (line : σ → Text → Except ServerError σ)
    (state : σ) (pieces : List Text) : Except ServerError (σ × List Text) :=
  match wait state with
  | some e => .error e
  | none =>
      match _hfill : fillLine (.new 1001) pieces with
      | .error e => .error (.io e)
      | .ok (_, _, false) => .error (.io .unexpectedEof)
      | .ok (decoder, rest, true) =>
          match decoder.frame with
          | none => .error (.io .other)
          | some frame =>
              match decodeDataFrame frame with
              | .error _ => .error (.io .invalidData)
              | .ok none => .ok (state, rest)
              | .ok (some data) =>
                  match line state data with
                  | .error e => .error e
                  | .ok state => dataLoop wait line state rest
termination_by pieces.flatten.length
decreasing_by exact fillLine_length rfl _hfill

/-- The loop with nothing in its way that keeps the lines. -/
def collect (pieces : List Text) : Except ServerError (List Text × List Text) :=
  dataLoop (fun _ => none) (fun lines data => .ok (lines ++ [data])) [] pieces

/-! ### The author of a submission -/

/-- `str::trim`, of an ASCII text. -/
def isTrimmed (b : UInt8) : Bool := (9 ≤ b && b ≤ 13) || b == 32

def trim (text : Text) : Text := (text.dropWhile isTrimmed).reverse.dropWhile isTrimmed |>.reverse

structure SubmissionHeaders where
  author : Option Address := none
  identityField : Bool := false
  deriving DecidableEq

/-- The mailbox in the value of a From field. The header filter has let only ASCII through. -/
def fromMailbox (value : Text) : Option Text :=
  match rsplitOnce 60 (trim value) with
  | none => some (trim value)
  | some (display, mailbox) =>
      if (display.any fun b => (ascii "<>,;:()").contains b) = true ∨ isAscii display = false then none
      else if mailbox.getLast? = some 62 then some mailbox.dropLast
      else none

namespace SubmissionHeaders

/-- `line`. Only one From field is allowed, on one line, and nothing that names another sender. -/
def line (identities : SubmissionHeaders) (line : Text) : Option SubmissionHeaders :=
  if line.head?.any isAsciiWhitespace then
    if identities.identityField then none else some identities
  else
    match splitColon line with
    | none => none
    | some (name, value) =>
        if name = [] ∨ (name.any fun b => !isAsciiAlphanumeric b && b != 45) = true then none
        else if eqIgnoreAsciiCase name (ascii "Sender") = true
            ∨ eqIgnoreAsciiCase (name.take 7) (ascii "Resent-") = true then none
        else if eqIgnoreAsciiCase name (ascii "From") then
          if identities.author.isSome then none
          else
            match (fromMailbox value).bind Address.parse with
            | none => none
            | some author => some ⟨some author, true⟩
        else some { identities with identityField := false }

end SubmissionHeaders

/-! ### `receive_message` -/

/-- The limits that receiving a message reads. -/
structure ReceiveLimits where
  messageBytes : Nat
  headerBytes : Nat

/-- What the network, the clock and the disk do in each round: a read that fails or comes too late, an
append that fails, and what becomes of `prepare`. -/
structure ReceiveFaults where
  read : Nat → Option ErrorKind := fun _ => none
  append : Nat → Option StoreError := fun _ => none
  prepare : Option StoreError := none

structure Receiving where
  round : Nat
  stage : StagedMessage
  inHeaders : Bool
  headers : Nat
  inputBytes : Nat
  filter : HeaderFilter
  identities : SubmissionHeaders

namespace Receiving

def append (faults : ReceiveFaults) (state : Receiving) (bytes : Text) :
    Except ServerError Receiving :=
  match state.stage.append bytes (faults.append state.round) with
  | (_, .error e) => .error (.storage e)
  | (stage, .ok _) => .ok { state with stage := stage, round := state.round + 1 }

def skip (state : Receiving) : Receiving := { state with round := state.round + 1 }

/-- A line of the header: the separator, or a field line that is kept or dropped. -/
def header (faults : ReceiveFaults) (submission : Bool) (state : Receiving) (data : Text) :
    Except ServerError Receiving :=
  if data = crlf then append faults { state with inHeaders := false } data
  else
    match state.filter.retain data with
    | none => .error .invalidHeaders
    | some (filter, retain) =>
        match if submission then state.identities.line data else some state.identities with
        | none => .error (.storage .permissionDenied)
        | some identities =>
            let state := { state with filter := filter, identities := identities }
            if retain then append faults state data else .ok state.skip

/-- The body of the loop, for a line that does not end the data. -/
def line (limits : ReceiveLimits) (faults : ReceiveFaults) (submission : Bool) (body : Body)
    (state : Receiving) (data : Text) : Except ServerError Receiving :=
  if body = .sevenBit ∧ isAscii data = false then .error (.io .invalidData)
  else if limits.messageBytes < state.inputBytes + data.length then .error (.storage .sizeLimit)
  else
    let state := { state with inputBytes := state.inputBytes + data.length }
    if state.inHeaders then
      if limits.headerBytes < state.headers + data.length then .error (.storage .sizeLimit)
      else header faults submission { state with headers := state.headers + data.length } data
    else append faults state data

/-- The end of the data: the author, and a separator for a message that is all header. -/
def finish (faults : ReceiveFaults) (submission : Bool) (state : Receiving) :
    Except ServerError (StagedMessage × Option Address) :=
  if submission ∧ state.identities.author = none then .error (.storage .permissionDenied)
  else
    let author := if submission then state.identities.author else none
    match if state.inHeaders then append faults state crlf else .ok state with
    | .error e => .error e
    | .ok state =>
        match faults.prepare with
        | some e => .error (.storage e)
        | none => .ok (state.stage, author)

end Receiving

/-- `receive_message`: the stage that is then prepared, the author, and the unread pieces. -/
def receiveMessage (limits : ReceiveLimits) (faults : ReceiveFaults) (submission : Bool) (body : Body)
    (tracePrefix : Text) (stage : StagedMessage) (pieces : List Text) :
    Except ServerError (StagedMessage × Option Address × List Text) :=
  let filter := if submission then HeaderFilter.submission else {}
  match Receiving.append faults ⟨0, stage, true, 0, 0, filter, {}⟩ tracePrefix with
  | .error e => .error e
  | .ok state =>
      match dataLoop (fun state => (faults.read state.round).map .io)
          (Receiving.line limits faults submission body) state pieces with
      | .error e => .error e
      | .ok (state, rest) =>
          match state.finish faults submission with
          | .error e => .error e
          | .ok (stage, author) => .ok (stage, author, rest)

/-! ### The trace -/

inductive IpAddr where
  | v4 (octets : Vector UInt8 4)
  | v6 (segments : Vector UInt16 8)

/-- Lower-case hexadecimal without leading zeros. -/
def hexadecimal (n : Nat) : Text := (Nat.toDigits 16 n).map fun c => c.toNat.toUInt8

def colonSeparated (segments : List UInt16) : Text :=
  [58].intercalate (segments.map fun segment => hexadecimal segment.toNat)

/-- The first of the longest runs of zeros: its start and its length. -/
def zeroRun (segments : List UInt16) : Nat × Nat :=
  let step := fun (state : (Nat × Nat) × (Nat × Nat) × Nat) (segment : UInt16) =>
    let (longest, current, index) := state
    if segment = 0 then
      let current := if current.2 = 0 then (index, 1) else (current.1, current.2 + 1)
      (if longest.2 < current.2 then current else longest, current, index + 1)
    else (longest, (0, 0), index + 1)
  (segments.foldl step ((0, 0), (0, 0), 0)).1

/-- `Display` of an address. -/
def IpAddr.display : IpAddr → Text
  | .v4 octets => [46].intercalate (octets.toList.map fun octet => decimal octet.toNat)
  | .v6 segments =>
      match segments.toList with
      | [0, 0, 0, 0, 0, 0xffff, a, b] =>
          ascii "::ffff:" ++ [46].intercalate
            ([a.toNat / 256, a.toNat % 256, b.toNat / 256, b.toNat % 256].map decimal)
      | segments =>
          let (start, length) := zeroRun segments
          if 1 < length then
            colonSeparated (segments.take start) ++ ascii "::"
              ++ colonSeparated (segments.drop (start + length))
          else colonSeparated segments

/-- `str::split("\r\n")`. -/
def splitCrlf : Text → List Text
  | [] => [[]]
  | b :: rest =>
      if b = cr ∧ rest.head? = some lf then [] :: splitCrlf rest.tail
      else (splitCrlf rest).modifyHead (b :: ·)
termination_by text => text.length

structure Trace where
  hostname : Text
  greeting : Option Text
  peer : IpAddr
  extended : Bool
  encrypted : Bool
  authenticated : Bool

namespace Trace

def literal (trace : Trace) : Text :=
  match trace.peer with
  | .v4 octets => ascii "[" ++ (IpAddr.v4 octets).display ++ ascii "]"
  | .v6 segments => ascii "[IPv6:" ++ (IpAddr.v6 segments).display ++ ascii "]"

def sentFrom (trace : Trace) : Text :=
  match trace.greeting.filter fun name => validDomain name with
  | some name => name ++ ascii " (" ++ trace.literal ++ ascii ")"
  | none => trace.literal

def protocol (trace : Trace) : Text :=
  match trace.extended, trace.encrypted, trace.authenticated with
  | false, _, _ => ascii "SMTP"
  | true, true, true => ascii "ESMTPSA"
  | true, true, false => ascii "ESMTPS"
  | true, false, true => ascii "ESMTPA"
  | true, false, false => ascii "ESMTP"

/-- The text of the prefix. -/
def text (trace : Trace) (sender : Option Address) (operation : Uuid) (date : Text) : Text :=
  ascii "Return-Path: <" ++ sender.elim [] Address.asStr ++ ascii ">" ++ crlf
    ++ ascii "Received: from " ++ trace.sentFrom ++ crlf
    ++ ascii "\tby " ++ trace.hostname ++ ascii " with " ++ trace.protocol ++ crlf
    ++ ascii "\tid " ++ operation.text ++ ascii "; " ++ date ++ crlf

/-- `prefix`. The RFC 2822 date of the time crate is an argument, and so is its failure. -/
def prefixText (trace : Trace) (sender : Option Address) (operation : Uuid) (date : Option Text) :
    Option Text :=
  if validDomain trace.hostname then
    match date with
    | none => none
    | some date =>
        let text := trace.text sender operation date
        if 2048 < text.length + 2
            ∨ ((splitCrlf text).any fun line => decide (998 < line.length)) = true then none
        else some text
  else none

end Trace

end Rustymail.Server
