import Rustymail.Lib.Runs
import Rustymail.Store.Depot

/-!
# Verified reading

`VerifiedReader`: the bytes of a blob's file, with a successful end only where they are the blob's.
What the file answers to a read is part of the read, so that it may give anything at any time. The
running hash is the list of the bytes it has been given.
-/

namespace Rustymail

structure VerifiedReader where
  expectedSize : Nat
  expectedHash : Text
  readBytes : Nat
  hashed : Text
  verified : Bool
  failed : Bool
  counted : readBytes = hashed.length

/-- The errors of `read`: its own two, and those of the file, which may be an interruption. -/
inductive ReadError where
  | integrity
  | overflow
  | file (interrupted : Bool)
  deriving DecidableEq

/-- One call of `read`: the length of the buffer, and what the file would answer. -/
structure ReadRequest where
  capacity : Nat
  answer : Except Bool Text
  fits : ∀ chunk, answer = .ok chunk → chunk.length ≤ capacity

namespace VerifiedReader

/-- `open`, once the file is there. -/
def new (expectedSize : Nat) (expectedHash : Text) : VerifiedReader where
  expectedSize := expectedSize
  expectedHash := expectedHash
  readBytes := 0
  hashed := []
  verified := false
  failed := false
  counted := rfl

/-- The counter and the hash behind another chunk. -/
def take (reader : VerifiedReader) (chunk : Text) : VerifiedReader :=
  { reader with
    readBytes := reader.readBytes + chunk.length
    hashed := reader.hashed ++ chunk
    counted := by rw [reader.counted, List.length_append] }

/-- Are there too many bytes, or, at the end, other ones than expected? -/
def mismatch (sha256 : Text → Text) (reader : VerifiedReader) (atEnd : Bool) : Bool :=
  decide (reader.expectedSize < reader.readBytes)
    || (atEnd && (decide (reader.readBytes ≠ reader.expectedSize)
      || decide (sha256 reader.hashed ≠ reader.expectedHash)))

def read (sha256 : Text → Text) (reader : VerifiedReader) (request : ReadRequest) :
    VerifiedReader × Except ReadError Text :=
  if request.capacity = 0 ∨ reader.verified = true then (reader, .ok [])
  else if reader.failed then (reader, .error .integrity)
  else
    match request.answer with
    | .error interrupted => (reader, .error (.file interrupted))
    | .ok chunk =>
        if 2 ^ 64 ≤ reader.readBytes + chunk.length then (reader, .error .overflow)
        else if (reader.take chunk).mismatch sha256 chunk.isEmpty then
          ({ reader.take chunk with failed := true }, .error .integrity)
        else ({ reader.take chunk with verified := chunk.isEmpty }, .ok chunk)

end VerifiedReader

/-- What a read has returned. -/
def returned : Except ReadError Text → Text
  | .ok chunk => chunk
  | .error _ => []

/-- A reader and the results of the reads so far. -/
structure Readout where
  reader : VerifiedReader
  results : List (Except ReadError Text)

namespace Readout

def start (expectedSize : Nat) (expectedHash : Text) : Readout :=
  ⟨.new expectedSize expectedHash, []⟩

def next (sha256 : Text → Text) (readout : Readout) (request : ReadRequest) : Readout :=
  let (reader, result) := readout.reader.read sha256 request
  ⟨reader, readout.results ++ [result]⟩

def run (sha256 : Text → Text) (readout : Readout) (requests : List ReadRequest) : Readout :=
  Runs.run (next sha256) readout requests

/-- All bytes returned so far. -/
def content (readout : Readout) : Text := readout.results.flatMap returned

end Readout

/-- The file gives this content in pieces, and no piece that is empty before its end. -/
def Supplies (content : Text) : List ReadRequest → Prop
  | [] => True
  | request :: rest => ∃ chunk left, request.answer = .ok chunk ∧ content = chunk ++ left
      ∧ (chunk = [] → request.capacity = 0 ∨ content = []) ∧ Supplies left rest

/-! ### Export -/

/-- One round of `io::copy`: a read into a buffer with room, and where the write breaks off. -/
structure CopyRound where
  request : ReadRequest
  room : 0 < request.capacity
  breaksAt : Option Nat

/-- `io::copy`: what has been written, and the result once there is one. -/
def ioCopy (sha256 : Text → Text) :
    List CopyRound → VerifiedReader → (written : Text) → Text × Option (Except StoreError Nat)
  | [], _, written => (written, none)
  | round :: rest, reader, written =>
      match reader.read sha256 round.request with
      | (reader, .error (.file true)) => ioCopy sha256 rest reader written
      | (_, .error _) => (written, some (.error .io))
      | (_, .ok []) => (written, some (.ok written.length))
      | (reader, .ok chunk) =>
          match round.breaksAt with
          | some n => (written ++ chunk.take n, some (.error .io))
          | none => ioCopy sha256 rest reader (written ++ chunk)

/-- The row that `export` selects: the account must have the message in one of its mailboxes. -/
def Db.exported? (db : Db) (address : Address) (messageId : Text) : Option Blob := do
  let account ← db.accountByLogin? address.localKey
  let message ← db.message? messageId
  let blob ← db.blob? message.blobId
  if db.mailboxMessages.any fun row => row.messageId == message.id
      && (Keyed.lookup Mailbox.id db.mailboxes row.mailboxId).any fun box =>
        box.accountId == account.id
  then some blob else none

/-- `export`: what the destination has got, and the result once there is one. -/
def exportMessage (sha256 : Text → Text) (db : Db) (address : Address) (messageId : Text)
    (opened : Except StoreError Unit) (rounds : List CopyRound) :
    Text × Option (Except StoreError Nat) :=
  if validId messageId = false then ([], some (.error .invalidId))
  else
    match db.exported? address messageId with
    | none => ([], some (.error .notFound))
    | some blob =>
        match blobPath blob.id, opened with
        | .error e, _ => ([], some (.error e))
        | .ok _, .error e => ([], some (.error e))
        | .ok _, .ok () => ioCopy sha256 rounds (.new blob.sizeBytes blob.sha256) []

end Rustymail
