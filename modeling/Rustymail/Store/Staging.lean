import Rustymail.Store.Depot

/-!
# Staging, write by write

`append` and `prepare` of a staged message down to the single disk jobs they wait for. A job is one
`write_all`; it succeeds, or it fails with a part of its bytes written, or its waiter is cancelled
while it goes on and may still write any part of them. `StagedMessage` has the same operations with
whatever may happen on the disk folded into one argument.
-/

namespace Rustymail

/-- How waiting for a `write_all` in a blocking task ends. -/
inductive WriteOutcome where
  | done
  | failed (torn : Nat) (error : StoreError)
  | cancelled (torn : Nat)
  deriving DecidableEq

/-- How a call ends: it returns, or its future is dropped. -/
inductive Ended (α : Type) where
  | returned (result : Except StoreError α)
  | cancelled

/-- The state of a `StagedMessage` together with its `StageDisk`. -/
structure Staging where
  id : Uuid
  buffer : Text
  bufferLimit : Nat
  hashed : Text
  size : Nat
  maxSize : Nat
  poisoned : Bool
  /-- What has been written to the file. -/
  content : Text
  /-- The directory under whose name the file is. -/
  directory : Directory
  /-- The longest that the buffer has been: history, not state. -/
  peak : Nat

/-- One call of `append`: its bytes, whether its fault point strikes, and how its writes end. A
write beyond the list succeeds. -/
structure AppendCall where
  bytes : Text
  hit : Bool := false
  writes : List WriteOutcome := []

namespace Staging

/-- `create`. -/
def new (id : Uuid) (bufferLimit maxSize : Nat) : Staging where
  id := id
  buffer := []
  bufferLimit := bufferLimit
  hashed := []
  size := 0
  maxSize := maxSize
  poisoned := false
  content := []
  directory := .staging
  peak := 0

/-- `self.buffer.extend_from_slice`. -/
def extend (stage : Staging) (bytes : Text) : Staging :=
  { stage with
    buffer := stage.buffer ++ bytes
    peak := max stage.peak (stage.buffer ++ bytes).length }

/-- `write_all` of the whole buffer, of which `n` bytes reach the file; the buffer has been taken. -/
def flush (stage : Staging) (n : Nat) : Staging :=
  { stage with buffer := [], content := stage.content ++ stage.buffer.take n }

/-- The loop of `append`, for at most `fuel` rounds. -/
def appendLoop : Nat → Staging → Text → List WriteOutcome → Option (Staging × Ended Unit)
  | 0, _, _, _ => none
  | fuel + 1, stage, remaining, writes =>
      if remaining = [] then some (stage, .returned (.ok ()))
      else
        let count := min remaining.length (stage.bufferLimit - stage.buffer.length)
        let stage := stage.extend (remaining.take count)
        let remaining := remaining.drop count
        if stage.buffer.length = stage.bufferLimit then
          match writes.headD .done with
          | .done => appendLoop fuel (stage.flush stage.buffer.length) remaining writes.tail
          | .failed torn e => some (stage.flush torn, .returned (.error e))
          | .cancelled torn => some (stage.flush torn, .cancelled)
        else appendLoop fuel stage remaining writes

/-- `append`, whose loop is given `fuel` rounds. -/
def append (fuel : Nat) (stage : Staging) (call : AppendCall) : Option (Staging × Ended Unit) :=
  if stage.poisoned then some (stage, .returned (.error .poisonedStage))
  else if stage.size + call.bytes.length ≤ stage.maxSize then
    -- The token that only a completed write gives back.
    let stage := { stage with poisoned := true }
    if call.hit then some (stage, .returned (.error .io))
    else
      match appendLoop fuel stage call.bytes call.writes with
      | some (stage, .returned (.ok ())) =>
          some ({ stage with
            hashed := stage.hashed ++ call.bytes
            size := stage.size + call.bytes.length
            poisoned := false }, .returned (.ok ()))
      | unfinished => unfinished
  else some ({ stage with poisoned := true }, .returned (.error .sizeLimit))

/-- One `append` after the other, and how each of them ended. -/
def appends (fuel : Nat) : Staging → List AppendCall → Option (Staging × List (Ended Unit))
  | stage, [] => some (stage, [])
  | stage, call :: rest =>
      match stage.append fuel call with
      | none => none
      | some (stage, ended) => (appends fuel stage rest).map fun (stage, more) => (stage, ended :: more)

/-- What happens while the job of `prepare` runs. -/
structure PrepareInput where
  hit : FaultPoint → Bool := fun _ => false
  /-- What a failing `write_all` of the last buffer has written. -/
  torn : Option Nat := none
  sync : Bool := false
  taken : Bool := false
  rename : Bool := false
  syncDirectory : Directory → Bool := fun _ => false
  /-- The waiter is cancelled; the job goes on. -/
  cancelled : Bool := false

/-- What the `PreparedMessage` says of its file. -/
structure Token where
  id : Uuid
  size : Nat
  hash : Text
  deriving DecidableEq

/-- The job of `prepare_with_hook`. -/
def prepareJob (sha256 : Text → Text) (stage : Staging) (input : PrepareInput) :
    Staging × Except StoreError Token :=
  if input.hit .flush then ({ stage with buffer := [] }, .error .io)
  else
    match input.torn with
    | some torn => (stage.flush torn, .error .io)
    | none =>
        let written := stage.flush stage.buffer.length
        if input.hit .fileSync ∨ input.sync ∨ input.hit .fileSynced then (written, .error .io)
        else
          match blobPath written.id.text with
          | .error e => (written, .error e)
          | .ok _ =>
              if input.taken then (written, .error .invalidId)
              else if input.hit .rename ∨ input.rename then (written, .error .io)
              else
                let renamed := { written with directory := .blobs }
                if input.hit .renamed ∨ input.hit .blobDirectorySync ∨ input.syncDirectory .blobs
                    ∨ input.hit .stagingDirectorySync ∨ input.syncDirectory .staging
                    ∨ input.hit .directoriesSynced then
                  (renamed, .error .io)
                else (renamed, .ok ⟨stage.id, stage.size, sha256 stage.hashed⟩)

/-- `prepare`. -/
def prepare (sha256 : Text → Text) (stage : Staging) (input : PrepareInput) :
    Staging × Ended Token :=
  if stage.poisoned then (stage, .returned (.error .poisonedStage))
  else
    let (stage, result) := prepareJob sha256 stage input
    (stage, if input.cancelled then .cancelled else .returned result)

end Staging

end Rustymail
