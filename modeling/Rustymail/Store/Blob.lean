import Rustymail.Store.Acceptance

/-!
# Staged messages

`StagedMessage`: what `append` and `prepare` compute. Its file is on the disk, so that here `append`
only tells what it writes there, and what may go wrong with the disk is an argument.
-/

namespace Rustymail

/-- `StagedMessage`. The running hash is the list of the bytes it has been given. -/
structure StagedMessage where
  root : Text
  id : Uuid
  buffer : Text
  bufferLimit : Nat
  hashed : Text
  size : Nat
  maxSize : Nat
  poisoned : Bool
  bounded : size ≤ maxSize
  limited : maxSize ≤ maxStoredBytes

namespace StagedMessage

/-- A stage just created. -/
def new (root : Text) (id : Uuid) (bufferLimit maxSize : Nat) (limited : maxSize ≤ maxStoredBytes) :
    StagedMessage where
  root := root
  id := id
  buffer := []
  bufferLimit := bufferLimit
  hashed := []
  size := 0
  maxSize := maxSize
  poisoned := false
  bounded := Nat.zero_le _
  limited := limited

/-- The loop of `append`: what goes to the file, in full buffers, and the buffer at its end. -/
def fill (limit : Nat) : (buffer bytes : Text) → Text × Text
  | buffer, [] => ([], buffer)
  | buffer, byte :: rest =>
      if (buffer ++ [byte]).length = limit then
        let (written, buffer') := fill limit [] rest
        (buffer ++ [byte] ++ written, buffer')
      else fill limit (buffer ++ [byte]) rest

def poison (stage : StagedMessage) : StagedMessage := { stage with poisoned := true }

/-- `append`: the stage and what has gone to the file. A failure leaves the stage poisoned. -/
def append (stage : StagedMessage) (bytes : Text) (fault : Option StoreError) :
    StagedMessage × Except StoreError Text :=
  if stage.poisoned then (stage, .error .poisonedStage)
  else if hsize : stage.size + bytes.length ≤ stage.maxSize then
    match fault with
    | some e => (stage.poison, .error e)
    | none =>
        let (written, buffer) := fill stage.bufferLimit stage.buffer bytes
        ({ stage with
            buffer := buffer
            hashed := stage.hashed ++ bytes
            size := stage.size + bytes.length
            bounded := hsize }, .ok written)
  else (stage.poison, .error .sizeLimit)

/-- The token that `prepare` makes once everything is on the disk. -/
def prepared (sha256 : Text → Text) (stage : StagedMessage) : PreparedMessage where
  root := stage.root
  id := stage.id
  size := stage.size
  hash := sha256 stage.hashed
  size_le := stage.bounded.trans stage.limited

end StagedMessage

end Rustymail
