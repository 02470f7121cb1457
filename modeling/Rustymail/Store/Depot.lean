import Rustymail.Lib.Volume
import Rustymail.Store.Blob
import Rustymail.Store.World

/-!
# The two blob directories

The store together with its disk and the staged messages. A stage is written by its owner, then by
the job that `prepare` submits, one system call at a time; its waiter may be gone meanwhile. What is
left when the last holder drops it is cleaned up by another job. Until then a stage holds its
reservation and the instance lock.

Symbolic links, permissions and foreign files are left out: nobody else writes the two directories.
-/

namespace Rustymail

open Checked

inductive Directory where
  | staging
  | blobs
  deriving DecidableEq, Repr

def Directory.suffix : Directory → Text
  | .staging => ascii ".part"
  | .blobs => ascii ".eml"

def Directory.path (directory : Directory) (id : Text) : Directory × Text :=
  (directory, id ++ directory.suffix)

/-- The object a file name stands for. -/
def Directory.objectId (directory : Directory) (name : Text) : Option Text :=
  (List.isSuffixOf? directory.suffix name).filter validId

abbrev Disk := Volume Directory Text UInt8

/-- `blob::blob_path`. -/
def blobPath (id : Text) : Except StoreError (Directory × Text) :=
  if validId id then .ok (Directory.blobs.path id) else .error .invalidId

/-- `StoreOptions` as `open` lets them through. -/
structure StoreOptions where
  maxMessageBytes : Nat
  streamBufferBytes : Nat
  diskReserveBytes : Nat
  diskReservePercent : Nat
  temporaryReservedBytes : Nat
  positive : 0 < maxMessageBytes
  limited : maxMessageBytes ≤ maxStoredBytes
  buffered : 1024 ≤ streamBufferBytes ∧ streamBufferBytes ≤ 65536
  percent : diskReservePercent < 100
  room : maxMessageBytes ≤ temporaryReservedBytes

/-- How far a stage has come. The steps from `flushing` on are those of the job. -/
inductive Progress where
  | staged
  | flushing
  | flushed
  | synced
  | renamed
  | blobsSynced
  | stagingSynced
  | prepared
  | dropped
  deriving DecidableEq, Repr

/-- `StageDisk::staged`: the file still has its staging name. -/
def Progress.staging : Progress → Bool
  | .staged | .flushing | .flushed | .synced | .dropped => true
  | .renamed | .blobsSynced | .stagingSynced | .prepared => false

/-- `StageResources`, with what its holders know. `serial` identifies the allocation. -/
structure StageResources where
  serial : Nat
  message : StagedMessage
  progress : Progress

namespace StageResources

def part (stage : StageResources) : Directory × Text :=
  Directory.staging.path stage.message.id.text

def blob (stage : StageResources) : Directory × Text :=
  Directory.blobs.path stage.message.id.text

/-- Where the file of the stage is. -/
def path (stage : StageResources) : Directory × Text :=
  if stage.progress.staging then stage.part else stage.blob

end StageResources

/-- What of an `append` gets to the file. A failed write may leave any part of it. -/
def StagedMessage.reaching (stage : StagedMessage) (bytes : Text)
    (fault : Option (StoreError × Nat)) : Text :=
  if stage.poisoned ∨ stage.maxSize < stage.size + bytes.length then []
  else
    match fault with
    | some (_, torn) => (stage.buffer ++ bytes).take torn
    | none => (StagedMessage.fill stage.bufferLimit stage.buffer bytes).1

/-- What goes wrong in one step of the job: a fault point strikes, or the system call fails. -/
structure JobFault where
  hit : FaultPoint → Bool := fun _ => false
  io : Bool := false
  /-- What a failing write has written. -/
  torn : Nat := 0

/-- One step of the job of `prepare_with_hook`, up to its next system call. -/
def StageResources.advance (stage : StageResources) (fault : JobFault) (disk : Disk) :
    Option (Disk × Except StoreError Progress) :=
  match stage.progress with
  | .flushing =>
      if fault.hit .flush then some (disk, .error .io)
      else if fault.io then
        some (disk.write stage.part (stage.message.buffer.take fault.torn), .error .io)
      else some (disk.write stage.part stage.message.buffer, .ok .flushed)
  | .flushed =>
      if fault.hit .fileSync ∨ fault.io then some (disk, .error .io)
      else some (disk.fsync stage.part, .ok .synced)
  | .synced =>
      if fault.hit .fileSynced then some (disk, .error .io)
      else
        match blobPath stage.message.id.text with
        | .error e => some (disk, .error e)
        | .ok destination =>
            if (disk.file destination).isSome then some (disk, .error .invalidId)
            else if fault.hit .rename ∨ fault.io then some (disk, .error .io)
            else some (disk.rename stage.part destination, .ok .renamed)
  | .renamed =>
      if fault.hit .renamed ∨ fault.hit .blobDirectorySync ∨ fault.io then some (disk, .error .io)
      else some (disk.fsyncDir .blobs, .ok .blobsSynced)
  | .blobsSynced =>
      if fault.hit .stagingDirectorySync ∨ fault.io then some (disk, .error .io)
      else some (disk.fsyncDir .staging, .ok .stagingSynced)
  | .stagingSynced =>
      if fault.hit .directoriesSynced then some (disk, .error .io)
      else some (disk, .ok .prepared)
  | .staged | .prepared | .dropped => none

/-- The store, its disk and the stages that are held by someone. -/
structure Depot where
  world : World
  options : StoreOptions
  disk : Disk
  stages : List StageResources
  /-- Numbers the stages. -/
  nextStage : Nat

/-- What `create` finds on the disk, the identifier it draws, and what fails. -/
structure StageInput where
  total : Nat
  available : Nat
  id : Uuid
  hit : FaultPoint → Bool := fun _ => false
  io : Bool := false

def u64Max : Nat := 2 ^ 64 - 1

/-- The disk reserve: may another stage be opened? -/
def StoreOptions.admit (options : StoreOptions) (reserved : Nat) (input : StageInput) :
    Except StoreError Unit := do
  let percent := input.total * options.diskReservePercent / 100
  let next := reserved + options.maxMessageBytes
  require (next ≤ u64Max ∧ next ≤ options.temporaryReservedBytes) .diskReserve
  let required := max options.diskReserveBytes percent + next
  require (required ≤ u64Max) .sizeLimit
  require (required ≤ input.available) .diskReserve

/-- The operations that carry a durability token. -/
def Op.message? : Op → Option PreparedMessage
  | .accept _ message _ _ _ => some message
  | .acceptSubmission _ message _ _ _ _ => some message
  | .acceptRelaySubmission _ message _ _ _ _ _ => some message
  | .enqueue _ message _ _ _ => some message
  | .notificationCommit prepared _ _ _ => some prepared.message
  | _ => none

/-- A crash and a new start concern the disk and the stages as well. -/
def Op.restarts : Op → Bool
  | .crash | .reopen _ => true
  | _ => false

namespace Depot

def init (root : Text) (options : StoreOptions) : Depot where
  world := World.init root options.maxMessageBytes
  options := options
  disk := Volume.empty
  stages := []
  nextStage := 0

/-- `reserved_bytes`: every stage holds its reservation. -/
def reservedBytes (d : Depot) : Nat := (d.stages.map fun s => s.message.maxSize).sum

def stage? (d : Depot) (serial : Nat) : Option StageResources :=
  Keyed.lookup StageResources.serial d.stages serial

def without (d : Depot) (serial : Nat) : Depot :=
  { d with stages := Keyed.remove StageResources.serial d.stages serial }

/-- Put a stage in the place of the one with its number. -/
def withStage (d : Depot) (stage : StageResources) : Depot :=
  { d with stages := Keyed.remove StageResources.serial d.stages stage.serial ++ [stage] }

/-- `Store::stage`, that is `StagedMessage::create`. -/
def stage (d : Depot) (input : StageInput) : Depot × Except StoreError Nat :=
  if d.world.opened then
    match d.options.admit d.reservedBytes input with
    | .error e => (d, .error e)
    | .ok () =>
        if input.hit .stageCreate ∨ input.io then (d, .error .io)
        else
          match d.disk.create (Directory.staging.path input.id.text) with
          | none => (d, .error .io)
          | some disk =>
              let message := StagedMessage.new d.world.store.root input.id
                d.options.streamBufferBytes d.options.maxMessageBytes d.options.limited
              ({ d with
                  disk := disk
                  stages := d.stages ++ [⟨d.nextStage, message, .staged⟩]
                  nextStage := d.nextStage + 1 }, .ok d.nextStage)
  else (d, .error .workerUnavailable)

/-- `StagedMessage::append`. -/
def append (d : Depot) (serial : Nat) (bytes : Text) (fault : Option (StoreError × Nat)) :
    Depot × Except StoreError Unit :=
  match d.stage? serial with
  | none => (d, .error .poisonedStage)
  | some stage =>
      if stage.progress = .staged then
        let (message, result) := stage.message.append bytes (fault.map Prod.fst)
        (({ d with disk := d.disk.write stage.part (stage.message.reaching bytes fault) } :
            Depot).withStage { stage with message := message }, result.map fun _ => ())
      else (d, .error .poisonedStage)

/-- The write of an `append` whose waiter has gone: it poisoned the stage before. -/
def straggle (d : Depot) (serial : Nat) (bytes : Text) : Depot :=
  match d.stage? serial with
  | none => d
  | some stage =>
      if stage.progress = .staged ∧ stage.message.poisoned = true then
        ({ d with disk := d.disk.write stage.part bytes } : Depot).withStage stage
      else d

/-- The last holder goes: `Drop for StageResources`. -/
def release (d : Depot) (stage : StageResources) : Depot :=
  if stage.progress.staging then d.withStage { stage with progress := .dropped }
  else d.without stage.serial

/-- `StagedMessage::prepare` up to the submission of its job. -/
def prepare (d : Depot) (serial : Nat) : Depot × Except StoreError Unit :=
  match d.stage? serial with
  | none => (d, .error .poisonedStage)
  | some stage =>
      if stage.progress = .staged then
        if stage.message.poisoned then (d.release stage, .error .poisonedStage)
        else (d.withStage { stage with progress := .flushing }, .ok ())
      else (d, .error .poisonedStage)

/-- One step of the job; a failure drops the stage. -/
def job (d : Depot) (serial : Nat) (fault : JobFault) : Depot :=
  match d.stage? serial with
  | none => d
  | some stage =>
      match stage.advance fault d.disk with
      | none => d
      | some (disk, .ok progress) =>
          ({ d with disk := disk } : Depot).withStage { stage with progress := progress }
      | some (disk, .error _) => ({ d with disk := disk } : Depot).release stage

/-- A staged or prepared token is dropped. A running job holds the stage on its own. -/
def drop (d : Depot) (serial : Nat) : Depot :=
  match d.stage? serial with
  | none => d
  | some stage =>
      if stage.progress = .staged ∨ stage.progress = .prepared then d.release stage else d

/-- The cleanup job. Its `remove_file` may fail. -/
def clean (d : Depot) (serial : Nat) (fails : Bool) : Depot :=
  match d.stage? serial with
  | none => d
  | some stage =>
      if stage.progress = .dropped then
        let disk := if fails then d.disk else d.disk.unlink stage.part
        ({ d with disk := disk } : Depot).without serial
      else d

/-- The stage behind a token. -/
def token? (sha256 : Text → Text) (d : Depot) (message : PreparedMessage) : Option StageResources :=
  d.stages.find? fun s => s.progress = .prepared && s.message.prepared sha256 = message

/-- A store operation. One that carries a token of this directory needs the token and consumes it. -/
def perform (sha256 : Text → Text) (d : Depot) (op : Op) : Depot :=
  if op.restarts then d
  else
    match op.message? with
    | none => { d with world := d.world.next op }
    | some message =>
        match d.token? sha256 message with
        | some stage => ({ d with world := d.world.next op } : Depot).without stage.serial
        | none =>
            if message.root = d.world.store.root then d
            else { d with world := d.world.next op }

/-- `Store::open` on the directory: every stage holds the lock. -/
def reopen (d : Depot) (options : StoreOptions) : Depot :=
  match d.stages, d.world.reopen options.maxMessageBytes with
  | [], (world, .ok ()) => { d with world := world, options := options }
  | _, _ => d

/-- The process ends: the database and the disk are left. -/
def crash (d : Depot) (remains : Directory × Text → Option (Volume.File UInt8)) : Depot :=
  { d with world := d.world.next .crash, disk := d.disk.crash remains, stages := [] }

end Depot

end Rustymail
