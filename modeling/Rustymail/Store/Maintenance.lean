import Rustymail.Integrity
import Rustymail.Store.Depot

/-!
# Garbage collection and blob recovery

`gc` and `recover_blob`, and the runs of a store with its disk. What `read_dir` lists, the times of
the files and every failure come from outside. A run that fails leaves the disk as it is at that
point, so that a crash there is a failure followed by a crash.

The tables `maintenance_run` and `gc_action` decide nothing here; they are added in `Store.Audit`.
-/

namespace Rustymail

open Checked

structure GcOptions where
  apply : Bool := false
  minAgeSeconds : Nat := 86400
  limit : Nat := 1000

inductive GcKind where
  | staging
  | orphan
  deriving DecidableEq, Repr

def Directory.gcKind : Directory → GcKind
  | .staging => .staging
  | .blobs => .orphan

structure GcCandidate where
  runId : Option Uuid
  kind : GcKind
  objectId : Text
  sizeBytes : Nat
  modifiedAtMs : Int

structure GcReport where
  runId : Option Uuid := none
  examined : Nat := 0
  candidates : Nat := 0
  deleted : Nat := 0
  deletedBytes : Nat := 0
  skippedRecent : Nat := 0
  more : Bool := false

/-- The places in the loop of `gc` that may fail. -/
inductive GcPoint where
  | entry
  | emit
  | plan
  | recheck
  | remove
  | sync
  | record
  | fault (point : FaultPoint)

structure GcInput where
  listing : Directory → List Text
  /-- The modification time, if it can be told. -/
  modified : Directory → Text → Option Int
  fails : GcPoint → Directory → Text → Option StoreError
  runId : Uuid
  reading : Reading
  completed : Reading
  /-- The integrity check, the record of the run and its completion may fail. -/
  scan : Option StoreError := none
  start : Option StoreError := none
  finish : Option StoreError := none

/-- Stop where something fails. -/
def orFail : Option StoreError → Except StoreError Unit
  | none => .ok ()
  | some e => .error e

/-- The disk, the report and the candidates shown so far. -/
structure GcState where
  disk : Disk
  report : GcReport
  emitted : List GcCandidate

/-- `blob_retained`. -/
def Db.blobRetained (db : Db) (id : Text) : Bool := (db.blob? id).isSome

/-- Is the object one that must stay? Only blobs are ever referenced. -/
def Directory.retained (directory : Directory) (db : Db) (id : Text) : Bool :=
  decide (directory = .blobs) && db.blobRetained id

/-- From the audit record to the unlink: everything is checked once more. -/
def gcPlanned (db : Db) (input : GcInput) (directory : Directory) (id : Text) (size : Nat) :
    Except StoreError Unit := do
  require (size ≤ i64Max) .invalidInput
  orFail (input.fails .plan directory id)
  orFail (input.fails (.fault .gcPlanned) directory id)
  require (directory.retained db id = false) .integrity
  orFail (input.fails .recheck directory id)
  orFail (input.fails .remove directory id)

/-- From the unlink to the directory's `fsync`. -/
def gcUnlinked (input : GcInput) (directory : Directory) (id : Text) : Except StoreError Unit := do
  orFail (input.fails (.fault .gcUnlinked) directory id)
  orFail (input.fails (.fault .gcDirectorySync) directory id)
  orFail (input.fails .sync directory id)

/-- Count a deletion. -/
def gcDeleted (input : GcInput) (directory : Directory) (id : Text) (size : Nat)
    (report : GcReport) : Except StoreError GcReport := do
  orFail (input.fails .record directory id)
  require (report.deletedBytes + size ≤ u64Max) .invalidInput
  pure { report with deleted := report.deleted + 1, deletedBytes := report.deletedBytes + size }

/-- Delete one candidate. -/
def gcCollect (db : Db) (input : GcInput) (directory : Directory) (id : Text) (size : Nat)
    (state : GcState) : GcState × Except StoreError Unit :=
  match gcPlanned db input directory id size with
  | .error e => (state, .error e)
  | .ok () =>
      let unlinked := { state with disk := state.disk.unlink (directory.path id) }
      match gcUnlinked input directory id with
      | .error e => (unlinked, .error e)
      | .ok () =>
          let synced := { unlinked with disk := unlinked.disk.fsyncDir directory }
          match gcDeleted input directory id size synced.report with
          | .error e => (synced, .error e)
          | .ok report => ({ synced with report := report }, .ok ())

/-- A file that no row names and that is old enough. -/
def gcCandidate (db : Db) (options : GcOptions) (input : GcInput) (directory : Directory) (id : Text)
    (size : Nat) (modified : Int) (state : GcState) : GcState × Except StoreError Unit :=
  if state.report.candidates = options.limit then
    ({ state with report := { state.report with more := true } }, .ok ())
  else
    match input.fails .emit directory id with
    | some e => (state, .error e)
    | none =>
        let candidate :=
          { runId := state.report.runId
            kind := directory.gcKind
            objectId := id
            sizeBytes := size
            modifiedAtMs := modified }
        let state :=
          { state with
            report := { state.report with candidates := state.report.candidates + 1 }
            emitted := state.emitted ++ [candidate] }
        if state.report.runId.isSome then gcCollect db input directory id size state
        else (state, .ok ())

/-- One round of the inner loop of `gc`. -/
def gcEntry (db : Db) (options : GcOptions) (input : GcInput) (cutoff : Int) (directory : Directory)
    (name : Text) (before : GcState) : GcState × Except StoreError Unit :=
  let state :=
    { before with report := { before.report with examined := before.report.examined + 1 } }
  match directory.objectId name with
  | none => (state, .error .unsafePath)
  | some id =>
      match input.fails .entry directory id, state.disk.file (directory.path id) with
      | some e, _ => (state, .error e)
      | none, none => (state, .error .io)
      | none, some file =>
          if directory.retained db id then (state, .ok ())
          else
            match input.modified directory id with
            | none => (state, .error .unsafePath)
            | some modified =>
                if cutoff < modified then
                  ({ state with
                      report :=
                        { state.report with skippedRecent := state.report.skippedRecent + 1 } },
                    .ok ())
                else
                  gcCandidate db options input directory id file.content.length modified state

/-- The inner loop of `gc`. -/
def gcDirectory (db : Db) (options : GcOptions) (input : GcInput) (cutoff : Int)
    (directory : Directory) : List Text → GcState → GcState × Except StoreError Unit
  | [], state => (state, .ok ())
  | name :: rest, state =>
      match gcEntry db options input cutoff directory name state with
      | (state, .error e) => (state, .error e)
      | (state, .ok ()) =>
          if state.report.more then (state, .ok ())
          else gcDirectory db options input cutoff directory rest state

/-- The outer loop of `gc`: the staging directory first. -/
def gcDirectories (db : Db) (options : GcOptions) (input : GcInput) (cutoff : Int)
    (state : GcState) : GcState × Except StoreError Unit :=
  match gcDirectory db options input cutoff .staging (input.listing .staging) state with
  | (state, .error e) => (state, .error e)
  | (state, .ok ()) =>
      if state.report.more then (state, .ok ())
      else gcDirectory db options input cutoff .blobs (input.listing .blobs) state

/-- What `recover_blob` reads, the name it draws for its copy, and what fails. -/
inductive RecoverPoint where
  | sync
  | link
  | blobsSync
  | cleanup
  | stagingSync

structure RecoverInput where
  /-- The pieces that are read from the source, up to its end or to a failure. -/
  source : Except StoreError (List (Except StoreError Text))
  temporary : Uuid
  fails : RecoverPoint → Option StoreError

/-- The copying loop of `recover_blob`: what it has copied when it ends. -/
def recoverCopy (size : Nat) : List (Except StoreError Text) → Text → Text × Except StoreError Unit
  | [], copied => (copied, .ok ())
  | .error e :: _, copied => (copied, .error e)
  | .ok piece :: rest, copied =>
      if size < (copied ++ piece).length then (copied, .error .integrity)
      else recoverCopy size rest (copied ++ piece)

/-- The part of `recover_blob` under its own error handling. -/
def recoverInto (sha256 : Text → Text) (row : Blob) (temporary target : Directory × Text)
    (pieces : List (Except StoreError Text)) (fails : RecoverPoint → Option StoreError)
    (disk : Disk) : Disk × Except StoreError Nat :=
  let (copied, result) := recoverCopy row.sizeBytes pieces []
  let written := disk.write temporary copied
  match result with
  | .error e => (written, .error e)
  | .ok () =>
      if copied.length ≠ row.sizeBytes ∨ sha256 copied ≠ row.sha256 then (written, .error .integrity)
      else
        match fails .sync with
        | some e => (written, .error e)
        | none =>
            let synced := written.fsync temporary
            match fails .link, synced.link temporary target with
            | some e, _ => (synced, .error e)
            | none, none => (synced, .error .io)
            | none, some linked =>
                match fails .blobsSync with
                | some e => (linked, .error e)
                | none => (linked.fsyncDir .blobs, .ok copied.length)

/-- The copy is removed again; only after a success does it matter whether that works. -/
def recoverCleanup (temporary : Directory × Text) (fails : RecoverPoint → Option StoreError)
    (disk : Disk) (result : Except StoreError Nat) : Disk × Except StoreError Nat :=
  let cleaned := if (fails .cleanup).isSome then disk else disk.unlink temporary
  match result with
  | .error e => (cleaned, .error e)
  | .ok bytes =>
      match fails .cleanup, fails .stagingSync with
      | some e, _ => (cleaned, .error e)
      | none, some e => (cleaned, .error e)
      | none, none => (cleaned.fsyncDir .staging, .ok bytes)

namespace Depot

/-- `require_idle`. -/
def idle (d : Depot) : Bool :=
  !(d.world.store.queue.active.any fun entry => d.world.live entry.2) && d.reservedBytes == 0

/-- What `check_integrity` finds in the two directories. -/
def findings (sha256 : Text → Text) (d : Depot) (listing : Directory → List Text) :
    BlobFindings where
  missingBlobs := d.world.store.db.blobs.countP fun row =>
    (d.disk.file (Directory.blobs.path row.id)).isNone
  corruptBlobs := d.world.store.db.blobs.countP fun row =>
    (d.disk.file (Directory.blobs.path row.id)).any fun file =>
      decide (file.content.length ≠ row.sizeBytes ∨ sha256 file.content ≠ row.sha256)
  unexpectedFiles :=
    ((listing .blobs).countP fun name => (Directory.blobs.objectId name).isNone)
      + (listing .staging).countP fun name => (Directory.staging.objectId name).isNone

/-- The checks of `gc` before its loops, and the time it starts at. -/
def gcStart (sha256 : Text → Text) (d : Depot) (options : GcOptions) (input : GcInput) :
    Except StoreError Int := do
  require (d.world.opened = true) .workerUnavailable
  require (d.idle = true) .maintenanceBusy
  require (0 < options.limit ∧ options.limit ≤ 1000 ∧ options.minAgeSeconds ≤ i64Max / 1000)
    .invalidInput
  orFail input.scan
  require ((checkIntegrity d.world.store (d.findings sha256 input.listing)).healthy = true) .integrity
  let now ← input.reading.nowMs
  orFail (if options.apply then input.start else none)
  pure now

/-- `Store::gc`, with the candidates it shows. -/
def gc (sha256 : Text → Text) (d : Depot) (options : GcOptions) (input : GcInput) :
    Depot × List GcCandidate × Except StoreError GcReport :=
  match d.gcStart sha256 options input with
  | .error e => (d, [], .error e)
  | .ok now =>
      let cutoff := max (now - options.minAgeSeconds * 1000) (-(2 ^ 63))
      let report : GcReport := { runId := if options.apply then some input.runId else none }
      let (state, result) :=
        gcDirectories d.world.store.db options input cutoff ⟨d.disk, report, []⟩
      let after := { d with disk := state.disk }
      match result, state.report.runId with
      | .error e, _ => (after, state.emitted, .error e)
      | .ok (), none => (after, state.emitted, .ok state.report)
      | .ok (), some _ =>
          match input.completed.nowMs, input.finish with
          | .error e, _ => (after, state.emitted, .error e)
          | .ok _, some e => (after, state.emitted, .error e)
          | .ok _, none => (after, state.emitted, .ok state.report)

/-- `Store::recover_blob`. -/
def recoverBlob (sha256 : Text → Text) (d : Depot) (id : Text) (input : RecoverInput) :
    Depot × Except StoreError Nat :=
  if d.world.opened = false then (d, .error .workerUnavailable)
  else if d.idle = false then (d, .error .maintenanceBusy)
  else
    match blobPath id with
    | .error e => (d, .error e)
    | .ok target =>
        if (d.disk.file target).isSome then (d, .error .alreadyExists)
        else
          match d.world.store.db.blob? id, input.source with
          | none, _ => (d, .error .notFound)
          | some _, .error e => (d, .error e)
          | some row, .ok pieces =>
              let temporary := Directory.staging.path input.temporary.text
              match d.disk.create temporary with
              | none => (d, .error .io)
              | some disk =>
                  let (copied, result) :=
                    recoverInto sha256 row temporary target pieces input.fails disk
                  let (cleaned, result) := recoverCleanup temporary input.fails copied result
                  ({ d with disk := cleaned }, result)

/-- Everything that can happen to a directory. -/
inductive Event where
  | stage (input : StageInput)
  | append (serial : Nat) (bytes : Text) (fault : Option (StoreError × Nat))
  | straggle (serial : Nat) (bytes : Text)
  | prepare (serial : Nat)
  | job (serial : Nat) (fault : JobFault)
  | drop (serial : Nat)
  | clean (serial : Nat) (fails : Bool)
  | perform (op : Op)
  | gc (options : GcOptions) (input : GcInput)
  | recoverBlob (id : Text) (input : RecoverInput)
  | crash (remains : Directory × Text → Option (Volume.File UInt8))
  | reopen (options : StoreOptions)

/-- The depot after one event. -/
def step (sha256 : Text → Text) (d : Depot) : Event → Depot
  | .stage input => (d.stage input).1
  | .append serial bytes fault => (d.append serial bytes fault).1
  | .straggle serial bytes => d.straggle serial bytes
  | .prepare serial => (d.prepare serial).1
  | .job serial fault => d.job serial fault
  | .drop serial => d.drop serial
  | .clean serial fails => d.clean serial fails
  | .perform op => d.perform sha256 op
  | .gc options input => (d.gc sha256 options input).1
  | .recoverBlob id input => (d.recoverBlob sha256 id input).1
  | .crash remains => d.crash remains
  | .reopen options => d.reopen options

/-- The depot after a list of events. -/
def run (sha256 : Text → Text) (d : Depot) (events : List Event) : Depot :=
  Runs.run (step sha256) d events

end Depot

end Rustymail
