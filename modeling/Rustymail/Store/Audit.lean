import Rustymail.Store.Maintenance

/-!
# The audit trail of garbage collection

`gc` once more, with the tables `maintenance_run` and `gc_action`. Each of its statements is a
transaction of its own; one that reports a failure may have happened all the same. The tables keep
their keys and references by construction, as the database does.
-/

namespace Rustymail

open Checked

inductive RunStatus where
  | running
  | complete
  | interrupted
  deriving DecidableEq, Repr

inductive ActionStatus where
  | planned
  | deleted
  deriving DecidableEq, Repr

/-- A row of `maintenance_run`. -/
structure MaintenanceRun where
  id : Text
  startedAtMs : Int
  completedAtMs : Option Int := none
  minAgeSeconds : Nat
  status : RunStatus := .running
  deriving DecidableEq

/-- A row of `gc_action`. -/
structure GcAction where
  runId : Text
  kind : GcKind
  objectId : Text
  sizeBytes : Nat
  status : ActionStatus := .planned
  deriving DecidableEq

def GcAction.key (action : GcAction) : Text × GcKind × Text :=
  (action.runId, action.kind, action.objectId)

/-- `UPDATE gc_action SET status='deleted' WHERE run_id=?1 AND kind=?2 AND object_id=?3` -/
def GcAction.delete (key : Text × GcKind × Text) (action : GcAction) : GcAction :=
  if action.key = key then { action with status := .deleted } else action

def MaintenanceRun.complete (now : Int) (id : Text) (run : MaintenanceRun) : MaintenanceRun :=
  if run.id = id then { run with status := .complete, completedAtMs := some now } else run

def MaintenanceRun.interrupt (run : MaintenanceRun) : MaintenanceRun :=
  if run.status = .running then { run with status := .interrupted } else run

@[simp]
theorem GcAction.key_delete (key : Text × GcKind × Text) (action : GcAction) :
    (action.delete key).key = action.key := by
  unfold delete
  split_ifs <;> rfl

@[simp]
theorem GcAction.runId_delete (key : Text × GcKind × Text) (action : GcAction) :
    (action.delete key).runId = action.runId := by
  unfold delete
  split_ifs <;> rfl

@[simp]
theorem MaintenanceRun.id_complete (now : Int) (id : Text) (run : MaintenanceRun) :
    (run.complete now id).id = run.id := by
  unfold complete
  split_ifs <;> rfl

@[simp]
theorem MaintenanceRun.id_interrupt (run : MaintenanceRun) : run.interrupt.id = run.id := by
  unfold interrupt
  split_ifs <;> rfl

/-- The two tables: their primary keys, and the run that every action refers to. -/
structure Audit where
  runs : List MaintenanceRun
  actions : List GcAction
  runKeys : (runs.map MaintenanceRun.id).Nodup
  actionKeys : (actions.map GcAction.key).Nodup
  referenced : ∀ action ∈ actions, action.runId ∈ runs.map MaintenanceRun.id

namespace Audit

def empty : Audit := ⟨[], [], List.nodup_nil, List.nodup_nil, fun _ h => nomatch h⟩

def insertRun (audit : Audit) (run : MaintenanceRun) : Except StoreError Audit :=
  if h : run.id ∈ audit.runs.map MaintenanceRun.id then .error .database
  else
    .ok
      { audit with
        runs := audit.runs ++ [run]
        runKeys := by
          rw [List.map_append]
          exact audit.runKeys.append (List.nodup_singleton run.id)
            (List.disjoint_singleton.2 h)
        referenced := by
          intro action haction
          rw [List.map_append]
          exact List.mem_append_left _ (audit.referenced action haction) }

def insertAction (audit : Audit) (action : GcAction) : Except StoreError Audit :=
  if h : action.key ∉ audit.actions.map GcAction.key
      ∧ action.runId ∈ audit.runs.map MaintenanceRun.id then
    .ok
      { audit with
        actions := audit.actions ++ [action]
        actionKeys := by
          rw [List.map_append]
          exact audit.actionKeys.append (List.nodup_singleton action.key)
            (List.disjoint_singleton.2 h.1)
        referenced := by
          intro other hother
          rcases List.mem_append.1 hother with hold | hnew
          · exact audit.referenced other hold
          · rw [List.mem_singleton.1 hnew]
            exact h.2 }
  else .error .database

def deleteAction (audit : Audit) (key : Text × GcKind × Text) : Audit :=
  { audit with
    actions := audit.actions.map (GcAction.delete key)
    actionKeys := by
      rw [List.map_map, show GcAction.key ∘ GcAction.delete key = GcAction.key from
        funext (GcAction.key_delete key)]
      exact audit.actionKeys
    referenced := by
      intro action haction
      obtain ⟨old, hold, rfl⟩ := List.mem_map.1 haction
      rw [GcAction.runId_delete]
      exact audit.referenced old hold }

/-- Change the runs, but not their keys. -/
def mapRuns (audit : Audit) (f : MaintenanceRun → MaintenanceRun) (hid : ∀ run, (f run).id = run.id) :
    Audit :=
  have hkeys : (audit.runs.map f).map MaintenanceRun.id = audit.runs.map MaintenanceRun.id := by
    rw [List.map_map, show MaintenanceRun.id ∘ f = MaintenanceRun.id from funext hid]
  { audit with
    runs := audit.runs.map f
    runKeys := hkeys ▸ audit.runKeys
    referenced := fun action haction => hkeys ▸ audit.referenced action haction }

def completeRun (audit : Audit) (now : Int) (id : Text) : Audit :=
  audit.mapRuns (MaintenanceRun.complete now id) (MaintenanceRun.id_complete now id)

/-- `UPDATE maintenance_run SET status='interrupted' WHERE status='running'` -/
def interruptRuns (audit : Audit) : Audit :=
  audit.mapRuns MaintenanceRun.interrupt MaintenanceRun.id_interrupt

end Audit

/-- Which of the statements that report a failure have happened all the same. -/
structure Applied where
  action : GcPoint → Directory → Text → Bool := fun _ _ _ => false
  start : Bool := false
  finish : Bool := false

/-- What `gc` has done so far, with the tables. -/
structure Collecting where
  state : GcState
  audit : Audit

/-- The plan of one deletion is on record before anything else happens. -/
def gcPlan (input : GcInput) (applied : Applied) (directory : Directory) (action : GcAction)
    (audit : Audit) : Audit × Except StoreError Unit :=
  match audit.insertAction action with
  | .error e => (audit, .error e)
  | .ok planned =>
      match input.fails .plan directory action.objectId with
      | some e =>
          (if applied.action .plan directory action.objectId then planned else audit, .error e)
      | none => (planned, .ok ())

/-- From the audit record to the unlink. -/
def gcRecheck (db : Db) (input : GcInput) (directory : Directory) (id : Text) :
    Except StoreError Unit := do
  orFail (input.fails (.fault .gcPlanned) directory id)
  require (directory.retained db id = false) .integrity
  orFail (input.fails .recheck directory id)
  orFail (input.fails .remove directory id)

/-- Record a deletion, and whether the statement has happened. -/
def gcRecord (input : GcInput) (applied : Applied) (directory : Directory) (action : GcAction)
    (audit : Audit) : Audit :=
  if (input.fails .record directory action.objectId).isSome
      ∧ applied.action .record directory action.objectId = false then audit
  else audit.deleteAction action.key

namespace Collecting

/-- Delete one candidate, with its audit record. -/
def collect (db : Db) (input : GcInput) (applied : Applied) (runId : Text) (directory : Directory)
    (id : Text) (size : Nat) (before : Collecting) : Collecting × Except StoreError Unit :=
  if i64Max < size then (before, .error .invalidInput)
  else
    let action : GcAction :=
      { runId := runId, kind := directory.gcKind, objectId := id, sizeBytes := size }
    match gcPlan input applied directory action before.audit with
    | (audit, .error e) => ({ before with audit := audit }, .error e)
    | (audit, .ok ()) =>
        match gcRecheck db input directory id with
        | .error e => ({ before with audit := audit }, .error e)
        | .ok () =>
            let state := before.state
            let unlinked := { state with disk := state.disk.unlink (directory.path id) }
            match gcUnlinked input directory id with
            | .error e => (⟨unlinked, audit⟩, .error e)
            | .ok () =>
                let synced := { unlinked with disk := unlinked.disk.fsyncDir directory }
                let audit := gcRecord input applied directory action audit
                match gcDeleted input directory id size synced.report with
                | .error e => (⟨synced, audit⟩, .error e)
                | .ok report => (⟨{ synced with report := report }, audit⟩, .ok ())

/-- A file that no row names and that is old enough. -/
def candidate (db : Db) (options : GcOptions) (input : GcInput) (applied : Applied)
    (directory : Directory) (id : Text) (size : Nat) (modified : Int) (before : Collecting) :
    Collecting × Except StoreError Unit :=
  let state := before.state
  if state.report.candidates = options.limit then
    ({ before with state := { state with report := { state.report with more := true } } }, .ok ())
  else
    match input.fails .emit directory id with
    | some e => (before, .error e)
    | none =>
        let candidate : GcCandidate :=
          { runId := state.report.runId
            kind := directory.gcKind
            objectId := id
            sizeBytes := size
            modifiedAtMs := modified }
        let shown : Collecting :=
          { before with
            state := { state with
              report := { state.report with candidates := state.report.candidates + 1 }
              emitted := state.emitted ++ [candidate] } }
        match state.report.runId with
        | some run => shown.collect db input applied run.text directory id size
        | none => (shown, .ok ())

/-- One round of the inner loop. -/
def entry (db : Db) (options : GcOptions) (input : GcInput) (applied : Applied) (cutoff : Int)
    (directory : Directory) (name : Text) (before : Collecting) :
    Collecting × Except StoreError Unit :=
  let state := before.state
  let examined : Collecting :=
    { before with
      state := { state with report := { state.report with examined := state.report.examined + 1 } } }
  match directory.objectId name with
  | none => (examined, .error .unsafePath)
  | some id =>
      match input.fails .entry directory id, state.disk.file (directory.path id) with
      | some e, _ => (examined, .error e)
      | none, none => (examined, .error .io)
      | none, some file =>
          if directory.retained db id then (examined, .ok ())
          else
            match input.modified directory id with
            | none => (examined, .error .unsafePath)
            | some modified =>
                if cutoff < modified then
                  let report := examined.state.report
                  ({ examined with
                      state := { examined.state with
                        report := { report with skippedRecent := report.skippedRecent + 1 } } },
                    .ok ())
                else
                  examined.candidate db options input applied directory id file.content.length
                    modified

/-- The inner loop. -/
def directory (db : Db) (options : GcOptions) (input : GcInput) (applied : Applied) (cutoff : Int)
    (dir : Directory) : List Text → Collecting → Collecting × Except StoreError Unit
  | [], before => (before, .ok ())
  | name :: rest, before =>
      match before.entry db options input applied cutoff dir name with
      | (after, .error e) => (after, .error e)
      | (after, .ok ()) =>
          if after.state.report.more then (after, .ok ())
          else directory db options input applied cutoff dir rest after

/-- The outer loop. -/
def directories (db : Db) (options : GcOptions) (input : GcInput) (applied : Applied) (cutoff : Int)
    (before : Collecting) : Collecting × Except StoreError Unit :=
  match directory db options input applied cutoff .staging (input.listing .staging) before with
  | (after, .error e) => (after, .error e)
  | (after, .ok ()) =>
      if after.state.report.more then (after, .ok ())
      else directory db options input applied cutoff .blobs (input.listing .blobs) after

end Collecting

/-- A depot with the two tables. -/
structure AuditedDepot where
  depot : Depot
  audit : Audit

namespace AuditedDepot

/-- The checks of `gc` before its loops, and the time it starts at. -/
def gcChecks (sha256 : Text → Text) (d : Depot) (options : GcOptions) (input : GcInput) :
    Except StoreError Int :=
  d.gcStart sha256 options { input with start := none }

/-- The record of the run, for a run that deletes. -/
def gcBegin (options : GcOptions) (input : GcInput) (applied : Applied) (now : Int) (audit : Audit) :
    Audit × Except StoreError (Option Uuid) :=
  if options.apply then
    match audit.insertRun
        { id := input.runId.text, startedAtMs := now, minAgeSeconds := options.minAgeSeconds } with
    | .error e => (audit, .error e)
    | .ok begun =>
        match input.start with
        | some e => (if applied.start then begun else audit, .error e)
        | none => (begun, .ok (some input.runId))
  else (audit, .ok none)

/-- The end of a run that deletes. -/
def gcEnd (input : GcInput) (applied : Applied) (runId : Option Uuid) (audit : Audit) :
    Audit × Except StoreError Unit :=
  match runId with
  | none => (audit, .ok ())
  | some run =>
      match input.completed.nowMs with
      | .error e => (audit, .error e)
      | .ok now =>
          match input.finish with
          | some e => (if applied.finish then audit.completeRun now run.text else audit, .error e)
          | none => (audit.completeRun now run.text, .ok ())

/-- `Store::gc`, with the candidates it shows. -/
def gc (sha256 : Text → Text) (a : AuditedDepot) (options : GcOptions) (input : GcInput)
    (applied : Applied) : AuditedDepot × List GcCandidate × Except StoreError GcReport :=
  match gcChecks sha256 a.depot options input with
  | .error e => (a, [], .error e)
  | .ok now =>
      match gcBegin options input applied now a.audit with
      | (audit, .error e) => ({ a with audit := audit }, [], .error e)
      | (audit, .ok runId) =>
          let cutoff := max (now - options.minAgeSeconds * 1000) (-(2 ^ 63))
          let (after, result) :=
            Collecting.directories a.depot.world.store.db options input applied cutoff
              ⟨⟨a.depot.disk, { runId := runId }, []⟩, audit⟩
          let depot := { a.depot with disk := after.state.disk }
          match result with
          | .error e => (⟨depot, after.audit⟩, after.state.emitted, .error e)
          | .ok () =>
              match gcEnd input applied after.state.report.runId after.audit with
              | (audit, .error e) => (⟨depot, audit⟩, after.state.emitted, .error e)
              | (audit, .ok ()) => (⟨depot, audit⟩, after.state.emitted, .ok after.state.report)

/-- The lock is taken: no run of a previous owner goes on. -/
def reopen (a : AuditedDepot) (options : StoreOptions) : AuditedDepot where
  depot := a.depot.reopen options
  audit :=
    match a.depot.stages, a.depot.world.reopen options.maxMessageBytes with
    | [], (_, .ok ()) => a.audit.interruptRuns
    | _, _ => a.audit

/-- One event, with what failing statements have done. -/
def step (sha256 : Text → Text) (a : AuditedDepot) : Depot.Event × Applied → AuditedDepot
  | (.gc options input, applied) => (a.gc sha256 options input applied).1
  | (.reopen options, _) => a.reopen options
  | (event, _) => { a with depot := a.depot.step sha256 event }

def run (sha256 : Text → Text) (a : AuditedDepot) (events : List (Depot.Event × Applied)) : AuditedDepot :=
  Runs.run (step sha256) a events

end AuditedDepot

end Rustymail
