import Rustymail.Proof.DepotLemmas
import Rustymail.Store.Audit

/-!
# One candidate of the collector

What the collector does with one file: it passes it over, shows it, or shows it and deletes it, with a
row of the audit trail on record before the unlink and settled after the directory is synchronised.
-/

namespace Rustymail

open Checked

def GcKind.directory : GcKind → Directory
  | .staging => .staging
  | .orphan => .blobs

@[simp]
theorem Directory.directory_gcKind (directory : Directory) : directory.gcKind.directory = directory := by
  cases directory with
  | staging => rfl
  | blobs => rfl

def GcCandidate.path (candidate : GcCandidate) : Directory × Text :=
  candidate.kind.directory.path candidate.objectId

def GcAction.path (action : GcAction) : Directory × Text :=
  action.kind.directory.path action.objectId

/-- The row that a run keeps of its candidate. -/
def GcCandidate.action (run : Text) (status : ActionStatus) (candidate : GcCandidate) : GcAction :=
  ⟨run, candidate.kind, candidate.objectId, candidate.sizeBytes, status⟩

@[simp]
theorem GcCandidate.path_action (run : Text) (status : ActionStatus) (candidate : GcCandidate) :
    (candidate.action run status).path = candidate.path := rfl

/-- Actions with the same key are about the same file. -/
theorem GcAction.path_eq_of_key {first second : GcAction} (hkey : first.key = second.key) :
    first.path = second.path := by
  obtain ⟨-, hobject⟩ := Prod.mk.inj hkey
  obtain ⟨hkind, hid⟩ := Prod.mk.inj hobject
  unfold path
  rw [hkind, hid]

namespace Audit

variable {audit audit' : Audit} {run : MaintenanceRun} {action : GcAction}

theorem insertRun_ok (hfresh : run.id ∉ audit.runs.map MaintenanceRun.id) :
    ∃ audit', audit.insertRun run = .ok audit' ∧ audit'.runs = audit.runs ++ [run]
      ∧ audit'.actions = audit.actions := by
  unfold insertRun
  rw [dif_neg hfresh]
  exact ⟨_, rfl, rfl, rfl⟩

theorem insertRun_error (hstale : run.id ∈ audit.runs.map MaintenanceRun.id) :
    audit.insertRun run = .error .database := by
  unfold insertRun
  rw [dif_pos hstale]

theorem insertAction_ok (hfresh : action.key ∉ audit.actions.map GcAction.key)
    (hrun : action.runId ∈ audit.runs.map MaintenanceRun.id) :
    ∃ audit', audit.insertAction action = .ok audit' ∧ audit'.runs = audit.runs
      ∧ audit'.actions = audit.actions ++ [action] := by
  unfold insertAction
  rw [dif_pos ⟨hfresh, hrun⟩]
  exact ⟨_, rfl, rfl, rfl⟩

/-- The row just planned is the one that is settled. -/
theorem deleteAction_actions {planned : Audit} (hplanned : planned.actions = audit.actions ++ [action])
    (hfresh : action.key ∉ audit.actions.map GcAction.key) :
    (planned.deleteAction action.key).actions
      = audit.actions ++ [{ action with status := .deleted }] := by
  change planned.actions.map (GcAction.delete action.key) = _
  rw [hplanned, List.map_append]
  congr 1
  · conv_rhs => rw [← List.map_id audit.actions]
    refine List.map_congr_left fun other hother => ?_
    unfold GcAction.delete
    rw [if_neg]
    · rfl
    · intro hkey
      exact hfresh (hkey ▸ List.mem_map_of_mem hother)
  · unfold GcAction.delete
    rw [List.map_singleton, if_pos rfl]

end Audit

variable {db : Db} {input : GcInput} {applied : Applied} {directory : Directory} {id : Text}
  {size : Nat}

theorem gcPlanned_eq (hsize : size ≤ i64Max) :
    gcPlanned db input directory id size
      = match input.fails .plan directory id with
        | some e => .error e
        | none => gcRecheck db input directory id := by
  unfold gcPlanned gcRecheck
  rw [require_of hsize]
  cases input.fails .plan directory id with
  | some e => rfl
  | none => rfl

theorem gcPlanned_large (hsize : ¬ size ≤ i64Max) :
    gcPlanned db input directory id size = .error .invalidInput := by
  unfold gcPlanned require
  rw [if_neg hsize]
  rfl

theorem gcDeleted_ok {report report' : GcReport}
    (h : gcDeleted input directory id size report = .ok report') :
    input.fails .record directory id = none ∧ report' =
      { report with deleted := report.deleted + 1, deletedBytes := report.deletedBytes + size } := by
  unfold gcDeleted at h
  simp only [bind_eq_ok, require_eq_ok, pure_eq_ok] at h
  obtain ⟨⟨⟩, hrecord, ⟨⟩, -, rfl⟩ := h
  refine ⟨?_, rfl⟩
  cases hfails : input.fails .record directory id with
  | none => rfl
  | some e =>
      rw [hfails] at hrecord
      cases hrecord

theorem gcRecord_actions {audit planned : Audit} {action : GcAction}
    (hplanned : planned.actions = audit.actions ++ [action])
    (hfresh : action.key ∉ audit.actions.map GcAction.key) (hstatus : action.status = .planned) :
    (gcRecord input applied directory action planned).runs = planned.runs
      ∧ ∃ status, (gcRecord input applied directory action planned).actions
          = audit.actions ++ [{ action with status := status }]
        ∧ (input.fails .record directory action.objectId = none → status = .deleted) := by
  unfold gcRecord
  by_cases hnot : (input.fails .record directory action.objectId).isSome
      ∧ applied.action .record directory action.objectId = false
  · rw [if_pos hnot]
    refine ⟨rfl, .planned, ?_, fun hnone => ?_⟩
    · rw [hplanned, ← hstatus]
    · rw [hnone] at hnot
      exact absurd hnot.1 (by decide)
  · rw [if_neg hnot]
    exact ⟨rfl, .deleted, Audit.deleteAction_actions hplanned hfresh, fun _ => rfl⟩

namespace Collecting

variable {before : Collecting} {run : Text}

/-- Deleting one candidate ends with the deletion on record, or stops somewhere on the way. -/
inductive Collected (run : Text) (directory : Directory) (id : Text) (size : Nat)
    (before : Collecting) : Collecting × Except StoreError Unit → Prop
  | settled {audit : Audit} {report : GcReport} (hruns : audit.runs = before.audit.runs)
      (hactions : audit.actions
        = before.audit.actions ++ [⟨run, directory.gcKind, id, size, .deleted⟩])
      (hreport : report = { before.state.report with
        deleted := before.state.report.deleted + 1
        deletedBytes := before.state.report.deletedBytes + size }) :
      Collected run directory id size before
        (⟨{ before.state with
            disk := (before.state.disk.unlink (directory.path id)).fsyncDir directory
            report := report }, audit⟩, .ok ())
  | unplanned {audit : Audit} {e : StoreError} (hruns : audit.runs = before.audit.runs)
      (hactions : audit.actions = before.audit.actions) :
      Collected run directory id size before ({ before with audit := audit }, .error e)
  | stopped {audit : Audit} {disk : Disk} {status : ActionStatus} {e : StoreError}
      (hruns : audit.runs = before.audit.runs)
      (hactions : audit.actions
        = before.audit.actions ++ [⟨run, directory.gcKind, id, size, status⟩])
      (hdisk : disk = before.state.disk ∨ disk = before.state.disk.unlink (directory.path id)
        ∨ disk = (before.state.disk.unlink (directory.path id)).fsyncDir directory) :
      Collected run directory id size before
        (⟨{ before.state with disk := disk }, audit⟩, .error e)

/-- The tables change nothing about the deletion. -/
theorem collect_spec
    (hfresh : (run, directory.gcKind, id) ∉ before.audit.actions.map GcAction.key)
    (hrun : run ∈ before.audit.runs.map MaintenanceRun.id) :
    Collected run directory id size before
        (before.collect db input applied run directory id size)
      ∧ ((before.collect db input applied run directory id size).1.state,
          (before.collect db input applied run directory id size).2)
        = gcCollect db input directory id size before.state := by
  unfold collect gcCollect
  by_cases hsize : i64Max < size
  · rw [if_pos hsize, gcPlanned_large (Nat.not_le.2 hsize)]
    exact ⟨.unplanned rfl rfl, rfl⟩
  rw [if_neg hsize, gcPlanned_eq (Nat.not_lt.1 hsize)]
  dsimp only
  generalize haction : (⟨run, directory.gcKind, id, size, .planned⟩ : GcAction) = action
  have hkey : action.key = (run, directory.gcKind, id) := by rw [← haction]; rfl
  have hid : action.objectId = id := by rw [← haction]
  obtain ⟨planned, hinsert, hruns, hactions⟩ := @Audit.insertAction_ok before.audit action
    (hkey ▸ hfresh) (by rw [← haction]; exact hrun)
  unfold gcPlan
  rw [hinsert, hid]
  dsimp only
  cases hplan : input.fails .plan directory id with
  | some e =>
      dsimp only
      refine ⟨?_, rfl⟩
      cases applied.action .plan directory id with
      | true =>
          rw [if_pos rfl]
          refine @Collected.stopped run directory id size before planned _ .planned e hruns ?_
            (Or.inl rfl)
          rw [hactions, ← haction]
      | false =>
          rw [if_neg (by decide)]
          exact .unplanned rfl rfl
  | none =>
      dsimp only
      cases gcRecheck db input directory id with
      | error e =>
          refine ⟨@Collected.stopped run directory id size before planned _ .planned e hruns ?_
            (Or.inl rfl), rfl⟩
          rw [hactions, ← haction]
      | ok _ =>
          dsimp only
          cases gcUnlinked input directory id with
          | error e =>
              refine ⟨@Collected.stopped run directory id size before planned _ .planned e hruns ?_
                (Or.inr (Or.inl rfl)), rfl⟩
              rw [hactions, ← haction]
          | ok _ =>
              dsimp only
              obtain ⟨hsame, status, hsettled, hdeleted⟩ := @gcRecord_actions input applied directory
                _ _ _ hactions (hkey ▸ hfresh) (by rw [← haction])
              rw [hid] at hdeleted
              cases hreport : gcDeleted input directory id size before.state.report with
              | error e =>
                  refine ⟨@Collected.stopped run directory id size before _ _ status e
                    (hsame.trans hruns) ?_ (Or.inr (Or.inr rfl)), rfl⟩
                  rw [hsettled, ← haction]
              | ok report =>
                  obtain ⟨hrecord, rfl⟩ := gcDeleted_ok hreport
                  refine ⟨.settled (hsame.trans hruns) ?_ rfl, rfl⟩
                  rw [hsettled, hdeleted hrecord, ← haction]

end Collecting

end Rustymail
