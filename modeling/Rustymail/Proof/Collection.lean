import Rustymail.Proof.AuditTrail

/-!
# Garbage collection leaves a complete trail

The collector shows the eligible files in the order of the listings, up to its limit. A run that
deletes keeps one settled row for each file it has removed; where it is interrupted, the row of the
file at hand is on record before the file goes. The tables themselves decide nothing.
-/

namespace Rustymail

open Checked

/-- The candidate that a listed file is: no row names it, and it is old enough. -/
def eligible? (db : Db) (disk : Disk) (input : GcInput) (cutoff : Int) (run : Option Uuid)
    (directory : Directory) (name : Text) : Option GcCandidate := do
  let id ← directory.objectId name
  let file ← disk.file (directory.path id)
  if directory.retained db id then none
  else do
    let modified ← input.modified directory id
    if cutoff < modified then none
    else
      some
        { runId := run
          kind := directory.gcKind
          objectId := id
          sizeBytes := file.content.length
          modifiedAtMs := modified }

/-- All of them, in the order in which the collector comes to them. -/
def eligibleFiles (db : Db) (disk : Disk) (input : GcInput) (cutoff : Int) (run : Option Uuid) :
    List GcCandidate :=
  (input.listing .staging).filterMap (eligible? db disk input cutoff run .staging)
    ++ (input.listing .blobs).filterMap (eligible? db disk input cutoff run .blobs)

/-- What a run removes of what it shows: everything, if it deletes at all. -/
def removed (run : Option Uuid) (emitted : List GcCandidate) : List GcCandidate :=
  if run.isSome then emitted else []

def runText (run : Option Uuid) : Text := run.elim [] Uuid.text

/-- The rows that a run has settled. -/
def settledRows (run : Option Uuid) (emitted : List GcCandidate) : List GcAction :=
  (removed run emitted).map (GcCandidate.action (runText run) .deleted)

/-- A run that has come this far without a failure. -/
structure Trail (disk : Disk) (audit : Audit) (run : Option Uuid) (c : Collecting) : Prop where
  runId : c.state.report.runId = run
  counted : c.state.report.candidates = c.state.emitted.length
  deleted : c.state.report.deleted = (removed run c.state.emitted).length
  runs : c.audit.runs = audit.runs
  actions : c.audit.actions = audit.actions ++ settledRows run c.state.emitted
  gone : ∀ path ∈ (removed run c.state.emitted).map GcCandidate.path, c.state.disk.file path = none
  kept : ∀ path, path ∉ (removed run c.state.emitted).map GcCandidate.path →
    disk.Keeps c.state.disk path ∧ (disk.file path = none → c.state.disk.file path = none)
  untouched : run = none → c.state.disk = disk

/-- A run that has stopped: everything it has done up to its last candidate is settled, and of that
one there is at most one row, without which the file is still there. -/
structure Stopped (disk : Disk) (audit : Audit) (run : Option Uuid) (done tail : List GcCandidate)
    (pending : List GcAction) (c : Collecting) : Prop where
  emitted : c.state.emitted = done ++ tail
  runs : c.audit.runs = audit.runs
  actions : c.audit.actions = audit.actions ++ settledRows run done ++ pending
  planned : pending = [] ∨ ∃ r candidate status, run = some r ∧ tail = [candidate]
    ∧ pending = [candidate.action r.text status]
  kept : ∀ path, path ∉ (removed run done).map GcCandidate.path →
    disk.Keeps c.state.disk path ∨ ∃ action ∈ pending, action.path = path
  untouched : run = none → c.state.disk = disk

variable {db : Db} {options : GcOptions} {input : GcInput} {applied : Applied} {cutoff : Int}
  {directory : Directory} {name id : Text} {disk : Disk} {audit : Audit} {run : Option Uuid}
  {c c' : Collecting} {candidate : GcCandidate}

theorem Trail.stopped (h : Trail disk audit run c) :
    Stopped disk audit run c.state.emitted [] [] c where
  emitted := (List.append_nil _).symm
  runs := h.runs
  actions := by rw [h.actions, List.append_nil]
  planned := Or.inl rfl
  kept path hpath := Or.inl (h.kept path hpath).1
  untouched := h.untouched

/-- What is there now was there at the start, with the same content. -/
theorem Trail.file (h : Trail disk audit run c) {path : Directory × Text} {file : Volume.File UInt8}
    (hfile : c.state.disk.file path = some file) :
    ∃ first, disk.file path = some first ∧ first.content = file.content := by
  have hpath : path ∉ (removed run c.state.emitted).map GcCandidate.path := by
    intro hmem
    rw [h.gone path hmem] at hfile
    cases hfile
  obtain ⟨hkeeps, hnone⟩ := h.kept path hpath
  obtain ⟨first, hfirst⟩ := Option.ne_none_iff_exists'.1 fun habsent => by
    rw [hnone habsent] at hfile
    cases hfile
  obtain ⟨last, hlast, hgrows⟩ := hkeeps first hfirst
  obtain rfl := Option.some.inj (hlast.symm.trans hfile)
  exact ⟨first, hfirst, hgrows.content.symm⟩

/-- The row of this file is not on record yet. -/
theorem Trail.fresh {r : Uuid} (h : Trail disk audit (some r) c)
    (hnew : ∀ action ∈ audit.actions, action.runId ≠ r.text)
    (hfile : (c.state.disk.file (directory.path id)).isSome) :
    (r.text, directory.gcKind, id) ∉ c.audit.actions.map GcAction.key := by
  rw [h.actions]
  intro hmem
  obtain ⟨action, haction, hkey⟩ := List.mem_map.1 hmem
  rcases List.mem_append.1 haction with hold | hdone
  · exact hnew action hold (congrArg Prod.fst hkey)
  · obtain ⟨candidate, hcandidate, rfl⟩ := List.mem_map.1 hdone
    have hpath : candidate.path = directory.path id := by
      have hsame := @GcAction.path_eq_of_key (candidate.action r.text .deleted)
        ⟨r.text, directory.gcKind, id, 0, .planned⟩ hkey
      unfold GcAction.path at hsame
      rw [Directory.directory_gcKind] at hsame
      exact hsame
    rw [← hpath, h.gone _ (List.mem_map_of_mem hcandidate)] at hfile
    cases hfile

/-- The counters that a trail does not speak of may change. -/
theorem Trail.congr (h : Trail disk audit run c) {report : GcReport}
    (hrun : report.runId = c.state.report.runId)
    (hcandidates : report.candidates = c.state.report.candidates)
    (hdeleted : report.deleted = c.state.report.deleted) :
    Trail disk audit run { c with state := { c.state with report := report } } where
  runId := hrun.trans h.runId
  counted := hcandidates.trans h.counted
  deleted := hdeleted.trans h.deleted
  runs := h.runs
  actions := h.actions
  gone := h.gone
  kept := h.kept
  untouched := h.untouched

/-- What one round can do, given what is shown before it and whether more was met. -/
inductive Round (disk : Disk) (audit : Audit) (run : Option Uuid) (limit : Nat)
    (eligible : Option GcCandidate) (emitted : List GcCandidate) (more : Bool) :
    Collecting × Except StoreError Unit → Prop
  | passed {c : Collecting} (hnone : eligible = none) (htrail : Trail disk audit run c)
      (hemitted : c.state.emitted = emitted) (hmore : c.state.report.more = more) :
      Round disk audit run limit eligible emitted more (c, .ok ())
  | full {c : Collecting} {candidate : GcCandidate} (hsome : eligible = some candidate)
      (hlimit : emitted.length = limit) (htrail : Trail disk audit run c)
      (hemitted : c.state.emitted = emitted) (hmore : c.state.report.more = true) :
      Round disk audit run limit eligible emitted more (c, .ok ())
  | taken {c : Collecting} {candidate : GcCandidate} (hsome : eligible = some candidate)
      (hlimit : emitted.length ≠ limit) (htrail : Trail disk audit run c)
      (hemitted : c.state.emitted = emitted ++ [candidate]) (hmore : c.state.report.more = more) :
      Round disk audit run limit eligible emitted more (c, .ok ())
  | failed {c : Collecting} {tail : List GcCandidate} {pending : List GcAction} {e : StoreError}
      (hstopped : Stopped disk audit run emitted tail pending c)
      (htail : tail = [] ∨ (emitted.length ≠ limit
        ∧ ∃ candidate, eligible = some candidate ∧ tail = [candidate])) :
      Round disk audit run limit eligible emitted more (c, .error e)

theorem settledRows_append (r : Uuid) (emitted : List GcCandidate) (candidate : GcCandidate) :
    settledRows (some r) (emitted ++ [candidate])
      = settledRows (some r) emitted ++ [candidate.action r.text .deleted] :=
  List.map_append

/-- The candidate is shown. -/
def Collecting.shown (c : Collecting) (candidate : GcCandidate) : Collecting :=
  { c with
    state := { c.state with
      report := { c.state.report with candidates := c.state.report.candidates + 1 }
      emitted := c.state.emitted ++ [candidate] } }

/-- A candidate that is deleted goes from the disk to the trail. -/
theorem Collecting.Collected.round {r : Uuid} {limit : Nat} {eligible : Option GcCandidate}
    {result : Collecting × Except StoreError Unit}
    (h : (c.shown candidate).Collected r.text directory id candidate.sizeBytes result)
    (hkind : candidate.kind = directory.gcKind) (hid : candidate.objectId = id)
    (htrail : Trail disk audit (some r) c) (hsome : eligible = some candidate)
    (hlimit : c.state.emitted.length ≠ limit) :
    Round disk audit (some r) limit eligible c.state.emitted c.state.report.more result := by
  have hpath : candidate.path = directory.path id := by
    unfold GcCandidate.path
    rw [hkind, hid, Directory.directory_gcKind]
  have haction : ∀ status, (⟨r.text, directory.gcKind, id, candidate.sizeBytes, status⟩ : GcAction)
      = candidate.action r.text status := by
    intro status
    unfold GcCandidate.action
    rw [hkind, hid]
  have hremoved : removed (some r) (c.state.emitted ++ [candidate])
      = removed (some r) c.state.emitted ++ [candidate] := rfl
  cases h with
  | settled hruns hactions hreport =>
      refine .taken hsome hlimit ?_ rfl (by rw [hreport]; rfl)
      constructor
      · rw [hreport]
        exact htrail.runId
      · rw [hreport]
        change c.state.report.candidates + 1 = (c.state.emitted ++ [candidate]).length
        rw [htrail.counted, List.length_append, List.length_singleton]
      · rw [hreport]
        change c.state.report.deleted + 1 = (removed (some r) (c.state.emitted ++ [candidate])).length
        rw [hremoved, htrail.deleted, List.length_append, List.length_singleton]
      · exact hruns.trans htrail.runs
      · change _ = audit.actions ++ settledRows (some r) (c.state.emitted ++ [candidate])
        rw [settledRows_append, ← List.append_assoc, ← htrail.actions, ← haction]
        exact hactions
      · intro path hmem
        change path ∈ (removed (some r) c.state.emitted ++ [candidate]).map GcCandidate.path at hmem
        rw [List.map_append, List.mem_append] at hmem
        rw [Volume.file_fsyncDir_eq_none]
        by_cases hsame : path = directory.path id
        · rw [hsame]
          exact Volume.file_unlink_self
        · rw [Volume.file_unlink_of_ne hsame]
          refine htrail.gone path (hmem.resolve_right fun hlast => hsame ?_)
          rw [← hpath]
          exact List.mem_singleton.1 hlast
      · intro path hout
        change path ∉ (removed (some r) c.state.emitted ++ [candidate]).map GcCandidate.path at hout
        rw [List.map_append, List.mem_append, not_or] at hout
        have hne : path ≠ directory.path id := by
          rw [← hpath]
          exact fun hsame => hout.2 (List.mem_singleton.2 hsame)
        obtain ⟨hkeeps, hnone⟩ := htrail.kept path hout.1
        refine ⟨(hkeeps.trans (Volume.unlink_keeps hne)).trans (Volume.fsyncDir_keeps _ _), ?_⟩
        intro habsent
        rw [Volume.file_fsyncDir_eq_none, Volume.file_unlink_of_ne hne]
        exact hnone habsent
      · exact fun hrun => nomatch hrun
  | unplanned hruns hactions =>
      refine .failed ⟨rfl, hruns.trans htrail.runs, ?_, Or.inl rfl, ?_, fun hrun => nomatch hrun⟩
        (Or.inr ⟨hlimit, candidate, hsome, rfl⟩)
      · rw [List.append_nil, ← htrail.actions]
        exact hactions
      · exact fun path hout => Or.inl (htrail.kept path hout).1
  | @stopped _ _ status _ hruns hactions hdisk =>
      refine .failed ⟨rfl, hruns.trans htrail.runs, ?_, Or.inr ⟨r, candidate, status, rfl, rfl, rfl⟩, ?_,
        fun hrun => nomatch hrun⟩ (Or.inr ⟨hlimit, candidate, hsome, rfl⟩)
      · rw [← htrail.actions, ← haction]
        exact hactions
      · intro path hout
        obtain ⟨hkeeps, -⟩ := htrail.kept path hout
        by_cases hsame : path = directory.path id
        · refine Or.inr ⟨candidate.action r.text status, List.mem_singleton_self _, ?_⟩
          rw [GcCandidate.path_action, hpath, hsame]
        · refine Or.inl (hkeeps.trans ?_)
          rcases hdisk with rfl | rfl | rfl
          · exact .refl _ _
          · exact Volume.unlink_keeps hsame
          · exact (Volume.unlink_keeps hsame).trans (Volume.fsyncDir_keeps _ _)


/-- The round ends before anything is shown. -/
theorem Trail.fails {limit : Nat} {eligible : Option GcCandidate} {more : Bool} {e : StoreError}
    {emitted : List GcCandidate} (h : Trail disk audit run c) (hemitted : c.state.emitted = emitted) :
    Round disk audit run limit eligible emitted more (c, .error e) := by
  subst hemitted
  exact .failed h.stopped (Or.inl rfl)

namespace Collecting

theorem candidate_round {size : Nat} {modified : Int} (htrail : Trail disk audit run c)
    (hrun : ∀ r, run = some r → r.text ∈ audit.runs.map MaintenanceRun.id)
    (hnew : ∀ r, run = some r → ∀ action ∈ audit.actions, action.runId ≠ r.text)
    (hfile : (c.state.disk.file (directory.path id)).isSome)
    (hcandidate : candidate = ⟨run, directory.gcKind, id, size, modified⟩) :
    Round disk audit run options.limit (some candidate) c.state.emitted c.state.report.more
        (c.candidate db options input applied directory id size modified)
      ∧ ((c.candidate db options input applied directory id size modified).1.state,
          (c.candidate db options input applied directory id size modified).2)
        = gcCandidate db options input directory id size modified c.state := by
  subst hcandidate
  unfold Collecting.candidate gcCandidate
  dsimp only
  by_cases hlimit : c.state.report.candidates = options.limit
  · rw [if_pos hlimit, if_pos hlimit]
    refine ⟨.full rfl (htrail.counted.symm.trans hlimit) (htrail.congr rfl rfl rfl) rfl rfl, rfl⟩
  rw [if_neg hlimit, if_neg hlimit]
  cases input.fails .emit directory id with
  | some e => exact ⟨htrail.fails rfl, rfl⟩
  | none =>
      dsimp only
      have hroom : c.state.emitted.length ≠ options.limit :=
        fun h => hlimit (htrail.counted.trans h)
      obtain ⟨⟨now, ⟨runId, examined, candidates, deleted, bytes, skipped, more⟩, emitted⟩, trail⟩ := c
      obtain rfl : runId = run := htrail.runId
      cases runId with
      | none =>
          refine ⟨.taken rfl hroom ?_ rfl rfl, rfl⟩
          constructor
          · rfl
          · change candidates + 1 = (emitted ++ [_]).length
            rw [List.length_append, List.length_singleton, ← htrail.counted]
          · exact htrail.deleted
          · exact htrail.runs
          · exact htrail.actions
          · exact fun path hmem => absurd hmem List.not_mem_nil
          · exact fun path _ => htrail.kept path List.not_mem_nil
          · exact htrail.untouched
      | some r =>
          have hrecorded : r.text ∈ trail.runs.map MaintenanceRun.id := by
            rw [htrail.runs]
            exact hrun r rfl
          have hcollect := @collect_spec db input applied directory id size
            (Collecting.shown ⟨⟨now, ⟨some r, examined, candidates, deleted, bytes, skipped, more⟩,
              emitted⟩, trail⟩ ⟨some r, directory.gcKind, id, size, modified⟩) r.text
            (htrail.fresh (hnew r rfl) hfile) hrecorded
          exact ⟨hcollect.1.round rfl rfl htrail rfl hroom, hcollect.2⟩

/-- One round passes the file over, meets the limit, takes it, or stops. The tables change nothing
about that. -/
theorem entry_round (htrail : Trail disk audit run c)
    (hrun : ∀ r, run = some r → r.text ∈ audit.runs.map MaintenanceRun.id)
    (hnew : ∀ r, run = some r → ∀ action ∈ audit.actions, action.runId ≠ r.text) :
    Round disk audit run options.limit (eligible? db disk input cutoff run directory name)
        c.state.emitted c.state.report.more
        (c.entry db options input applied cutoff directory name)
      ∧ ((c.entry db options input applied cutoff directory name).1.state,
          (c.entry db options input applied cutoff directory name).2)
        = gcEntry db options input cutoff directory name c.state := by
  have hexamined : Trail disk audit run { c with state := { c.state with
      report := { c.state.report with examined := c.state.report.examined + 1 } } } :=
    htrail.congr rfl rfl rfl
  unfold Collecting.entry gcEntry eligible?
  dsimp only
  cases hid : directory.objectId name with
  | none => exact ⟨hexamined.fails rfl, rfl⟩
  | some id =>
      dsimp only
      cases input.fails .entry directory id with
      | some e => exact ⟨hexamined.fails rfl, rfl⟩
      | none =>
          cases hfile : c.state.disk.file (directory.path id) with
          | none => exact ⟨hexamined.fails rfl, rfl⟩
          | some file =>
              obtain ⟨first, hfirst, hcontent⟩ := htrail.file hfile
              simp only [Option.bind_eq_bind, Option.bind_some, hfirst]
              cases hretained : directory.retained db id with
              | true =>
                  rw [if_pos rfl, if_pos rfl, if_pos rfl]
                  exact ⟨.passed rfl hexamined rfl rfl, rfl⟩
              | false =>
                  simp only [Bool.false_eq_true, if_false]
                  cases input.modified directory id with
                  | none => exact ⟨hexamined.fails rfl, rfl⟩
                  | some modified =>
                      dsimp only [Option.bind_some]
                      by_cases hrecent : cutoff < modified
                      · rw [if_pos hrecent, if_pos hrecent, if_pos hrecent]
                        exact ⟨.passed rfl (htrail.congr rfl rfl rfl) rfl rfl, rfl⟩
                      · rw [if_neg hrecent, if_neg hrecent, if_neg hrecent, hcontent]
                        exact candidate_round hexamined hrun hnew (by rw [hfile]; rfl) rfl

end Collecting

/-- How the collector ends, of all that it could show. -/
inductive Ending (disk : Disk) (audit : Audit) (run : Option Uuid) (limit : Nat)
    (all : List GcCandidate) : Collecting × Except StoreError Unit → Prop
  | finished {c : Collecting} (htrail : Trail disk audit run c)
      (hemitted : c.state.emitted = all.take limit)
      (hmore : c.state.report.more = decide (limit < all.length)) :
      Ending disk audit run limit all (c, .ok ())
  | failed {c : Collecting} {done tail : List GcCandidate} {pending : List GcAction} {e : StoreError}
      (hstopped : Stopped disk audit run done tail pending c) (hshown : done ++ tail <+: all)
      (hlimit : (done ++ tail).length ≤ limit) :
      Ending disk audit run limit all (c, .error e)

namespace Collecting

/-- The loop over one directory, by induction on the listing: what has been shown is at all times what
comes first of all. -/
theorem directory_ending (hrun : ∀ r, run = some r → r.text ∈ audit.runs.map MaintenanceRun.id)
    (hnew : ∀ r, run = some r → ∀ action ∈ audit.actions, action.runId ≠ r.text)
    {names : List Text} {all : List GcCandidate} (htrail : Trail disk audit run c)
    (hmore : c.state.report.more = false) (hroom : c.state.emitted.length ≤ options.limit)
    (hall : all = c.state.emitted
      ++ names.filterMap (eligible? db disk input cutoff run directory)) :
    Ending disk audit run options.limit all
        (Collecting.directory db options input applied cutoff directory names c)
      ∧ ((Collecting.directory db options input applied cutoff directory names c).1.state,
          (Collecting.directory db options input applied cutoff directory names c).2)
        = gcDirectory db options input cutoff directory names c.state := by
  induction names generalizing c with
  | nil =>
      rw [List.filterMap_nil, List.append_nil] at hall
      subst hall
      refine ⟨.finished htrail (List.take_of_length_le hroom).symm ?_, rfl⟩
      rw [hmore, decide_eq_false (Nat.not_lt.2 hroom)]
  | cons name rest ih =>
      obtain ⟨hround, hsame⟩ := @entry_round db options input applied cutoff directory name disk audit
        run c htrail hrun hnew
      unfold Collecting.directory gcDirectory
      rw [← hsame]
      generalize c.entry db options input applied cutoff directory name = result at hround
      rw [List.filterMap_cons] at hall
      cases hround with
      | @passed after hnone hafter hemitted hkept =>
          rw [hnone] at hall
          dsimp only
          rw [hkept, hmore, if_neg Bool.false_ne_true, if_neg Bool.false_ne_true]
          exact ih hafter (hkept.trans hmore) (hemitted ▸ hroom) (hemitted ▸ hall)
      | @full after candidate hsome hlimit hafter hemitted hmet =>
          rw [hsome] at hall
          dsimp only
          rw [hmet, if_pos rfl, if_pos rfl]
          refine ⟨.finished hafter ?_ ?_, rfl⟩
          · rw [hemitted, hall, ← hlimit, List.take_left]
          · rw [hmet, hall, List.length_append, List.length_cons, decide_eq_true]
            omega
      | @taken after candidate hsome hlimit hafter hemitted hkept =>
          rw [hsome] at hall
          dsimp only
          rw [hkept, hmore, if_neg Bool.false_ne_true, if_neg Bool.false_ne_true]
          refine ih hafter (hkept.trans hmore) ?_ ?_
          · rw [hemitted, List.length_append, List.length_singleton]
            omega
          · rw [hemitted, hall, List.append_assoc, List.singleton_append]
      | @failed after tail pending e hstopped htail =>
          refine ⟨.failed hstopped ?_ ?_, rfl⟩
          · rcases htail with rfl | ⟨-, candidate, hsome, rfl⟩
            · rw [List.append_nil, hall]
              exact List.prefix_append _ _
            · rw [hsome] at hall
              rw [hall, List.prefix_append_right_inj]
              exact ⟨_, rfl⟩
          · rcases htail with rfl | ⟨hlimit, candidate, -, rfl⟩
            · rw [List.append_nil]
              exact hroom
            · rw [List.length_append, List.length_singleton]
              omega

/-- The staging directory, and then the blobs unless there was more already. -/
theorem directories_ending (hrun : ∀ r, run = some r → r.text ∈ audit.runs.map MaintenanceRun.id)
    (hnew : ∀ r, run = some r → ∀ action ∈ audit.actions, action.runId ≠ r.text)
    (htrail : Trail disk audit run c) (hmore : c.state.report.more = false)
    (hnone : c.state.emitted = []) :
    Ending disk audit run options.limit (eligibleFiles db disk input cutoff run)
        (c.directories db options input applied cutoff)
      ∧ ((c.directories db options input applied cutoff).1.state,
          (c.directories db options input applied cutoff).2)
        = gcDirectories db options input cutoff c.state := by
  obtain ⟨hstaging, hsame⟩ := @directory_ending db options input applied cutoff .staging disk audit run
    c hrun hnew (input.listing .staging)
    ((input.listing .staging).filterMap (eligible? db disk input cutoff run .staging)) htrail hmore
    (by rw [hnone]; exact Nat.zero_le _) (by rw [hnone]; rfl)
  unfold Collecting.directories gcDirectories eligibleFiles
  rw [← hsame]
  generalize Collecting.directory db options input applied cutoff .staging (input.listing .staging) c
    = result at hstaging
  generalize (input.listing .staging).filterMap (eligible? db disk input cutoff run .staging) = first
    at hstaging
  cases hstaging with
  | @failed after done tail pending e hstopped hshown hlimit =>
      exact ⟨.failed hstopped (hshown.trans (List.prefix_append _ _)) hlimit, rfl⟩
  | @finished after hafter hemitted hmet =>
      dsimp only
      by_cases hfull : options.limit < first.length
      · rw [hmet, decide_eq_true hfull, if_pos rfl, if_pos rfl]
        refine ⟨.finished hafter ?_ ?_, rfl⟩
        · rw [hemitted, List.take_append_of_le_length (Nat.le_of_lt hfull)]
        · rw [hmet, decide_eq_true hfull, List.length_append, decide_eq_true]
          omega
      · rw [hmet, decide_eq_false hfull, if_neg Bool.false_ne_true, if_neg Bool.false_ne_true]
        rw [List.take_of_length_le (Nat.not_lt.1 hfull)] at hemitted
        apply directory_ending hrun hnew hafter
        · rw [hmet, decide_eq_false hfull]
        · rw [hemitted]
          exact Nat.not_lt.1 hfull
        · rw [hemitted]

end Collecting

end Rustymail
