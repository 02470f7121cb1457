import Rustymail.Proof.ClockGuard
import Rustymail.Proof.Collection

/-!
# A run of the collector

The beginning and the end of a run around its loops: what is on record of it, and that what it does
to the directories does not depend on the records of other runs.
-/

namespace Rustymail

open Checked

/-! ### What may be collected -/

theorem isPrefixOf?_eq_some {first l rest : Text} (h : first.isPrefixOf? l = some rest) :
    l = first ++ rest := by
  induction first generalizing l with
  | nil =>
      cases h
      rfl
  | cons b first ih =>
      cases l with
      | nil => cases h
      | cons c l =>
          unfold List.isPrefixOf? at h
          split_ifs at h with hsame
          obtain rfl := beq_iff_eq.1 hsame
          rw [ih h, List.cons_append]

theorem Directory.objectId_eq_some {directory : Directory} {name id : Text}
    (h : directory.objectId name = some id) :
    name = id ++ directory.suffix ∧ validId id = true := by
  unfold Directory.objectId at h
  obtain ⟨hsuffix, hvalid⟩ := Option.filter_eq_some_iff.1 h
  refine ⟨?_, hvalid⟩
  unfold List.isSuffixOf? at hsuffix
  obtain ⟨rest, hrest, rfl⟩ := Option.map_eq_some_iff.1 hsuffix
  have hname := congrArg List.reverse (isPrefixOf?_eq_some hrest)
  rw [List.reverse_reverse, List.reverse_append, List.reverse_reverse] at hname
  exact hname

/-- The time that an eligible file may have been modified at last. -/
def GcOptions.cutoff (options : GcOptions) (now : Int) : Int :=
  max (now - options.minAgeSeconds * 1000) (-(2 ^ 63))

/-- A listed file under an object's name in one of the two directories, of which no row knows, and
which was not modified lately. -/
def Collectable (d : Depot) (options : GcOptions) (input : GcInput) (candidate : GcCandidate) :
    Prop :=
  ∃ now, input.reading.nowMs = .ok now
    ∧ candidate.objectId ++ candidate.kind.directory.suffix ∈ input.listing candidate.kind.directory
    ∧ validId candidate.objectId = true
    ∧ (candidate.kind = .orphan → d.world.store.db.blob? candidate.objectId = none)
    ∧ (∃ file, d.disk.file candidate.path = some file ∧ candidate.sizeBytes = file.content.length)
    ∧ input.modified candidate.kind.directory candidate.objectId = some candidate.modifiedAtMs
    ∧ candidate.modifiedAtMs ≤ now - options.minAgeSeconds * 1000

variable {d : Depot} {options : GcOptions} {input : GcInput} {applied : Applied} {now : Int}
  {run : Option Uuid} {candidate : GcCandidate}

/-- The age that the collector takes is never so large that the subtraction saturates. -/
theorem GcOptions.cutoff_eq (hnow : input.reading.nowMs = .ok now)
    (hage : options.minAgeSeconds ≤ i64Max / 1000) :
    options.cutoff now = now - options.minAgeSeconds * 1000 := by
  obtain ⟨-, hpositive, -⟩ := nowMs_eq_ok.1 hnow
  have hmax : i64Max = 2 ^ 63 - 1 := rfl
  unfold cutoff
  exact max_eq_left (by omega)

theorem collectable_of_eligible {directory : Directory} {name : Text}
    (hnow : input.reading.nowMs = .ok now) (hage : options.minAgeSeconds ≤ i64Max / 1000)
    (hname : name ∈ input.listing directory)
    (h : eligible? d.world.store.db d.disk input (options.cutoff now) run directory name
      = some candidate) :
    Collectable d options input candidate := by
  unfold eligible? at h
  obtain ⟨id, hid, hread⟩ := Option.bind_eq_some_iff.1 h
  obtain ⟨file, hfile, hrest⟩ := Option.bind_eq_some_iff.1 hread
  obtain ⟨hsplit, hvalid⟩ := Directory.objectId_eq_some hid
  by_cases hretained : directory.retained d.world.store.db id = true
  · rw [if_pos hretained] at hrest
    cases hrest
  rw [if_neg hretained] at hrest
  obtain ⟨modified, hmodified, hlast⟩ := Option.bind_eq_some_iff.1 hrest
  by_cases hrecent : options.cutoff now < modified
  · rw [if_pos hrecent] at hlast
    cases hlast
  rw [if_neg hrecent] at hlast
  cases hlast
  rw [GcOptions.cutoff_eq hnow hage] at hrecent
  refine ⟨now, hnow, ?_, hvalid, ?_, ⟨file, ?_, rfl⟩, ?_, Int.not_lt.1 hrecent⟩
  · rw [Directory.directory_gcKind, ← hsplit]
    exact hname
  · intro hkind
    cases directory with
    | staging => cases hkind
    | blobs =>
        unfold Directory.retained Db.blobRetained at hretained
        rw [decide_eq_true rfl, Bool.true_and, Bool.not_eq_true] at hretained
        exact Option.isSome_eq_false_iff.1 hretained |> Option.isNone_iff_eq_none.1
  · unfold GcCandidate.path
    rw [Directory.directory_gcKind]
    exact hfile
  · rw [Directory.directory_gcKind]
    exact hmodified

theorem collectable_of_mem (hnow : input.reading.nowMs = .ok now)
    (hage : options.minAgeSeconds ≤ i64Max / 1000)
    (h : candidate ∈ eligibleFiles d.world.store.db d.disk input (options.cutoff now) run) :
    Collectable d options input candidate := by
  rcases List.mem_append.1 h with hstaging | hblobs
  · obtain ⟨name, hname, heligible⟩ := List.mem_filterMap.1 hstaging
    exact collectable_of_eligible hnow hage hname heligible
  · obtain ⟨name, hname, heligible⟩ := List.mem_filterMap.1 hblobs
    exact collectable_of_eligible hnow hage hname heligible

/-- Nothing that a row refers to can be collected. -/
theorem Collectable.unreferenced (h : Collectable d options input candidate) {row : Blob}
    (hrow : row ∈ d.world.store.db.blobs) : candidate.path ≠ Directory.blobs.path row.id := by
  obtain ⟨now, -, -, -, hblob, -⟩ := h
  intro hpath
  obtain ⟨hdirectory, hname⟩ := Prod.mk.inj hpath
  have hkind : candidate.kind = .orphan := by
    cases hk : candidate.kind with
    | staging =>
        rw [hk] at hdirectory
        cases hdirectory
    | orphan => rfl
  rw [hkind] at hname
  have hid : candidate.objectId = row.id := List.append_cancel_right hname
  have habsent := hblob hkind
  unfold Db.blob? at habsent
  exact Keyed.lookup_none_iff.1 habsent row hrow hid.symm

/-! ### The record of the run -/

namespace AuditedDepot

variable {audit begun ended : Audit} {e : StoreError}

/-- A run that deletes begins with its record, under an identifier that is new. -/
theorem gcBegin_ok (h : gcBegin options input applied now audit = (begun, .ok run)) :
    (options.apply = false ∧ run = none ∧ begun = audit)
      ∨ (options.apply = true ∧ input.start = none ∧ run = some input.runId
        ∧ input.runId.text ∉ audit.runs.map MaintenanceRun.id
        ∧ begun.runs
          = audit.runs ++ [⟨input.runId.text, now, none, options.minAgeSeconds, .running⟩]
        ∧ begun.actions = audit.actions) := by
  unfold gcBegin at h
  cases happly : options.apply with
  | false =>
      rw [happly] at h
      cases h
      exact Or.inl ⟨rfl, rfl, rfl⟩
  | true =>
      rw [happly, if_pos rfl] at h
      by_cases hfresh : input.runId.text ∉ audit.runs.map MaintenanceRun.id
      · obtain ⟨inserted, hinsert, hruns, hactions⟩ := @Audit.insertRun_ok audit
          ⟨input.runId.text, now, none, options.minAgeSeconds, .running⟩ hfresh
        rw [hinsert] at h
        dsimp only at h
        cases hstart : input.start with
        | some e =>
            rw [hstart] at h
            cases h
        | none =>
            rw [hstart] at h
            cases h
            exact Or.inr ⟨rfl, rfl, rfl, hfresh, hruns, hactions⟩
      · rw [@Audit.insertRun_error audit
          ⟨input.runId.text, now, none, options.minAgeSeconds, .running⟩ (not_not.1 hfresh)] at h
        cases h

theorem gcBegin_error (h : gcBegin options input applied now audit = (begun, .error e)) :
    options.apply = true ∧ begun.actions = audit.actions
      ∧ (input.start = some e ∨ input.runId.text ∈ audit.runs.map MaintenanceRun.id) := by
  unfold gcBegin at h
  cases happly : options.apply with
  | false =>
      rw [happly] at h
      cases h
  | true =>
      refine ⟨rfl, ?_⟩
      rw [happly, if_pos rfl] at h
      cases hinsert : audit.insertRun
          { id := input.runId.text, startedAtMs := now, minAgeSeconds := options.minAgeSeconds }
        with
      | error e =>
          rw [hinsert] at h
          cases h
          refine ⟨rfl, Or.inr (Decidable.byContradiction fun hfresh => ?_)⟩
          obtain ⟨inserted, hok, -⟩ := @Audit.insertRun_ok audit
            ⟨input.runId.text, now, none, options.minAgeSeconds, .running⟩ hfresh
          exact nomatch hok.symm.trans hinsert
      | ok inserted =>
          have hactions : inserted.actions = audit.actions := by
            unfold Audit.insertRun at hinsert
            split_ifs at hinsert
            cases hinsert
            rfl
          rw [hinsert] at h
          dsimp only at h
          cases hstart : input.start with
          | none =>
              rw [hstart] at h
              cases h
          | some e =>
              rw [hstart] at h
              cases h
              refine ⟨?_, Or.inl rfl⟩
              split_ifs
              · exact hactions
              · rfl

theorem gcBegin_starts (h : gcBegin options input applied now audit = (begun, .ok run)) :
    (if options.apply then input.start else none) = none
      ∧ run = if options.apply then some input.runId else none := by
  rcases gcBegin_ok h with ⟨happly, rfl, -⟩ | ⟨happly, hstart, rfl, -⟩
  · rw [happly]
    exact ⟨rfl, rfl⟩
  · rw [happly]
    exact ⟨hstart, rfl⟩

/-- The end of a run concerns its own record only. -/
theorem gcEnd_actions (input : GcInput) (applied : Applied) (run : Option Uuid) (audit : Audit) :
    (gcEnd input applied run audit).1.actions = audit.actions := by
  unfold gcEnd
  cases run with
  | none => rfl
  | some r =>
      cases input.completed.nowMs with
      | error e => rfl
      | ok now =>
          cases input.finish with
          | none => rfl
          | some e =>
              dsimp only
              split_ifs
              · rfl
              · rfl

theorem gcEnd_ok {r : Uuid} (h : gcEnd input applied (some r) audit = (ended, .ok ())) :
    ∃ completed, input.completed.nowMs = .ok completed
      ∧ ended = audit.completeRun completed r.text := by
  unfold gcEnd at h
  cases hnow : input.completed.nowMs with
  | error e =>
      rw [hnow] at h
      cases h
  | ok completed =>
      rw [hnow] at h
      dsimp only at h
      cases hfinish : input.finish with
      | some e =>
          rw [hfinish] at h
          cases h
      | none =>
          rw [hfinish] at h
          cases h
          exact ⟨completed, rfl, rfl⟩

/-! ### What a run leaves behind -/

theorem Audit.eq_of_tables {first second : Audit} (hruns : first.runs = second.runs)
    (hactions : first.actions = second.actions) : first = second := by
  cases first
  cases second
  cases hruns
  cases hactions
  rfl

/-- A file is gone only if it was shown, could be collected, and is on record. The rows of a run are
settled, but for one of the candidate at which it stopped. -/
structure Accounted (a : AuditedDepot) (options : GcOptions) (input : GcInput)
    (after : AuditedDepot) (emitted : List GcCandidate) : Prop where
  disk_only : ∃ disk, after.depot = { a.depot with disk := disk }
  few : emitted.length ≤ options.limit
  collectable : ∀ candidate ∈ emitted, Collectable a.depot options input candidate
  unapplied : options.apply = false → after = a
  kept : ∀ path, a.depot.disk.Keeps after.depot.disk path ∨ ∃ candidate ∈ emitted,
    candidate.path = path ∧ ∃ status, candidate.action input.runId.text status ∈ after.audit.actions
  rows : ∃ done pending, done <+: emitted
    ∧ after.audit.actions = a.audit.actions
      ++ done.map (GcCandidate.action input.runId.text .deleted) ++ pending
    ∧ (pending = [] ∨ ∃ candidate status, emitted = done ++ [candidate]
      ∧ pending = [candidate.action input.runId.text status])

variable {a : AuditedDepot}

/-- A run that shows nothing leaves the directories alone. -/
theorem Accounted.nothing (hactions : ended.actions = a.audit.actions)
    (happly : options.apply = false → ended = a.audit) :
    Accounted a options input { a with audit := ended } [] where
  disk_only := ⟨a.depot.disk, rfl⟩
  few := Nat.zero_le _
  collectable _ hmem := absurd hmem List.not_mem_nil
  unapplied h := by rw [happly h]
  kept path := Or.inl (.refl _ path)
  rows := by
    refine ⟨[], [], List.prefix_refl [], ?_, Or.inl rfl⟩
    rw [List.map_nil, List.append_nil, List.append_nil]
    exact hactions

theorem Accounted.of_stopped {c : Collecting} {done tail : List GcCandidate}
    {pending : List GcAction} (hnow : input.reading.nowMs = .ok now)
    (hage : options.minAgeSeconds ≤ i64Max / 1000)
    (hbegin : gcBegin options input applied now a.audit = (begun, .ok run))
    (hstopped : Stopped a.depot.disk begun run done tail pending c)
    (hshown : done ++ tail
      <+: eligibleFiles a.depot.world.store.db a.depot.disk input (options.cutoff now) run)
    (hlimit : (done ++ tail).length ≤ options.limit) (hactions : ended.actions = c.audit.actions)
    (hruns : run = none → ended.runs = c.audit.runs) :
    Accounted a options input ⟨{ a.depot with disk := c.state.disk }, ended⟩ c.state.emitted := by
  have hcollectable : ∀ candidate ∈ c.state.emitted,
      Collectable a.depot options input candidate := by
    intro candidate hmem
    rw [hstopped.emitted] at hmem
    exact collectable_of_mem hnow hage (hshown.subset hmem)
  have hfew : c.state.emitted.length ≤ options.limit := by
    rw [hstopped.emitted]
    exact hlimit
  rcases gcBegin_ok hbegin with ⟨happly, rfl, rfl⟩ | ⟨happly, -, rfl, -, -, hbegun⟩
  · -- Nothing is deleted.
    have hpending : pending = [] := by
      rcases hstopped.planned with hnone | ⟨r, _, _, hr, -⟩
      · exact hnone
      · cases hr
    have hsame : ended = a.audit := by
      refine Audit.eq_of_tables ((hruns rfl).trans hstopped.runs) ?_
      rw [hactions, hstopped.actions, hpending, List.append_nil]
      exact List.append_nil _
    have hdisk := hstopped.untouched rfl
    refine ⟨⟨_, rfl⟩, hfew, hcollectable, fun _ => by rw [hsame, hdisk], ?_, ⟨[], [], ?_, ?_, ?_⟩⟩
    · intro path
      exact Or.inl (.of_eq (congrArg (Volume.file · path) hdisk))
    · exact List.nil_prefix
    · rw [hsame, List.map_nil, List.append_nil, List.append_nil]
    · exact Or.inl rfl
  · have hrows : ended.actions = a.audit.actions
        ++ done.map (GcCandidate.action input.runId.text .deleted) ++ pending := by
      rw [hactions, hstopped.actions, hbegun]
      rfl
    refine ⟨⟨_, rfl⟩, hfew, hcollectable, fun hnot => ?_, ?_, done, pending, ?_, hrows, ?_⟩
    · rw [happly] at hnot
      cases hnot
    · intro path
      by_cases hdone : path ∈ done.map GcCandidate.path
      · obtain ⟨candidate, hmem, hpath⟩ := List.mem_map.1 hdone
        refine Or.inr ⟨candidate, ?_, hpath, .deleted, ?_⟩
        · rw [hstopped.emitted]
          exact List.mem_append_left _ hmem
        · rw [hrows]
          exact List.mem_append_left _ (List.mem_append_right _ (List.mem_map_of_mem hmem))
      · rcases hstopped.kept path hdone with hkeeps | ⟨action, haction, hpath⟩
        · exact Or.inl hkeeps
        · rcases hstopped.planned with rfl | ⟨r, candidate, status, hr, htail, hpending⟩
          · cases haction
          · obtain rfl := Option.some.inj hr
            rw [hpending] at haction hrows
            obtain rfl := List.mem_singleton.1 haction
            refine Or.inr ⟨candidate, ?_, hpath, status, ?_⟩
            · rw [hstopped.emitted, htail]
              exact List.mem_append_right _ (List.mem_singleton_self _)
            · rw [hrows]
              exact List.mem_append_right _ (List.mem_singleton_self _)
    · rw [hstopped.emitted]
      exact List.prefix_append _ _
    · rcases hstopped.planned with hnone | ⟨r, candidate, status, hr, htail, hpending⟩
      · exact Or.inl hnone
      · obtain rfl := Option.some.inj hr
        exact Or.inr ⟨candidate, status, by rw [hstopped.emitted, htail], hpending⟩

/-! ### Whole runs -/

/-- Where the loops start. -/
def gcInitial (d : Depot) (run : Option Uuid) (begun : Audit) : Collecting :=
  ⟨⟨d.disk, { runId := run }, []⟩, begun⟩

/-- The loops of a run. -/
def gcLoops (d : Depot) (options : GcOptions) (input : GcInput) (applied : Applied) (now : Int)
    (run : Option Uuid) (begun : Audit) : Collecting × Except StoreError Unit :=
  (gcInitial d run begun).directories d.world.store.db options input applied (options.cutoff now)

/-- How a run can go. -/
inductive Went (sha256 : Text → Text) (a : AuditedDepot) (options : GcOptions) (input : GcInput)
    (applied : Applied) : AuditedDepot × List GcCandidate × Except StoreError GcReport → Prop
  | refused {e : StoreError} (hchecks : gcChecks sha256 a.depot options input = .error e) :
      Went sha256 a options input applied (a, [], .error e)
  | unrecorded {now : Int} {begun : Audit} {e : StoreError}
      (hchecks : gcChecks sha256 a.depot options input = .ok now)
      (hbegin : gcBegin options input applied now a.audit = (begun, .error e)) :
      Went sha256 a options input applied ({ a with audit := begun }, [], .error e)
  | stopped {now : Int} {begun : Audit} {run : Option Uuid} {c : Collecting} {e : StoreError}
      (hchecks : gcChecks sha256 a.depot options input = .ok now)
      (hbegin : gcBegin options input applied now a.audit = (begun, .ok run))
      (hloops : gcLoops a.depot options input applied now run begun = (c, .error e)) :
      Went sha256 a options input applied
        (⟨{ a.depot with disk := c.state.disk }, c.audit⟩, c.state.emitted, .error e)
  | ended {now : Int} {begun ended : Audit} {run : Option Uuid} {c : Collecting}
      {last : Except StoreError Unit}
      (hchecks : gcChecks sha256 a.depot options input = .ok now)
      (hbegin : gcBegin options input applied now a.audit = (begun, .ok run))
      (hloops : gcLoops a.depot options input applied now run begun = (c, .ok ()))
      (hend : gcEnd input applied c.state.report.runId c.audit = (ended, last)) :
      Went sha256 a options input applied
        (⟨{ a.depot with disk := c.state.disk }, ended⟩, c.state.emitted,
          last.map fun _ => c.state.report)

theorem gc_went (sha256 : Text → Text) (a : AuditedDepot) (options : GcOptions) (input : GcInput)
    (applied : Applied) :
    Went sha256 a options input applied (a.gc sha256 options input applied) := by
  unfold gc
  cases hchecks : gcChecks sha256 a.depot options input with
  | error e => exact .refused hchecks
  | ok now =>
      dsimp only
      cases hbegin : gcBegin options input applied now a.audit with
      | mk begun begins =>
          cases begins with
          | error e => exact .unrecorded hchecks hbegin
          | ok run =>
              dsimp only
              generalize hloops : Collecting.directories a.depot.world.store.db options input
                applied (max (now - options.minAgeSeconds * 1000) (-(2 ^ 63)))
                ⟨⟨a.depot.disk, { runId := run }, []⟩, begun⟩ = outcome
              obtain ⟨c, e | u⟩ := outcome
              · exact .stopped hchecks hbegin hloops
              · dsimp only
                cases hend : gcEnd input applied c.state.report.runId c.audit with
                | mk last result =>
                    cases result with
                    | error e => exact .ended hchecks hbegin hloops hend
                    | ok u => exact .ended hchecks hbegin hloops hend

theorem gcChecks_ok {sha256 : Text → Text} (h : gcChecks sha256 d options input = .ok now) :
    d.idle = true ∧ (checkIntegrity d.world.store (d.findings sha256 input.listing)).healthy = true
      ∧ input.reading.nowMs = .ok now ∧ options.minAgeSeconds ≤ i64Max / 1000 := by
  unfold gcChecks Depot.gcStart at h
  simp only [bind_eq_ok, require_eq_ok, pure_eq_ok] at h
  obtain ⟨-, -, -, hidle, -, ⟨-, -, hage⟩, -, -, -, hhealthy, read, hread, -, -, rfl⟩ := h
  exact ⟨hidle, hhealthy, hread, hage⟩

theorem gcInitial_trail (d : Depot) (run : Option Uuid) (begun : Audit) :
    Trail d.disk begun run (gcInitial d run begun) where
  runId := rfl
  counted := rfl
  deleted := by
    unfold removed
    split_ifs
    · rfl
    · rfl
  runs := rfl
  actions := by
    unfold settledRows removed
    split_ifs
    · exact (List.append_nil _).symm
    · exact (List.append_nil _).symm
  gone path hmem := by
    unfold removed at hmem
    split_ifs at hmem
    · cases hmem
    · cases hmem
  kept path _ := ⟨.refl _ path, id⟩
  untouched _ := rfl

/-- The loops of a run end as loops do: no other run has a row under the identifier of this one. -/
theorem gcLoops_ending (hbegin : gcBegin options input applied now a.audit = (begun, .ok run)) :
    Ending a.depot.disk begun run options.limit
        (eligibleFiles a.depot.world.store.db a.depot.disk input (options.cutoff now) run)
        (gcLoops a.depot options input applied now run begun)
      ∧ ((gcLoops a.depot options input applied now run begun).1.state,
          (gcLoops a.depot options input applied now run begun).2)
        = gcDirectories a.depot.world.store.db options input (options.cutoff now)
          ⟨a.depot.disk, { runId := run }, []⟩ := by
  refine Collecting.directories_ending ?_ ?_ (gcInitial_trail _ _ _) rfl rfl
  · intro r hr
    rcases gcBegin_ok hbegin with ⟨-, rfl, -⟩ | ⟨-, -, rfl, -, hruns, -⟩
    · cases hr
    · obtain rfl := Option.some.inj hr
      rw [hruns, List.map_append]
      exact List.mem_append_right _ (List.mem_singleton_self _)
  · intro r hr action haction
    rcases gcBegin_ok hbegin with ⟨-, rfl, -⟩ | ⟨-, -, rfl, hfresh, -, hactions⟩
    · cases hr
    · obtain rfl := Option.some.inj hr
      rw [hactions] at haction
      exact fun hsame => hfresh (hsame ▸ a.audit.referenced action haction)

variable {sha256 : Text → Text}
  {outcome : AuditedDepot × List GcCandidate × Except StoreError GcReport}

theorem Went.accounted (h : Went sha256 a options input applied outcome) :
    Accounted a options input outcome.1 outcome.2.1 := by
  cases h with
  | refused hchecks => exact .nothing rfl fun _ => rfl
  | unrecorded hchecks hbegin =>
      obtain ⟨happly, hactions, -⟩ := gcBegin_error hbegin
      refine .nothing hactions fun hnot => ?_
      rw [happly] at hnot
      cases hnot
  | stopped hchecks hbegin hloops =>
      obtain ⟨-, -, hnow, hage⟩ := gcChecks_ok hchecks
      have hending := (gcLoops_ending hbegin).1
      rw [hloops] at hending
      cases hending with
      | failed hstopped hshown hlimit =>
          exact .of_stopped hnow hage hbegin hstopped hshown hlimit rfl fun _ => rfl
  | @ended now begun last run c result hchecks hbegin hloops hend =>
      obtain ⟨-, -, hnow, hage⟩ := gcChecks_ok hchecks
      have hending := (gcLoops_ending hbegin).1
      rw [hloops] at hending
      cases hending with
      | finished htrail hemitted hmore =>
          refine .of_stopped hnow hage hbegin htrail.stopped ?_ ?_ ?_ ?_
          · rw [List.append_nil, hemitted]
            exact List.take_prefix _ _
          · rw [List.append_nil, hemitted]
            exact List.length_take_le _ _
          · have hactions := gcEnd_actions input applied c.state.report.runId c.audit
            rw [hend] at hactions
            exact hactions
          · rintro rfl
            rw [htrail.runId] at hend
            cases hend
            rfl

/-- What a report says of a run that has come to its end. -/
structure Reported (a : AuditedDepot) (options : GcOptions) (input : GcInput) (after : AuditedDepot)
    (emitted : List GcCandidate) (report : GcReport) (now : Int) : Prop where
  started : input.reading.nowMs = .ok now
  shown : emitted = (eligibleFiles a.depot.world.store.db a.depot.disk input (options.cutoff now)
    report.runId).take options.limit
  counted : report.candidates = emitted.length
  more : report.more = true
    ↔ options.limit < (eligibleFiles a.depot.world.store.db a.depot.disk input
      (options.cutoff now) report.runId).length
  settled : options.apply = true → report.deleted = report.candidates
    ∧ after.audit.actions
      = a.audit.actions ++ emitted.map (GcCandidate.action input.runId.text .deleted)
    ∧ (∀ candidate ∈ emitted, after.depot.disk.file candidate.path = none)
    ∧ ∃ row ∈ after.audit.runs, row.id = input.runId.text ∧ row.status = .complete

theorem Went.reported {report : GcReport} (h : Went sha256 a options input applied outcome)
    (hok : outcome.2.2 = .ok report) :
    ∃ now, Reported a options input outcome.1 outcome.2.1 report now := by
  cases h with
  | refused hchecks => cases hok
  | unrecorded hchecks hbegin => cases hok
  | stopped hchecks hbegin hloops => cases hok
  | @ended now begun last run c result hchecks hbegin hloops hend =>
      obtain ⟨-, -, hnow, hage⟩ := gcChecks_ok hchecks
      have hending := (gcLoops_ending hbegin).1
      rw [hloops] at hending
      cases hending with
      | finished htrail hemitted hmore =>
          cases result with
          | error e => cases hok
          | ok u =>
              cases hok
              refine ⟨now, hnow, ?_, htrail.counted, ?_, ?_⟩
              · rw [htrail.runId]
                exact hemitted
              · rw [htrail.runId, hmore, decide_eq_true_eq]
              · intro happly
                rcases gcBegin_ok hbegin with ⟨hnot, -⟩ | ⟨-, -, rfl, -, hruns, hactions⟩
                · rw [hnot] at happly
                  cases happly
                · have hlast := gcEnd_actions input applied c.state.report.runId c.audit
                  rw [hend] at hlast
                  refine ⟨htrail.deleted.trans htrail.counted.symm, ?_, ?_, ?_⟩
                  · exact hlast.trans (htrail.actions.trans (congrArg (· ++ _) hactions))
                  · exact fun candidate hmem => htrail.gone _ (List.mem_map_of_mem hmem)
                  · rw [htrail.runId] at hend
                    obtain ⟨completed, -, rfl⟩ := gcEnd_ok hend
                    refine ⟨MaintenanceRun.complete completed input.runId.text
                      ⟨input.runId.text, now, none, options.minAgeSeconds, .running⟩, ?_, ?_, ?_⟩
                    · refine List.mem_map_of_mem ?_
                      rw [htrail.runs, hruns]
                      exact List.mem_append_right _ (List.mem_singleton_self _)
                    · exact MaintenanceRun.id_complete _ _ _
                    · unfold MaintenanceRun.complete
                      rw [if_pos rfl]

/-- The checks of the collector without records, in two parts. -/
theorem gcStart_eq (sha256 : Text → Text) (d : Depot) (options : GcOptions) (input : GcInput) :
    d.gcStart sha256 options input = gcChecks sha256 d options input >>= fun now =>
      orFail (if options.apply then input.start else none) >>= fun _ => pure now := by
  unfold gcChecks Depot.gcStart
  simp only [bind_assoc, pure_bind, ite_self]
  rfl

theorem gcStart_ok (hchecks : gcChecks sha256 d options input = .ok now)
    (hbegin : gcBegin options input applied now audit = (begun, .ok run)) :
    d.gcStart sha256 options input = .ok now := by
  rw [gcStart_eq, hchecks, (gcBegin_starts hbegin).1]
  rfl

/-- Under a new identifier a run does what it does without any records. -/
theorem gc_depot (hfresh : input.runId.text ∉ a.audit.runs.map MaintenanceRun.id) :
    ((a.gc sha256 options input applied).1.depot, (a.gc sha256 options input applied).2)
      = a.depot.gc sha256 options input := by
  have hwent := gc_went sha256 a options input applied
  generalize a.gc sha256 options input applied = outcome at hwent
  unfold Depot.gc
  cases hwent with
  | refused hchecks =>
      rw [gcStart_eq, hchecks]
      rfl
  | unrecorded hchecks hbegin =>
      obtain ⟨happly, -, hstart | hstale⟩ := gcBegin_error hbegin
      · rw [gcStart_eq, hchecks, happly, hstart]
        rfl
      · exact absurd hstale hfresh
  | @stopped now begun run c e hchecks hbegin hloops =>
      have hsame := (gcLoops_ending hbegin).2
      rw [hloops] at hsame
      obtain ⟨-, rfl⟩ := gcBegin_starts hbegin
      rw [gcStart_ok hchecks hbegin]
      dsimp only
      unfold GcOptions.cutoff at hsame
      rw [← hsame]
  | @ended now begun last run c result hchecks hbegin hloops hend =>
      have hsame := (gcLoops_ending hbegin).2
      rw [hloops] at hsame
      obtain ⟨-, rfl⟩ := gcBegin_starts hbegin
      rw [gcStart_ok hchecks hbegin]
      dsimp only
      unfold GcOptions.cutoff at hsame
      rw [← hsame]
      dsimp only
      unfold gcEnd at hend
      cases hrun : c.state.report.runId with
      | none =>
          rw [hrun] at hend
          cases hend
          rfl
      | some r =>
          rw [hrun] at hend
          dsimp only at hend ⊢
          cases hnow : input.completed.nowMs with
          | error e =>
              rw [hnow] at hend
              cases hend
              rfl
          | ok completed =>
              rw [hnow] at hend
              dsimp only at hend ⊢
              cases hfinish : input.finish with
              | some e =>
                  rw [hfinish] at hend
                  cases hend
                  rfl
              | none =>
                  rw [hfinish] at hend
                  cases hend
                  rfl

/-- **Garbage collection is bounded, limited by age, and audited.** Whatever fails, it does nothing
unless the store is idle and healthy; it shows collectable files only, up to its limit; and a file
is gone only if it was shown and has a row, of which every one but the last is settled. A run
without `apply` changes nothing, one that succeeds has shown the first of all eligible files and,
with `apply`, has removed and settled them all. What other runs have left behind decides nothing. -/
theorem gc_audited (sha256 : Text → Text) (a : AuditedDepot) (options : GcOptions) (input : GcInput)
    (applied : Applied) (after : AuditedDepot) (emitted : List GcCandidate)
    (result : Except StoreError GcReport)
    (h : a.gc sha256 options input applied = (after, emitted, result)) :
    (a.depot.idle = false
        ∨ (checkIntegrity a.depot.world.store (a.depot.findings sha256 input.listing)).healthy
          = false →
      after = a ∧ emitted = [] ∧ ∃ e, result = .error e)
      ∧ Accounted a options input after emitted
      ∧ (∀ row ∈ a.depot.world.store.db.blobs,
        a.depot.disk.Keeps after.depot.disk (Directory.blobs.path row.id))
      ∧ (∀ report, result = .ok report → ∃ now, Reported a options input after emitted report now)
      ∧ (input.runId.text ∉ a.audit.runs.map MaintenanceRun.id →
        ∀ others : Audit, input.runId.text ∉ others.runs.map MaintenanceRun.id →
          (({ a with audit := others } : AuditedDepot).gc sha256 options input applied).1.depot
              = after.depot
            ∧ (({ a with audit := others } : AuditedDepot).gc sha256 options input applied).2
              = (emitted, result)) := by
  have hwent := gc_went sha256 a options input applied
  rw [h] at hwent
  have haccounted := hwent.accounted
  refine ⟨?_, haccounted, ?_, fun report => hwent.reported, ?_⟩
  · intro hbusy
    cases hchecks : gcChecks sha256 a.depot options input with
    | ok now =>
        obtain ⟨hidle, hhealthy, -, -⟩ := gcChecks_ok hchecks
        rw [hidle, hhealthy] at hbusy
        exact absurd hbusy (by decide)
    | error e =>
        unfold gc at h
        rw [hchecks] at h
        cases h
        exact ⟨rfl, rfl, e, rfl⟩
  · intro row hrow
    rcases haccounted.kept (Directory.blobs.path row.id) with hkeeps | ⟨candidate, hmem, hpath, -⟩
    · exact hkeeps
    · exact absurd hpath ((haccounted.collectable candidate hmem).unreferenced hrow)
  · intro hfresh others hothers
    have hfirst := @gc_depot options input applied a sha256 hfresh
    have hsecond := @gc_depot options input applied { a with audit := others } sha256 hothers
    have hsame := hsecond.trans hfirst.symm
    rw [h] at hsame
    exact ⟨congrArg Prod.fst hsame, congrArg Prod.snd hsame⟩

namespace Sample

/-- A stage that nobody has finished. -/
def abandoned : AuditedDepot where
  depot :=
    { Depot.init [] Rustymail.Sample.options with
      disk := Volume.empty.put (Directory.staging.path Rustymail.Sample.token.text)
        ⟨[1], true, true⟩ }
  audit := Audit.empty

def overdue : GcInput where
  listing
    | .staging => [Rustymail.Sample.token.text ++ Directory.staging.suffix]
    | .blobs => []
  modified _ _ := some 0
  fails _ _ _ := none
  runId := Rustymail.Sample.messageId
  reading := ⟨some 5000, 0⟩
  completed := ⟨some 5000, 0⟩

def collected : AuditedDepot × List GcCandidate × Except StoreError GcReport :=
  abandoned.gc (fun _ => []) { apply := true, minAgeSeconds := 5 } overdue {}

end Sample

/-- The abandoned stage is collected, and on record. -/
theorem gc_abandoned :
    (∃ report, Sample.collected.2.2 = .ok report ∧ report.deleted = 1)
      ∧ (Sample.collected.1.audit.actions.map GcAction.status = [.deleted])
      ∧ Accounted Sample.abandoned { apply := true, minAgeSeconds := 5 } Sample.overdue
        Sample.collected.1 Sample.collected.2.1 := by
  have h := gc_audited (fun _ => []) Sample.abandoned { apply := true, minAgeSeconds := 5 }
    Sample.overdue {} Sample.collected.1 Sample.collected.2.1 Sample.collected.2.2 rfl
  obtain ⟨-, haccounted, -, -, -⟩ := h
  refine ⟨?_, by decide +kernel, haccounted⟩
  have hok : Sample.collected.2.2.toOption.map GcReport.deleted = some 1 := by decide +kernel
  cases hresult : Sample.collected.2.2 with
  | error e =>
      rw [hresult] at hok
      cases hok
  | ok report =>
      rw [hresult] at hok
      exact ⟨report, rfl, Option.some.inj hok⟩

end AuditedDepot

end Rustymail
