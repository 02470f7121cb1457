import Rustymail.Proof.ExactlyOnce
import Rustymail.Store.Maintenance

/-!
# The disk under the store

Which rows an operation can bring into the blob table, where the files of the stages are, and what
the collector and the recovery do to the disk.
-/

namespace Rustymail

open Checked

variable {w : World} {op : Op} {db db' : Db} {row : Blob}

/-! ### Rows of the blob table -/

/-- The row of the token that an operation carries. A report checks its token before it begins its
transaction, so that the transaction alone does not tell. -/
def Carries (w : World) (op : Op) (row : Blob) : Prop :=
  ∃ message now, op.message? = some message ∧ row = message.blobRow now
    ∧ (message.root = w.store.root
      ∨ ∃ prepared delivery reading faults,
        op = .notificationCommit prepared delivery reading faults)

theorem Brings.blobs (h : Brings w op db db') :
    ∃ row, db'.blobs = db.blobs ++ [row] ∧ Carries w op row := by
  cases h with
  | @acceptance i now hop hvalid hauth hnew htx =>
      have hmessage : op.message? = some i.message := by
        cases op <;> cases hop <;> rfl
      exact ⟨i.message.blobRow now, (writeAcceptance_adds_message hvalid htx).blobs,
        i.message, now, hmessage, rfl, Or.inl hvalid.1⟩
  | @enqueued ids message plan now hop hvalid hnew htx =>
      obtain ⟨reading, faults, rfl⟩ := hop
      exact ⟨message.blobRow now, (writeEnqueue_adds_message hvalid htx).blobs,
        message, now, rfl, rfl, Or.inl hvalid.1⟩
  | @report prepared delivery now hop hnew heligible htx =>
      obtain ⟨reading, faults, rfl⟩ := hop
      refine ⟨prepared.message.blobRow now, ?_, prepared.message, now, rfl, rfl,
        Or.inr ⟨prepared, delivery, reading, faults, rfl⟩⟩
      obtain ⟨-, placed, noted, hplaced, hnoted, rfl⟩ := writeReport_eq_ok htx
      obtain ⟨-, rfl⟩ := Db.insertNotification_eq_ok.1 hnoted
      rcases placeReport_eq_ok hplaced with ⟨account, mailbox, rfl⟩ | ⟨expires, rfl⟩
      · rfl
      · rfl

theorem Commits.blobs (h : Commits w op db db') :
    db'.blobs = db.blobs ∨ ∃ row, db'.blobs = db.blobs ++ [row] ∧ Carries w op row := by
  rcases h.cases_content with hcontent | ⟨hmail, -⟩ | hbrings
  · exact Or.inl hcontent.blobs
  · exact Or.inl hmail.blobs
  · exact Or.inr hbrings.blobs

theorem CommitsAll.blobs (h : CommitsAll w op db db') (hrow : row ∈ db'.blobs) :
    row ∈ db.blobs ∨ Carries w op row := by
  induction h with
  | refl => exact Or.inl hrow
  | tail _ hlast ih =>
      rcases hlast.blobs with hsame | ⟨added, hadds, hcarries⟩
      · exact ih (hsame ▸ hrow)
      · rw [hadds] at hrow
        rcases List.mem_append.1 hrow with hold | hnew
        · exact ih hold
        · rw [List.mem_singleton.1 hnew]
          exact Or.inr hcarries

/-- **Every new row is that of a token of this directory.** -/
theorem World.next_blobs (hrow : row ∈ (w.next op).store.db.blobs) :
    row ∈ w.store.db.blobs ∨ ∃ message now, op.message? = some message
      ∧ message.root = w.store.root ∧ row = message.blobRow now := by
  rcases (w.next_commits op).blobs hrow with
    hold | ⟨message, now, hmessage, hnew, hroot | ⟨prepared, delivery, reading, faults, rfl⟩⟩
  · exact Or.inl hold
  · exact Or.inr ⟨message, now, hmessage, hroot, hnew⟩
  · cases hmessage
    by_cases hroot : prepared.message.root = w.store.root
    · exact Or.inr ⟨prepared.message, now, rfl, hroot, hnew⟩
    · have hrefused : notificationCommit w.store prepared delivery reading faults
          = (w.store, .error .invalidInput) := if_neg hroot
      have hstore : (w.next (.notificationCommit prepared delivery reading faults)).store
          = w.store := by
        change (w.call fun s => notificationCommit s prepared delivery reading faults).1.store = _
        unfold World.call
        dsimp only
        rw [hrefused]
        split_ifs <;> rfl
      rw [hstore] at hrow
      exact Or.inl hrow

/-! ### Paths -/

/-- `<32 hex>.part` in staging, `<32 hex>.eml` in blobs. -/
def Named (path : Directory × Text) : Prop :=
  ∃ id : Uuid, path = Directory.staging.path id.text ∨ path = Directory.blobs.path id.text

theorem named_path (directory : Directory) (id : Uuid) : Named (directory.path id.text) := by
  cases directory with
  | staging => exact ⟨id, Or.inl rfl⟩
  | blobs => exact ⟨id, Or.inr rfl⟩

theorem path_injective {directory : Directory} {first second : Text}
    (h : directory.path first = directory.path second) : first = second :=
  List.append_cancel_right (Prod.mk.inj h).2

theorem blobs_ne_staging (first second : Text) :
    Directory.blobs.path first ≠ Directory.staging.path second := by
  intro h
  cases (Prod.mk.inj h).1

theorem blobPath_uuid (id : Uuid) : blobPath id.text = .ok (Directory.blobs.path id.text) :=
  if_pos id.valid

/-! ### The collector -/

/-- The files of the rows are kept, and no name is new. -/
structure Spares (db : Db) (disk disk' : Disk) : Prop where
  keeps : ∀ row ∈ db.blobs, disk.Keeps disk' (Directory.blobs.path row.id)
  within : disk.Within Named → disk'.Within Named

theorem Spares.refl (db : Db) (disk : Disk) : Spares db disk disk where
  keeps _ _ := .refl disk _
  within h := h

theorem Spares.trans {disk disk' disk'' : Disk} (h : Spares db disk disk')
    (h' : Spares db disk' disk'') : Spares db disk disk'' where
  keeps row hrow := (h.keeps row hrow).trans (h'.keeps row hrow)
  within hwithin := h'.within (h.within hwithin)

theorem Spares.fsyncDir (db : Db) (disk : Disk) (directory : Directory) :
    Spares db disk (disk.fsyncDir directory) where
  keeps _ _ := Volume.fsyncDir_keeps directory _
  within h := h.fsyncDir directory

/-- What is not retained is no row's file. -/
theorem Spares.unlink {directory : Directory} {id : Text} (disk : Disk)
    (hfree : directory.retained db id = false) :
    Spares db disk (disk.unlink (directory.path id)) where
  keeps := by
    intro row hrow
    apply Volume.unlink_keeps
    intro hpath
    cases directory with
    | staging => exact blobs_ne_staging _ _ hpath
    | blobs =>
        have hrow : db.blobRetained id = true :=
          Keyed.lookup_isSome_iff.2 ⟨row, hrow, path_injective hpath⟩
        unfold Directory.retained at hfree
        rw [hrow] at hfree
        cases hfree
  within h := h.unlink

theorem gcPlanned_ok {input : GcInput} {directory : Directory} {id : Text} {size : Nat}
    (h : gcPlanned db input directory id size = .ok ()) : directory.retained db id = false := by
  unfold gcPlanned at h
  simp only [bind_eq_ok, require_eq_ok] at h
  obtain ⟨-, -, -, -, -, -, -, hfree, -⟩ := h
  exact hfree

theorem gcCollect_spares (input : GcInput) (directory : Directory) (id : Text) (size : Nat)
    {state : GcState} {disk : Disk} (hdisk : state.disk = disk) :
    Spares db disk (gcCollect db input directory id size state).1.disk := by
  subst hdisk
  unfold gcCollect
  cases hplanned : gcPlanned db input directory id size with
  | error e => exact .refl db _
  | ok _ =>
      have hunlink := Spares.unlink state.disk (gcPlanned_ok hplanned)
      have hsync := hunlink.trans (.fsyncDir db _ directory)
      dsimp only
      cases gcUnlinked input directory id with
      | error e => exact hunlink
      | ok _ =>
          dsimp only
          cases gcDeleted input directory id size state.report with
          | error e => exact hsync
          | ok report => exact hsync

theorem gcCandidate_spares (options : GcOptions) (input : GcInput) (directory : Directory)
    (id : Text) (size : Nat) (modified : Int) {state : GcState} {disk : Disk}
    (hdisk : state.disk = disk) :
    Spares db disk (gcCandidate db options input directory id size modified state).1.disk := by
  subst hdisk
  unfold gcCandidate
  by_cases hlimit : state.report.candidates = options.limit
  · rw [if_pos hlimit]
    exact .refl db _
  · rw [if_neg hlimit]
    cases input.fails .emit directory id with
    | some e => exact .refl db _
    | none =>
        dsimp only
        split_ifs
        · exact gcCollect_spares input directory id size rfl
        · exact .refl db _

theorem gcEntry_spares (db : Db) (options : GcOptions) (input : GcInput) (cutoff : Int)
    (directory : Directory) (name : Text) (state : GcState) :
    Spares db state.disk (gcEntry db options input cutoff directory name state).1.disk := by
  unfold gcEntry
  dsimp only
  cases directory.objectId name with
  | none => exact .refl db _
  | some id =>
      dsimp only
      cases input.fails .entry directory id with
      | some e => exact .refl db _
      | none =>
          cases state.disk.file (directory.path id) with
          | none => exact .refl db _
          | some file =>
              dsimp only
              by_cases hretained : directory.retained db id = true
              · rw [if_pos hretained]
                exact .refl db _
              · rw [if_neg hretained]
                cases input.modified directory id with
                | none => exact .refl db _
                | some modified =>
                    dsimp only
                    by_cases hrecent : cutoff < modified
                    · rw [if_pos hrecent]
                      exact .refl db _
                    · rw [if_neg hrecent]
                      exact gcCandidate_spares options input directory id _ modified rfl

/-- The inner loop, by induction on what is listed. -/
theorem gcDirectory_spares (db : Db) (options : GcOptions) (input : GcInput) (cutoff : Int)
    (directory : Directory) (names : List Text) (state : GcState) :
    Spares db state.disk (gcDirectory db options input cutoff directory names state).1.disk := by
  induction names generalizing state with
  | nil => exact .refl db _
  | cons name rest ih =>
      have hentry := gcEntry_spares db options input cutoff directory name state
      unfold gcDirectory
      generalize gcEntry db options input cutoff directory name state = result at hentry ⊢
      obtain ⟨after, e | u⟩ := result
      · exact hentry
      · dsimp only at hentry ⊢
        split_ifs
        · exact hentry
        · exact hentry.trans (ih after)

theorem gcDirectories_spares (db : Db) (options : GcOptions) (input : GcInput) (cutoff : Int)
    (state : GcState) :
    Spares db state.disk (gcDirectories db options input cutoff state).1.disk := by
  have hstaging := gcDirectory_spares db options input cutoff .staging
    (input.listing .staging) state
  unfold gcDirectories
  generalize gcDirectory db options input cutoff .staging (input.listing .staging) state = result
    at hstaging ⊢
  obtain ⟨after, e | u⟩ := result
  · exact hstaging
  · dsimp only at hstaging ⊢
    split_ifs
    · exact hstaging
    · exact hstaging.trans (gcDirectory_spares db options input cutoff .blobs _ after)

namespace Depot

/-- The collector changes nothing but the disk. -/
theorem gc_eq (d : Depot) (sha256 : Text → Text) (options : GcOptions) (input : GcInput) :
    ∃ disk, (d.gc sha256 options input).1 = { d with disk := disk }
      ∧ Spares d.world.store.db d.disk disk
      ∧ (disk = d.disk ∨ d.idle = true) := by
  unfold gc
  cases hstart : d.gcStart sha256 options input with
  | error e => exact ⟨d.disk, rfl, .refl _ _, Or.inl rfl⟩
  | ok now =>
      have hidle : d.idle = true := by
        unfold gcStart at hstart
        simp only [bind_eq_ok, require_eq_ok] at hstart
        obtain ⟨-, -, -, hidle, -⟩ := hstart
        exact hidle
      dsimp only
      have hspares := gcDirectories_spares d.world.store.db options input
        (max (now - options.minAgeSeconds * 1000) (-(2 ^ 63)))
        ⟨d.disk, { runId := if options.apply then some input.runId else none }, []⟩
      generalize gcDirectories d.world.store.db options input
        (max (now - options.minAgeSeconds * 1000) (-(2 ^ 63)))
        ⟨d.disk, { runId := if options.apply then some input.runId else none }, []⟩ = result
        at hspares
      obtain ⟨state, e | u⟩ := result
      · exact ⟨state.disk, rfl, hspares, Or.inr hidle⟩
      · refine ⟨state.disk, ?_, hspares, Or.inr hidle⟩
        cases state.report.runId with
        | none => rfl
        | some run =>
            cases input.completed.nowMs with
            | error e => rfl
            | ok _ =>
                cases input.finish with
                | none => rfl
                | some e => rfl

end Depot

/-- Options for a small directory. -/
def Sample.options : StoreOptions :=
  ⟨500, 2048, 0, 1, 600, by decide, by decide, by decide, by decide, by decide⟩

end Rustymail
