import Rustymail.Proof.DepotLemmas

/-!
# Referenced blobs are complete

One invariant over the disk, the stages and the blob table. A stage describes the file it owns as far
as it has come; only a stage whose file is durable becomes a token, and only a token becomes a row.
No two stages own the same path, so that a step of one keeps the files of the others.
-/

namespace Rustymail

open Checked

/-! ### Appending -/

namespace StagedMessage

theorem fill_append (limit : Nat) (buffer bytes : Text) :
    (fill limit buffer bytes).1 ++ (fill limit buffer bytes).2 = buffer ++ bytes := by
  induction bytes generalizing buffer with
  | nil => simp [fill]
  | cons byte rest ih =>
      unfold fill
      by_cases hfull : (buffer ++ [byte]).length = limit
      · rw [if_pos hfull]
        have hrest := ih []
        dsimp only
        rw [List.append_assoc (buffer ++ [byte]), hrest]
        simp
      · rw [if_neg hfull, ih]
        simp

variable {message : StagedMessage}

theorem append_id (message : StagedMessage) (bytes : Text) (fault : Option StoreError) :
    (message.append bytes fault).1.id = message.id
      ∧ (message.append bytes fault).1.maxSize = message.maxSize := by
  unfold append
  split_ifs
  · exact ⟨rfl, rfl⟩
  · cases fault with
    | none => exact ⟨rfl, rfl⟩
    | some e => exact ⟨rfl, rfl⟩
  · exact ⟨rfl, rfl⟩

theorem append_sized (bytes : Text) (fault : Option StoreError)
    (h : message.size = message.hashed.length) :
    (message.append bytes fault).1.size = (message.append bytes fault).1.hashed.length := by
  unfold append
  split_ifs
  · exact h
  · cases fault with
    | none =>
        change message.size + bytes.length = (message.hashed ++ bytes).length
        rw [List.length_append, h]
    | some e => exact h
  · exact h

/-- An append that leaves the stage usable has brought everything to the file or the buffer. -/
theorem append_content (bytes : Text) (fault : Option (StoreError × Nat)) {content : Text}
    (h : message.poisoned = true ∨ content ++ message.buffer = message.hashed) :
    (message.append bytes (fault.map Prod.fst)).1.poisoned = true
      ∨ (content ++ message.reaching bytes fault)
          ++ (message.append bytes (fault.map Prod.fst)).1.buffer
        = (message.append bytes (fault.map Prod.fst)).1.hashed := by
  unfold append
  split_ifs with hpoisoned hsize
  · exact Or.inl hpoisoned
  · cases fault with
    | some e => exact Or.inl rfl
    | none =>
        refine h.imp (fun hbefore => hbefore) fun hcontent => ?_
        have hroom : ¬ (message.poisoned = true ∨ message.maxSize < message.size + bytes.length) :=
          not_or.2 ⟨hpoisoned, not_lt.2 hsize⟩
        unfold reaching
        rw [if_neg hroom]
        change (content ++ (fill message.bufferLimit message.buffer bytes).1)
          ++ (fill message.bufferLimit message.buffer bytes).2 = message.hashed ++ bytes
        rw [List.append_assoc, fill_append, ← List.append_assoc, hcontent]
  · exact Or.inl rfl

end StagedMessage

/-! ### The file of a stage -/

namespace StageResources

variable {stage : StageResources} {disk disk' : Disk} {file file' : Volume.File UInt8}

/-- What the file of a stage holds. Of a poisoned or dropped stage nothing is known. -/
def Fits (stage : StageResources) (file : Volume.File UInt8) : Prop :=
  match stage.progress with
  | .staged => stage.message.poisoned = true
      ∨ file.content ++ stage.message.buffer = stage.message.hashed
  | .flushing => file.content ++ stage.message.buffer = stage.message.hashed
  | .flushed => file.content = stage.message.hashed
  | .synced | .renamed => file.content = stage.message.hashed ∧ file.synced = true
  | .blobsSynced | .stagingSynced | .prepared =>
      file.content = stage.message.hashed ∧ file.durable = true
  | .dropped => True

theorem Fits.grows (h : stage.Fits file) (hgrows : file.Grows file') : stage.Fits file' := by
  have hdurable : file.durable = true → file'.durable = true := by
    intro hfile
    rw [hgrows.eq_of_durable hfile]
    exact hfile
  unfold Fits at h ⊢
  rw [hgrows.content]
  cases hprogress : stage.progress with
  | staged | flushing | flushed | dropped =>
      rw [hprogress] at h
      exact h
  | synced | renamed =>
      rw [hprogress] at h
      exact ⟨h.1, hgrows.synced h.2⟩
  | blobsSynced | stagingSynced | prepared =>
      rw [hprogress] at h
      exact ⟨h.1, hdurable h.2⟩

structure Holds (stage : StageResources) (disk : Disk) : Prop where
  sized : stage.message.size = stage.message.hashed.length
  positive : 0 < stage.message.maxSize
  stored : ∃ file, disk.file stage.path = some file ∧ stage.Fits file

theorem Holds.keeps (h : stage.Holds disk) (hkeeps : disk.Keeps disk' stage.path) :
    stage.Holds disk' where
  sized := h.sized
  positive := h.positive
  stored := by
    obtain ⟨file, hfile, hfits⟩ := h.stored
    obtain ⟨file', hfile', hgrows⟩ := hkeeps file hfile
    exact ⟨file', hfile', hfits.grows hgrows⟩

theorem path_of_staging (h : stage.progress.staging = true) : stage.path = stage.part := if_pos h

theorem path_of_renamed (h : stage.progress.staging = false) : stage.path = stage.blob := by
  unfold path
  rw [h]
  exact if_neg Bool.false_ne_true

theorem Holds.part (h : stage.Holds disk) (hstaging : stage.progress.staging = true) :
    ∃ file, disk.file stage.part = some file ∧ stage.Fits file := by
  obtain ⟨file, hfile, hfits⟩ := h.stored
  rw [path_of_staging hstaging] at hfile
  exact ⟨file, hfile, hfits⟩

theorem named_blob (stage : StageResources) : Named stage.blob := named_path .blobs _

/-- What a step of the job does when it works. -/
inductive Does (stage : StageResources) (disk : Disk) : Disk → Progress → Prop
  | flush (hprogress : stage.progress = .flushing) :
      Does stage disk (disk.write stage.part stage.message.buffer) .flushed
  | sync (hprogress : stage.progress = .flushed) : Does stage disk (disk.fsync stage.part) .synced
  | rename (hprogress : stage.progress = .synced) (hfree : disk.file stage.blob = none) :
      Does stage disk (disk.rename stage.part stage.blob) .renamed
  | syncBlobs (hprogress : stage.progress = .renamed) :
      Does stage disk (disk.fsyncDir .blobs) .blobsSynced
  | syncStaging (hprogress : stage.progress = .blobsSynced) :
      Does stage disk (disk.fsyncDir .staging) .stagingSynced
  | done (hprogress : stage.progress = .stagingSynced) : Does stage disk disk .prepared

/-- One step of the job: it works, or the most it leaves behind is a torn write. -/
theorem advance_cases {fault : JobFault} {result : Except StoreError Progress}
    (h : stage.advance fault disk = some (disk', result)) :
    (∃ progress, result = .ok progress ∧ stage.Does disk disk' progress)
      ∨ ((∃ e, result = .error e) ∧ (disk' = disk
        ∨ stage.progress = .flushing ∧ ∃ bytes, disk' = disk.write stage.part bytes)) := by
  unfold advance at h
  cases hprogress : stage.progress with
  | staged | prepared | dropped =>
      rw [hprogress] at h
      cases h
  | flushing =>
      rw [hprogress] at h
      dsimp only at h
      split_ifs at h
      · cases h
        exact Or.inr ⟨⟨_, rfl⟩, Or.inl rfl⟩
      · cases h
        exact Or.inr ⟨⟨_, rfl⟩, Or.inr ⟨rfl, _, rfl⟩⟩
      · cases h
        exact Or.inl ⟨_, rfl, .flush hprogress⟩
  | flushed =>
      rw [hprogress] at h
      dsimp only at h
      split_ifs at h
      · cases h
        exact Or.inr ⟨⟨_, rfl⟩, Or.inl rfl⟩
      · cases h
        exact Or.inl ⟨_, rfl, .sync hprogress⟩
  | synced =>
      rw [hprogress] at h
      dsimp only at h
      rw [blobPath_uuid] at h
      dsimp only at h
      split_ifs at h with hfault hexists hrename
      · cases h
        exact Or.inr ⟨⟨_, rfl⟩, Or.inl rfl⟩
      · cases h
        exact Or.inr ⟨⟨_, rfl⟩, Or.inl rfl⟩
      · cases h
        exact Or.inr ⟨⟨_, rfl⟩, Or.inl rfl⟩
      · cases h
        exact Or.inl ⟨_, rfl, .rename hprogress (Option.not_isSome_iff_eq_none.1 hexists)⟩
  | renamed =>
      rw [hprogress] at h
      dsimp only at h
      split_ifs at h
      · cases h
        exact Or.inr ⟨⟨_, rfl⟩, Or.inl rfl⟩
      · cases h
        exact Or.inl ⟨_, rfl, .syncBlobs hprogress⟩
  | blobsSynced =>
      rw [hprogress] at h
      dsimp only at h
      split_ifs at h
      · cases h
        exact Or.inr ⟨⟨_, rfl⟩, Or.inl rfl⟩
      · cases h
        exact Or.inl ⟨_, rfl, .syncStaging hprogress⟩
  | stagingSynced =>
      rw [hprogress] at h
      dsimp only at h
      split_ifs at h
      · cases h
        exact Or.inr ⟨⟨_, rfl⟩, Or.inl rfl⟩
      · cases h
        exact Or.inl ⟨_, rfl, .done hprogress⟩

end StageResources

/-- The file of a row is there, as the row says, and will stay. -/
def Complete (sha256 : Text → Text) (disk : Disk) (row : Blob) : Prop :=
  ∃ file, disk.file (Directory.blobs.path row.id) = some file ∧ file.durable = true
    ∧ file.content.length = row.sizeBytes ∧ sha256 file.content = row.sha256

theorem Complete.keeps {sha256 : Text → Text} {disk disk' : Disk} {row : Blob}
    (h : Complete sha256 disk row) (hkeeps : disk.Keeps disk' (Directory.blobs.path row.id)) :
    Complete sha256 disk' row := by
  obtain ⟨file, hfile, hdurable, hmatches⟩ := h
  exact ⟨file, hkeeps.durable hfile hdurable, hdurable, hmatches⟩

/-- The file of a token is complete for the row of the token. -/
theorem StageResources.Holds.complete {sha256 : Text → Text} {stage : StageResources} {disk : Disk}
    (h : stage.Holds disk) (hprepared : stage.progress = .prepared) (now : Int) :
    Complete sha256 disk ((stage.message.prepared sha256).blobRow now) := by
  obtain ⟨file, hfile, hfits⟩ := h.stored
  unfold StageResources.Fits at hfits
  rw [StageResources.path_of_renamed (by rw [hprepared]; rfl)] at hfile
  rw [hprepared] at hfits
  obtain ⟨hcontent, hdurable⟩ := hfits
  refine ⟨file, hfile, hdurable, ?_, ?_⟩
  · rw [hcontent, ← h.sized]
    rfl
  · rw [hcontent]
    rfl

/-! ### Recovery

The collector's counterpart for a directory that has been damaged: whatever is in it. -/

section Recovery

variable {sha256 : Text → Text} {row : Blob} {temporary : Directory × Text} {id : Text}
  {pieces : List (Except StoreError Text)} {fails : RecoverPoint → Option StoreError} {disk : Disk}

theorem recoverInto_keeps {target path : Directory × Text} (hpath : path ≠ temporary) :
    disk.Keeps (recoverInto sha256 row temporary target pieces fails disk).1 path := by
  unfold recoverInto
  generalize recoverCopy row.sizeBytes pieces [] = copy
  obtain ⟨copied, e | _⟩ := copy
  · exact Volume.write_keeps _ hpath
  · have hwritten : disk.Keeps (disk.write temporary copied) path := Volume.write_keeps _ hpath
    have hsynced := hwritten.trans (Volume.fsync_keeps temporary path)
    dsimp only
    split_ifs
    · exact hwritten
    · cases fails .sync with
      | some e => exact hwritten
      | none =>
          dsimp only
          cases fails .link with
          | some e => exact hsynced
          | none =>
              cases hlink : Volume.link _ temporary target with
              | none => exact hsynced
              | some linked =>
                  have hlinked := hsynced.trans (Volume.link_keeps hlink path)
                  dsimp only
                  cases fails .blobsSync with
                  | some e => exact hlinked
                  | none => exact hlinked.trans (Volume.fsyncDir_keeps .blobs path)

theorem recoverInto_ok {bytes : Nat} (hcreated : disk.file temporary = some ⟨[], false, false⟩)
    (h : (recoverInto sha256 row temporary (Directory.blobs.path row.id) pieces fails disk).2
      = .ok bytes) :
    bytes = row.sizeBytes ∧ Complete sha256
      (recoverInto sha256 row temporary (Directory.blobs.path row.id) pieces fails disk).1 row := by
  unfold recoverInto at h ⊢
  generalize recoverCopy row.sizeBytes pieces [] = copy at h ⊢
  obtain ⟨copied, e | _⟩ := copy
  · cases h
  · have hfile : ((disk.write temporary copied).fsync temporary).file temporary
        = some ⟨copied, true, false⟩ := by
      unfold Volume.fsync Volume.write
      rw [Volume.file_modify_self, Volume.file_modify_self, hcreated]
      rfl
    dsimp only at h ⊢
    split_ifs at h ⊢ with hdiffers
    obtain ⟨hlength, hhash⟩ := not_or.1 hdiffers
    generalize fails .sync = sync at h ⊢
    cases sync with
    | some e => cases h
    | none =>
        dsimp only at h ⊢
        generalize fails .link = link at h ⊢
        cases link with
        | some e => cases h
        | none =>
            cases hlink : Volume.link _ temporary (Directory.blobs.path row.id) with
            | none =>
                rw [hlink] at h
                cases h
            | some linked =>
                rw [hlink] at h
                dsimp only at h ⊢
                generalize fails .blobsSync = blobs at h ⊢
                cases blobs with
                | some e => cases h
                | none =>
                    obtain ⟨source, hsource, -, rfl⟩ := Volume.link_eq_some hlink
                    rw [hfile] at hsource
                    cases hsource
                    cases h
                    exact ⟨not_not.1 hlength, _, Volume.file_fsyncDir Volume.file_put_self, rfl,
                      not_not.1 hlength, not_not.1 hhash⟩

/-- Nothing but the content of the row is ever linked to the target, whatever fails afterwards. -/
theorem recoverInto_places {target : Directory × Text} {file : Volume.File UInt8}
    (hcreated : disk.file temporary = some ⟨[], false, false⟩) (hempty : disk.file target = none)
    (hapart : target ≠ temporary)
    (h : (recoverInto sha256 row temporary target pieces fails disk).1.file target = some file) :
    file.content.length = row.sizeBytes ∧ sha256 file.content = row.sha256 := by
  unfold recoverInto at h
  generalize recoverCopy row.sizeBytes pieces [] = copy at h
  obtain ⟨copied, e | _⟩ := copy
  · have hnone : (disk.write temporary copied).file target = none :=
      (Volume.file_modify_of_ne _ hapart).trans hempty
    rw [hnone] at h
    cases h
  · have hwritten : (disk.write temporary copied).file target = none :=
      (Volume.file_modify_of_ne _ hapart).trans hempty
    have hsynced : ((disk.write temporary copied).fsync temporary).file target = none :=
      (Volume.file_modify_of_ne _ hapart).trans hwritten
    have hfile : ((disk.write temporary copied).fsync temporary).file temporary
        = some ⟨copied, true, false⟩ := by
      unfold Volume.fsync Volume.write
      rw [Volume.file_modify_self, Volume.file_modify_self, hcreated]
      rfl
    dsimp only at h
    split_ifs at h with hdiffers
    · rw [hwritten] at h
      cases h
    obtain ⟨hlength, hhash⟩ := not_or.1 hdiffers
    generalize fails .sync = sync at h
    cases sync with
    | some e =>
        rw [hwritten] at h
        cases h
    | none =>
        dsimp only at h
        generalize fails .link = link at h
        cases link with
        | some e =>
            rw [hsynced] at h
            cases h
        | none =>
            cases hlink : Volume.link _ temporary target with
            | none =>
                rw [hlink] at h
                rw [hsynced] at h
                cases h
            | some linked =>
                rw [hlink] at h
                dsimp only at h
                obtain ⟨source, hsource, -, rfl⟩ := Volume.link_eq_some hlink
                rw [hfile] at hsource
                cases hsource
                generalize fails .blobsSync = blobs at h
                cases blobs with
                | some e =>
                    rw [Volume.file_put_self] at h
                    cases h
                    exact ⟨not_not.1 hlength, not_not.1 hhash⟩
                | none =>
                    obtain ⟨old, hold, hcontent⟩ := Volume.file_fsyncDir_content h
                    rw [Volume.file_put_self] at hold
                    cases hold
                    rw [hcontent]
                    exact ⟨not_not.1 hlength, not_not.1 hhash⟩

theorem recoverCleanup_keeps {path : Directory × Text} (hpath : path ≠ temporary)
    (result : Except StoreError Nat) :
    disk.Keeps (recoverCleanup temporary fails disk result).1 path := by
  have hcleaned : disk.Keeps
      (if (fails .cleanup).isSome then disk else disk.unlink temporary) path := by
    split_ifs
    · exact .refl disk path
    · exact Volume.unlink_keeps hpath
  unfold recoverCleanup
  generalize (if (fails .cleanup).isSome then disk else disk.unlink temporary) = cleaned
    at hcleaned ⊢
  cases result with
  | error e => exact hcleaned
  | ok bytes =>
      cases fails .cleanup with
      | some e => exact hcleaned
      | none =>
          cases fails .stagingSync with
          | some e => exact hcleaned
          | none => exact hcleaned.trans (Volume.fsyncDir_keeps .staging path)

theorem recoverCleanup_content {path : Directory × Text} (hpath : path ≠ temporary)
    {result : Except StoreError Nat} {file : Volume.File UInt8}
    (h : (recoverCleanup temporary fails disk result).1.file path = some file) :
    ∃ old, disk.file path = some old ∧ file.content = old.content := by
  have hcleaned : (if (fails .cleanup).isSome then disk else disk.unlink temporary).file path
      = disk.file path := by
    split_ifs
    · rfl
    · exact Volume.file_unlink_of_ne hpath
  unfold recoverCleanup at h
  generalize (if (fails .cleanup).isSome then disk else disk.unlink temporary) = cleaned
    at h hcleaned
  rw [← hcleaned]
  cases result with
  | error e => exact ⟨file, h, rfl⟩
  | ok bytes =>
      cases hcleanup : fails .cleanup with
      | some e =>
          rw [hcleanup] at h
          exact ⟨file, h, rfl⟩
      | none =>
          rw [hcleanup] at h
          cases hsync : fails .stagingSync with
          | some e =>
              rw [hsync] at h
              exact ⟨file, h, rfl⟩
          | none =>
              rw [hsync] at h
              exact Volume.file_fsyncDir_content h

theorem recoverCleanup_ok {result : Except StoreError Nat} {bytes : Nat}
    (h : (recoverCleanup temporary fails disk result).2 = .ok bytes) : result = .ok bytes := by
  unfold recoverCleanup at h
  cases result with
  | error e => cases h
  | ok count =>
      cases hcleanup : fails .cleanup with
      | some e =>
          rw [hcleanup] at h
          cases h
      | none =>
          rw [hcleanup] at h
          cases hsync : fails .stagingSync with
          | some e =>
              rw [hsync] at h
              cases h
          | none =>
              rw [hsync] at h
              exact h

/-- **Recovery.** In any directory, damaged or not, it changes no row and loses no file of a blob; a
file it leaves at the place of the blob was there before or is what the row says; and when it succeeds
the row has its file for good. -/
theorem blob_recovered (sha256 : Text → Text) (d : Depot) (id : Text) (input : RecoverInput) :
    (d.recoverBlob sha256 id input).1.world = d.world
      ∧ (∀ name, d.disk.Keeps (d.recoverBlob sha256 id input).1.disk (Directory.blobs.path name))
      ∧ (∀ file, (d.recoverBlob sha256 id input).1.disk.file (Directory.blobs.path id) = some file →
        d.disk.file (Directory.blobs.path id) = some file
          ∨ ∃ row, d.world.store.db.blob? id = some row ∧ file.content.length = row.sizeBytes
            ∧ sha256 file.content = row.sha256)
      ∧ ∀ bytes, (d.recoverBlob sha256 id input).2 = .ok bytes →
        ∃ row, d.world.store.db.blob? id = some row ∧ bytes = row.sizeBytes
          ∧ Complete sha256 (d.recoverBlob sha256 id input).1.disk row := by
  have hrefused : ∀ (e : StoreError) (other : Volume.File UInt8 → Prop) (restored : Nat → Prop),
      d.world = d.world ∧ (∀ name, d.disk.Keeps d.disk (Directory.blobs.path name))
        ∧ (∀ file, d.disk.file (Directory.blobs.path id) = some file →
          d.disk.file (Directory.blobs.path id) = some file ∨ other file)
        ∧ ∀ bytes, (.error e : Except StoreError Nat) = .ok bytes → restored bytes := by
    refine fun e other restored => ⟨rfl, fun name => .refl _ _, fun file h => Or.inl h, ?_⟩
    intro bytes h
    cases h
  unfold Depot.recoverBlob
  by_cases hopened : d.world.opened = false
  · rw [if_pos hopened]
    exact hrefused _ _ _
  · rw [if_neg hopened]
    by_cases hidle : d.idle = false
    · rw [if_pos hidle]
      exact hrefused _ _ _
    · rw [if_neg hidle]
      unfold blobPath
      by_cases hid : validId id = true
      · rw [if_pos hid]
        dsimp only
        by_cases hexists : (d.disk.file (Directory.blobs.path id)).isSome = true
        · rw [if_pos hexists]
          exact hrefused _ _ _
        · rw [if_neg hexists]
          cases hrow : d.world.store.db.blob? id with
          | none => exact hrefused _ _ _
          | some row =>
              cases input.source with
              | error e => exact hrefused e _ _
              | ok pieces =>
                  dsimp only
                  cases hcreate : d.disk.create (Directory.staging.path input.temporary.text) with
                  | none => exact hrefused _ _ _
                  | some disk =>
                      obtain ⟨-, hdisk⟩ := Volume.create_eq_some hcreate
                      have hfile : disk.file (Directory.staging.path input.temporary.text)
                          = some ⟨[], false, false⟩ := hdisk ▸ Volume.file_put_self
                      have hapart : ∀ name, Directory.blobs.path name
                          ≠ Directory.staging.path input.temporary.text :=
                        fun name => blobs_ne_staging _ _
                      refine ⟨rfl, fun name => ?_, fun file h => Or.inr ⟨row, rfl, ?_⟩,
                        fun bytes h => ⟨row, rfl, ?_⟩⟩
                      · exact ((Volume.create_keeps hcreate _).trans
                          (recoverInto_keeps (hapart name))).trans
                          (recoverCleanup_keeps (hapart name) _)
                      · have hempty : disk.file (Directory.blobs.path id) = none := by
                          rw [hdisk, Volume.file_put_of_ne (hapart id)]
                          exact Option.not_isSome_iff_eq_none.1 hexists
                        obtain ⟨old, hold, hcontent⟩ := recoverCleanup_content (hapart id) h
                        rw [hcontent]
                        exact recoverInto_places hfile hempty (hapart id) hold
                      · have hkey : row.id = id := Keyed.lookup_some_key hrow
                        subst hkey
                        obtain ⟨hsize, hok⟩ := recoverInto_ok hfile (recoverCleanup_ok h)
                        exact ⟨hsize, hok.keeps (recoverCleanup_keeps (hapart row.id) _)⟩
      · rw [if_neg hid]
        exact hrefused _ _ _

/-- A directory that has lost the file of its only message. -/
def Sample.damaged : Depot :=
  { Depot.init [] Sample.options with world := Sample.fresh.run [Sample.enqueue] }

/-- A copy of that file, read in two pieces. -/
def Sample.copy : RecoverInput := ⟨.ok [.ok [1, 2], .ok [3, 4, 5]], Sample.token, fun _ => none⟩

/-- The copy takes the place of the file. -/
theorem Sample.blob_restored :
    (Sample.damaged.recoverBlob (fun _ => []) Sample.blobId.text Sample.copy).2 = .ok 5
      ∧ ∃ row, Sample.damaged.world.store.db.blob? Sample.blobId.text = some row ∧ 5 = row.sizeBytes
        ∧ Complete (fun _ => [])
          (Sample.damaged.recoverBlob (fun _ => []) Sample.blobId.text Sample.copy).1.disk row := by
  have hok : (Sample.damaged.recoverBlob (fun _ => []) Sample.blobId.text Sample.copy).2 = .ok 5 := by
    decide +kernel
  exact ⟨hok, (blob_recovered (fun _ => []) Sample.damaged Sample.blobId.text Sample.copy).2.2.2 5 hok⟩

end Recovery

namespace Depot

variable {sha256 : Text → Text} {d : Depot} {stage : StageResources}

/-- The invariant of the directory. -/
structure Sound (sha256 : Text → Text) (d : Depot) : Prop where
  within : d.disk.Within Named
  holds : ∀ stage ∈ d.stages, stage.Holds d.disk
  distinct : (d.stages.map StageResources.path).Nodup
  complete : ∀ row ∈ d.world.store.db.blobs, Complete sha256 d.disk row

/-- What an event may do: the invariant stays, and so does the file of every row. -/
structure Advances (sha256 : Text → Text) (d d' : Depot) : Prop where
  sound : d'.Sound sha256
  keeps : ∀ row ∈ d.world.store.db.blobs, d.disk.Keeps d'.disk (Directory.blobs.path row.id)

theorem Sound.init (root : Text) (options : StoreOptions) :
    (Depot.init root options).Sound sha256 where
  within := .empty
  holds stage h := by cases h
  distinct := List.nodup_nil
  complete row h := by cases h

theorem Sound.refl (h : d.Sound sha256) : Advances sha256 d d := ⟨h, fun _ _ => .refl _ _⟩

theorem Sound.path_ne (h : d.Sound sha256) {first second : StageResources}
    (hfirst : first ∈ d.stages) (hsecond : second ∈ d.stages) (hne : first ≠ second) :
    first.path ≠ second.path := fun hpath =>
  hne (List.inj_on_of_nodup_map h.distinct hfirst hsecond hpath)

/-- A path without a file is no stage's. -/
theorem Sound.path_ne_of_none (h : d.Sound sha256) {path : Directory × Text}
    (hnone : d.disk.file path = none) (hstage : stage ∈ d.stages) : stage.path ≠ path := by
  rintro rfl
  obtain ⟨file, hfile, -⟩ := (h.holds stage hstage).stored
  rw [hnone] at hfile
  cases hfile

theorem Sound.row_ne_of_none (h : d.Sound sha256) {path : Directory × Text}
    (hnone : d.disk.file path = none) {row : Blob} (hrow : row ∈ d.world.store.db.blobs) :
    Directory.blobs.path row.id ≠ path := by
  rintro rfl
  obtain ⟨file, hfile, -⟩ := h.complete row hrow
  rw [hnone] at hfile
  cases hfile

theorem mem_without {serial : Nat} (h : stage ∈ (d.without serial).stages) :
    stage ∈ d.stages ∧ stage.serial ≠ serial := by
  simpa [without, Keyed.remove] using h

/-- Stages go, and the disk keeps what the others own. -/
theorem Sound.remove (h : d.Sound sha256) (serial : Nat) {disk : Disk}
    (hwithin : disk.Within Named)
    (hrows : ∀ row ∈ d.world.store.db.blobs, d.disk.Keeps disk (Directory.blobs.path row.id))
    (hothers : ∀ other ∈ d.stages, other.serial ≠ serial → d.disk.Keeps disk other.path) :
    Advances sha256 d (({ d with disk := disk } : Depot).without serial) where
  sound :=
    { within := hwithin
      holds := by
        intro other hother
        obtain ⟨hmem, hserial⟩ := mem_without hother
        exact (h.holds other hmem).keeps (hothers other hmem hserial)
      distinct := (List.filter_sublist.map _).nodup h.distinct
      complete := fun row hrow => (h.complete row hrow).keeps (hrows row hrow) }
  keeps := hrows

/-- One stage moves on, with a disk that keeps what the others own. -/
theorem Sound.replace (h : d.Sound sha256) (stage stage' : StageResources)
    (hserial : stage'.serial = stage.serial) {disk : Disk} (hwithin : disk.Within Named)
    (hrows : ∀ row ∈ d.world.store.db.blobs, d.disk.Keeps disk (Directory.blobs.path row.id))
    (hothers : ∀ other ∈ d.stages, other ≠ stage →
      d.disk.Keeps disk other.path ∧ other.path ≠ stage'.path)
    (hholds : stage'.Holds disk) :
    Advances sha256 d (({ d with disk := disk } : Depot).withStage stage') := by
  have hremoved := h.remove stage'.serial hwithin hrows fun other hother hne =>
    (hothers other hother fun heq => hne (heq ▸ hserial.symm)).1
  refine ⟨⟨hwithin, ?_, ?_, hremoved.sound.complete⟩, hrows⟩
  · intro other hother
    rcases List.mem_append.1 hother with hold | hnew
    · exact hremoved.sound.holds other hold
    · rw [List.mem_singleton.1 hnew]
      exact hholds
  · change (List.map _ (_ ++ [stage'])).Nodup
    rw [List.map_append, List.map_singleton]
    refine List.Nodup.append hremoved.sound.distinct (List.nodup_singleton _) ?_
    intro path hold hnew
    obtain ⟨other, hother, rfl⟩ := List.mem_map.1 hold
    obtain ⟨hmem, hne⟩ := mem_without hother
    exact (hothers other hmem fun heq => hne (heq ▸ hserial.symm)).2 (List.mem_singleton.1 hnew)

/-- A disk changed at the staging name of a stage keeps everything else. -/
theorem Sound.replace_part (h : d.Sound sha256) (hstage : stage ∈ d.stages)
    (hstaging : stage.progress.staging = true) (stage' : StageResources)
    (hserial : stage'.serial = stage.serial) (hpath : stage'.path = stage.path) {disk : Disk}
    (hwithin : disk.Within Named) (hkeeps : ∀ path, path ≠ stage.part → d.disk.Keeps disk path)
    (hholds : stage'.Holds disk) :
    Advances sha256 d (({ d with disk := disk } : Depot).withStage stage') := by
  refine h.replace stage stage' hserial hwithin ?_ ?_ hholds
  · intro row _
    exact hkeeps _ (blobs_ne_staging _ _)
  · intro other hother hne
    have hapart := h.path_ne hother hstage hne
    refine ⟨hkeeps _ ?_, ?_⟩
    · rw [← StageResources.path_of_staging hstaging]
      exact hapart
    · rw [hpath]
      exact hapart

/-- Dropping a stage keeps its file, if only to remove it later. -/
theorem Sound.release (h : d.Sound sha256) (hstage : stage ∈ d.stages) {disk : Disk}
    (hwithin : disk.Within Named)
    (hkeeps : ∀ path, (stage.progress.staging = true → path ≠ stage.part) → d.disk.Keeps disk path)
    (hpart : stage.progress.staging = true → ∃ file, disk.file stage.part = some file) :
    Advances sha256 d (({ d with disk := disk } : Depot).release stage) := by
  have hold := h.holds stage hstage
  unfold Depot.release
  by_cases hstaging : stage.progress.staging = true
  · rw [if_pos hstaging]
    obtain ⟨file, hfile⟩ := hpart hstaging
    have hpath : ({ stage with progress := .dropped } : StageResources).path = stage.path := by
      rw [StageResources.path_of_staging hstaging]
      rfl
    refine h.replace_part hstage hstaging { stage with progress := .dropped } rfl hpath hwithin
      (fun path hne => hkeeps path fun _ => hne) ?_
    exact ⟨hold.sized, hold.positive, file, hfile, trivial⟩
  · rw [if_neg hstaging]
    have hall : ∀ path, d.disk.Keeps disk path :=
      fun path => hkeeps path fun h => absurd h hstaging
    exact h.remove stage.serial hwithin (fun row _ => hall _) fun other _ _ => hall _

theorem Sound.release_same (h : d.Sound sha256) (hstage : stage ∈ d.stages) :
    Advances sha256 d (d.release stage) := by
  refine h.release hstage h.within (fun path _ => .refl _ _) ?_
  intro hstaging
  obtain ⟨file, hfile, -⟩ := (h.holds stage hstage).part hstaging
  exact ⟨file, hfile⟩

theorem mem_of_stage? {serial : Nat} (h : d.stage? serial = some stage) : stage ∈ d.stages :=
  Keyed.mem_of_lookup h

/-! ### The events of a stage -/

theorem Sound.staged (h : d.Sound sha256) (input : StageInput) :
    Advances sha256 d (d.stage input).1 := by
  unfold Depot.stage
  by_cases hopened : d.world.opened = true
  · rw [if_pos hopened]
    cases d.options.admit d.reservedBytes input with
    | error e => exact h.refl
    | ok _ =>
        dsimp only
        by_cases hfault : input.hit .stageCreate = true ∨ input.io = true
        · rw [if_pos hfault]
          exact h.refl
        · rw [if_neg hfault]
          cases hcreate : d.disk.create (Directory.staging.path input.id.text) with
          | none => exact h.refl
          | some disk =>
              have hkeeps := Volume.create_keeps hcreate
              obtain ⟨hnone, hdisk⟩ := Volume.create_eq_some hcreate
              refine ⟨⟨h.within.create (named_path .staging input.id) hcreate, ?_, ?_, ?_⟩, ?_⟩
              · intro stage hstage
                rcases List.mem_append.1 hstage with hold | hnew
                · exact (h.holds stage hold).keeps (hkeeps _)
                · rw [List.mem_singleton.1 hnew]
                  refine ⟨rfl, d.options.positive, ⟨[], false, false⟩, ?_, Or.inr rfl⟩
                  change disk.file (Directory.staging.path input.id.text) = _
                  rw [hdisk, Volume.file_put_self]
              · change (List.map _ (d.stages ++ [_])).Nodup
                rw [List.map_append, List.map_singleton]
                refine List.Nodup.append h.distinct (List.nodup_singleton _) ?_
                intro path hold hnew
                obtain ⟨other, hother, rfl⟩ := List.mem_map.1 hold
                exact h.path_ne_of_none hnone hother (List.mem_singleton.1 hnew)
              · exact fun row hrow => (h.complete row hrow).keeps (hkeeps _)
              · exact fun row _ => hkeeps _
  · rw [if_neg hopened]
    exact h.refl

/-- A write to the staging name of a stage whose progress stays. -/
theorem Sound.write (h : d.Sound sha256) (hstage : stage ∈ d.stages)
    (hstaging : stage.progress.staging = true) (stage' : StageResources)
    (hserial : stage'.serial = stage.serial) (hid : stage'.message.id = stage.message.id)
    (hprogress : stage'.progress.staging = true)
    (hsized : stage'.message.size = stage'.message.hashed.length)
    (hpositive : 0 < stage'.message.maxSize) (bytes : Text)
    (hfits : ∀ file, stage.Fits file →
      stage'.Fits { file with content := file.content ++ bytes, synced := false }) :
    Advances sha256 d
      (({ d with disk := d.disk.write stage.part bytes } : Depot).withStage stage') := by
  obtain ⟨file, hfile, hold⟩ := (h.holds stage hstage).part hstaging
  have hpart : stage'.part = stage.part := by
    unfold StageResources.part
    rw [hid]
  have hpath : stage'.path = stage.path := by
    rw [StageResources.path_of_staging hprogress, StageResources.path_of_staging hstaging, hpart]
  refine h.replace_part hstage hstaging stage' hserial hpath (h.within.modify _)
    (fun path hne => Volume.write_keeps bytes hne) ⟨hsized, hpositive, _, ?_, hfits file hold⟩
  rw [hpath, StageResources.path_of_staging hstaging]
  unfold Volume.write
  rw [Volume.file_modify_self, hfile]
  rfl

theorem Sound.append (h : d.Sound sha256) (serial : Nat) (bytes : Text)
    (fault : Option (StoreError × Nat)) : Advances sha256 d (d.append serial bytes fault).1 := by
  unfold Depot.append
  cases hlookup : d.stage? serial with
  | none => exact h.refl
  | some stage =>
      dsimp only
      by_cases hprogress : stage.progress = .staged
      · rw [if_pos hprogress]
        have hstage := mem_of_stage? hlookup
        have hold := h.holds stage hstage
        have hstaging : stage.progress.staging = true := by rw [hprogress]; rfl
        obtain ⟨hid, hmax⟩ := stage.message.append_id bytes (fault.map Prod.fst)
        refine h.write hstage hstaging
          { stage with message := (stage.message.append bytes (fault.map Prod.fst)).1 } rfl hid
          hstaging (StagedMessage.append_sized bytes _ hold.sized) ?_ _ ?_
        · rw [hmax]
          exact hold.positive
        · intro file hfits
          unfold StageResources.Fits at hfits ⊢
          rw [hprogress] at hfits
          dsimp only
          rw [hprogress]
          exact StagedMessage.append_content bytes fault hfits
      · rw [if_neg hprogress]
        exact h.refl

theorem Sound.straggle (h : d.Sound sha256) (serial : Nat) (bytes : Text) :
    Advances sha256 d (d.straggle serial bytes) := by
  unfold Depot.straggle
  cases hlookup : d.stage? serial with
  | none => exact h.refl
  | some stage =>
      dsimp only
      by_cases hpoisoned : stage.progress = .staged ∧ stage.message.poisoned = true
      · rw [if_pos hpoisoned]
        have hstage := mem_of_stage? hlookup
        have hold := h.holds stage hstage
        have hstaging : stage.progress.staging = true := by rw [hpoisoned.1]; rfl
        refine h.write hstage hstaging stage rfl rfl hstaging hold.sized hold.positive bytes ?_
        intro file _
        unfold StageResources.Fits
        rw [hpoisoned.1]
        exact Or.inl hpoisoned.2
      · rw [if_neg hpoisoned]
        exact h.refl

theorem Sound.prepare (h : d.Sound sha256) (serial : Nat) :
    Advances sha256 d (d.prepare serial).1 := by
  unfold Depot.prepare
  cases hlookup : d.stage? serial with
  | none => exact h.refl
  | some stage =>
      have hstage := mem_of_stage? hlookup
      dsimp only
      by_cases hprogress : stage.progress = .staged
      · rw [if_pos hprogress]
        by_cases hpoisoned : stage.message.poisoned = true
        · rw [if_pos hpoisoned]
          exact h.release_same hstage
        · rw [if_neg hpoisoned]
          have hold := h.holds stage hstage
          have hstaging : stage.progress.staging = true := by rw [hprogress]; rfl
          obtain ⟨file, hfile, hfits⟩ := hold.part hstaging
          have hpath : ({ stage with progress := .flushing } : StageResources).path
              = stage.path := by
            rw [StageResources.path_of_staging hstaging]
            rfl
          refine h.replace_part hstage hstaging { stage with progress := .flushing } rfl hpath
            h.within (fun path _ => .refl _ _) ⟨hold.sized, hold.positive, file, hfile, ?_⟩
          unfold StageResources.Fits at hfits ⊢
          rw [hprogress] at hfits
          exact hfits.resolve_left hpoisoned
      · rw [if_neg hprogress]
        exact h.refl

/-- The steps of the job after the rename only make promises. -/
theorem Sound.replace_blob (h : d.Sound sha256) (hstage : stage ∈ d.stages)
    (hrenamed : stage.progress.staging = false) {progress : Progress}
    (hprogress : progress.staging = false) {disk : Disk} (hwithin : disk.Within Named)
    (hkeeps : ∀ path, d.disk.Keeps disk path)
    (hfits : ∀ file, disk.file stage.blob = some file → stage.Fits file →
      ({ stage with progress := progress } : StageResources).Fits file) :
    Advances sha256 d
      (({ d with disk := disk } : Depot).withStage { stage with progress := progress }) := by
  have hold := (h.holds stage hstage).keeps (hkeeps stage.path)
  obtain ⟨file, hfile, holdfits⟩ := hold.stored
  have hpath : ({ stage with progress := progress } : StageResources).path = stage.path := by
    rw [StageResources.path_of_renamed hrenamed, StageResources.path_of_renamed hprogress]
    rfl
  have hblob : disk.file stage.blob = some file := by
    rw [← StageResources.path_of_renamed hrenamed]
    exact hfile
  refine h.replace stage { stage with progress := progress } rfl hwithin (fun row _ => hkeeps _)
    ?_ ?_
  · intro other hother hne
    rw [hpath]
    exact ⟨hkeeps _, h.path_ne hother hstage hne⟩
  · refine ⟨hold.sized, hold.positive, file, ?_, hfits file hblob holdfits⟩
    rw [hpath]
    exact hfile

/-- The rename: its target belongs to nobody. -/
theorem Sound.rename (h : d.Sound sha256) (hstage : stage ∈ d.stages)
    (hprogress : stage.progress = .synced) (hfree : d.disk.file stage.blob = none) :
    Advances sha256 d (({ d with disk := d.disk.rename stage.part stage.blob } :
      Depot).withStage { stage with progress := .renamed }) := by
  have hold := h.holds stage hstage
  have hstaging : stage.progress.staging = true := by rw [hprogress]; rfl
  obtain ⟨file, hfile, hfits⟩ := hold.part hstaging
  refine h.replace stage { stage with progress := .renamed } rfl
    (h.within.rename stage.named_blob) ?_ ?_ ?_
  · intro row hrow
    exact Volume.rename_keeps (blobs_ne_staging _ _) (h.row_ne_of_none hfree hrow)
  · intro other hother hne
    have htarget := h.path_ne_of_none hfree hother
    refine ⟨Volume.rename_keeps ?_ htarget, htarget⟩
    rw [← StageResources.path_of_staging hstaging]
    exact h.path_ne hother hstage hne
  · refine ⟨hold.sized, hold.positive, _, Volume.file_rename hfile, ?_⟩
    unfold StageResources.Fits at hfits ⊢
    rw [hprogress] at hfits
    exact hfits

theorem Sound.does (h : d.Sound sha256) (hstage : stage ∈ d.stages) {disk : Disk}
    {progress : Progress} (hdoes : stage.Does d.disk disk progress) :
    Advances sha256 d
      (({ d with disk := disk } : Depot).withStage { stage with progress := progress }) := by
  have hold := h.holds stage hstage
  cases hdoes with
  | flush hprogress =>
      have hstaging : stage.progress.staging = true := by rw [hprogress]; rfl
      refine h.write hstage hstaging { stage with progress := .flushed } rfl rfl rfl hold.sized
        hold.positive _ ?_
      intro file hfits
      unfold StageResources.Fits at hfits ⊢
      rw [hprogress] at hfits
      exact hfits
  | sync hprogress =>
      have hstaging : stage.progress.staging = true := by rw [hprogress]; rfl
      obtain ⟨file, hfile, hfits⟩ := hold.part hstaging
      have hpath : ({ stage with progress := .synced } : StageResources).path = stage.path := by
        rw [StageResources.path_of_staging hstaging]
        rfl
      refine h.replace_part hstage hstaging { stage with progress := .synced } rfl hpath
        (h.within.modify _) (fun path _ => Volume.fsync_keeps _ path)
        ⟨hold.sized, hold.positive, { file with synced := true }, ?_, ?_⟩
      · change (d.disk.fsync stage.part).file stage.part = _
        unfold Volume.fsync
        rw [Volume.file_modify_self, hfile]
        rfl
      · unfold StageResources.Fits at hfits ⊢
        rw [hprogress] at hfits
        exact ⟨hfits, rfl⟩
  | rename hprogress hfree => exact h.rename hstage hprogress hfree
  | syncBlobs hprogress =>
      have hrenamed : stage.progress.staging = false := by rw [hprogress]; rfl
      refine h.replace_blob hstage hrenamed rfl (h.within.fsyncDir .blobs)
        (fun path => Volume.fsyncDir_keeps .blobs path) ?_
      intro file hfile hfits
      obtain ⟨before, hbefore, -⟩ := hold.stored
      rw [StageResources.path_of_renamed hrenamed] at hbefore
      have hafter : (d.disk.fsyncDir .blobs).file stage.blob
          = some { before with linked := true } := Volume.file_fsyncDir hbefore
      rw [hafter] at hfile
      cases hfile
      unfold StageResources.Fits at hfits ⊢
      rw [hprogress] at hfits
      refine ⟨hfits.1, ?_⟩
      unfold Volume.File.durable
      rw [hfits.2]
      rfl
  | syncStaging hprogress =>
      have hrenamed : stage.progress.staging = false := by rw [hprogress]; rfl
      refine h.replace_blob hstage hrenamed rfl (h.within.fsyncDir .staging)
        (fun path => Volume.fsyncDir_keeps .staging path) ?_
      intro file _ hfits
      unfold StageResources.Fits at hfits ⊢
      rw [hprogress] at hfits
      exact hfits
  | done hprogress =>
      have hrenamed : stage.progress.staging = false := by rw [hprogress]; rfl
      refine h.replace_blob hstage hrenamed rfl h.within (fun path => .refl _ path) ?_
      intro file _ hfits
      unfold StageResources.Fits at hfits ⊢
      rw [hprogress] at hfits
      exact hfits

theorem Sound.job (h : d.Sound sha256) (serial : Nat) (fault : JobFault) :
    Advances sha256 d (d.job serial fault) := by
  unfold Depot.job
  cases hlookup : d.stage? serial with
  | none => exact h.refl
  | some stage =>
      have hstage := mem_of_stage? hlookup
      dsimp only
      cases hadvance : stage.advance fault d.disk with
      | none => exact h.refl
      | some result =>
          obtain ⟨disk, result⟩ := result
          rcases StageResources.advance_cases hadvance with
            ⟨progress, rfl, hdoes⟩ | ⟨⟨e, rfl⟩, rfl | ⟨hprogress, bytes, rfl⟩⟩
          · exact h.does hstage hdoes
          · exact h.release_same hstage
          · have hstaging : stage.progress.staging = true := by rw [hprogress]; rfl
            obtain ⟨file, hfile, -⟩ := (h.holds stage hstage).part hstaging
            refine h.release hstage (h.within.modify _)
              (fun path hne => Volume.write_keeps bytes (hne hstaging)) ?_
            intro _
            refine ⟨{ file with content := file.content ++ bytes, synced := false }, ?_⟩
            unfold Volume.write
            rw [Volume.file_modify_self, hfile]
            rfl

theorem Sound.drop (h : d.Sound sha256) (serial : Nat) : Advances sha256 d (d.drop serial) := by
  unfold Depot.drop
  cases hlookup : d.stage? serial with
  | none => exact h.refl
  | some stage =>
      dsimp only
      split_ifs
      · exact h.release_same (mem_of_stage? hlookup)
      · exact h.refl

theorem Sound.clean (h : d.Sound sha256) (serial : Nat) (fails : Bool) :
    Advances sha256 d (d.clean serial fails) := by
  unfold Depot.clean
  cases hlookup : d.stage? serial with
  | none => exact h.refl
  | some stage =>
      have hstage := mem_of_stage? hlookup
      have hserial : stage.serial = serial := Keyed.lookup_some_key hlookup
      dsimp only
      by_cases hprogress : stage.progress = .dropped
      · rw [if_pos hprogress]
        cases fails with
        | true =>
            exact h.remove serial h.within (fun row _ => .refl _ _) fun other _ _ => .refl _ _
        | false =>
            refine h.remove serial h.within.unlink
              (fun row _ => Volume.unlink_keeps (blobs_ne_staging _ _)) ?_
            intro other hother hne
            apply Volume.unlink_keeps
            have hstaging : stage.progress.staging = true := by rw [hprogress]; rfl
            rw [← StageResources.path_of_staging hstaging]
            refine h.path_ne hother hstage ?_
            rintro rfl
            exact hne hserial
      · rw [if_neg hprogress]
        exact h.refl

/-! ### The events of the store -/

/-- An operation that brings in only rows that are complete. -/
theorem Sound.next (h : d.Sound sha256) (op : Op)
    (hnew : ∀ message now, op.message? = some message → message.root = d.world.store.root →
      Complete sha256 d.disk (message.blobRow now)) :
    Advances sha256 d { d with world := d.world.next op } where
  sound :=
    { within := h.within
      holds := h.holds
      distinct := h.distinct
      complete := by
        intro row hrow
        rcases World.next_blobs hrow with hold | ⟨message, now, hmessage, hroot, rfl⟩
        · exact h.complete row hold
        · exact hnew message now hmessage hroot }
  keeps _ _ := .refl _ _

theorem Sound.perform (h : d.Sound sha256) (op : Op) :
    Advances sha256 d (d.perform sha256 op) := by
  unfold Depot.perform
  by_cases hrestarts : op.restarts = true
  · rw [if_pos hrestarts]
    exact h.refl
  · rw [if_neg hrestarts]
    cases hmessage : op.message? with
    | none =>
        refine h.next op ?_
        intro message now hsome
        rw [hmessage] at hsome
        cases hsome
    | some message =>
        dsimp only
        cases htoken : d.token? sha256 message with
        | some stage =>
            have hprepared := List.find?_some htoken
            rw [Bool.and_eq_true, decide_eq_true_iff, decide_eq_true_iff] at hprepared
            have hstage : stage ∈ d.stages := List.mem_of_find?_eq_some htoken
            have hnext : Advances sha256 d { d with world := d.world.next op } := by
              refine h.next op ?_
              intro carried now hsome _
              rw [hmessage] at hsome
              cases hsome
              rw [← hprepared.2]
              exact (h.holds stage hstage).complete hprepared.1 now
            -- The token is consumed after the operation.
            refine ⟨(hnext.sound.remove stage.serial h.within (fun row _ => .refl _ _)
              fun other _ _ => .refl _ _).sound, fun row _ => .refl _ _⟩
        | none =>
            dsimp only
            by_cases hroot : message.root = d.world.store.root
            · rw [if_pos hroot]
              exact h.refl
            · rw [if_neg hroot]
              refine h.next op ?_
              intro carried now hsome hcarried
              rw [hmessage] at hsome
              cases hsome
              exact absurd hcarried hroot

/-- While nothing is reserved there is no stage. -/
theorem Sound.idle (h : d.Sound sha256) (hidle : d.idle = true) : d.stages = [] := by
  unfold Depot.idle at hidle
  rw [Bool.and_eq_true, beq_iff_eq] at hidle
  cases hstages : d.stages with
  | nil => rfl
  | cons stage rest =>
      have hpositive := (h.holds stage (by rw [hstages]; exact List.mem_cons_self)).positive
      have hsum := hidle.2
      unfold Depot.reservedBytes at hsum
      rw [hstages, List.map_cons, List.sum_cons] at hsum
      omega

theorem Sound.gc (h : d.Sound sha256) (options : GcOptions) (input : GcInput) :
    Advances sha256 d (d.gc sha256 options input).1 := by
  obtain ⟨disk, heq, hspares, hidle⟩ := d.gc_eq sha256 options input
  rw [heq]
  rcases hidle with rfl | hidle
  · exact h.refl
  · have hstages := h.idle hidle
    refine ⟨⟨hspares.within h.within, ?_, h.distinct, ?_⟩, hspares.keeps⟩
    · intro stage hstage
      rw [hstages] at hstage
      cases hstage
    · exact fun row hrow => (h.complete row hrow).keeps (hspares.keeps row hrow)

/-- There is nothing to recover: a row has its file, and without a row nothing is recovered. -/
theorem Sound.recoverBlob (h : d.Sound sha256) (id : Text) (input : RecoverInput) :
    (d.recoverBlob sha256 id input).1 = d := by
  unfold Depot.recoverBlob
  by_cases hopened : d.world.opened = false
  · rw [if_pos hopened]
  · rw [if_neg hopened]
    by_cases hidle : d.idle = false
    · rw [if_pos hidle]
    · rw [if_neg hidle]
      unfold blobPath
      by_cases hid : validId id = true
      · rw [if_pos hid]
        dsimp only
        by_cases hexists : (d.disk.file (Directory.blobs.path id)).isSome = true
        · rw [if_pos hexists]
        · rw [if_neg hexists]
          cases hrow : d.world.store.db.blob? id with
          | none => rfl
          | some row =>
              refine absurd ?_ hexists
              obtain ⟨file, hfile, -⟩ := h.complete row (Keyed.mem_of_lookup hrow)
              rw [Keyed.lookup_some_key hrow] at hfile
              rw [hfile]
              rfl
      · rw [if_neg hid]

theorem Sound.crash (h : d.Sound sha256)
    (remains : Directory × Text → Option (Volume.File UInt8)) :
    Advances sha256 d (d.crash remains) := by
  have hkeeps : ∀ row ∈ d.world.store.db.blobs,
      d.disk.Keeps (d.disk.crash remains) (Directory.blobs.path row.id) := by
    intro row hrow
    obtain ⟨file, hfile, hdurable, -⟩ := h.complete row hrow
    exact .of_eq ((Volume.file_crash hfile hdurable).trans hfile.symm)
  refine ⟨⟨h.within.crash remains, ?_, List.nodup_nil, ?_⟩, hkeeps⟩
  · intro stage hstage
    cases hstage
  · intro row hrow
    exact (h.complete row hrow).keeps (hkeeps row hrow)

theorem Sound.reopen (h : d.Sound sha256) (options : StoreOptions) :
    Advances sha256 d (d.reopen options) := by
  unfold Depot.reopen
  cases hstages : d.stages with
  | cons stage rest => exact h.refl
  | nil =>
      unfold World.reopen
      split_ifs
      · exact h.refl
      · refine ⟨⟨h.within, ?_, List.nodup_nil, h.complete⟩, fun row _ => .refl _ _⟩
        intro stage hstage
        cases hstage

/-- **One event** keeps the invariant and the file of every row. -/
theorem Sound.step (h : d.Sound sha256) (event : Event) :
    Advances sha256 d (d.step sha256 event) := by
  cases event with
  | stage input => exact h.staged input
  | append serial bytes fault => exact h.append serial bytes fault
  | straggle serial bytes => exact h.straggle serial bytes
  | prepare serial => exact h.prepare serial
  | job serial fault => exact h.job serial fault
  | drop serial => exact h.drop serial
  | clean serial fails => exact h.clean serial fails
  | perform op => exact h.perform op
  | gc options input => exact h.gc options input
  | recoverBlob id input =>
      change Advances sha256 d (d.recoverBlob sha256 id input).1
      rw [h.recoverBlob]
      exact h.refl
  | crash remains => exact h.crash remains
  | reopen options => exact h.reopen options

theorem sound_run (root : Text) (options : StoreOptions) (events : List Event) :
    ((Depot.init root options).run sha256 events).Sound sha256 :=
  Runs.invariant (Sound sha256) (Sound.init root options)
    (fun _ event h => (h.step event).sound) events

/-- In every run, whatever fails and wherever it crashes: the file of every row of the blob table is
complete, no event touches it, and every file ever created has one of the two forms of name. -/
theorem referenced_blobs_complete (sha256 : Text → Text) (root : Text) (options : StoreOptions)
    (events : List Event) :
    let d := (Depot.init root options).run sha256 events
    (∀ row ∈ d.world.store.db.blobs, ∃ file,
        d.disk.file (Directory.blobs.path row.id) = some file
          ∧ file.content.length = row.sizeBytes ∧ sha256 file.content = row.sha256)
      ∧ (∀ event, ∀ row ∈ d.world.store.db.blobs,
        (d.step sha256 event).disk.file (Directory.blobs.path row.id)
          = d.disk.file (Directory.blobs.path row.id))
      ∧ (∀ path file, d.disk.file path = some file → path ∈ d.disk.created)
      ∧ ∀ path ∈ d.disk.created, ∃ id : Uuid,
        path = Directory.staging.path id.text ∨ path = Directory.blobs.path id.text := by
  intro d
  have hsound : d.Sound sha256 := sound_run root options events
  refine ⟨?_, ?_, hsound.within.listed, hsound.within.named⟩
  · intro row hrow
    obtain ⟨file, hfile, -, hmatches⟩ := hsound.complete row hrow
    exact ⟨file, hfile, hmatches⟩
  · intro event row hrow
    obtain ⟨file, hfile, hdurable, -⟩ := hsound.complete row hrow
    rw [hfile]
    exact ((hsound.step event).keeps row hrow).durable hfile hdurable

end Depot

end Rustymail
