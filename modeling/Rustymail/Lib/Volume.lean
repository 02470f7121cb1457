import Mathlib.Logic.Function.Basic
import Mathlib.Tactic.Common

/-!
# Files that survive a crash

A volume of directories, with what `fsync` promises. A file survives a crash as it is once its content
and its name have been synchronised; of any other name that was ever created, a crash may leave
nothing, or anything. A directory entry is renamed, linked or unlinked as a whole.

Every operation is described by the paths it keeps and by the names it brings in.
-/

structure Volume.File (α : Type) where
  content : List α
  /-- The content has been synchronised since it was last written. -/
  synced : Bool
  /-- The directory has been synchronised since the name was last set. -/
  linked : Bool
  deriving DecidableEq

/-- A volume with directories `δ`, names `ν` and contents over `α`. -/
structure Volume (δ ν α : Type) where
  file : δ × ν → Option (Volume.File α)
  /-- Every path at which there has been a file: history, not state of the disk. -/
  created : List (δ × ν)

namespace Volume

variable {δ ν α : Type} [DecidableEq δ] [DecidableEq ν]

/-- A file that no crash can touch. -/
def File.durable (file : File α) : Bool := file.synced && file.linked

def empty : Volume δ ν α := ⟨fun _ => none, []⟩

/-- Put a file at a path, whatever is there. -/
def put (v : Volume δ ν α) (path : δ × ν) (file : File α) : Volume δ ν α :=
  ⟨Function.update v.file path (some file), v.created ++ [path]⟩

/-- `open` with `O_CREAT | O_EXCL`. -/
def create (v : Volume δ ν α) (path : δ × ν) : Option (Volume δ ν α) :=
  if (v.file path).isSome then none else some (v.put path ⟨[], false, false⟩)

/-- Change the file at a path, if there is one. -/
def modify (v : Volume δ ν α) (path : δ × ν) (f : File α → File α) : Volume δ ν α :=
  { v with file := Function.update v.file path ((v.file path).map f) }

def write (v : Volume δ ν α) (path : δ × ν) (bytes : List α) : Volume δ ν α :=
  v.modify path fun file => { file with content := file.content ++ bytes, synced := false }

def fsync (v : Volume δ ν α) (path : δ × ν) : Volume δ ν α :=
  v.modify path fun file => { file with synced := true }

def unlink (v : Volume δ ν α) (path : δ × ν) : Volume δ ν α :=
  { v with file := Function.update v.file path none }

/-- `rename`: the target is replaced. -/
def rename (v : Volume δ ν α) (source target : δ × ν) : Volume δ ν α :=
  match v.file source with
  | none => v
  | some file => (v.unlink source).put target { file with linked := false }

/-- `link`: it fails where there is a file already. -/
def link (v : Volume δ ν α) (source target : δ × ν) : Option (Volume δ ν α) :=
  match v.file source, v.file target with
  | some file, none => some (v.put target { file with linked := false })
  | _, _ => none

def fsyncDir (v : Volume δ ν α) (directory : δ) : Volume δ ν α :=
  { v with
    file := fun path =>
      if path.1 = directory then (v.file path).map fun file => { file with linked := true }
      else v.file path }

/-- A crash. `remains` is what the disk shows where nothing was promised. -/
def crash (v : Volume δ ν α) (remains : δ × ν → Option (File α)) : Volume δ ν α :=
  { v with
    file := fun path =>
      match v.file path with
      | some file =>
          if file.durable then some file
          else if path ∈ v.created then remains path else none
      | none => if path ∈ v.created then remains path else none }

variable {v v' v'' : Volume δ ν α} {path other source target : δ × ν} {file : File α}

/-! ### What is kept -/

/-- The same content, and no promise taken back. -/
structure File.Grows (old new : File α) : Prop where
  content : new.content = old.content
  synced : old.synced = true → new.synced = true
  linked : old.linked = true → new.linked = true

theorem File.Grows.refl (file : File α) : file.Grows file := ⟨rfl, id, id⟩

theorem File.Grows.eq_of_durable {old new : File α} (h : old.Grows new)
    (hdurable : old.durable = true) : new = old := by
  obtain ⟨hsynced, hlinked⟩ := Bool.and_eq_true_iff.1 hdurable
  obtain ⟨content, synced, linked⟩ := old
  obtain ⟨content', synced', linked'⟩ := new
  obtain ⟨rfl, hsync, hlink⟩ := h
  dsimp only at hsynced hlinked hsync hlink
  rw [hsynced, hlinked, hsync hsynced, hlink hlinked]

/-- Nothing is lost at a path. -/
def Keeps (v v' : Volume δ ν α) (path : δ × ν) : Prop :=
  ∀ file, v.file path = some file → ∃ file', v'.file path = some file' ∧ file.Grows file'

omit [DecidableEq δ] [DecidableEq ν] in
theorem Keeps.of_eq (h : v'.file path = v.file path) : v.Keeps v' path :=
  fun file hfile => ⟨file, h.trans hfile, .refl file⟩

omit [DecidableEq δ] [DecidableEq ν] in
theorem Keeps.refl (v : Volume δ ν α) (path : δ × ν) : v.Keeps v path := .of_eq rfl

omit [DecidableEq δ] [DecidableEq ν] in
theorem Keeps.trans (h : v.Keeps v' path) (h' : v'.Keeps v'' path) : v.Keeps v'' path := by
  intro file hfile
  obtain ⟨middle, hmiddle, hfirst⟩ := h file hfile
  obtain ⟨last, hlast, hsecond⟩ := h' middle hmiddle
  exact ⟨last, hlast, hsecond.content.trans hfirst.content, hsecond.synced ∘ hfirst.synced,
    hsecond.linked ∘ hfirst.linked⟩

omit [DecidableEq δ] [DecidableEq ν] in
/-- A durable file that is kept is there unchanged. -/
theorem Keeps.durable (h : v.Keeps v' path) (hfile : v.file path = some file)
    (hdurable : file.durable = true) : v'.file path = some file := by
  obtain ⟨file', hfile', hgrows⟩ := h file hfile
  rw [hfile', hgrows.eq_of_durable hdurable]

@[simp]
theorem file_put_self : (v.put path file).file path = some file := Function.update_self ..

theorem file_put_of_ne (h : other ≠ path) : (v.put path file).file other = v.file other :=
  Function.update_of_ne h ..

theorem put_keeps (h : other ≠ path) : v.Keeps (v.put path file) other := .of_eq (file_put_of_ne h)

@[simp]
theorem file_modify_self (f : File α → File α) :
    (v.modify path f).file path = (v.file path).map f := Function.update_self ..

theorem file_modify_of_ne (f : File α → File α) (h : other ≠ path) :
    (v.modify path f).file other = v.file other := Function.update_of_ne h ..

theorem modify_keeps (f : File α → File α) (h : other ≠ path) : v.Keeps (v.modify path f) other :=
  .of_eq (file_modify_of_ne f h)

theorem write_keeps (bytes : List α) (h : other ≠ path) : v.Keeps (v.write path bytes) other :=
  modify_keeps _ h

theorem fsync_keeps (path other : δ × ν) : v.Keeps (v.fsync path) other := by
  by_cases hother : other = path
  · intro file hfile
    refine ⟨{ file with synced := true }, ?_, rfl, fun _ => rfl, id⟩
    rw [hother] at hfile ⊢
    exact (file_modify_self _).trans (congrArg _ hfile)
  · exact modify_keeps _ hother

theorem unlink_keeps (h : other ≠ path) : v.Keeps (v.unlink path) other :=
  .of_eq (Function.update_of_ne h ..)

@[simp]
theorem file_unlink_self : (v.unlink path).file path = none := Function.update_self ..

theorem file_unlink_of_ne (h : other ≠ path) : (v.unlink path).file other = v.file other :=
  Function.update_of_ne h ..

theorem create_eq_some (h : v.create path = some v') :
    v.file path = none ∧ v' = v.put path ⟨[], false, false⟩ := by
  unfold create at h
  split_ifs at h with hsome
  rw [Option.not_isSome_iff_eq_none] at hsome
  cases h
  exact ⟨hsome, rfl⟩

theorem create_keeps (h : v.create path = some v') (other : δ × ν) : v.Keeps v' other := by
  obtain ⟨hnone, rfl⟩ := create_eq_some h
  intro file hfile
  have hother : other ≠ path := by
    rintro rfl
    rw [hnone] at hfile
    cases hfile
  exact put_keeps hother file hfile

theorem file_rename (h : v.file source = some file) :
    (v.rename source target).file target = some { file with linked := false } := by
  unfold rename
  rw [h]
  exact file_put_self

theorem rename_keeps (hsource : other ≠ source) (htarget : other ≠ target) :
    v.Keeps (v.rename source target) other := by
  unfold rename
  cases v.file source with
  | none => exact .refl v other
  | some file => exact (unlink_keeps hsource).trans (put_keeps htarget)

theorem link_eq_some (h : v.link source target = some v') :
    ∃ file, v.file source = some file ∧ v.file target = none
      ∧ v' = v.put target { file with linked := false } := by
  unfold link at h
  cases hsource : v.file source with
  | none =>
      rw [hsource] at h
      cases h
  | some file =>
      cases htarget : v.file target with
      | none =>
          rw [hsource, htarget] at h
          cases h
          exact ⟨file, rfl, rfl, rfl⟩
      | some other =>
          rw [hsource, htarget] at h
          cases h

theorem link_keeps (h : v.link source target = some v') (other : δ × ν) : v.Keeps v' other := by
  obtain ⟨linked, -, hnone, rfl⟩ := link_eq_some h
  intro file hfile
  have hother : other ≠ target := by
    rintro rfl
    rw [hnone] at hfile
    cases hfile
  exact put_keeps hother file hfile

omit [DecidableEq ν] in
/-- Synchronising its directory makes a synchronised file durable. -/
theorem file_fsyncDir (h : v.file path = some file) :
    (v.fsyncDir path.1).file path = some { file with linked := true } := by
  change (if path.1 = path.1 then (v.file path).map _ else v.file path) = _
  rw [if_pos rfl, h]
  rfl

omit [DecidableEq ν] in
theorem fsyncDir_keeps (directory : δ) (other : δ × ν) : v.Keeps (v.fsyncDir directory) other := by
  by_cases hother : other.1 = directory
  · subst hother
    intro file hfile
    exact ⟨_, file_fsyncDir hfile, rfl, id, fun _ => rfl⟩
  · exact .of_eq (if_neg hother)

omit [DecidableEq ν] in
/-- Synchronising a directory touches no content. -/
theorem file_fsyncDir_content {directory : δ} (h : (v.fsyncDir directory).file path = some file) :
    ∃ old, v.file path = some old ∧ file.content = old.content := by
  change (if path.1 = directory then (v.file path).map _ else v.file path) = some file at h
  split_ifs at h
  · obtain ⟨old, hold, rfl⟩ := Option.map_eq_some_iff.1 h
    exact ⟨old, hold, rfl⟩
  · exact ⟨file, h, rfl⟩

omit [DecidableEq ν] in
theorem file_fsyncDir_eq_none {directory : δ} :
    (v.fsyncDir directory).file path = none ↔ v.file path = none := by
  change (if path.1 = directory then (v.file path).map _ else v.file path) = none ↔ _
  split_ifs
  · exact Option.map_eq_none_iff
  · exact Iff.rfl

theorem file_crash {remains : δ × ν → Option (File α)} (h : v.file path = some file)
    (hdurable : file.durable = true) : (v.crash remains).file path = some file := by
  unfold crash
  dsimp only
  rw [h]
  exact if_pos hdurable

/-! ### Names -/

/-- Every file is at a path that was created, and only allowed paths were. -/
structure Within (allowed : δ × ν → Prop) (v : Volume δ ν α) : Prop where
  listed : ∀ path file, v.file path = some file → path ∈ v.created
  named : ∀ path ∈ v.created, allowed path

variable {allowed : δ × ν → Prop}

omit [DecidableEq δ] [DecidableEq ν] in
theorem Within.empty : Within allowed (empty : Volume δ ν α) where
  listed path file h := by cases h
  named path h := by cases h

omit [DecidableEq δ] [DecidableEq ν] in
/-- Where there is a file there was one, and no name is new. -/
theorem Within.of_old (h : v.Within allowed) (hcreated : v'.created = v.created)
    (hold : ∀ path file, v'.file path = some file → ∃ old, v.file path = some old) :
    v'.Within allowed where
  listed := by
    intro path file hfile
    obtain ⟨old, hfound⟩ := hold path file hfile
    rw [hcreated]
    exact h.listed path old hfound
  named := by
    rw [hcreated]
    exact h.named

theorem Within.put (h : v.Within allowed) (hpath : allowed path) : (v.put path file).Within allowed where
  listed := by
    intro other found hfound
    by_cases hother : other = path
    · rw [hother]
      exact List.mem_append_right _ List.mem_cons_self
    · have hold : (v.put path file).file other = v.file other := Function.update_of_ne hother ..
      rw [hold] at hfound
      exact List.mem_append_left _ (h.listed other found hfound)
  named := by
    intro other hmem
    rcases List.mem_append.1 hmem with hold | hnew
    · exact h.named other hold
    · rw [List.mem_singleton.1 hnew]
      exact hpath

theorem Within.modify (h : v.Within allowed) (f : File α → File α) :
    (v.modify path f).Within allowed := by
  refine h.of_old rfl ?_
  intro other found hfound
  by_cases hother : other = path
  · subst hother
    rw [file_modify_self, Option.map_eq_some_iff] at hfound
    obtain ⟨old, hold, -⟩ := hfound
    exact ⟨old, hold⟩
  · have hold : (v.modify path f).file other = v.file other := Function.update_of_ne hother ..
    exact ⟨found, hold.symm.trans hfound⟩

theorem Within.unlink (h : v.Within allowed) : (v.unlink path).Within allowed := by
  refine h.of_old rfl ?_
  intro other found hfound
  by_cases hother : other = path
  · subst hother
    have hnone : (v.unlink other).file other = none := Function.update_self ..
    rw [hnone] at hfound
    cases hfound
  · have hold : (v.unlink path).file other = v.file other := Function.update_of_ne hother ..
    exact ⟨found, hold.symm.trans hfound⟩

theorem Within.create (h : v.Within allowed) (hpath : allowed path) (hcreate : v.create path = some v') :
    v'.Within allowed := by
  obtain ⟨-, rfl⟩ := create_eq_some hcreate
  exact h.put hpath

theorem Within.rename (h : v.Within allowed) (htarget : allowed target) :
    (v.rename source target).Within allowed := by
  unfold Volume.rename
  cases v.file source with
  | none => exact h
  | some file => exact h.unlink.put htarget

omit [DecidableEq ν] in
theorem Within.fsyncDir (h : v.Within allowed) (directory : δ) :
    (v.fsyncDir directory).Within allowed := by
  refine h.of_old rfl ?_
  intro other found hfound
  change (if other.1 = directory then (v.file other).map _ else v.file other) = _ at hfound
  split_ifs at hfound
  · obtain ⟨old, hold, -⟩ := Option.map_eq_some_iff.1 hfound
    exact ⟨old, hold⟩
  · exact ⟨found, hfound⟩

theorem Within.crash (h : v.Within allowed) (remains : δ × ν → Option (File α)) :
    (v.crash remains).Within allowed where
  listed := by
    intro other found hfound
    by_contra hcreated
    have hgone : v.file other = none := by
      by_contra hsome
      obtain ⟨old, hold⟩ := Option.ne_none_iff_exists'.1 hsome
      exact hcreated (h.listed other old hold)
    have hnone : (v.crash remains).file other = none := by
      unfold Volume.crash
      dsimp only
      rw [hgone]
      exact if_neg hcreated
    rw [hnone] at hfound
    cases hfound
  named := h.named

end Volume
