import Rustymail.Store.Maintenance

/-!
# Disk reservations

The counter that the stages of a store share, and who holds a share of it: `create` while it opens its
file, the owners of a `StageResources`, or the cleanup that the last of them leaves behind. An action
is one access to the counter or one step of an owner, so that a list of actions is any interleaving of
them. Depot has the same stages with their files, and no counter of its own.
-/

namespace Rustymail

open Checked

/-- A stage for a message, or for a report that `notification_next` has rendered. -/
inductive StageKind where
  | ordinary
  | report
  deriving DecidableEq

namespace StoreOptions

/-- The options that `notification_next` passes on. -/
def forReport (options : StoreOptions) : StoreOptions :=
  { options with
    maxMessageBytes := min options.maxMessageBytes maxReport
    streamBufferBytes := min options.streamBufferBytes maxReport
    positive := Nat.lt_min.2 ⟨options.positive, by decide⟩
    limited := (Nat.min_le_left _ _).trans options.limited
    buffered := ⟨Nat.le_min.2 ⟨options.buffered.1, by decide⟩,
      (Nat.min_le_left _ _).trans options.buffered.2⟩
    room := (Nat.min_le_left _ _).trans options.room }

def forKind (options : StoreOptions) : StageKind → StoreOptions
  | .ordinary => options
  | .report => options.forReport

end StoreOptions

/-- `StageDisk`: whether the file is open, and whether it has its staging name. -/
structure StageDisk where
  file : Bool
  staged : Bool
  deriving DecidableEq

/-- Where the caller of a stage is: it has a `StagedMessage`, it waits for `prepare`, it has a
`PreparedMessage`, or it has gone. -/
inductive Waiter where
  | staged (poisoned : Bool)
  | preparing
  | prepared
  | gone
  deriving DecidableEq

/-- The disk job of a stage. -/
inductive DiskJob where
  | idle
  | writing
  | preparing
  deriving DecidableEq

/-- The owners of a `StageResources`: there is one. -/
structure Owners where
  waiter : Waiter
  job : DiskJob
  owned : ¬ (waiter = .gone ∧ job = .idle)
  deriving DecidableEq

/-- Who holds a reservation. -/
inductive Holder where
  /-- `create`, which has not opened its file. -/
  | creating
  | shared (disk : StageDisk) (owners : Owners)
  /-- `Drop for StageResources`, or the cleanup that it has moved the reservation into. -/
  | cleaning (disk : StageDisk)
  deriving DecidableEq

/-- A step of an owner. -/
inductive OwnerStep where
  /-- `create` returns its stage. -/
  | opened
  /-- `append` submits a full buffer. -/
  | append
  /-- `append` fails before it submits anything. -/
  | refuse
  /-- The write ends. If the waiter is still there and all went well, the stage can be used again. -/
  | wrote (completed : Bool)
  | prepare
  /-- The job of `prepare` closes the file. -/
  | close
  | rename
  /-- The job of `prepare` ends. -/
  | finish (prepared : Bool)
  /-- An acceptance drops the token that it was given. -/
  | accept
  /-- The waiter drops what it has. -/
  | cancel
  deriving DecidableEq

namespace Holder

/-- When the last owner has gone, the resources are dropped. -/
def settle (disk : StageDisk) (waiter : Waiter) (job : DiskJob) : Holder :=
  if h : waiter = .gone ∧ job = .idle then .cleaning disk else .shared disk ⟨waiter, job, h⟩

def step : Holder → OwnerStep → Holder
  | .creating, .opened => settle ⟨true, true⟩ (.staged false) .idle
  | .shared disk ⟨.staged false, .idle, _⟩, .append => settle disk (.staged true) .writing
  | .shared disk ⟨.staged _, job, _⟩, .refuse => settle disk (.staged true) job
  | .shared disk ⟨.staged _, .writing, _⟩, .wrote completed =>
      settle disk (.staged (!completed)) .idle
  | .shared disk ⟨waiter, .writing, _⟩, .wrote _ => settle disk waiter .idle
  | .shared disk ⟨.staged true, job, _⟩, .prepare => settle disk .gone job
  | .shared disk ⟨.staged false, .idle, _⟩, .prepare => settle disk .preparing .preparing
  | .shared ⟨true, staged⟩ ⟨waiter, .preparing, _⟩, .close => settle ⟨false, staged⟩ waiter .preparing
  | .shared ⟨false, true⟩ ⟨waiter, .preparing, _⟩, .rename => settle ⟨false, false⟩ waiter .preparing
  | .shared disk ⟨.preparing, .preparing, _⟩, .finish prepared =>
      -- The token of a job that has renamed its file is its result, and goes to the waiter.
      settle disk (if prepared ∧ disk = ⟨false, false⟩ then .prepared else .preparing) .idle
  | .shared disk ⟨waiter, .preparing, _⟩, .finish _ => settle disk waiter .idle
  | .shared disk ⟨.prepared, job, _⟩, .accept => settle disk .gone job
  | .shared disk ⟨_, job, _⟩, .cancel => settle disk .gone job
  | holder, _ => holder

end Holder

/-- `DiskReservation`, with its holder. `serial` identifies the allocation. -/
structure DiskReservation where
  serial : Nat
  bytes : Nat
  holder : Holder
  deriving DecidableEq

/-- `reserved_bytes` behind its lock, and the reservations there are. -/
structure Reservations where
  reserved : Nat := 0
  poisoned : Bool := false
  held : List DiskReservation := []
  /-- Numbers the reservations. -/
  nextSerial : Nat := 0
  deriving DecidableEq

inductive ReservationAction where
  /-- `create` up to the point where it lets the lock go. -/
  | reserve (kind : StageKind) (input : StageInput)
  /-- `create` fails behind that point, and drops its reservation. -/
  | fail (serial : Nat)
  | owner (serial : Nat) (step : OwnerStep)
  /-- The cleanup has come to its end, or was dropped without being run. -/
  | clean (serial : Nat)

namespace Reservations

def reserve (options : StoreOptions) (s : Reservations) (kind : StageKind) (input : StageInput) :
    Reservations × Except StoreError Nat :=
  if s.poisoned then (s, .error .workerUnavailable)
  else
    match StoreOptions.admit (options.forKind kind) s.reserved input with
    | .error e => (s, .error e)
    | .ok () =>
        let bytes := (options.forKind kind).maxMessageBytes
        ({ s with
            reserved := s.reserved + bytes
            held := s.held ++ [⟨s.nextSerial, bytes, .creating⟩]
            nextSerial := s.nextSerial + 1 }, .ok s.nextSerial)

def reservation? (s : Reservations) (serial : Nat) : Option DiskReservation :=
  Keyed.lookup DiskReservation.serial s.held serial

/-- `Drop for DiskReservation`. An underflow wraps, or panics and poisons the lock. -/
def release (s : Reservations) (r : DiskReservation) : Reservations :=
  let held := Keyed.remove DiskReservation.serial s.held r.serial
  if s.poisoned then { s with held := held }
  else
    { s with
      reserved := (s.reserved + 2 ^ 64 - r.bytes) % 2 ^ 64
      poisoned := decide (s.reserved < r.bytes)
      held := held }

def next (options : StoreOptions) (s : Reservations) : ReservationAction → Reservations
  | .reserve kind input => (s.reserve options kind input).1
  | .fail serial =>
      match s.reservation? serial with
      | some r => if r.holder = .creating then s.release r else s
      | none => s
  | .owner serial step =>
      { s with
        held := Keyed.modify DiskReservation.serial s.held serial fun r =>
          { r with holder := r.holder.step step } }
  | .clean serial =>
      match s.reservation? serial with
      | some r =>
          match r.holder with
          | .cleaning _ => s.release r
          | _ => s
      | none => s

def run (options : StoreOptions) (actions : List ReservationAction) : Reservations :=
  Runs.run (next options) {} actions

/-- `require_idle`. -/
def requireIdle (s : Reservations) (active : Bool) : Except StoreError Unit :=
  if active then .error .maintenanceBusy
  else if s.poisoned then .error .workerUnavailable
  else if s.reserved ≠ 0 then .error .maintenanceBusy
  else .ok ()

end Reservations

end Rustymail
