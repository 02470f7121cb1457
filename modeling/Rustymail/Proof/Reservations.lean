import Rustymail.Attempts
import Rustymail.Store.Reservations

/-!
# What is reserved

The counter is the sum of the reservations that somebody holds, in every interleaving of the accesses
to it with the steps of the owners. So a release never takes more than there is, and the counter tells
whether there is a stage at all.
-/

namespace Rustymail

open Checked

/-! ### Two sizes -/

namespace StoreOptions

variable (options : StoreOptions) (kind : StageKind)

theorem forKind_temporary :
    (options.forKind kind).temporaryReservedBytes = options.temporaryReservedBytes := by
  cases kind with
  | ordinary => rfl
  | report => rfl

/-- What a stage of either kind reserves. -/
theorem forKind_bytes : (options.forKind kind).maxMessageBytes = options.maxMessageBytes
    ∨ (options.forKind kind).maxMessageBytes = min options.maxMessageBytes 16384 := by
  cases kind with
  | ordinary => exact Or.inl rfl
  | report => exact Or.inr rfl

variable {options kind} {reserved : Nat} {input : StageInput}

theorem room_of_ok (h : options.admit reserved input = .ok ()) :
    reserved + options.maxMessageBytes ≤ u64Max
      ∧ reserved + options.maxMessageBytes ≤ options.temporaryReservedBytes := by
  unfold StoreOptions.admit at h
  simp only [bind_eq_ok, require_eq_ok] at h
  obtain ⟨-, hroom, -⟩ := h
  exact hroom

end StoreOptions

namespace Reservations

variable {options : StoreOptions} {s : Reservations} {r : DiskReservation}

/-- The total of what is held. -/
def heldBytes (s : Reservations) : Nat := (s.held.map DiskReservation.bytes).sum

structure Balanced (options : StoreOptions) (s : Reservations) : Prop where
  counted : s.reserved = s.heldBytes
  within : s.reserved ≤ options.temporaryReservedBytes
  machine : s.reserved ≤ u64Max
  sound : s.poisoned = false
  unique : Keyed.Unique DiskReservation.serial s.held
  numbered : ∀ r ∈ s.held, r.serial < s.nextSerial
  sized : ∀ r ∈ s.held, ∃ kind, r.bytes = (options.forKind kind).maxMessageBytes

theorem Balanced.init : Balanced options {} where
  counted := rfl
  within := Nat.zero_le _
  machine := Nat.zero_le _
  sound := rfl
  unique := List.nodup_nil
  numbered _ hr := absurd hr List.not_mem_nil
  sized _ hr := absurd hr List.not_mem_nil

/-- A reservation is part of the counter. -/
theorem Balanced.covers (h : s.Balanced options) (hr : r ∈ s.held) : r.bytes ≤ s.reserved := by
  have hsum : s.heldBytes = r.bytes + _ :=
    Keyed.sum_remove h.unique (Keyed.lookup_of_mem h.unique hr)
  rw [h.counted, hsum]
  exact Nat.le_add_right _ _

theorem Balanced.positive (h : s.Balanced options) (hr : r ∈ s.held) : 0 < r.bytes := by
  obtain ⟨kind, hbytes⟩ := h.sized r hr
  rw [hbytes]
  exact (options.forKind kind).positive

theorem Balanced.zero_iff (h : s.Balanced options) : s.reserved = 0 ↔ s.held = [] := by
  constructor
  · intro hzero
    rw [List.eq_nil_iff_forall_not_mem]
    intro r hr
    have hcovers := h.covers hr
    have hpositive := h.positive hr
    omega
  · intro hnone
    rw [h.counted, heldBytes, hnone]
    rfl

/-- `create` takes its share, or leaves everything as it is. -/
theorem reserve_cases (options : StoreOptions) (s : Reservations) (kind : StageKind)
    (input : StageInput) :
    (∃ e, s.reserve options kind input = (s, .error e))
      ∨ ( StoreOptions.admit (options.forKind kind) s.reserved input = .ok ()
        ∧ s.reserve options kind input = ({ s with
          reserved := s.reserved + (options.forKind kind).maxMessageBytes
          held := s.held ++ [⟨s.nextSerial, (options.forKind kind).maxMessageBytes, .creating⟩]
          nextSerial := s.nextSerial + 1 }, .ok s.nextSerial)) := by
  unfold reserve
  by_cases hpoisoned : s.poisoned = true
  · rw [if_pos hpoisoned]
    exact Or.inl ⟨_, rfl⟩
  · rw [if_neg hpoisoned]
    cases htakes : StoreOptions.admit (options.forKind kind) s.reserved input with
    | error e => exact Or.inl ⟨e, rfl⟩
    | ok u => exact Or.inr ⟨rfl, rfl⟩

theorem Balanced.reserve (h : s.Balanced options) (kind : StageKind) (input : StageInput) :
    (s.reserve options kind input).1.Balanced options := by
  rcases reserve_cases options s kind input with ⟨e, hsame⟩ | ⟨htakes, htaken⟩
  · rw [hsame]
    exact h
  · rw [htaken]
    obtain ⟨hmachine, hwithin⟩ := StoreOptions.room_of_ok htakes
    rw [options.forKind_temporary kind] at hwithin
    refine ⟨?_, hwithin, hmachine, h.sound, ?_, ?_, ?_⟩
    · change s.reserved + _ = ((s.held ++ [_]).map DiskReservation.bytes).sum
      rw [List.map_append, List.sum_append, h.counted]
      rfl
    · apply Keyed.unique_append_singleton h.unique
      rw [Keyed.lookup_none_iff]
      exact fun r hr => Nat.ne_of_lt (h.numbered r hr)
    · intro r hr
      rcases List.mem_append.1 hr with hold | hnew
      · exact Nat.lt_succ_of_lt (h.numbered r hold)
      · obtain rfl := List.mem_singleton.1 hnew
        exact Nat.lt_succ_self s.nextSerial
    · intro r hr
      rcases List.mem_append.1 hr with hold | hnew
      · exact h.sized r hold
      · obtain rfl := List.mem_singleton.1 hnew
        exact ⟨kind, rfl⟩

/-- A release takes its reservation out of the counter, without an underflow. -/
theorem Balanced.release_eq (h : s.Balanced options)
    (hr : s.reservation? r.serial = some r) :
    s.release r = { s with
      reserved := s.reserved - r.bytes
      held := Keyed.remove DiskReservation.serial s.held r.serial } := by
  have hcovers := h.covers (Keyed.mem_of_lookup hr)
  have hmachine := h.machine
  have hwrap : (s.reserved + 2 ^ 64 - r.bytes) % 2 ^ 64 = s.reserved - r.bytes := by
    unfold u64Max at hmachine
    omega
  unfold Reservations.release
  rw [h.sound, hwrap, decide_eq_false (Nat.not_lt.2 hcovers)]
  rfl

theorem Balanced.release (h : s.Balanced options) (hr : s.reservation? r.serial = some r) :
    (s.release r).Balanced options := by
  have hsum : s.heldBytes
      = r.bytes + ((Keyed.remove DiskReservation.serial s.held r.serial).map DiskReservation.bytes).sum :=
    Keyed.sum_remove h.unique hr
  have hmem : ∀ other ∈ Keyed.remove DiskReservation.serial s.held r.serial, other ∈ s.held :=
    fun other hother => List.mem_of_mem_filter hother
  rw [h.release_eq hr]
  refine ⟨?_, ?_, ?_, h.sound, Keyed.unique_remove h.unique, ?_, ?_⟩
  · have hcounted := h.counted
    unfold heldBytes at hcounted hsum ⊢
    dsimp only
    omega
  · exact (Nat.sub_le _ _).trans h.within
  · exact (Nat.sub_le _ _).trans h.machine
  · exact fun other hother => h.numbered other (hmem other hother)
  · exact fun other hother => h.sized other (hmem other hother)

/-- A step of an owner is none of the counter's. -/
theorem Balanced.owner (h : s.Balanced options) (serial : Nat) (step : OwnerStep) :
    (s.next options (.owner serial step)).Balanced options := by
  have hbytes : ((s.next options (.owner serial step)).held.map DiskReservation.bytes)
      = s.held.map DiskReservation.bytes := Keyed.map_modify fun _ => rfl
  have hold : ∀ r ∈ (s.next options (.owner serial step)).held,
      ∃ old ∈ s.held, r.serial = old.serial ∧ r.bytes = old.bytes := by
    intro r hr
    rcases Keyed.mem_modify.1 hr with ⟨old, hmem, -, rfl⟩ | ⟨hmem, -⟩
    · exact ⟨old, hmem, rfl, rfl⟩
    · exact ⟨r, hmem, rfl, rfl⟩
  refine ⟨?_, h.within, h.machine, h.sound, Keyed.unique_modify (fun _ => rfl) h.unique, ?_, ?_⟩
  · unfold heldBytes
    rw [hbytes]
    exact h.counted
  · intro r hr
    obtain ⟨old, hmem, hserial, -⟩ := hold r hr
    rw [hserial]
    exact h.numbered old hmem
  · intro r hr
    obtain ⟨old, hmem, -, heq⟩ := hold r hr
    rw [heq]
    exact h.sized old hmem

theorem Balanced.next (h : s.Balanced options) (action : ReservationAction) :
    (s.next options action).Balanced options := by
  cases action with
  | reserve kind input => exact h.reserve kind input
  | fail serial =>
      cases hr : s.reservation? serial with
      | none =>
          simp only [Reservations.next, hr]
          exact h
      | some r =>
          simp only [Reservations.next, hr]
          obtain rfl := Keyed.lookup_some_key hr
          split
          · exact h.release hr
          · exact h
  | owner serial step => exact h.owner serial step
  | clean serial =>
      cases hr : s.reservation? serial with
      | none =>
          simp only [Reservations.next, hr]
          exact h
      | some r =>
          simp only [Reservations.next, hr]
          obtain rfl := Keyed.lookup_some_key hr
          split
          · exact h.release hr
          · exact h

theorem run_balanced (options : StoreOptions) (actions : List ReservationAction) :
    (run options actions).Balanced options :=
  Runs.invariant (Balanced options) .init (fun _ action h => h.next action) actions

/-! ### Owners -/

/-- Nothing but its own cleanup, or the failure of the `create` it was made by, ends a reservation. -/
theorem Balanced.keeps (h : s.Balanced options) (hr : r ∈ s.held) {action : ReservationAction}
    (hfail : action = .fail r.serial → r.holder ≠ .creating)
    (hclean : action = .clean r.serial → ∀ disk, r.holder ≠ .cleaning disk) :
    ∃ r' ∈ (s.next options action).held, r'.serial = r.serial ∧ r'.bytes = r.bytes := by
  have hother : ∀ other : DiskReservation, other.serial ≠ r.serial →
      r ∈ Keyed.remove DiskReservation.serial s.held other.serial := by
    intro other hne
    exact List.mem_filter.2 ⟨hr, decide_eq_true hne.symm⟩
  have hreleased : ∀ other : DiskReservation, s.reservation? other.serial = some other →
      other.serial ≠ r.serial →
      ∃ r' ∈ (s.release other).held, r'.serial = r.serial ∧ r'.bytes = r.bytes := by
    intro other hfound hne
    rw [h.release_eq hfound]
    exact ⟨r, hother other hne, rfl, rfl⟩
  have hfound : s.reservation? r.serial = some r := Keyed.lookup_of_mem h.unique hr
  cases action with
  | reserve kind input =>
      change ∃ r' ∈ (s.reserve options kind input).1.held, _
      rcases reserve_cases options s kind input with ⟨e, hsame⟩ | ⟨-, htaken⟩
      · rw [hsame]
        exact ⟨r, hr, rfl, rfl⟩
      · rw [htaken]
        exact ⟨r, List.mem_append_left _ hr, rfl, rfl⟩
  | fail serial =>
      cases hlookup : s.reservation? serial with
      | none =>
          simp only [Reservations.next, hlookup]
          exact ⟨r, hr, rfl, rfl⟩
      | some other =>
          simp only [Reservations.next, hlookup]
          obtain rfl := Keyed.lookup_some_key hlookup
          split_ifs with hcreating
          · apply hreleased other hlookup
            intro heq
            obtain rfl := Option.some.inj (hfound.symm.trans (heq ▸ hlookup))
            exact hfail rfl hcreating
          · exact ⟨r, hr, rfl, rfl⟩
  | owner serial step =>
      by_cases hserial : r.serial = serial
      · exact ⟨_, Keyed.mem_modify.2 (Or.inl ⟨r, hr, hserial, rfl⟩), rfl, rfl⟩
      · exact ⟨r, Keyed.mem_modify.2 (Or.inr ⟨hr, hserial⟩), rfl, rfl⟩
  | clean serial =>
      cases hlookup : s.reservation? serial with
      | none =>
          simp only [Reservations.next, hlookup]
          exact ⟨r, hr, rfl, rfl⟩
      | some other =>
          simp only [Reservations.next, hlookup]
          obtain rfl := Keyed.lookup_some_key hlookup
          split
          · next disk hcleaning =>
              apply hreleased other hlookup
              intro heq
              obtain rfl := Option.some.inj (hfound.symm.trans (heq ▸ hlookup))
              exact hclean rfl disk hcleaning
          · exact ⟨r, hr, rfl, rfl⟩

/-- A `create` that fails behind its reservation gives it back. -/
theorem Balanced.fail_gives_back (h : s.Balanced options) (hr : r ∈ s.held)
    (hcreating : r.holder = .creating) :
    (s.next options (.fail r.serial)).reserved + r.bytes = s.reserved := by
  have hfound : s.reservation? r.serial = some r := Keyed.lookup_of_mem h.unique hr
  have hcovers := h.covers hr
  simp only [Reservations.next, hfound]
  rw [if_pos hcreating, h.release_eq hfound]
  exact Nat.sub_add_cancel hcovers

theorem Balanced.idle_iff (h : s.Balanced options) (active : Bool) :
    s.requireIdle active = .ok () ↔ active = false ∧ s.held = [] := by
  unfold requireIdle
  rw [h.sound, ← h.zero_iff]
  cases active with
  | true => simp
  | false => simp

theorem reserve_refused {kind : StageKind} {input : StageInput} {e : StoreError}
    (h : (s.reserve options kind input).2 = .error e) : (s.reserve options kind input).1 = s := by
  rcases reserve_cases options s kind input with ⟨_, hsame⟩ | ⟨-, htaken⟩
  · rw [hsame]
  · rw [htaken] at h
    cases h

/-- **Reservations are accounted for.** In every interleaving the counter is what is held, within its
budget; it is zero if and only if nothing is held, so that the operations that have to be alone can
tell. What a release takes off is there, a refused `create` takes nothing, and one that fails later
gives back what it took. A reservation lasts until the last owner of its stage has gone and the
cleanup has ended. -/
theorem reservations_accounted (options : StoreOptions) (actions : List ReservationAction) :
    (run options actions).reserved
        = ((run options actions).held.map DiskReservation.bytes).sum
      ∧ (run options actions).reserved ≤ options.temporaryReservedBytes
      ∧ (run options actions).poisoned = false
      ∧ (∀ r ∈ (run options actions).held, r.bytes ≤ (run options actions).reserved
        ∧ (r.bytes = options.maxMessageBytes ∨ r.bytes = min options.maxMessageBytes 16384))
      ∧ (∀ kind input e, ((run options actions).reserve options kind input).2 = .error e →
        ((run options actions).reserve options kind input).1 = run options actions)
      ∧ (∀ r ∈ (run options actions).held, r.holder = .creating →
        ((run options actions).next options (.fail r.serial)).reserved + r.bytes
          = (run options actions).reserved)
      ∧ (∀ r ∈ (run options actions).held, ∀ action,
        (action = .fail r.serial → r.holder ≠ .creating) →
        (action = .clean r.serial → ∀ disk, r.holder ≠ .cleaning disk) →
        ∃ r' ∈ ((run options actions).next options action).held,
          r'.serial = r.serial ∧ r'.bytes = r.bytes)
      ∧ ((run options actions).reserved = 0 ↔ (run options actions).held = [])
      ∧ ∀ active, (run options actions).requireIdle active = .ok () ↔
        active = false ∧ (run options actions).held = [] := by
  have h := run_balanced options actions
  refine ⟨h.counted, h.within, h.sound, ?_, fun _ _ _ => reserve_refused,
    fun _ => h.fail_gives_back, fun _ hr _ => h.keeps hr, h.zero_iff, h.idle_iff⟩
  intro r hr
  refine ⟨h.covers hr, ?_⟩
  obtain ⟨kind, hbytes⟩ := h.sized r hr
  rw [hbytes]
  exact options.forKind_bytes kind

namespace Sample

def budget : StoreOptions where
  maxMessageBytes := 1000
  streamBufferBytes := 1024
  diskReserveBytes := 0
  diskReservePercent := 0
  temporaryReservedBytes := 1500
  positive := by decide
  limited := by decide
  buffered := by decide
  percent := by decide
  room := by decide

def space : StageInput := ⟨10000, 10000, Rustymail.Sample.token, fun _ => false, false⟩

/-- A stage whose waiter goes while its write is queued. -/
def cancelled : List ReservationAction :=
  [.reserve .ordinary space, .owner 0 .opened, .owner 0 .append, .owner 0 .cancel, .clean 0]

end Sample

example : (run Sample.budget Sample.cancelled).reserved = 1000
    ∧ ((run Sample.budget Sample.cancelled).reserve Sample.budget .report Sample.space).2
      = .error .diskReserve
    ∧ (run Sample.budget (Sample.cancelled ++ [.owner 0 (.wrote true), .clean 0])).reserved = 0 := by
  decide +kernel

end Reservations

end Rustymail
