import Rustymail.Proof.Volatile

/-!
# The clock guard

What the guard of the queue runtime remembers, and how the world moves it: an operation shows the
guard the readings it makes, and only a new opening of the directory makes it forget.
-/

namespace Rustymail

open Checked

section Guard

variable {queue queue' : QueueRuntime} {reading : Reading} {readings : List Reading} {wall : Int}

/-- What the guard compares a reading with. -/
def QueueRuntime.memory (queue : QueueRuntime) : Option (Int × Nat) × Option Int × Bool :=
  (queue.clock, queue.lastWall, queue.clockChanged)

/-- The runtime after a list of readings. -/
def QueueRuntime.watch (queue : QueueRuntime) (readings : List Reading) : QueueRuntime :=
  readings.foldl (fun queue reading => (queue.now reading).1) queue

/-- Would the guard turn this wall time down? -/
def QueueRuntime.distrusts (queue : QueueRuntime) (wall : Int) (mono : Nat) : Bool :=
  queue.clockChanged || queue.discontinuous wall mono

theorem nowMs_eq_ok :
    reading.nowMs = .ok wall ↔ reading.wall = some wall ∧ 0 ≤ wall ∧ wall ≤ i64Max := by
  unfold Reading.nowMs
  cases hwall : reading.wall with
  | none => simp
  | some time =>
      dsimp only
      split_ifs with hrange
      · constructor
        · rintro h
          cases h
          exact ⟨rfl, hrange⟩
        · rintro ⟨h, -⟩
          cases h
          rfl
      · constructor
        · rintro h
          cases h
        · rintro ⟨h, hin⟩
          cases h
          exact absurd hin hrange

theorem nowMs_error {e : StoreError} (h : reading.nowMs = .error e) : e = .invalidInput := by
  unfold Reading.nowMs at h
  split at h
  · cases h
    rfl
  · split_ifs at h
    cases h
    rfl

theorem now_unreadable {e : StoreError} (h : reading.nowMs = .error e) :
    queue.now reading = (queue, .error e) := by
  unfold QueueRuntime.now
  rw [h]

theorem now_distrusted (h : reading.nowMs = .ok wall)
    (hdistrusts : queue.distrusts wall reading.mono = true) :
    queue.now reading =
      ({ queue with
        clock := queue.clock.or (some (wall, reading.mono))
        clockChanged := true }, .error .clockChanged) := by
  unfold QueueRuntime.now
  unfold QueueRuntime.distrusts at hdistrusts
  rw [h]
  dsimp only
  rw [if_pos hdistrusts, hdistrusts]

theorem now_trusted (h : reading.nowMs = .ok wall)
    (htrusts : queue.distrusts wall reading.mono = false) :
    queue.now reading =
      ({ queue with
        clock := queue.clock.or (some (wall, reading.mono))
        lastWall := some wall }, .ok wall) := by
  unfold QueueRuntime.now
  unfold QueueRuntime.distrusts at htrusts
  rw [h]
  dsimp only
  rw [if_neg (by rw [htrusts]; decide), htrusts, (Bool.or_eq_false_iff.1 htrusts).1]

/-- The guard's three answers. -/
theorem now_cases (queue : QueueRuntime) (reading : Reading) :
    (∃ e, reading.nowMs = .error e)
      ∨ ∃ wall, reading.nowMs = .ok wall
        ∧ (queue.distrusts wall reading.mono = true ∨ queue.distrusts wall reading.mono = false) := by
  cases h : reading.nowMs with
  | error e => exact Or.inl ⟨e, rfl⟩
  | ok wall => exact Or.inr ⟨wall, rfl, (Bool.eq_false_or_eq_true _)⟩

theorem now_eq_ok (h : (queue.now reading).2 = .ok wall) :
    reading.nowMs = .ok wall ∧ queue.distrusts wall reading.mono = false := by
  rcases now_cases queue reading with ⟨e, he⟩ | ⟨time, htime, hdistrusts | htrusts⟩
  · rw [now_unreadable he] at h
    cases h
  · rw [now_distrusted htime hdistrusts] at h
    cases h
  · rw [now_trusted htime htrusts] at h
    cases h
    exact ⟨htime, htrusts⟩

/-- A latched guard trusts nothing any more. -/
theorem now_latched (hlatched : queue.clockChanged = true) (wall : Int) :
    (queue.now reading).2 ≠ .ok wall := by
  intro h
  have htrusts := (now_eq_ok h).2
  unfold QueueRuntime.distrusts at htrusts
  rw [hlatched] at htrusts
  cases htrusts

theorem now_changed_latches (h : (queue.now reading).2 = .error .clockChanged) :
    (queue.now reading).1.clockChanged = true := by
  rcases now_cases queue reading with ⟨e, he⟩ | ⟨time, htime, hdistrusts | htrusts⟩
  · rw [now_unreadable he] at h
    have hinvalid := nowMs_error he
    cases h
    cases hinvalid
  · rw [now_distrusted htime hdistrusts]
  · rw [now_trusted htime htrusts] at h
    cases h

theorem now_keeps_latch (hlatched : queue.clockChanged = true) :
    (queue.now reading).1.clockChanged = true := by
  rcases now_cases queue reading with ⟨e, he⟩ | ⟨time, htime, hdistrusts | htrusts⟩
  · rw [now_unreadable he]
    exact hlatched
  · rw [now_distrusted htime hdistrusts]
  · rw [now_trusted htime htrusts]
    exact hlatched

theorem now_congr (h : queue.memory = queue'.memory) (reading : Reading) :
    (queue.now reading).1.memory = (queue'.now reading).1.memory
      ∧ (queue.now reading).2 = (queue'.now reading).2 := by
  obtain ⟨hclock, hwall, hchanged⟩ :
      queue.clock = queue'.clock ∧ queue.lastWall = queue'.lastWall
        ∧ queue.clockChanged = queue'.clockChanged := by
    simpa only [QueueRuntime.memory, Prod.mk.injEq] using h
  have hsame : ∀ wall mono, queue.distrusts wall mono = queue'.distrusts wall mono := by
    intro wall mono
    unfold QueueRuntime.distrusts QueueRuntime.discontinuous
    rw [hclock, hwall, hchanged]
  rcases now_cases queue reading with ⟨e, he⟩ | ⟨time, htime, hdistrusts | htrusts⟩
  · rw [now_unreadable he, now_unreadable he]
    exact ⟨h, rfl⟩
  · rw [now_distrusted htime hdistrusts, now_distrusted htime (hsame _ _ ▸ hdistrusts)]
    refine ⟨?_, rfl⟩
    unfold QueueRuntime.memory
    dsimp only
    rw [hclock, hwall]
  · rw [now_trusted htime htrusts, now_trusted htime (hsame _ _ ▸ htrusts)]
    refine ⟨?_, rfl⟩
    unfold QueueRuntime.memory
    dsimp only
    rw [hclock, hchanged]

theorem watch_congr (h : queue.memory = queue'.memory) (readings : List Reading) :
    (queue.watch readings).memory = (queue'.watch readings).memory := by
  induction readings generalizing queue queue' with
  | nil => exact h
  | cons reading rest ih => exact ih (now_congr h reading).1

/-- The guard of `queue'` has seen what that of `queue` had, and some readings more. -/
def QueueRuntime.Watches (queue queue' : QueueRuntime) : Prop :=
  ∃ readings, queue'.memory = (queue.watch readings).memory

theorem QueueRuntime.Watches.of_eq (h : queue'.memory = queue.memory) : queue.Watches queue' :=
  ⟨[], h⟩

theorem QueueRuntime.Watches.now (queue : QueueRuntime) (reading : Reading) :
    queue.Watches (queue.now reading).1 :=
  ⟨[reading], rfl⟩

theorem QueueRuntime.Watches.trans {last : QueueRuntime} (hfirst : queue.Watches queue')
    (hsecond : queue'.Watches last) : queue.Watches last := by
  obtain ⟨first, hfirst⟩ := hfirst
  obtain ⟨second, hsecond⟩ := hsecond
  refine ⟨first ++ second, ?_⟩
  rw [hsecond, watch_congr hfirst second]
  unfold QueueRuntime.watch
  rw [List.foldl_append]

/-- What every reading keeps is kept by any number of them. -/
theorem QueueRuntime.Watches.keeps {inv : Option (Int × Nat) × Option Int × Bool → Prop}
    (hnow : ∀ (queue : QueueRuntime) reading, inv queue.memory → inv (queue.now reading).1.memory)
    (h : queue.Watches queue') (hqueue : inv queue.memory) : inv queue'.memory := by
  obtain ⟨readings, h⟩ := h
  rw [h]
  clear h
  induction readings generalizing queue with
  | nil => exact hqueue
  | cons reading rest ih => exact ih (hnow queue reading hqueue)

/-- A guard has a last trusted time exactly when it has been started, and only then can it latch. -/
structure Started (memory : Option (Int × Nat) × Option Int × Bool) : Prop where
  latched : memory.2.2 = true → memory.1.isSome = true
  trusted : memory.1.isSome = true ↔ memory.2.1.isSome = true

/-- Only a started guard finds fault with a reading. -/
theorem Started.clock (h : Started queue.memory) {mono : Nat}
    (hdistrusts : queue.distrusts wall mono = true) : queue.clock.isSome = true := by
  rcases Bool.or_eq_true _ _ ▸ hdistrusts with hchanged | hdiscontinuous
  · exact h.latched hchanged
  · unfold QueueRuntime.discontinuous at hdiscontinuous
    cases hclock : queue.clock with
    | none =>
        rw [hclock] at hdiscontinuous
        cases hdiscontinuous
    | some first => rfl

theorem now_started (queue : QueueRuntime) (reading : Reading) (h : Started queue.memory) :
    Started (queue.now reading).1.memory := by
  rcases now_cases queue reading with ⟨e, he⟩ | ⟨time, htime, hdistrusts | htrusts⟩
  · rw [now_unreadable he]
    exact h
  · rw [now_distrusted htime hdistrusts]
    have hclock := h.clock hdistrusts
    have hkept : (queue.clock.or (some (time, reading.mono))).isSome = true := by
      rw [Option.isSome_or, hclock]
      rfl
    exact ⟨fun _ => hkept, iff_of_true hkept (h.trusted.1 hclock)⟩
  · rw [now_trusted htime htrusts]
    have hkept : (queue.clock.or (some (time, reading.mono))).isSome = true := by
      rw [Option.isSome_or]
      simp
    exact ⟨fun _ => hkept, iff_of_true hkept rfl⟩

/-- The wall time the guard trusts once it has seen this one. -/
def QueueRuntime.lastTrusted (queue : QueueRuntime) (wall : Int) (mono : Nat) : Option Int :=
  if queue.distrusts wall mono then queue.lastWall else some wall

/-- A started guard has a last trusted time, whatever it is shown. -/
theorem lastTrusted_some (h : Started queue.memory) (wall : Int) (mono : Nat) :
    ∃ trusted, queue.lastTrusted wall mono = some trusted := by
  unfold QueueRuntime.lastTrusted
  by_cases hdistrusts : queue.distrusts wall mono = true
  · rw [if_pos hdistrusts]
    exact Option.isSome_iff_exists.1 (h.trusted.1 (h.clock hdistrusts))
  · rw [if_neg hdistrusts]
    exact ⟨wall, rfl⟩

/-- The report falls due at the last trusted time. -/
theorem notificationDue_lastTrusted {trusted : Int} {guardReading : Reading}
    (hwall : guardReading.nowMs = .ok wall) (now : Int)
    (htrusted : queue.lastTrusted wall guardReading.mono = some trusted) :
    notificationDue (queue.now guardReading).1 now (queue.now guardReading).2 = .ok trusted := by
  unfold QueueRuntime.lastTrusted at htrusted
  cases hdistrusts : queue.distrusts wall guardReading.mono with
  | true =>
      rw [hdistrusts, if_pos rfl] at htrusted
      rw [now_distrusted hwall hdistrusts]
      change Except.ok (queue.lastWall.getD now) = Except.ok trusted
      rw [htrusted]
      rfl
  | false =>
      rw [hdistrusts, if_neg (by decide)] at htrusted
      rw [now_trusted hwall hdistrusts]
      exact congrArg Except.ok (Option.some.inj htrusted)

end Guard

end Rustymail
