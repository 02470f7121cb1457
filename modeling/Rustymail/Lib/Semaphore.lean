import Mathlib.Data.List.Perm.Basic
import Mathlib.Data.List.Nodup
import Mathlib.Tactic.Common

/-!
# Counting semaphores

A semaphore knows how many permits are left, who holds one, and who waits for one, in order. A permit
that is given back goes to the first who waits, so that nobody waits while one is left.
-/

structure Semaphore (ι : Type) where
  permits : Nat
  holders : List ι := []
  waiters : List ι := []

namespace Semaphore

variable {ι : Type}

/-- All who hold a permit or wait for one. -/
def parties (s : Semaphore ι) : List ι := s.holders ++ s.waiters

/-- Take a permit if one is left. -/
def tryAcquire (s : Semaphore ι) (i : ι) : Option (Semaphore ι) :=
  if s.permits = 0 then none
  else some { s with permits := s.permits - 1, holders := s.holders ++ [i] }

/-- Take a permit or wait for one. -/
def acquire (s : Semaphore ι) (i : ι) : Semaphore ι :=
  (s.tryAcquire i).getD { s with waiters := s.waiters ++ [i] }

/-- Give a permit back. -/
def release [DecidableEq ι] (s : Semaphore ι) (i : ι) : Semaphore ι :=
  match s.waiters with
  | [] => { s with permits := s.permits + 1, holders := s.holders.erase i }
  | next :: rest => { s with holders := s.holders.erase i ++ [next], waiters := rest }

/-- Give up a permit or the place among those who wait. -/
def leave [DecidableEq ι] (s : Semaphore ι) (i : ι) : Semaphore ι :=
  if i ∈ s.holders then s.release i else { s with waiters := s.waiters.erase i }

structure Sound (capacity : Nat) (s : Semaphore ι) : Prop where
  total : s.permits + s.holders.length = capacity
  distinct : s.parties.Nodup
  busy : s.waiters ≠ [] → s.permits = 0

variable {capacity : Nat} {s s' : Semaphore ι} {i j : ι}

theorem sound_create (capacity : Nat) : (⟨capacity, [], []⟩ : Semaphore ι).Sound capacity :=
  ⟨rfl, List.nodup_nil, fun h => absurd rfl h⟩

theorem tryAcquire_eq_none : s.tryAcquire i = none ↔ s.permits = 0 := by
  unfold tryAcquire
  split_ifs with h <;> simp [h]

theorem tryAcquire_eq_some (h : s.tryAcquire i = some s') : s.permits ≠ 0
    ∧ s' = { s with permits := s.permits - 1, holders := s.holders ++ [i] } := by
  unfold tryAcquire at h
  split_ifs at h with hnone
  exact ⟨hnone, (Option.some.inj h).symm⟩

namespace Sound

theorem holders_le (h : s.Sound capacity) : s.holders.length ≤ capacity := by
  have htotal := h.total
  omega

/-- **A permit is refused exactly when all are held.** -/
theorem refused_iff (h : s.Sound capacity) :
    s.tryAcquire i = none ↔ s.holders.length = capacity := by
  have htotal := h.total
  rw [tryAcquire_eq_none]
  omega

/-- While somebody waits, all permits are held. -/
theorem full (h : s.Sound capacity) (hwaits : s.waiters ≠ []) : s.holders.length = capacity := by
  have htotal := h.total
  have hbusy := h.busy hwaits
  omega

theorem idle (h : s.Sound capacity) (hnobody : s.parties = []) : s = ⟨capacity, [], []⟩ := by
  obtain ⟨permits, holders, waiters⟩ := s
  obtain ⟨rfl, rfl⟩ := List.append_eq_nil_iff.1 hnobody
  have htotal := h.total
  simpa using htotal

theorem tryAcquire (h : s.Sound capacity) (hnew : i ∉ s.parties) (hs : s.tryAcquire i = some s') :
    s'.Sound capacity ∧ s'.parties.Perm (i :: s.parties) := by
  obtain ⟨hleft, rfl⟩ := tryAcquire_eq_some hs
  have hnobody : s.waiters = [] := by
    by_contra hwaits
    exact hleft (h.busy hwaits)
  have hperm : (s.holders ++ [i] ++ s.waiters).Perm (i :: s.parties) := by
    unfold parties
    rw [hnobody, List.append_nil, List.append_nil]
    exact List.perm_append_singleton i s.holders
  refine ⟨⟨?_, hperm.nodup_iff.2 (List.nodup_cons.2 ⟨hnew, h.distinct⟩), ?_⟩, hperm⟩
  · have htotal := h.total
    change s.permits - 1 + (s.holders ++ [i]).length = capacity
    rw [List.length_append, List.length_singleton]
    omega
  · intro hwaits
    exact absurd hnobody hwaits

theorem acquire (h : s.Sound capacity) (hnew : i ∉ s.parties) :
    (s.acquire i).Sound capacity ∧ (s.acquire i).parties.Perm (i :: s.parties) := by
  unfold Semaphore.acquire
  cases hs : s.tryAcquire i with
  | some s' => exact h.tryAcquire hnew hs
  | none =>
      have hperm : (s.holders ++ (s.waiters ++ [i])).Perm (i :: s.parties) := by
        rw [← List.append_assoc]
        exact List.perm_append_singleton i s.parties
      refine ⟨⟨h.total, hperm.nodup_iff.2 (List.nodup_cons.2 ⟨hnew, h.distinct⟩), ?_⟩, hperm⟩
      intro _
      exact (tryAcquire_eq_none (s := s) (i := i)).1 hs

/-- Whoever leaves is gone, and nobody else. -/
theorem leave [DecidableEq ι] (h : s.Sound capacity) (i : ι) :
    (s.leave i).Sound capacity ∧ (s.leave i).parties.Perm (s.parties.erase i) := by
  have htotal := h.total
  have hdistinct := h.distinct
  unfold Semaphore.leave Semaphore.release
  split_ifs with hholds
  · have hlength := List.length_erase_of_mem hholds
    have hpos := List.length_pos_of_mem hholds
    have herase : s.parties.erase i = s.holders.erase i ++ s.waiters :=
      List.erase_append_left s.waiters hholds
    cases hwaiters : s.waiters with
    | nil =>
        have hperm : (s.holders.erase i ++ ([] : List ι)).Perm (s.parties.erase i) := by
          rw [herase, hwaiters]
        refine ⟨⟨?_, hperm.nodup_iff.2 (hdistinct.erase i), fun hwaits => absurd rfl hwaits⟩, ?_⟩
        · change s.permits + 1 + (s.holders.erase i).length = capacity
          omega
        · dsimp only [parties]
          exact hperm
    | cons next rest =>
        have hperm : (s.holders.erase i ++ [next] ++ rest).Perm (s.parties.erase i) := by
          rw [herase, hwaiters, List.append_assoc]
          exact List.Perm.refl _
        refine ⟨⟨?_, hperm.nodup_iff.2 (hdistinct.erase i), fun _ => ?_⟩, hperm⟩
        · change s.permits + (s.holders.erase i ++ [next]).length = capacity
          rw [List.length_append, List.length_singleton]
          omega
        · exact h.busy (hwaiters ▸ List.cons_ne_nil next rest)
  · have herase : s.parties.erase i = s.holders ++ s.waiters.erase i :=
      List.erase_append_right s.waiters hholds
    refine ⟨⟨htotal, ?_, ?_⟩, ?_⟩
    · change (s.holders ++ s.waiters.erase i).Nodup
      rw [← herase]
      exact hdistinct.erase i
    · intro hwaits
      exact h.busy fun hnone => hwaits (by rw [hnone]; rfl)
    · rw [herase]
      exact List.Perm.refl _

end Sound

theorem mem_holders_acquire (hj : j ∈ s.holders) : j ∈ (s.acquire i).holders := by
  unfold acquire
  cases hs : s.tryAcquire i with
  | none => exact hj
  | some s' =>
      obtain ⟨-, rfl⟩ := tryAcquire_eq_some hs
      exact List.mem_append_left _ hj

variable [DecidableEq ι]

/-- Permits are handed on in the order of waiting. -/
theorem leave_waiters (i : ι) : (s.leave i).waiters <:+ s.waiters
    ∨ (s.leave i).waiters = s.waiters.erase i := by
  unfold leave release
  split_ifs with hholds
  · cases hwaiters : s.waiters with
    | nil => exact Or.inl List.suffix_rfl
    | cons next rest => exact Or.inl (List.suffix_cons next rest)
  · exact Or.inr rfl

/-- Whoever holds a permit keeps it until it leaves. -/
theorem mem_holders_leave (hne : j ≠ i) (hj : j ∈ s.holders) : j ∈ (s.leave i).holders := by
  unfold leave release
  split_ifs
  · have hkept : j ∈ s.holders.erase i := (List.mem_erase_of_ne hne).2 hj
    cases hwaiters : s.waiters with
    | nil => exact hkept
    | cons next rest => exact List.mem_append_left _ hkept
  · exact hj

/-- Nobody who waits has overtaken another, nor been overtaken by one who holds a permit. -/
structure Ordered (r : ι → ι → Prop) (s : Semaphore ι) : Prop where
  queue : s.waiters.Pairwise r
  served : ∀ j ∈ s.holders, ∀ k ∈ s.waiters, r j k

namespace Ordered

variable {r : ι → ι → Prop}

omit [DecidableEq ι] in
theorem acquire (h : s.Ordered r) (hlast : ∀ j ∈ s.parties, r j i) (hbusy : s.waiters ≠ [] → s.permits = 0) :
    (s.acquire i).Ordered r := by
  unfold Semaphore.acquire
  cases hs : s.tryAcquire i with
  | none =>
      refine ⟨List.pairwise_append.2 ⟨h.queue, List.pairwise_singleton r i, ?_⟩, ?_⟩
      · intro j hj k hk
        rw [List.mem_singleton.1 hk]
        exact hlast j (List.mem_append_right _ hj)
      · intro j hj k hk
        rcases List.mem_append.1 hk with hold | hself
        · exact h.served j hj k hold
        · rw [List.mem_singleton.1 hself]
          exact hlast j (List.mem_append_left _ hj)
  | some s' =>
      obtain ⟨hleft, rfl⟩ := tryAcquire_eq_some hs
      have hnobody : s.waiters = [] := by
        by_contra hwaits
        exact hleft (hbusy hwaits)
      refine ⟨h.queue, fun j _ k hk => ?_⟩
      change k ∈ s.waiters at hk
      rw [hnobody] at hk
      exact absurd hk List.not_mem_nil

theorem leave (h : s.Ordered r) (i : ι) : (s.leave i).Ordered r := by
  unfold Semaphore.leave release
  split_ifs with hholds
  · cases hwaiters : s.waiters with
    | nil => exact ⟨List.Pairwise.nil, fun j _ k hk => absurd hk List.not_mem_nil⟩
    | cons next rest =>
        have hqueue := h.queue
        rw [hwaiters, List.pairwise_cons] at hqueue
        refine ⟨hqueue.2, fun j hj k hk => ?_⟩
        rcases List.mem_append.1 hj with hold | hnext
        · exact h.served j (List.mem_of_mem_erase hold) k (hwaiters ▸ List.mem_cons_of_mem next hk)
        · rw [List.mem_singleton.1 hnext]
          exact hqueue.1 k hk
  · exact ⟨h.queue.sublist List.erase_sublist,
      fun j hj k hk => h.served j hj k (List.mem_of_mem_erase hk)⟩

end Ordered

/-- A sound semaphore that is only tried, so that nobody ever waits for it. -/
structure Tried (capacity : Nat) (s : Semaphore ι) : Prop extends s.Sound capacity where
  unwaited : s.waiters = []

namespace Tried

omit [DecidableEq ι] in
theorem parties_eq (h : s.Tried capacity) : s.parties = s.holders := by
  unfold parties
  rw [h.unwaited, List.append_nil]

omit [DecidableEq ι] in
theorem create (capacity : Nat) : (⟨capacity, [], []⟩ : Semaphore ι).Tried capacity :=
  ⟨sound_create capacity, rfl⟩

omit [DecidableEq ι] in
theorem tryAcquire (h : s.Tried capacity) (hnew : i ∉ s.holders) (hs : s.tryAcquire i = some s') :
    s'.Tried capacity ∧ s'.holders = s.holders ++ [i] := by
  have hsound := h.toSound.tryAcquire (h.parties_eq ▸ hnew) hs
  obtain ⟨-, rfl⟩ := tryAcquire_eq_some hs
  exact ⟨⟨hsound.1, h.unwaited⟩, rfl⟩

theorem leave (h : s.Tried capacity) (i : ι) :
    (s.leave i).Tried capacity ∧ (s.leave i).holders = s.holders.erase i := by
  refine ⟨⟨(h.toSound.leave i).1, ?_⟩, ?_⟩
  · rcases leave_waiters (s := s) i with hsuffix | herase
    · rw [h.unwaited] at hsuffix
      exact List.eq_nil_of_suffix_nil hsuffix
    · rw [herase, h.unwaited]
      rfl
  · unfold Semaphore.leave release
    split_ifs with hholds
    · rw [h.unwaited]
    · exact (List.erase_of_not_mem hholds).symm

end Tried

end Semaphore
