import Rustymail.Proof.Ownership
import Rustymail.Proof.UnknownOutcome

/-!
# A held lease keeps its delivery

While somebody holds a lease, its delivery stays leased under that lease's token and generation:
recovery passes it over, and only the holder can finish it. So a body that was marked stays marked.
-/

namespace Rustymail

open Lifecycle World

namespace Lifecycle

variable {e : LifeEvent} {v v' : View} {row : Delivery}

/-- A leased delivery stays under its lease until it is finished or recovered. -/
theorem Step.leased_or_ended (hstep : Step e v v') (hrow : v.row = some row)
    (hstate : row.state = .leased) :
    (∃ row', v'.row = some row' ∧ row'.route = row.route ∧ row'.state = .leased
        ∧ row'.leaseToken = row.leaseToken ∧ row'.generation = row.generation
        ∧ row'.possiblyDelivered = row.possiblyDelivered
        ∧ (v.phase = some .body → v'.phase = some .body))
      ∨ (∃ outcome next due, e = .finished outcome next due) ∨ ∃ next, e = .recovered next := by
  cases hstep with
  | created hfresh hnew => simp [hrow] at hnew
  | leased hold hroute hready hnone => simp_all [Delivery.Ready]
  | exhausted hold hroute hready => simp_all [Delivery.Ready]
  | renewed hold hroute hleased =>
      rw [hrow] at hold
      cases hold
      exact Or.inl ⟨_, rfl, rfl, hstate, rfl, rfl, rfl, id⟩
  | bodyMarked hold hroute hleased hphase =>
      exact Or.inl ⟨row, hrow, rfl, hstate, rfl, rfl, rfl, fun _ => rfl⟩
  | finished hold hroute hleased hphase hresult => exact Or.inr (Or.inl ⟨_, _, _, rfl⟩)
  | recovered hold hroute hleased hphase => exact Or.inr (Or.inr ⟨_, rfl⟩)
  | expired hold hroute hready => simp_all [Delivery.Ready]
  | held hold hroute hopen hidle => simp_all
  | retried hold hroute hretry haction hconsent hnew => simp_all [Delivery.Retryable]
  | closed hold hroute hidle hunknown hopen => simp_all
  | suppressed hold hroute hfailed hpending => simp_all
  | @postponed reason due _ _ hold =>
      rw [hrow] at hold
      cases hold
      have hsame : row.postponeReport reason due = row := by
        unfold Delivery.postponeReport
        rw [if_neg (by simp [hstate])]
      exact Or.inl ⟨row, congrArg some hsame, rfl, hstate, rfl, rfl, rfl, id⟩
  | reported hold hroute hfailed hcertain hpending hnone => simp_all

end Lifecycle

/-- The delivery is leased under this lease; if its body had begun, it still has. -/
structure StillUnder (db db' : Db) (l : QueueLease) : Prop where
  leased : db'.LeasedUnder l
  body : (db.queueLease? l.id).map QueueLeaseRow.phase = some .body →
    (db'.queueLease? l.id).map QueueLeaseRow.phase = some .body
  unknown : (db'.delivery? l.id).map Delivery.possiblyDelivered
    = (db.delivery? l.id).map Delivery.possiblyDelivered

variable {w w' : World} {op : Op} {l : QueueLease}

/-- The store's table of guards protects the delivery of a held lease from recovery. -/
theorem World.Owned.listed (hw : w.Owned) (hl : l ∈ w.leases) :
    ((w.store.queue.retain w.live).active.any fun entry => entry.1 = l.id) = true := by
  rw [List.any_eq_true]
  refine ⟨(l.id, l.guard), ?_, by simp⟩
  unfold QueueRuntime.retain
  exact List.mem_filter.2 ⟨(hw.leases l hl).2, live_lease hl⟩

/-- What others do leaves the delivery of a held lease under it. -/
theorem World.next_still (hkeys : w.store.db.Keys) (hw : w.Owned) (hl : l ∈ w.leases)
    (hleased : w.store.db.LeasedUnder l) (hother : ∀ outcome, ¬ w.FinishesWith op l.id outcome) :
    StillUnder w.store.db (w.next op).store.db l := by
  obtain ⟨row, hrow, hroute, hstate, htoken, hgeneration⟩ := hleased
  have hend : ∃ row', ((w.next op).store.db.view l.id).row = some row' ∧ row'.route = .relay
      ∧ row'.state = .leased ∧ row'.leaseToken = some l.token ∧ row'.generation = l.generation
      ∧ row'.possiblyDelivered = row.possiblyDelivered
      ∧ ((w.store.db.view l.id).phase = some .body →
        ((w.next op).store.db.view l.id).phase = some .body) := by
    refine (next_evolves hkeys op l.id).keeps (fun v => ∃ row', v.row = some row'
      ∧ row'.route = .relay ∧ row'.state = .leased ∧ row'.leaseToken = some l.token
      ∧ row'.generation = l.generation ∧ row'.possiblyDelivered = row.possiblyDelivered
      ∧ ((w.store.db.view l.id).phase = some .body → v.phase = some .body)) ?_
      ⟨row, hrow, hroute, hstate, htoken, hgeneration, rfl, id⟩
    rintro e v v' hperforms hstep ⟨row, hrow, hroute, hstate, htoken, hgeneration, hflag, hphase⟩
    rcases hstep.leased_or_ended hrow hstate with
      ⟨row', hrow', hroute', hstate', htoken', hgeneration', hflag', hphase'⟩ |
        ⟨outcome, next, due, rfl⟩ | ⟨next, rfl⟩
    · exact ⟨row', hrow', hroute'.trans hroute, hstate', htoken'.trans htoken,
        hgeneration'.trans hgeneration, hflag'.trans hflag, fun hbody => hphase' (hphase hbody)⟩
    · exact absurd hperforms (hother outcome)
    · have hfree := hperforms.2
      rw [hw.listed hl] at hfree
      cases hfree
  obtain ⟨row', hrow', hroute', hstate', htoken', hgeneration', hflag, hphase⟩ := hend
  refine ⟨⟨row', hrow', hroute', hstate', htoken', hgeneration'⟩, hphase, ?_⟩
  change ((w.next op).store.db.view l.id).row.map _ = _
  rw [hrow', hrow]
  exact congrArg some hflag

/-- Finishing uses the lease up. -/
theorem World.Owned.finishes_own (hw : w.Owned) (hl : l ∈ w.leases) {outcome : QueueResult}
    (h : w.FinishesWith op l.id outcome) : l ∉ (w.next op).leases := by
  obtain ⟨serial, reading, guardReading, faults, lease, rfl, hlease, hid⟩ := h
  have hmem := lease?_mem hlease
  have hguard : lease.guard = l.guard :=
    hw.exclusive (live_lease hmem) (live_lease hl) ⟨lease, (hw.leases lease hmem).1, rfl, hid⟩
      ⟨l, (hw.leases l hl).1, rfl, rfl⟩
  have hserial : l.guard.serial = serial := by
    have hfound := List.find?_some hlease
    rw [decide_eq_true_eq] at hfound
    rw [← hguard]
    exact hfound
  intro hstill
  change l ∈ (World.dropLease _ serial).leases at hstill
  unfold World.dropLease at hstill
  have hne := (List.mem_filter.1 hstill).2
  simp [hserial] at hne

theorem World.next_held (hreach : w.Reachable)
    (hw : ∀ l ∈ w.leases, w.store.db.LeasedUnder l ∧ l.guard.lock = w.store.lock)
    (op : Op) : ∀ l ∈ (w.next op).leases,
      (w.next op).store.db.LeasedUnder l ∧ l.guard.lock = (w.next op).store.lock := by
  intro l hl
  have hkept : l ∈ w.leases → (w.next op).store.db.LeasedUnder l := by
    intro hold
    refine (next_still hreach.keys hreach.owned hold (hw l hold).1 ?_).leased
    intro outcome hfinish
    exact hreach.owned.finishes_own hold hfinish hl
  cases w.next_volatile hreach.keys op with
  | loosens hleases hreaders hissued hlock hguard hactive =>
      have hold := hleases.subset hl
      exact ⟨hkept hold, (hw l hold).2.trans hlock.symm⟩
  | reads hlease hguard hnext =>
      have hold : l ∈ w.leases := by
        rw [hnext] at hl
        exact hl
      refine ⟨hkept hold, ?_⟩
      rw [hnext]
      exact (hw l hold).2
  | claims hop hclaim =>
      rw [hclaim.leases_eq, List.mem_append] at hl
      rcases hl with hold | hfresh
      · have hmem := List.mem_of_mem_filter hold
        exact ⟨hkept hmem, (hw l hmem).2.trans hclaim.lock_eq.symm⟩
      · rcases hclaim.handsOut with hnone | ⟨ctx, swept, -, hout, -, -, -, hlock, -⟩
        · rw [hnone] at hfresh
          cases hfresh
        · obtain ⟨row, -, -, hgranted⟩ := hout.granted l hfresh
          exact ⟨hout.leased l hfresh,
            hgranted.lock_eq.trans (hlock.trans hclaim.lock_eq.symm)⟩
  | reopens hleases hreaders hleases' =>
      rw [hleases'] at hl
      cases hl

/-- **A held lease is current.** -/
theorem World.Reachable.held (h : w.Reachable) :
    ∀ l ∈ w.leases, w.store.db.LeasedUnder l ∧ l.guard.lock = w.store.lock := by
  refine h.induct (fun w => ∀ l ∈ w.leases, w.store.db.LeasedUnder l
    ∧ l.guard.lock = w.store.lock) ?_ ?_
  · intro root maxMessageBytes l hl
    cases hl
  · intro w op hreach hw
    exact next_held hreach hw op

end Rustymail
