import Rustymail.Proof.Ownership
import Rustymail.Proof.TrustedTimes

/-!
# When attempts fall due

Attempts are counted from readings of the clock, and the clock does not show times before the epoch.
So no delivery of a reachable store falls due before it.
-/

namespace Rustymail

open Checked Lifecycle

/-- The next attempt, if there is a delivery, is not due before the epoch. -/
def View.Timely (v : View) : Prop := ∀ row, v.row = some row → 0 ≤ row.nextAttemptAtMs

/-- No lease handed out asks for a retry before its result. -/
def World.Patient (w : World) : Prop := ∀ l ∈ w.issued, 0 ≤ l.retryMs

section Steps

variable {w : World} {e : LifeEvent} {v v' : View}

theorem View.Timely.of_row {row row' : Delivery} (h : v.Timely) (hold : v.row = some row)
    (hrow' : v'.row = some row') (hsame : row'.nextAttemptAtMs = row.nextAttemptAtMs) :
    v'.Timely := by
  intro found hfound
  obtain rfl := Option.some.inj (hrow'.symm.trans hfound)
  rw [hsame]
  exact h row hold

theorem Lifecycle.Step.timely (hpatient : ∀ l ∈ w.leases, 0 ≤ l.retryMs) (hstep : Step e v v')
    (hschedules : w.Schedules e) (h : v.Timely) : v'.Timely := by
  cases hstep with
  | created =>
      rintro found ⟨⟩
      exact hschedules
  | finished =>
      rintro found ⟨⟩
      exact hschedules hpatient
  | recovered =>
      rintro found ⟨⟩
      exact hschedules
  | retried =>
      rintro found ⟨⟩
      exact hschedules
  | bodyMarked => exact h
  | leased hold | renewed hold | exhausted hold | expired hold | held hold | closed hold
  | reported hold => exact h.of_row hold rfl rfl
  | suppressed hold hroute hfailed hpending =>
      refine h.of_row hold rfl ?_
      unfold Delivery.suppress
      rw [if_pos hpending]
  | postponed hold =>
      refine h.of_row hold rfl ?_
      unfold Delivery.postponeReport
      split_ifs <;> rfl

end Steps

namespace World

variable {w : World}

theorem Patient.next (h : w.Patient) (hkeys : w.store.db.Keys) (op : Op) : (w.next op).Patient := by
  intro l hl
  cases w.next_volatile hkeys op with
  | loosens hleases hreaders hissued =>
      rw [hissued] at hl
      exact h l hl
  | @reads held reader hheld hguard hnext =>
      rw [hnext] at hl
      exact h l hl
  | @claims policy limit keepLease keepReader input leases hop hclaim =>
      rw [hclaim.issued_eq, List.mem_append] at hl
      rcases hl with hold | hnew
      · exact h l hold
      · rcases hclaim.handsOut with rfl | ⟨ctx, swept, -, hout, -⟩
        · cases hnew
        · exact hout.patient l hnew
  | reopens hleases hreaders hleases' hreaders' hissued =>
      rw [hissued] at hl
      exact h l hl

theorem Reachable.patient (hreach : w.Reachable) : w.Patient := by
  refine hreach.induct World.Patient ?_ fun w op hreach hpatient => hpatient.next hreach.keys op
  intro root maxMessageBytes l hl
  cases hl

/-- **No attempt is due before the epoch.** -/
theorem Reachable.timely (hreach : w.Reachable) (id : Text) : (w.store.db.view id).Timely := by
  refine hreach.induct (fun w => (w.store.db.view id).Timely) ?_ ?_
  · intro root maxMessageBytes row hrow
    cases hrow
  · intro w op hreach htimely
    have hpatient : ∀ l ∈ w.leases, 0 ≤ l.retryMs :=
      fun l hl => hreach.patient l (hreach.owned.leases l hl).1
    refine Evolves.keeps View.Timely (next_stepsOnTrust hreach.keys op id) ?_ htimely
    exact fun e v v' hallowed hstep => hstep.timely hpatient hallowed.2

end World

end Rustymail
