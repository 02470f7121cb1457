import Rustymail.Attempts
import Rustymail.Proof.Keys

/-!
# Unknown outcomes are kept

An attempt that ends after its body has begun, without a reply, sets `possibly_delivered`. Only a
recorded delivery clears it, and while it is set the delivery is not failed and not reported.
-/

namespace Rustymail

open Lifecycle

namespace Lifecycle

variable {e : LifeEvent} {v v' : View} {row : Delivery}

/-- Only a recorded delivery clears an unknown outcome. -/
theorem Step.flag (hstep : Step e v v') (hrow : v.row = some row)
    (hflag : row.possiblyDelivered = true) :
    (∃ row', v'.row = some row' ∧ row'.possiblyDelivered = true)
      ∨ ∃ code next due row', e = .finished (.delivered code) next due ∧ 200 ≤ code ∧ code < 300
        ∧ v'.row = some row' ∧ row'.state = .delivered := by
  cases hstep with
  | created hfresh hnew =>
      rw [hrow] at hnew
      cases hnew
  | leased hold hroute hready hphase =>
      rw [hrow] at hold
      cases hold
      exact Or.inl ⟨_, rfl, hflag⟩
  | exhausted hold hroute hready =>
      rw [hrow] at hold
      cases hold
      exact Or.inl ⟨_, rfl, hflag⟩
  | renewed hold hroute hstate =>
      rw [hrow] at hold
      cases hold
      exact Or.inl ⟨_, rfl, hflag⟩
  | bodyMarked hold hroute hstate hphase => exact Or.inl ⟨row, hrow, hflag⟩
  | @finished outcome result next due phase _ _ hold hroute hstate hphase hresult =>
      rw [hrow] at hold
      cases hold
      rcases classify_state hresult with ⟨hdelivered, -, code, rfl, hcode⟩ | hother
      · right
        refine ⟨code, next, due, _, rfl, hcode.1, hcode.2, rfl, ?_⟩
        change (settle row.possiblyDelivered result).1 = .delivered
        rw [settle_state, if_neg (by simp [hdelivered]), hdelivered]
      · left
        refine ⟨_, rfl, ?_⟩
        have hne : result.1 ≠ .delivered := by
          rcases hother with ⟨h, -⟩ | ⟨h, -⟩ | ⟨h, -⟩ | ⟨h, -⟩ <;> simp [h]
        have huncertain : (settle row.possiblyDelivered result).1 = .uncertain := by
          rw [settle_state, if_pos ⟨hflag, hne⟩]
        simp [Delivery.finish, huncertain]
  | recovered hold hroute hstate hphase =>
      rw [hrow] at hold
      cases hold
      exact Or.inl ⟨_, rfl, by simp [Delivery.recover, Delivery.unknownIn, hflag]⟩
  | expired hold hroute hready =>
      rw [hrow] at hold
      cases hold
      exact Or.inl ⟨_, rfl, hflag⟩
  | held hold hroute hopen hstate =>
      rw [hrow] at hold
      cases hold
      exact Or.inl ⟨_, rfl, by simp [Delivery.holdManually, hflag]⟩
  | retried hold hroute hretry haction hconsent hnew =>
      rw [hrow] at hold
      cases hold
      exact Or.inl ⟨_, rfl, hflag⟩
  | closed hold hroute hstate hunknown hopen =>
      rw [hrow] at hold
      cases hold
      exact Or.inl ⟨_, rfl, hflag⟩
  | suppressed hold hroute hstate hpending =>
      rw [hrow] at hold
      cases hold
      exact Or.inl ⟨_, rfl, by simpa [Delivery.suppress, hpending] using hflag⟩
  | @postponed reason due _ _ hold =>
      rw [hrow] at hold
      cases hold
      refine Or.inl ⟨_, rfl, ?_⟩
      unfold Delivery.postponeReport
      split_ifs <;> exact hflag
  | reported hold hroute hstate hcertain hpending hnone =>
      rw [hrow] at hold
      cases hold
      rw [hflag] at hcertain
      cases hcertain

/-- Nothing happens any more to a delivered row. -/
theorem Step.delivered (hstep : Step e v v') (hrow : v.row = some row)
    (hstate : row.state = .delivered) : v'.row = some row := by
  cases hstep with
  | created hfresh hnew => simp [hrow] at hnew
  | leased hold hroute hready hphase => simp_all [Delivery.Ready]
  | exhausted hold hroute hready => simp_all [Delivery.Ready]
  | renewed hold hroute hleased => simp_all
  | bodyMarked hold hroute hleased hphase => simp_all
  | finished hold hroute hleased hphase hresult => simp_all
  | recovered hold hroute hleased hphase => simp_all
  | expired hold hroute hready => simp_all [Delivery.Ready]
  | held hold hroute hopen hidle => simp_all
  | retried hold hroute hretry haction hconsent hnew => simp_all [Delivery.Retryable]
  | closed hold hroute hidle hunknown hopen => simp_all
  | suppressed hold hroute hfailed hpending => simp_all
  | postponed hold => simp_all [Delivery.postponeReport]
  | reported hold hroute hfailed hcertain hpending hnone => simp_all

/-- An attempt in the body goes on, or ends with a result or with its outcome unknown. -/
theorem Step.inBody (hstep : Step e v v') (hrow : v.row = some row) (hstate : row.state = .leased)
    (hphase : v.phase = some .body) :
    (∃ row', v'.row = some row' ∧ row'.state = .leased ∧ row'.generation = row.generation
        ∧ v'.phase = some .body)
      ∨ (∃ row', v'.row = some row' ∧ row'.state = .uncertain ∧ row'.possiblyDelivered = true)
      ∨ ∃ outcome next due, e = .finished outcome next due ∧ outcome ≠ .connectionLost
        ∧ outcome ≠ .deferred := by
  cases hstep with
  | created hfresh hnew => simp [hrow] at hnew
  | leased hold hroute hready hnone => simp_all
  | exhausted hold hroute hready => simp_all [Delivery.Ready]
  | renewed hold hroute hleased =>
      rw [hrow] at hold
      cases hold
      exact Or.inl ⟨_, rfl, hstate, rfl, hphase⟩
  | bodyMarked hold hroute hleased hphase => exact Or.inl ⟨row, hrow, hstate, rfl, rfl⟩
  | @finished outcome result next due phase _ _ hold hroute hleased hreached hresult =>
      rw [hrow] at hold
      cases hold
      rw [hphase] at hreached
      cases hreached
      by_cases hlost : outcome = .connectionLost
      · subst hlost
        cases hresult
        have huncertain : ∀ unknown text,
            (settle unknown (.uncertain, none, text)).1 = .uncertain := by
          intro unknown text
          rw [settle_state]
          split_ifs <;> rfl
        refine Or.inr (Or.inl ⟨_, rfl, ?_, ?_⟩)
        · exact huncertain _ _
        · simp [Delivery.finish, huncertain]
      · refine Or.inr (Or.inr ⟨outcome, next, due, rfl, hlost, ?_⟩)
        rintro rfl
        cases hresult
  | recovered hold hroute hleased hreached =>
      rw [hrow] at hold
      cases hold
      rw [hphase] at hreached
      cases hreached
      refine Or.inr (Or.inl ⟨_, rfl, ?_, ?_⟩)
      · simp [Delivery.recover, Delivery.unknownIn]
      · simp [Delivery.recover, Delivery.unknownIn]
  | expired hold hroute hready => simp_all [Delivery.Ready]
  | held hold hroute hopen hidle => simp_all
  | retried hold hroute hretry haction hconsent hnew => simp_all [Delivery.Retryable]
  | closed hold hroute hidle hunknown hopen => simp_all
  | suppressed hold hroute hfailed hpending => simp_all
  | @postponed reason due _ _ hold =>
      rw [hrow] at hold
      cases hold
      have hsame : row.postponeReport reason due = row := by
        unfold Delivery.postponeReport
        rw [if_neg (by simp [hstate])]
      exact Or.inl ⟨row, congrArg some hsame, hstate, rfl, hphase⟩
  | reported hold hroute hfailed hcertain hpending hnone => simp_all

end Lifecycle

namespace World

variable {w : World} {id : Text}

/-- The delivery may have reached its recipient without the store knowing. -/
def Flagged (w : World) (id : Text) : Prop :=
  ∃ row, w.store.db.delivery? id = some row ∧ row.possiblyDelivered = true

theorem next_flagged (hkeys : w.store.db.Keys) (hflag : w.Flagged id) (op : Op)
    (hnone : ¬ w.RecordsDelivered op id) : (w.next op).Flagged id := by
  have hend : (∃ row, ((w.next op).store.db.view id).row = some row ∧ row.possiblyDelivered = true)
      ∨ ((∃ code, 200 ≤ code ∧ code < 300 ∧ w.FinishesWith op id (.delivered code))
        ∧ ∃ row, ((w.next op).store.db.view id).row = some row ∧ row.state = .delivered) := by
    refine (next_evolves hkeys op id).keeps (fun v =>
      (∃ row, v.row = some row ∧ row.possiblyDelivered = true)
        ∨ ((∃ code, 200 ≤ code ∧ code < 300 ∧ w.FinishesWith op id (.delivered code))
          ∧ ∃ row, v.row = some row ∧ row.state = .delivered)) ?_ (Or.inl hflag)
    rintro e v v' hperforms hstep (⟨row, hrow, hset⟩ | ⟨hcode, row, hrow, hstate⟩)
    · rcases hstep.flag hrow hset with hkept | ⟨code, next, due, row', rfl, hlow, hhigh, hrow', hstate⟩
      · exact Or.inl hkept
      · exact Or.inr ⟨⟨code, hlow, hhigh, hperforms⟩, row', hrow', hstate⟩
    · exact Or.inr ⟨hcode, row, hstep.delivered hrow hstate, hstate⟩
  rcases hend with hkept | hrecorded
  · exact hkept
  · exact absurd hrecorded hnone

theorem not_finishes_of_recovers {op : Op} {outcome : QueueResult} (h : op.recovers = true) :
    ¬ w.FinishesWith op id outcome := by
  rintro ⟨serial, reading, guardReading, faults, lease, rfl, -⟩
  cases h

theorem FinishesWith.unique {op : Op} {outcome outcome' : QueueResult}
    (h : w.FinishesWith op id outcome) (h' : w.FinishesWith op id outcome') : outcome = outcome' := by
  obtain ⟨serial, reading, guardReading, faults, lease, rfl, -⟩ := h
  obtain ⟨serial', reading', guardReading', faults', lease', heq, -⟩ := h'
  cases heq
  rfl

theorem LosesOutcome.undetermined {op : Op} (h : w.LosesOutcome op id) :
    w.EndsUndetermined op id := by
  obtain ⟨generation, hbody, hended, hhow⟩ := h
  refine ⟨generation, hbody, hended, ?_⟩
  intro outcome hfinish
  rcases hhow with hlost | hrecovers
  · exact Or.inl (hfinish.unique hlost)
  · exact absurd hfinish (not_finishes_of_recovers hrecovers)

theorem EndsUndetermined.flagged (hkeys : w.store.db.Keys) {op : Op}
    (h : w.EndsUndetermined op id) : (w.next op).Flagged id := by
  obtain ⟨generation, ⟨⟨row, hrow, hstate, hgeneration⟩, hphase⟩, hended, hother⟩ := h
  have hend : (∃ row, ((w.next op).store.db.view id).row = some row ∧ row.state = .leased
        ∧ row.generation = generation ∧ ((w.next op).store.db.view id).phase = some .body)
      ∨ ∃ row, ((w.next op).store.db.view id).row = some row ∧ row.possiblyDelivered = true := by
    refine (next_evolves hkeys op id).keeps (fun v =>
      (∃ row, v.row = some row ∧ row.state = .leased ∧ row.generation = generation
          ∧ v.phase = some .body)
        ∨ ∃ row, v.row = some row ∧ row.possiblyDelivered = true) ?_
      (Or.inl ⟨row, hrow, hstate, hgeneration, hphase⟩)
    rintro e v v' hperforms hstep (⟨row, hrow, hstate, hgeneration, hphase⟩ | ⟨row, hrow, hset⟩)
    · rcases hstep.inBody hrow hstate hphase with
        ⟨row', hrow', hstate', hsame, hphase'⟩ | ⟨row', hrow', -, hset⟩ |
          ⟨outcome, next, due, rfl, hlost, hdeferred⟩
      · exact Or.inl ⟨row', hrow', hstate', hsame.trans hgeneration, hphase'⟩
      · exact Or.inr ⟨row', hrow', hset⟩
      · exact absurd (hother outcome hperforms) (by simp [hlost, hdeferred])
    · rcases hstep.flag hrow hset with hkept | ⟨code, next, due, row', rfl, -⟩
      · exact Or.inr hkept
      · exact absurd (hother _ hperforms) (by simp)
  rcases hend with ⟨row', hrow', hstate', hgeneration', -⟩ | hflag
  · exact absurd ⟨row', hrow', hstate', hgeneration'⟩ hended
  · exact hflag

end World

/-- **An unknown outcome is never forgotten or reported as a failure.** -/
theorem unknown_outcome_kept (id : Text) :
    (∀ (w : World) (op : Op) (later : List Op), w.Reachable → w.LosesOutcome op id →
      (∀ before o after, later = before ++ o :: after →
        ¬ ((w.next op).run before).RecordsDelivered o id) →
      ∃ row, ((w.next op).run later).store.db.delivery? id = some row
        ∧ row.possiblyDelivered = true) ∧
    ∀ (w : World) (row : Delivery), w.Reachable → w.store.db.delivery? id = some row →
      row.possiblyDelivered = true →
      row.state ≠ .failed ∧ w.store.db.notification? id = none := by
  constructor
  · intro w op later hreach hlost hnone
    have hkeys : (w.next op).store.db.Keys := World.next_keys hreach.keys op
    exact Runs.persists (fun w : World => w.store.db.Keys) (fun w => w.Flagged id)
      (fun w o => w.RecordsDelivered o id) (fun w o hkeys => World.next_keys hkeys o)
      (fun w o hkeys hflag hno => World.next_flagged hkeys hflag o hno) hkeys
      (hlost.undetermined.flagged hreach.keys) later hnone
  · intro w row hreach hrow hflag
    have hwf := hreach.view_wf id
    have hview : (w.store.db.view id).row = some row := hrow
    cases hroute : row.route with
    | localMail =>
        have hlocal := hwf.localMail row hview hroute
        rw [hlocal.certain] at hflag
        cases hflag
    | direct => exact absurd hroute (hwf.route row hview)
    | relay =>
        have hrelay := hwf.relay row hview hroute
        have hstate : row.state ≠ .failed := by
          intro hfailed
          rw [hrelay.certain_flag (Or.inr hfailed)] at hflag
          cases hflag
        refine ⟨hstate, ?_⟩
        by_contra hreported
        have hcreated := hrelay.created_iff.2 (Option.ne_none_iff_isSome.1 hreported)
        exact hstate (hrelay.settled_failed (by simp [hcreated]))

/-- A lost connection, a hold and a retry later the flag is still set. -/
theorem unknown_outcome_kept_through_retry :
    ∃ row, ((Sample.inBody.next (Sample.finish 0 .connectionLost)).run
        [.queueHold Sample.deliveryId.text Sample.reading {}, Sample.retry true]).store.db.delivery?
          Sample.deliveryId.text = some row ∧ row.possiblyDelivered = true := by
  have hended : ((Sample.inBody.next (Sample.finish 0 .connectionLost)).store.db.delivery?
      Sample.deliveryId.text).map Delivery.state = some .uncertain := by decide
  refine (unknown_outcome_kept Sample.deliveryId.text).1 Sample.inBody
    (Sample.finish 0 .connectionLost) _ (Sample.reachable _) ?_ ?_
  · refine ⟨1, ⟨⟨_, rfl, rfl, rfl⟩, rfl⟩, ?_, Or.inl ⟨0, _, _, _, _, rfl, rfl, rfl⟩⟩
    rintro ⟨row, hrow, hstate, -⟩
    rw [hrow] at hended
    simp [hstate] at hended
  · rintro before o after heq ⟨⟨code, -, -, serial, reading, guardReading, faults, lease, rfl, -⟩, -⟩
    have hmem : Op.queueFinish serial (.delivered code) reading guardReading faults ∈
        [Op.queueHold Sample.deliveryId.text Sample.reading {}, Sample.retry true] := by
      rw [heq]
      exact List.mem_append_right before List.mem_cons_self
    simp [Sample.retry] at hmem

end Rustymail
