import Rustymail.Proof.Holding
import Rustymail.Proof.Fencing

/-!
# From the body to the end of an attempt

Once the body of an attempt has begun, the attempt ends in one of two ways: its holder records a
result, or recovery finds nobody holding it and leaves the outcome unknown.
-/

namespace Rustymail

open Checked Lifecycle World

namespace Lifecycle

variable {e : LifeEvent} {v v' : View} {row : Delivery} {generation : Nat}

/-- The delivery has been leased at least this often, and if it is still this lease, its body has
begun. -/
def BodySince (generation : Nat) (v : View) : Prop :=
  ∃ row, v.row = some row ∧ generation ≤ row.generation
    ∧ (row.generation = generation → row.state = .leased → v.phase = some .body)

theorem Step.bodySince (hstep : Step e v v') (h : BodySince generation v) :
    BodySince generation v' := by
  obtain ⟨row, hrow, hle, hbody⟩ := h
  have hsame : ∀ row', v'.row = some row' → row'.generation = row.generation →
      (row'.state = .leased → row.state = .leased ∧ (v.phase = some .body → v'.phase = some .body)) →
      BodySince generation v' := by
    intro row' hrow' hgeneration hleased
    refine ⟨row', hrow', hgeneration ▸ hle, ?_⟩
    intro hnow hstate
    obtain ⟨hbefore, hphase⟩ := hleased hstate
    exact hphase (hbody (hgeneration.symm.trans hnow) hbefore)
  cases hstep with
  | created hfresh hnew => simp [hrow] at hnew
  | leased hold hroute hready hnone =>
      rw [hrow] at hold
      cases hold
      refine ⟨_, rfl, Nat.le_succ_of_le hle, ?_⟩
      intro hnow
      change row.generation + 1 = generation at hnow
      omega
  | exhausted hold hroute hready =>
      rw [hrow] at hold
      cases hold
      exact hsame _ rfl rfl fun hstate => by cases hstate
  | renewed hold hroute hleased =>
      rw [hrow] at hold
      cases hold
      exact hsame _ rfl rfl fun hstate => ⟨hstate, id⟩
  | bodyMarked hold hroute hleased hphase => exact hsame row hrow rfl fun hstate => ⟨hstate, fun _ => rfl⟩
  | finished hold hroute hleased hphase hresult =>
      rw [hrow] at hold
      cases hold
      exact hsame _ rfl rfl fun hstate => absurd hstate (settle_ne_leased hresult _).1
  | recovered hold hroute hleased hphase =>
      rw [hrow] at hold
      cases hold
      refine hsame _ rfl rfl fun hstate => ?_
      simp only [Delivery.recover] at hstate
      split_ifs at hstate
  | expired hold hroute hready =>
      rw [hrow] at hold
      cases hold
      refine hsame _ rfl rfl fun hstate => ?_
      simp only [Delivery.expire] at hstate
      split_ifs at hstate
  | held hold hroute hopen hidle =>
      rw [hrow] at hold
      cases hold
      exact hsame _ rfl rfl fun hstate => by cases hstate
  | retried hold hroute hretry haction hconsent hnew =>
      rw [hrow] at hold
      cases hold
      exact hsame _ rfl rfl fun hstate => by cases hstate
  | closed hold hroute hidle hunknown hopen =>
      rw [hrow] at hold
      cases hold
      exact hsame _ rfl rfl fun hstate => by cases hstate
  | suppressed hold hroute hfailed hpending =>
      rw [hrow] at hold
      cases hold
      refine hsame _ rfl (by simp [Delivery.suppress, hpending]) fun hstate => ?_
      simp [Delivery.suppress, hpending, hfailed] at hstate
  | @postponed reason due _ _ hold =>
      rw [hrow] at hold
      cases hold
      unfold Delivery.postponeReport at hsame
      refine hsame _ rfl ?_ fun hstate => ⟨?_, id⟩
      · split_ifs <;> rfl
      · split_ifs at hstate <;> exact hstate
  | reported hold hroute hfailed hcertain hpending hnone =>
      rw [hrow] at hold
      cases hold
      refine hsame _ rfl rfl fun hstate => ?_
      change row.state = .leased at hstate
      rw [hfailed] at hstate
      cases hstate

/-- The row in which a result recorded in the body leaves the delivery; `unknown` says whether an
earlier attempt had been left unknown. -/
def Recorded (outcome : QueueResult) (unknown : Bool) (row : Delivery) : Prop :=
  ∃ result, outcome.classify .body = .ok result ∧ row.state = (settle unknown result).1
    ∧ row.possiblyDelivered = decide (row.state = .uncertain)

/-- The row in which recovery leaves an attempt in its body. -/
def Abandoned (row : Delivery) : Prop := row.state = .uncertain ∧ row.possiblyDelivered = true

theorem Step.body_or_ended (hstep : Step e v v') (hrow : v.row = some row)
    (hstate : row.state = .leased) (hphase : v.phase = some .body) :
    (∃ row', v'.row = some row' ∧ row'.state = .leased ∧ row'.generation = row.generation
        ∧ row'.possiblyDelivered = row.possiblyDelivered ∧ v'.phase = some .body)
      ∨ (∃ outcome next due row', e = .finished outcome next due ∧ v'.row = some row'
        ∧ Recorded outcome row.possiblyDelivered row')
      ∨ ∃ next row', e = .recovered next ∧ v'.row = some row' ∧ Abandoned row' := by
  rcases hstep.leased_or_ended hrow hstate with
    ⟨row', hrow', -, hstate', -, hgeneration, hflag, hbody⟩ | ⟨outcome, next, due, rfl⟩ | ⟨next, rfl⟩
  · exact Or.inl ⟨row', hrow', hstate', hgeneration, hflag, hbody hphase⟩
  · cases hstep with
    | @finished _ result _ _ phase _ _ hold hroute hleased hreached hresult =>
        rw [hrow] at hold
        cases hold
        rw [hphase] at hreached
        cases hreached
        exact Or.inr (Or.inl ⟨outcome, next, due, _, rfl, rfl, result, hresult, rfl, rfl⟩)
  · cases hstep with
    | recovered hold hroute hleased hreached =>
        rw [hrow] at hold
        cases hold
        rw [hphase] at hreached
        cases hreached
        refine Or.inr (Or.inr ⟨next, _, rfl, rfl, ?_⟩)
        constructor <;> simp [Delivery.recover, Delivery.unknownIn]

/-- The report of a failure touches neither the state nor the flag of a row that is not leased. -/
theorem Step.rests (hstep : Step e v v') (hrow : v.row = some row) (hstate : row.state ≠ .leased)
    (hevent : (∃ reason now, e = .suppressed reason now) ∨ (∃ reason due, e = .postponed reason due)
      ∨ (∃ row, e = .created row) ∨ ∃ deadline, e = .renewed deadline) :
    ∃ row', v'.row = some row' ∧ row'.state = row.state
      ∧ row'.possiblyDelivered = row.possiblyDelivered := by
  rcases hevent with ⟨reason, now, rfl⟩ | ⟨reason, due, rfl⟩ | ⟨fresh, rfl⟩ | ⟨deadline, rfl⟩
  · cases hstep with
    | suppressed hold hroute hfailed hpending =>
        rw [hrow] at hold
        cases hold
        exact ⟨_, rfl, by simp [Delivery.suppress, hpending], by simp [Delivery.suppress, hpending]⟩
  · cases hstep with
    | postponed hold =>
        rw [hrow] at hold
        cases hold
        refine ⟨_, rfl, ?_, ?_⟩ <;> (unfold Delivery.postponeReport; split_ifs <;> rfl)
  · cases hstep with
    | created hfresh hnew => simp [hrow] at hnew
  · cases hstep with
    | renewed hold hroute hleased => simp_all

/-- An unknown outcome is neither claimed nor expired nor recovered. -/
theorem Step.not_claimed (hstep : Step e v v') (hrow : v.row = some row)
    (hstate : row.state = .uncertain) :
    ¬ ((∃ now, e = .exhausted now) ∨ (∃ token now deadline, e = .leased token now deadline)
      ∨ (∃ now, e = .expired now) ∨ ∃ next, e = .recovered next) := by
  cases hstep <;> simp_all [Delivery.Ready]

end Lifecycle

variable {w : World} {op : Op} {id : Text} {generation : Nat}

theorem World.next_bodySince (hkeys : w.store.db.Keys) (op : Op)
    (h : BodySince generation (w.store.db.view id)) :
    BodySince generation ((w.next op).store.db.view id) :=
  (next_evolves hkeys op id).keeps (BodySince generation) (fun _ _ _ _ hstep => hstep.bodySince) h

/-- What is left for an operation that has recorded a result. -/
theorem Performs.of_finish {e : LifeEvent} {serial : Nat} {outcome : QueueResult}
    {reading guardReading : Reading} {faults : Faults}
    (h : Performs w (.queueFinish serial outcome reading guardReading faults) id e) :
    (∃ outcome next due, e = .finished outcome next due) ∨ (∃ reason now, e = .suppressed reason now)
      ∨ (∃ reason due, e = .postponed reason due) ∨ (∃ row, e = .created row)
      ∨ ∃ deadline, e = .renewed deadline := by
  cases e <;> simp_all [Performs, Op.recovers, Op.expires]

/-- What is left for an operation that has recovered a delivery. -/
theorem Performs.of_recovers {e : LifeEvent} (hop : op.recovers = true) (h : Performs w op id e) :
    ((∃ now, e = .exhausted now) ∨ (∃ token now deadline, e = .leased token now deadline)
      ∨ (∃ now, e = .expired now) ∨ ∃ next, e = .recovered next)
      ∨ (∃ reason now, e = .suppressed reason now) ∨ (∃ reason due, e = .postponed reason due)
      ∨ (∃ row, e = .created row) ∨ ∃ deadline, e = .renewed deadline := by
  cases e <;> cases op <;> simp_all [Performs, Op.recovers]

/-- **How an attempt ends whose body has begun.** -/
theorem World.next_from_body (hkeys : w.store.db.Keys) (op : Op) {row : Delivery}
    (hrow : w.store.db.delivery? id = some row) (hstate : row.state = .leased)
    (hgeneration : row.generation = generation)
    (hphase : (w.store.db.queueLease? id).map QueueLeaseRow.phase = some .body) :
    (w.next op).store.db.OnAttempt id generation
      ∨ (∃ outcome row', w.FinishesWith op id outcome
        ∧ (w.next op).store.db.delivery? id = some row' ∧ Recorded outcome row.possiblyDelivered row')
      ∨ ∃ row', op.recovers = true ∧ (w.next op).store.db.delivery? id = some row'
        ∧ Abandoned row' := by
  have hend := (next_evolves hkeys op id).keeps (fun v =>
    (∃ row', v.row = some row' ∧ row'.state = .leased ∧ row'.generation = generation
        ∧ row'.possiblyDelivered = row.possiblyDelivered ∧ v.phase = some .body)
      ∨ (∃ outcome row', w.FinishesWith op id outcome ∧ v.row = some row'
        ∧ Recorded outcome row.possiblyDelivered row')
      ∨ ∃ row', op.recovers = true ∧ v.row = some row' ∧ Abandoned row') ?_
    (Or.inl ⟨row, hrow, hstate, hgeneration, rfl, hphase⟩)
  · rcases hend with ⟨row', hrow', hstate', hgeneration', -⟩ | hrecorded | habandoned
    · exact Or.inl ⟨row', hrow', hstate', hgeneration'⟩
    · exact Or.inr (Or.inl hrecorded)
    · exact Or.inr (Or.inr habandoned)
  · rintro e v v' hperforms hstep (⟨row', hrow', hstate', hgeneration', hflag, hphase'⟩ |
      ⟨outcome, row', hfinishes, hrow', hrecorded⟩ | ⟨row', hrecovers, hrow', habandoned⟩)
    · rcases hstep.body_or_ended hrow' hstate' hphase' with
        ⟨row'', hrow'', hstate'', hsame, hflag', hphase''⟩ |
          ⟨outcome, next, due, row'', rfl, hrow'', hrecorded⟩ | ⟨next, row'', rfl, hrow'', habandoned⟩
      · exact Or.inl ⟨row'', hrow'', hstate'', hsame.trans hgeneration', hflag'.trans hflag, hphase''⟩
      · exact Or.inr (Or.inl ⟨outcome, row'', hperforms, hrow'', hflag ▸ hrecorded⟩)
      · exact Or.inr (Or.inr ⟨row'', hperforms.1, hrow'', habandoned⟩)
    · right
      left
      obtain ⟨result, hresult, hsettled, hset⟩ := hrecorded
      have hidle : row'.state ≠ .leased := by
        rw [hsettled]
        exact (settle_ne_leased hresult _).1
      have hop := hfinishes
      obtain ⟨serial, reading, guardReading, faults, lease, rfl, -⟩ := hop
      rcases hperforms.of_finish with ⟨_, next, due, rfl⟩ | hevent
      · cases hstep with
        | finished hold hroute hleased hreached hresult' =>
            rw [hrow'] at hold
            cases hold
            exact absurd hleased hidle
      · obtain ⟨row'', hrow'', hsame, hflag⟩ := hstep.rests hrow' hidle hevent
        exact ⟨outcome, row'', hfinishes, hrow'', result, hresult, hsame.trans hsettled,
          hflag.trans (hsame ▸ hset)⟩
    · right
      right
      have hidle : row'.state ≠ .leased := by simp [habandoned.1]
      rcases Performs.of_recovers hrecovers hperforms with hclaim | hevent
      · exact absurd hclaim (hstep.not_claimed hrow' habandoned.1)
      · obtain ⟨row'', hrow'', hsame, hflag⟩ := hstep.rests hrow' hidle hevent
        exact ⟨row'', hrecovers, hrow'', hsame.trans habandoned.1, hflag.trans habandoned.2⟩

end Rustymail
