import Rustymail.Proof.Fencing

/-!
# Terminal deliveries and the administrator's record

A relayed delivery that was delivered, that failed or that an administrator closed has come to its
end: what is left to happen to it is the report of a failure. The administrator's calls either write
the change together with its record or write nothing.
-/

namespace Rustymail

open Checked Lifecycle World

/-- A relayed delivery at its end. -/
def Delivery.Terminal (row : Delivery) : Prop :=
  row.route = .relay ∧ (row.state = .delivered ∨ row.state = .failed ∨ row.closedAtMs ≠ none)

/-- The later row differs in its notification columns at most, and only if the first one failed. -/
structure Delivery.FrozenAs (row later : Delivery) : Prop where
  columns : later = { row with
    notificationState := later.notificationState
    notificationError := later.notificationError
    notificationDueMs := later.notificationDueMs }
  kept : row.state ≠ .failed → later = row

/-- The delivery an administrator's call is about, and what the record calls the action. -/
def Op.administers? : Op → Option (Text × AdminAction)
  | .queueHold id _ _ => some (id, .hold)
  | .queueRetry id _ _ _ _ => some (id, .retry)
  | .queueCloseUnknown id _ _ _ => some (id, .closeUnknown)
  | _ => none

/-- One record was added, with the states of its delivery before and after. -/
def Audited (id : Text) (action : AdminAction) (db db' : Db) : Prop :=
  ∃ row later event, db.delivery? id = some row ∧ ¬ row.Terminal ∧ db'.delivery? id = some later
    ∧ db'.adminEvents = db.adminEvents ++ [event] ∧ event.deliveryId = id
    ∧ event.action = action ∧ event.beforeState = row.state ∧ event.afterState = later.state

/-- What a call left behind fits what it reported: a success has happened as a whole, an unknown
outcome may have, and any other error has changed nothing. -/
def Store.Reports {α : Type} (tx : Db → Db → Prop) (s : Store)
    (result : Store × Except StoreError α) : Prop :=
  (∃ value, result.2 = .ok value ∧ tx s.db result.1.db)
    ∨ ∃ e, result.2 = .error e
      ∧ (result.1.db = s.db ∨ e = .queueOutcomeUnknown ∧ tx s.db result.1.db)

/-! ### What is terminal stays -/

section Frozen

variable {row later : Delivery} {phase : Option Phase} {reported : Bool}

theorem Delivery.FrozenAs.refl (row : Delivery) : row.FrozenAs row := ⟨rfl, fun _ => rfl⟩

theorem Delivery.FrozenAs.state_eq (h : row.FrozenAs later) : later.state = row.state := by
  rw [h.columns]

theorem Delivery.FrozenAs.trans {last : Delivery} (h : row.FrozenAs later)
    (h' : later.FrozenAs last) : row.FrozenAs last := by
  constructor
  · calc
      last = { later with
          notificationState := last.notificationState
          notificationError := last.notificationError
          notificationDueMs := last.notificationDueMs } := h'.columns
      _ = { row with
          notificationState := last.notificationState
          notificationError := last.notificationError
          notificationDueMs := last.notificationDueMs } := by rw [h.columns]
  · intro hstate
    have hlater : later = row := h.kept hstate
    rw [h'.kept (hlater ▸ hstate), hlater]

theorem Delivery.FrozenAs.terminal (h : row.FrozenAs later) (hterminal : row.Terminal) :
    later.Terminal := by
  rw [h.columns]
  exact hterminal

/-- The administrator's calls act on open deliveries in these states only. -/
theorem Delivery.active (row : Delivery) (hopen : row.closedAtMs = none)
    (hstate : row.state ∈ [DeliveryState.pending, .deferred, .uncertain, .hold]) :
    ¬ row.Terminal := by
  rintro ⟨-, hend | hend | hend⟩
  · simp [hend] at hstate
  · simp [hend] at hstate
  · exact hend hopen

theorem Delivery.active_of_unknown (row : Delivery) (hopen : row.closedAtMs = none)
    (hstate : row.state = .uncertain ∨ row.state = .hold) : ¬ row.Terminal := by
  refine row.active hopen ?_
  rcases hstate with h | h <;> simp [h]

theorem Delivery.RelayWf.terminal (h : row.RelayWf phase reported) (hterminal : row.Terminal) :
    ¬ row.Ready ∧ row.state ≠ .leased := by
  obtain ⟨-, hstate | hstate | hclosed⟩ := hterminal
  · simp [hstate]
  · simp [hstate]
  · have hstate := (h.closed_unknown hclosed).1
    simp [hstate]

theorem Delivery.FrozenAs.of_failed (hstate : row.state = .failed) {state : NotificationState}
    {error : Option String} {due : Int} :
    row.FrozenAs { row with
      notificationState := state
      notificationError := error
      notificationDueMs := due } :=
  ⟨rfl, fun hnot => absurd hstate hnot⟩

theorem Delivery.suppress_frozen (hstate : row.state = .failed) (reason : String) :
    row.FrozenAs (row.suppress reason) := by
  unfold Delivery.suppress
  split_ifs
  · exact .of_failed hstate
  · exact .refl row

theorem Delivery.postponeReport_frozen (row : Delivery) (reason : String) (due : Int) :
    row.FrozenAs (row.postponeReport reason due) := by
  unfold Delivery.postponeReport
  split_ifs with hdue
  · exact .of_failed hdue.1
  · exact .refl row

/-- No event but the handling of its report reaches a terminal delivery. -/
theorem Lifecycle.Step.frozen {e : LifeEvent} {v v' : View} (hstep : Step e v v') (hwf : v.Wf)
    (hrow : v.row = some row) (hterminal : row.Terminal) :
    ∃ later, v'.row = some later ∧ row.FrozenAs later := by
  obtain ⟨hidle, hfree⟩ := (hwf.relayRow hrow hterminal.1).terminal hterminal
  cases hstep with
  | created hfresh hnew => simp [hrow] at hnew
  | leased hold hroute hready | exhausted hold hroute hready | expired hold hroute hready =>
      obtain rfl := Option.some.inj (hrow.symm.trans hold)
      exact absurd hready hidle
  | renewed hold hroute hstate | bodyMarked hold hroute hstate | finished hold hroute hstate
  | recovered hold hroute hstate =>
      obtain rfl := Option.some.inj (hrow.symm.trans hold)
      exact absurd hstate hfree
  | held hold hroute hopen hstate =>
      obtain rfl := Option.some.inj (hrow.symm.trans hold)
      exact absurd hterminal (row.active hopen hstate)
  | retried hold hroute hretry =>
      obtain rfl := Option.some.inj (hrow.symm.trans hold)
      exact absurd hterminal (row.active hretry.2.1 (List.mem_cons_of_mem _ hretry.1))
  | closed hold hroute hstate hunknown hopen =>
      obtain rfl := Option.some.inj (hrow.symm.trans hold)
      exact absurd hterminal (row.active_of_unknown hopen hstate)
  | suppressed hold hroute hstate hpending =>
      obtain rfl := Option.some.inj (hrow.symm.trans hold)
      exact ⟨_, rfl, row.suppress_frozen hstate _⟩
  | postponed hold =>
      obtain rfl := Option.some.inj (hrow.symm.trans hold)
      exact ⟨_, rfl, row.postponeReport_frozen _ _⟩
  | reported hold hroute hstate =>
      obtain rfl := Option.some.inj (hrow.symm.trans hold)
      exact ⟨_, rfl, .of_failed hstate⟩

end Frozen

/-! ### The record of the administrator -/

section Audits

variable {db db' : Db} {id note : Text} {now : Int}

/-- An update of one delivery, written together with its record. -/
theorem Audited.of_event {row : Delivery} {f : Delivery → Delivery} {action : AdminAction}
    {new : DeliveryState} {duplicate extend : Bool} (hrow : relayRow db id = some row)
    (h : adminEvent (db.updateDelivery id f) id action row.state new note duplicate extend now
      = .ok db') (hactive : ¬ row.Terminal) (hid : ∀ row, (f row).id = row.id)
    (hnew : (f row).state = new) : Audited id action db db' := by
  have hfound : db.delivery? id = some row := (relayRow_eq_some.1 hrow).1
  obtain ⟨-, rfl⟩ := Db.insertAdminEvent_eq_ok.1 h
  refine ⟨row, f row, _, hfound, hactive, ?_, rfl, rfl, rfl, rfl, hnew.symm⟩
  have hupdated : (db.updateDelivery id f).delivery? id = some (f row) := by
    rw [Db.delivery_updateDelivery hid, if_pos rfl, hfound]
    rfl
  exact hupdated

theorem holdTx_audited (h : holdTx id now db = .ok (db', ())) : Audited id .hold db db' := by
  unfold holdTx at h
  simp only [bind_eq_ok, found_eq_ok, require_eq_ok, pure_eq_ok, Prod.mk.injEq, and_true] at h
  obtain ⟨row, hrow, ⟨⟩, ⟨hopen, hstate⟩, written, hevent, rfl⟩ := h
  exact .of_event hrow hevent (row.active hopen hstate) (fun _ => rfl) rfl

theorem retryTx_audited {allowDuplicate extendExpired : Bool}
    (h : retryTx id allowDuplicate extendExpired now db = .ok (db', ())) :
    Audited id .retry db db' := by
  unfold retryTx at h
  simp only [bind_eq_ok, found_eq_ok, require_eq_ok, pure_eq_ok, Prod.mk.injEq, and_true] at h
  obtain ⟨row, hrow, queued, -, ⟨⟩, ⟨hstate, hopen, -⟩, expires, -, written, hevent, rfl⟩ := h
  exact .of_event hrow hevent (row.active hopen (List.mem_cons_of_mem _ hstate)) (fun _ => rfl) rfl

theorem closeUnknownTx_audited (h : closeUnknownTx id note now db = .ok (db', ())) :
    Audited id .closeUnknown db db' := by
  unfold closeUnknownTx at h
  simp only [bind_eq_ok, found_eq_ok, require_eq_ok, pure_eq_ok, Prod.mk.injEq, and_true] at h
  obtain ⟨row, hrow, ⟨⟩, ⟨hstate, -, hopen⟩, written, hevent, rfl⟩ := h
  exact .of_event hrow hevent (row.active_of_unknown hopen hstate) (fun _ => rfl) rfl

end Audits

section Reports

variable {α : Type} {s : Store} {tx : Db → Db → Prop}

theorem Store.Reports.refused {s' : Store} (hsame : s'.db = s.db) (e : StoreError) :
    s.Reports tx ((s', .error e) : Store × Except StoreError α) :=
  Or.inr ⟨e, rfl, Or.inl hsame⟩

theorem Store.Reports.transaction {body : Db → Except StoreError (Db × α)} (faults : Faults)
    (htx : ∀ db db' value, body db = .ok (db', value) → tx db db') :
    s.Reports tx (s.transaction body (Store.commit faults)) := by
  unfold Store.transaction
  cases hbody : body s.db with
  | error e => exact .refused rfl e
  | ok written =>
      obtain ⟨db, value⟩ := written
      have hdone : tx s.db db := htx s.db db value hbody
      dsimp only
      unfold Store.commit
      split_ifs
      · exact .refused rfl .io
      · split
        · exact .refused rfl .queueOutcomeUnknown
        · exact Or.inr ⟨_, rfl, Or.inr ⟨rfl, hdone⟩⟩
        · exact Or.inr ⟨_, rfl, Or.inr ⟨rfl, hdone⟩⟩
      · split
        · exact .refused rfl .queueOutcomeUnknown
        · exact Or.inr ⟨_, rfl, Or.inr ⟨rfl, hdone⟩⟩
        · exact Or.inl ⟨value, rfl, hdone⟩

theorem queueHold_reports (id : Text) (reading : Reading) (faults : Faults) :
    s.Reports (Audited id .hold) (queueHold s id reading faults) := by
  unfold queueHold
  split_ifs
  · cases reading.nowMs with
    | error e => exact .refused rfl e
    | ok now => exact .transaction faults fun _ _ _ => holdTx_audited
  · exact .refused rfl .invalidId

theorem queueRetry_reports (id : Text) (allowDuplicate extendExpired : Bool) (reading : Reading)
    (faults : Faults) :
    s.Reports (Audited id .retry)
      (queueRetry s id allowDuplicate extendExpired reading faults) := by
  unfold queueRetry
  split_ifs
  · cases s.queue.now reading with
    | mk queue clock =>
        cases clock with
        | error e => exact .refused rfl e
        | ok now =>
            exact Store.Reports.transaction (s := { s with queue := queue }) faults
              fun _ _ _ => retryTx_audited
  · exact .refused rfl .invalidId

theorem queueCloseUnknown_reports (id note : Text) (reading : Reading) (faults : Faults) :
    s.Reports (Audited id .closeUnknown) (queueCloseUnknown s id note reading faults) := by
  unfold queueCloseUnknown
  split_ifs
  · cases reading.nowMs with
    | error e => exact .refused rfl e
    | ok now => exact .transaction faults fun _ _ _ => closeUnknownTx_audited
  · exact .refused rfl .invalidInput

theorem World.call_reports {w : World} {f : Store → Store × Except StoreError α}
    (h : w.store.Reports tx (f w.store)) :
    w.store.Reports tx ((w.call f).1.store, (w.call f).2) := by
  by_cases hopen : w.opened = true
  · rw [call_opened hopen]
    exact h
  · rw [call_closed hopen]
    exact .refused rfl .workerUnavailable

/-- Each call of the administrator answers, and leaves its change and its record or nothing. -/
theorem World.administers_reports {w : World} {op : Op} {id : Text} {action : AdminAction}
    (h : op.administers? = some (id, action)) :
    ∃ result, (w.step op).2 = .unit result
      ∧ w.store.Reports (Audited id action) ((w.next op).store, result) := by
  cases op with
  | queueHold i reading faults =>
      obtain ⟨rfl, rfl⟩ := Prod.mk.inj (Option.some.inj h)
      exact ⟨_, rfl, call_reports (queueHold_reports i reading faults)⟩
  | queueRetry i allowDuplicate extendExpired reading faults =>
      obtain ⟨rfl, rfl⟩ := Prod.mk.inj (Option.some.inj h)
      exact ⟨_, rfl, call_reports (queueRetry_reports i allowDuplicate extendExpired reading faults)⟩
  | queueCloseUnknown i note reading faults =>
      obtain ⟨rfl, rfl⟩ := Prod.mk.inj (Option.some.inj h)
      exact ⟨_, rfl, call_reports (queueCloseUnknown_reports i note reading faults)⟩
  | _ => cases h

end Reports

/-! ### Runs -/

section Frozen

variable {w : World} {op : Op} {id : Text} {row : Delivery}

theorem World.next_frozen (hreach : w.Reachable) (op : Op)
    (hrow : w.store.db.delivery? id = some row) (hterminal : row.Terminal) :
    ∃ later, (w.next op).store.db.delivery? id = some later ∧ row.FrozenAs later := by
  have hview : (w.store.db.view id).row = some row := hrow
  have hkept := (w.next_evolves hreach.keys op id).keeps
    (fun v => v.Wf ∧ ∃ later, v.row = some later ∧ row.FrozenAs later) ?_
    ⟨hreach.view_wf id, row, hview, .refl row⟩
  · exact hkept.2
  · rintro e v v' - hstep ⟨hwf, later, hlater, hfrozen⟩
    obtain ⟨last, hlast, hfrozen'⟩ := hstep.frozen hwf hlater (hfrozen.terminal hterminal)
    exact ⟨hstep.wf hwf, last, hlast, hfrozen.trans hfrozen'⟩

theorem World.run_frozen (hreach : w.Reachable) (hrow : w.store.db.delivery? id = some row)
    (hterminal : row.Terminal) (ops : List Op) :
    ∃ later, (w.run ops).store.db.delivery? id = some later ∧ row.FrozenAs later := by
  have hkept := @Runs.invariant _ _ World.next w
    (fun w => w.Reachable ∧ ∃ later, w.store.db.delivery? id = some later ∧ row.FrozenAs later)
    ⟨hreach, row, hrow, .refl row⟩ ?_ ops
  · exact hkept.2
  · rintro w op ⟨hreach, later, hlater, hfrozen⟩
    obtain ⟨last, hlast, hfrozen'⟩ := next_frozen hreach op hlater (hfrozen.terminal hterminal)
    exact ⟨hreach.next op, last, hlast, hfrozen.trans hfrozen'⟩

/-- Leases come from claims. -/
theorem World.step_claims (hreach : w.Reachable) {leases : List QueueLease}
    (hreply : (w.step op).2 = .leases (.ok leases)) :
    ∃ policy limit keepLease keepReader input,
      op = .queueClaim policy limit keepLease keepReader input
        ∧ ClaimStep w policy limit keepLease keepReader input leases (w.next op) := by
  cases op with
  | queueClaim policy limit keepLease keepReader input =>
      have hok : (w.claim policy limit keepLease keepReader input).2 = .ok leases :=
        Reply.leases.inj hreply
      exact ⟨policy, limit, keepLease, keepReader, input, rfl,
        (claim_volatile hreach.keys policy limit keepLease keepReader input).2 leases hok⟩
  | _ => cases hreply

theorem World.step_avoids (hreach : w.Reachable) (hrow : w.store.db.delivery? id = some row)
    (hterminal : row.Terminal) {leases : List QueueLease}
    (hreply : (w.step op).2 = .leases (.ok leases)) : ∀ l ∈ leases, l.id ≠ id := by
  rintro l hl rfl
  obtain ⟨policy, limit, keepLease, keepReader, input, -, hclaim⟩ := step_claims hreach hreply
  have hout : (w.next op).store.db.LeasedUnder l := by
    rcases hclaim.handsOut with rfl | ⟨ctx, swept, -, hout, -⟩
    · cases hl
    · exact hout.leased l hl
  obtain ⟨leased, hleased, -, hstate, -⟩ := hout
  obtain ⟨later, hlater, hfrozen⟩ := next_frozen hreach op hrow hterminal
  obtain rfl : leased = later := Option.some.inj (hleased.symm.trans hlater)
  have hwf := (hreach.next op).view_wf l.id
  have hfree := ((hwf.relayRow hlater (hfrozen.terminal hterminal).1).terminal
    (hfrozen.terminal hterminal)).2
  exact hfree hstate

theorem World.step_refuses (hrow : w.store.db.delivery? id = some row) (hterminal : row.Terminal)
    {action : AdminAction} (hop : op.administers? = some (id, action)) :
    ∃ e, (w.step op).2 = .unit (.error e) ∧ (w.next op).store.db = w.store.db := by
  obtain ⟨result, hreply, hreports⟩ := administers_reports (w := w) hop
  have hnone : ∀ db, ¬ Audited id action w.store.db db := by
    rintro db ⟨row', -, -, hrow', hactive, -⟩
    obtain rfl : row = row' := Option.some.inj (hrow.symm.trans hrow')
    exact hactive hterminal
  rcases hreports with ⟨value, -, haudited⟩ | ⟨e, herror, hsame | ⟨-, haudited⟩⟩
  · exact absurd haudited (hnone _)
  · have herror' : result = .error e := herror
    exact ⟨e, by rw [hreply, herror'], hsame⟩
  · exact absurd haudited (hnone _)

end Frozen

/-- **Terminal deliveries are frozen**, and the administrator's record is exact. -/
theorem terminal_deliveries_frozen (w : World) (hreach : w.Reachable) (id : Text) :
    (∀ row, w.store.db.delivery? id = some row → row.Terminal → ∀ ops,
      (∃ later, (w.run ops).store.db.delivery? id = some later ∧ row.FrozenAs later)
        ∧ (∀ op leases, ((w.run ops).step op).2 = .leases (.ok leases) → ∀ l ∈ leases, l.id ≠ id)
        ∧ ∀ op action, op.administers? = some (id, action) →
          ∃ e, ((w.run ops).step op).2 = .unit (.error e)
            ∧ ((w.run ops).next op).store.db.adminEvents = (w.run ops).store.db.adminEvents)
      ∧ ∀ op action, op.administers? = some (id, action) →
        ((w.step op).2 = .unit (.ok ()) → Audited id action w.store.db (w.next op).store.db)
          ∧ ∀ e, (w.step op).2 = .unit (.error e) → e ≠ .queueOutcomeUnknown →
            (w.next op).store.db.adminEvents = w.store.db.adminEvents := by
  constructor
  · intro row hrow hterminal ops
    obtain ⟨later, hlater, hfrozen⟩ := World.run_frozen hreach hrow hterminal ops
    have hlast := hfrozen.terminal hterminal
    have hreach' := hreach.run ops
    refine ⟨⟨later, hlater, hfrozen⟩, ?_, ?_⟩
    · intro op leases hreply
      exact World.step_avoids hreach' hlater hlast hreply
    · intro op action hop
      obtain ⟨e, hreply, hsame⟩ := World.step_refuses hlater hlast hop
      exact ⟨e, hreply, by rw [hsame]⟩
  · intro op action hop
    obtain ⟨result, hreply, hreports⟩ := World.administers_reports (w := w) hop
    constructor
    · intro hok
      obtain rfl : result = .ok () := Reply.unit.inj (hreply.symm.trans hok)
      rcases hreports with ⟨value, -, haudited⟩ | ⟨e, herror, -⟩
      · exact haudited
      · cases herror
    · intro e hfailed hknown
      obtain rfl : result = .error e := Reply.unit.inj (hreply.symm.trans hfailed)
      rcases hreports with ⟨value, hok, -⟩ | ⟨e', herror, hsame | ⟨hunknown, -⟩⟩
      · cases hok
      · exact congrArg Db.adminEvents hsame
      · cases herror
        exact absurd hunknown hknown

/-- A delivery the remote accepted: the administrator's hold is refused, also after a claim. -/
theorem terminal_deliveries_frozen_delivered :
    ∃ row, (Sample.inBody.next (Sample.finish 0 (.delivered 250))).store.db.delivery?
        Sample.deliveryId.text = some row ∧ row.state = .delivered
      ∧ ∃ e, (((Sample.inBody.next (Sample.finish 0 (.delivered 250))).run [Sample.claim]).step
          (.queueHold Sample.deliveryId.text Sample.reading {})).2 = .unit (.error e) := by
  refine ⟨_, rfl, rfl, ?_⟩
  obtain ⟨e, hreply, -⟩ := ((terminal_deliveries_frozen
    (Sample.inBody.next (Sample.finish 0 (.delivered 250)))
    (World.Reachable.next (Sample.reachable _ : Sample.inBody.Reachable) _) Sample.deliveryId.text).1 _ rfl ⟨rfl, Or.inl rfl⟩ [Sample.claim]).2.2
    (.queueHold Sample.deliveryId.text Sample.reading {}) .hold rfl
  exact ⟨e, hreply⟩

end Rustymail
