import Rustymail.Proof.UnknownOutcome

/-!
# No automatic duplicate

A delivery whose outcome is unknown becomes claimable again only through an administrator's retry
that accepts a duplicate: no other event makes a row with the flag set pending, and a claim takes
only pending and deferred rows, of which the latter never have the flag.
-/

namespace Rustymail

open Lifecycle

namespace Lifecycle

variable {e : LifeEvent} {v v' : View} {row row' : Delivery}

/-- A pending row with the flag set was so before, or comes from a retry with consent. -/
theorem Step.pending (hstep : Step e v v') (hwf : v.Wf) (hrow' : v'.row = some row')
    (hstate : row'.state = .pending) (hflag : row'.possiblyDelivered = true) :
    (∃ row, v.row = some row ∧ row.state = .pending ∧ row.possiblyDelivered = true
        ∧ row'.generation = row.generation)
      ∨ ∃ extendExpired now expires event, e = .retried true extendExpired now expires
        ∧ event.action = .retry ∧ event.allowDuplicate = true ∧ event ∉ v.events
        ∧ v'.events = v.events ++ [event] := by
  cases hstep with
  | created hfresh hnew =>
      cases hrow'
      cases hfresh <;> simp [localDelivery, relayDelivery] at hflag
  | leased hold hroute hready hphase =>
      cases hrow'
      simp [Delivery.lease] at hstate
  | exhausted hold hroute hready =>
      cases hrow'
      simp [Delivery.exhaust] at hstate
  | renewed hold hroute hleased =>
      cases hrow'
      simp [Delivery.extend, hleased] at hstate
  | bodyMarked hold hroute hleased hphase => exact Or.inl ⟨row', hrow', hstate, hflag, rfl⟩
  | finished hold hroute hleased hphase hresult =>
      cases hrow'
      exact absurd hstate (settle_ne_leased hresult _).2
  | recovered hold hroute hleased hphase =>
      cases hrow'
      simp only [Delivery.recover] at hstate
      split_ifs at hstate
  | expired hold hroute hready =>
      cases hrow'
      simp only [Delivery.expire] at hstate
      split_ifs at hstate
  | held hold hroute hopen hidle =>
      cases hrow'
      simp [Delivery.holdManually] at hstate
  | @retried allowDuplicate extendExpired now expires row event v hold hroute hretry haction hconsent hnew =>
      cases hrow'
      have hset : row.possiblyDelivered = true := hflag
      have hunsure : row.state = .uncertain ∨ row.state = .hold := by
        have hstates := hretry.1
        simp only [List.mem_cons, List.not_mem_nil, or_false] at hstates
        rcases hstates with hdeferred | hother
        · have hclear := (hwf.relayRow hold hroute).certain_flag (Or.inl hdeferred)
          rw [hset] at hclear
          cases hclear
        · exact hother
      have hallow := hretry.2.2.1 hunsure
      subst hallow
      exact Or.inr ⟨extendExpired, now, expires, event, rfl, haction, hconsent, hnew, rfl⟩
  | closed hold hroute hidle hunknown hopen =>
      cases hrow'
      simp [Delivery.closeUnknown] at hstate
  | suppressed hold hroute hfailed hpending =>
      cases hrow'
      simp [Delivery.suppress, hpending, hfailed] at hstate
  | @postponed reason due row v hold =>
      cases hrow'
      unfold Delivery.postponeReport at hstate hflag ⊢
      split_ifs at hstate hflag ⊢
      · exact Or.inl ⟨row, hold, hstate, hflag, rfl⟩
      · exact Or.inl ⟨row, hold, hstate, hflag, rfl⟩
  | reported hold hroute hfailed hcertain hpending hnone =>
      cases hrow'
      simp [Delivery.reportCreated, hfailed] at hstate

/-- A lease raises the generation by one; nothing else touches it. -/
theorem Step.generation (hstep : Step e v v') (hrow : v.row = some row) :
    ∃ row', v'.row = some row' ∧ (row'.generation = row.generation
      ∨ ((∃ token now deadline, e = .leased token now deadline) ∧ row.Ready
        ∧ row'.generation = row.generation + 1)) := by
  cases hstep with
  | created hfresh hnew => simp [hrow] at hnew
  | @leased token now deadline _ _ hold hroute hready hphase =>
      rw [hrow] at hold
      cases hold
      exact ⟨_, rfl, Or.inr ⟨⟨token, now, deadline, rfl⟩, hready, rfl⟩⟩
  | bodyMarked hold hroute hleased hphase => exact ⟨row, hrow, Or.inl rfl⟩
  | suppressed hold hroute hfailed hpending =>
      rw [hrow] at hold
      cases hold
      exact ⟨_, rfl, Or.inl (by simp [Delivery.suppress, hpending])⟩
  | @postponed reason due _ _ hold =>
      rw [hrow] at hold
      cases hold
      refine ⟨_, rfl, Or.inl ?_⟩
      unfold Delivery.postponeReport
      split_ifs <;> rfl
  | exhausted hold | renewed hold | finished hold | recovered hold | expired hold | held hold
  | retried hold | closed hold | reported hold =>
      rw [hrow] at hold
      cases hold
      exact ⟨_, rfl, Or.inl rfl⟩

/-- The administrative history only grows. -/
theorem Step.events (hstep : Step e v v') {event : AdminEvent} (hmem : event ∈ v.events) :
    event ∈ v'.events := by
  cases hstep <;> simp [hmem]

end Lifecycle

namespace World

variable {w : World} {id : Text}

theorem mem_view_events {db : Db} {event : AdminEvent} :
    event ∈ (db.view id).events ↔ event ∈ db.adminEvents ∧ event.deliveryId = id := by
  simp [Db.view]

/-- The delivery waits for another attempt although an earlier outcome is unknown. -/
def RetriesUnknown (w : World) (id : Text) : Prop :=
  ∃ row, w.store.db.delivery? id = some row ∧ row.state = .pending ∧ row.possiblyDelivered = true

/-- How a delivery can come to wait for a second attempt after an unknown outcome. -/
theorem next_retriesUnknown (hkeys : w.store.db.Keys) (hwf : (w.store.db.view id).Wf) (op : Op)
    (h : (w.next op).RetriesUnknown id) :
    (w.RetriesUnknown id ∧ ¬ w.Leases op id) ∨ ∃ event, w.Consents op id event := by
  obtain ⟨last, hlast, hstate, hflag⟩ := h
  have hend := (next_evolves hkeys op id).keeps (fun v =>
    v.Wf ∧ (∀ event ∈ (w.store.db.view id).events, event ∈ v.events)
      ∧ ∀ row, v.row = some row → row.state = .pending → row.possiblyDelivered = true →
        (∃ first, w.store.db.delivery? id = some first ∧ first.state = .pending
            ∧ first.possiblyDelivered = true ∧ row.generation = first.generation)
          ∨ ((∃ extendExpired reading faults,
              op = .queueRetry id true extendExpired reading faults)
            ∧ ∃ event ∈ v.events, event ∉ (w.store.db.view id).events
              ∧ event.action = .retry ∧ event.allowDuplicate = true)) ?_ ?_
  · obtain ⟨-, -, hreason⟩ := hend
    rcases hreason last hlast hstate hflag with
      ⟨first, hfirst, hpending, hset, hgeneration⟩ | ⟨hop, event, hmem, hnew, haction, hallow⟩
    · left
      refine ⟨⟨first, hfirst, hpending, hset⟩, ?_⟩
      rintro ⟨-, row, row', hrow, hrow', hlt⟩
      rw [hfirst] at hrow
      rw [hlast] at hrow'
      cases hrow
      cases hrow'
      omega
    · right
      obtain ⟨hadded, hid⟩ := mem_view_events.1 hmem
      refine ⟨event, hop, ?_, hadded, hid, haction, hallow⟩
      intro hold
      exact hnew (mem_view_events.2 ⟨hold, hid⟩)
  · rintro e v v' hperforms hstep ⟨hwf, hgrow, hreason⟩
    refine ⟨hstep.wf hwf, fun event hmem => hstep.events (hgrow event hmem), ?_⟩
    intro row' hrow' hstate hflag
    rcases hstep.pending hwf hrow' hstate hflag with
      ⟨row, hrow, hpending, hset, hsame⟩ |
        ⟨extendExpired, now, expires, event, rfl, haction, hallow, hnew, hevents⟩
    · rcases hreason row hrow hpending hset with
        ⟨first, hfirst, hfirstState, hfirstSet, hgeneration⟩ | ⟨hop, event, hmem, hnew, hrest⟩
      · exact Or.inl ⟨first, hfirst, hfirstState, hfirstSet, hsame.trans hgeneration⟩
      · exact Or.inr ⟨hop, event, hstep.events hmem, hnew, hrest⟩
    · right
      obtain ⟨reading, faults, hop⟩ := hperforms
      refine ⟨⟨extendExpired, reading, faults, hop⟩, event, ?_, ?_, haction, hallow⟩
      · rw [hevents]
        exact List.mem_append_right _ List.mem_cons_self
      · intro hold
        exact hnew (hgrow event hold)
  · exact ⟨hwf, fun _ hmem => hmem, fun row hrow hpending hset =>
      Or.inl ⟨row, hrow, hpending, hset, rfl⟩⟩

theorem next_events {event : AdminEvent} (hkeys : w.store.db.Keys) (op : Op)
    (hmem : event ∈ w.store.db.adminEvents) : event ∈ (w.next op).store.db.adminEvents := by
  have hview : event ∈ (w.store.db.view event.deliveryId).events := mem_view_events.2 ⟨hmem, rfl⟩
  have hlast := (next_evolves hkeys op event.deliveryId).keeps (fun v => event ∈ v.events)
    (fun _ _ _ _ hstep hold => hstep.events hold) hview
  exact (mem_view_events.1 hlast).1

/-- The delivery was delivered, or may have been. -/
def Suspect (w : World) (id : Text) : Prop :=
  ∃ row, w.store.db.delivery? id = some row
    ∧ (row.possiblyDelivered = true ∨ row.state = .delivered)

theorem step_suspect {e : LifeEvent} {v v' : View} (hstep : Step e v v')
    (h : ∃ row, v.row = some row ∧ (row.possiblyDelivered = true ∨ row.state = .delivered)) :
    ∃ row, v'.row = some row ∧ (row.possiblyDelivered = true ∨ row.state = .delivered) := by
  obtain ⟨row, hrow, hflag | hstate⟩ := h
  · rcases hstep.flag hrow hflag with ⟨row', hrow', hflag'⟩ | ⟨_, _, _, row', -, -, -, hrow', hstate'⟩
    · exact ⟨row', hrow', Or.inl hflag'⟩
    · exact ⟨row', hrow', Or.inr hstate'⟩
  · exact ⟨row, hstep.delivered hrow hstate, Or.inr hstate⟩

theorem next_suspect (hkeys : w.store.db.Keys) (op : Op) (h : w.Suspect id) :
    (w.next op).Suspect id :=
  (next_evolves hkeys op id).keeps
    (fun v => ∃ row, v.row = some row ∧ (row.possiblyDelivered = true ∨ row.state = .delivered))
    (fun _ _ _ _ hstep => step_suspect hstep) h

/-- A claim that leases a suspect delivery found it waiting for a second attempt. -/
theorem Leases.retriesUnknown (hkeys : w.store.db.Keys) (hwf : (w.store.db.view id).Wf) {op : Op}
    (h : w.Leases op id) (hsuspect : w.Suspect id) : w.RetriesUnknown id := by
  obtain ⟨⟨policy, limit, keepLease, keepReader, input, rfl⟩, first, last, hfirst, hlast, hlt⟩ := h
  have hend := (next_evolves hkeys (.queueClaim policy limit keepLease keepReader input) id).keeps
    (fun v => v.Wf
      ∧ (∃ row, v.row = some row ∧ (row.possiblyDelivered = true ∨ row.state = .delivered))
      ∧ (∀ row, v.row = some row → row.state = .pending → row.possiblyDelivered = true →
          w.RetriesUnknown id)
      ∧ ∀ row, v.row = some row → row.generation = first.generation ∨ w.RetriesUnknown id) ?_ ?_
  · rcases hend.2.2.2 last hlast with hsame | hretries
    · omega
    · exact hretries
  · rintro e v v' hperforms hstep ⟨hwf, hsuspect, hpending, hgeneration⟩
    refine ⟨hstep.wf hwf, step_suspect hstep hsuspect, ?_, ?_⟩
    · intro row' hrow' hstate hflag
      rcases hstep.pending hwf hrow' hstate hflag with
        ⟨row, hrow, hold, hset, -⟩ | ⟨extendExpired, now, expires, event, rfl, -⟩
      · exact hpending row hrow hold hset
      · obtain ⟨reading, faults, hop⟩ := hperforms
        cases hop
    · intro row' hrow'
      obtain ⟨row, hrow, hknown⟩ := hsuspect
      obtain ⟨row'', hrow'', hsame | ⟨-, hready, -⟩⟩ := hstep.generation hrow
      · rw [hrow'] at hrow''
        cases hrow''
        rw [hsame]
        exact hgeneration row hrow
      · -- a candidate is ready, so it is not delivered, and a deferred one is not suspect
        right
        rcases hready with hstate | hstate
        · exact hpending row hrow hstate (by simpa [hstate] using hknown)
        · have hroute : row.route = .relay := by
            cases hroute : row.route with
            | relay => rfl
            | direct => exact absurd hroute (hwf.route row hrow)
            | localMail =>
                have hlocal := (hwf.localMail row hrow hroute).state_eq
                rw [hstate] at hlocal
                cases hlocal
          have hclear := (hwf.relayRow hrow hroute).certain_flag (Or.inl hstate)
          simp [hstate, hclear] at hknown
  · refine ⟨hwf, hsuspect, fun row hrow hstate hflag => ⟨row, hrow, hstate, hflag⟩, ?_⟩
    intro row hrow
    have hsame : row = first := Option.some.inj (hrow.symm.trans hfirst)
    exact Or.inl (by rw [hsame])

theorem run_snoc (w : World) (ops : List Op) (op : Op) :
    w.run (ops ++ [op]) = (w.run ops).next op :=
  Runs.run_snoc ops op

/-- Consent was given, and no claim has leased the delivery since. -/
def ConsentedSince (start : World) (ops : List Op) (id : Text) : Prop :=
  ∃ before retry after event, ops = before ++ retry :: after
    ∧ (start.run before).Consents retry id event
    ∧ (∀ first o rest, after = first ++ o :: rest →
        ¬ (start.run (before ++ retry :: first)).Leases o id)
    ∧ event ∈ (start.run ops).store.db.adminEvents

theorem ConsentedSince.snoc {start : World} {ops : List Op} {op : Op}
    (hkeys : (start.run ops).store.db.Keys) (h : ConsentedSince start ops id)
    (hleases : ¬ (start.run ops).Leases op id) : ConsentedSince start (ops ++ [op]) id := by
  obtain ⟨before, retry, after, event, rfl, hconsents, hsince, hmem⟩ := h
  refine ⟨before, retry, after ++ [op], event, by simp, hconsents, ?_, ?_⟩
  · intro first o rest heq
    rcases List.eq_nil_or_concat rest with rfl | ⟨rest', last, rfl⟩
    · obtain ⟨rfl, hop⟩ := List.append_inj' heq rfl
      cases hop
      exact hleases
    · have hsplit : after ++ [op] = (first ++ o :: rest') ++ [last] := by simpa using heq
      obtain ⟨hafter, -⟩ := List.append_inj' hsplit rfl
      exact hsince first o rest' hafter
  · rw [run_snoc]
    exact next_events hkeys op hmem

theorem consentedSince (root : Text) (maxMessageBytes : Nat) (ops : List Op)
    (h : ((init root maxMessageBytes).run ops).RetriesUnknown id) :
    ConsentedSince (init root maxMessageBytes) ops id := by
  induction ops using List.reverseRecOn with
  | nil =>
      obtain ⟨row, hrow, -⟩ := h
      cases hrow
  | append_singleton ops op ih =>
      have hreach := reachable_run root maxMessageBytes ops
      rw [run_snoc] at h
      rcases next_retriesUnknown hreach.keys (hreach.view_wf id) op h with
        ⟨hold, hleases⟩ | ⟨event, hconsents⟩
      · exact (ih hold).snoc hreach.keys hleases
      · refine ⟨ops, op, [], event, rfl, hconsents, by simp, ?_⟩
        rw [run_snoc]
        exact hconsents.2.2.1

theorem EndsUndetermined.suspect {start : World} (hkeys : start.store.db.Keys) {op : Op}
    (h : start.EndsUndetermined op id) (after : List Op) :
    ((start.next op).run after).Suspect id := by
  obtain ⟨row, hrow, hflag⟩ := h.flagged hkeys
  have hstart : (start.next op).store.db.Keys ∧ (start.next op).Suspect id :=
    ⟨next_keys hkeys op, row, hrow, Or.inl hflag⟩
  have hboth := Runs.invariant (fun w : World => w.store.db.Keys ∧ w.Suspect id) hstart
    (fun w o h => ⟨next_keys h.1 o, next_suspect h.1 o h.2⟩) after
  exact hboth.2

end World

/-- **No automatic duplicate dispatch.** If a claim leases a delivery of which some earlier attempt
ended in the body without a definite result, then an administrator's retry accepted a duplicate,
no claim has leased the delivery since, and the retry's event is on record. -/
theorem duplicate_only_with_consent (root : Text) (maxMessageBytes : Nat) (ops : List Op) (op : Op)
    (id : Text)
    (hearlier : ∃ before o after, ops = before ++ o :: after
      ∧ ((World.init root maxMessageBytes).run before).EndsUndetermined o id)
    (hleases : ((World.init root maxMessageBytes).run ops).Leases op id) :
    ∃ before retry after event, ops = before ++ retry :: after
      ∧ ((World.init root maxMessageBytes).run before).Consents retry id event
      ∧ (∀ first o rest, after = first ++ o :: rest →
          ¬ ((World.init root maxMessageBytes).run (before ++ retry :: first)).Leases o id)
      ∧ event ∈ ((World.init root maxMessageBytes).run ops).store.db.adminEvents := by
  obtain ⟨before, o, after, hops, hended⟩ := hearlier
  have hreach := World.reachable_run root maxMessageBytes ops
  have hsuspect : ((World.init root maxMessageBytes).run ops).Suspect id := by
    have hlater := hended.suspect (World.reachable_run root maxMessageBytes before).keys after
    rw [hops]
    unfold World.run at hlater ⊢
    rwa [Runs.run_append, Runs.run_cons]
  exact World.consentedSince root maxMessageBytes ops
    (hleases.retriesUnknown hreach.keys (hreach.view_wf id) hsuspect)

/-- A lost connection, a retry with consent, and a claim that leases the delivery again. -/
theorem duplicate_only_with_consent_second_claim :
    ∃ before retry after event,
      [Sample.enqueue, Sample.claim, .queueMarkBody 0 {}, Sample.finish 0 .connectionLost,
        Sample.retry true] = before ++ retry :: after
      ∧ (Sample.fresh.run before).Consents retry Sample.deliveryId.text event
      ∧ (∀ first o rest, after = first ++ o :: rest →
          ¬ (Sample.fresh.run (before ++ retry :: first)).Leases o Sample.deliveryId.text)
      ∧ event ∈ (Sample.fresh.run [Sample.enqueue, Sample.claim, .queueMarkBody 0 {},
        Sample.finish 0 .connectionLost, Sample.retry true]).store.db.adminEvents := by
  refine duplicate_only_with_consent [] 1000 _ Sample.claim Sample.deliveryId.text
    ⟨[Sample.enqueue, Sample.claim, .queueMarkBody 0 {}], Sample.finish 0 .connectionLost,
      [Sample.retry true], rfl, 1, ⟨⟨_, rfl, rfl, rfl⟩, rfl⟩, ?_, ?_⟩
    ⟨⟨_, _, _, _, _, rfl⟩, _, _, rfl, rfl, by decide⟩
  · rintro ⟨row, hrow, hstate, -⟩
    have hended : ((Sample.inBody.next (Sample.finish 0 .connectionLost)).store.db.delivery?
        Sample.deliveryId.text).map Delivery.state = some .uncertain := by decide
    unfold Sample.inBody Sample.fresh at hended
    rw [hrow] at hended
    simp [hstate] at hended
  · rintro outcome ⟨serial, reading, guardReading, faults, lease, hop, -⟩
    cases hop
    exact Or.inl rfl

end Rustymail
