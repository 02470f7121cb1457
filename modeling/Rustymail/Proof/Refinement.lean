import Rustymail.Commits
import Rustymail.Proof.Writes
import Rustymail.Proof.StepLemmas

/-!
# The store refines the life of each delivery

Every commit takes each delivery through events of the lifecycle that the operation may perform.
The loops of recovery, expiry and claims meet each delivery at most once, in the state in which the
transaction found it.
-/

namespace Rustymail

open Checked Loops Lifecycle

section Rows

@[simp]
theorem suppress_id (row : Delivery) (reason : String) : (row.suppress reason).id = row.id := by
  unfold Delivery.suppress
  split_ifs <;> rfl

@[simp]
theorem postponeReport_id (row : Delivery) (reason : String) (due : Int) :
    (row.postponeReport reason due).id = row.id := by
  unfold Delivery.postponeReport
  split_ifs <;> rfl

end Rows

variable {w : World} {op : Op} {db db' : Db} {id : Text} {allowed : LifeEvent → Prop}

theorem checkLease_eq_ok {lease : QueueLease} {lock : Nat} {phase : Phase} :
    checkLease db lease lock = .ok phase ↔ lock = lease.guard.lock ∧ ∃ row queued,
      db.delivery? lease.id = some row ∧ db.queueLease? lease.id = some queued
        ∧ (row.route = .relay ∧ row.state = .leased ∧ row.leaseToken = some lease.token
          ∧ row.generation = lease.generation) ∧ queued.phase = phase := by
  unfold checkLease
  simp only [bind_eq_ok, found_eq_ok, require_eq_ok, pure_eq_ok]
  constructor
  · rintro ⟨⟨⟩, hlock, row, hrow, queued, hqueued, ⟨⟩, hmatch, hphase⟩
    exact ⟨hlock, row, queued, hrow, hqueued, hmatch, hphase⟩
  · rintro ⟨hlock, row, queued, hrow, hqueued, hmatch, hphase⟩
    exact ⟨(), hlock, row, hrow, queued, hqueued, (), hmatch, hphase⟩

theorem renewTx_evolves {lease : QueueLease} {lock seconds : Nat} {now : Int}
    (h : renewTx lease lock now seconds db = .ok (db', ()))
    (hallowed : ∀ deadline, later now (seconds * 1000) = .ok deadline → id = lease.id →
      allowed (.renewed deadline)) :
    Evolves allowed (db.view id) (db'.view id) := by
  unfold renewTx at h
  simp only [bind_eq_ok, pure_eq_ok, Prod.mk.injEq, and_true] at h
  obtain ⟨phase, hcheck, deadline, hdeadline, rfl⟩ := h
  obtain ⟨-, row, queued, hrow, -, hmatch, -⟩ := checkLease_eq_ok.1 hcheck
  rw [Db.view_updateDelivery (f := Delivery.extend deadline) fun _ => rfl]
  by_cases hid : id = lease.id
  · subst hid
    have hview : (db.view lease.id).row = some row := hrow
    rw [if_pos rfl, hview]
    exact Evolves.single (hallowed deadline hdeadline rfl) (Step.renewed hview hmatch.1 hmatch.2.1)
  · rw [if_neg hid]
    exact Evolves.refl _

theorem markBodyTx_evolves {lease : QueueLease} {lock : Nat}
    (h : markBodyTx lease lock db = .ok (db', ())) (hallowed : id = lease.id → allowed .bodyMarked) :
    Evolves allowed (db.view id) (db'.view id) := by
  unfold markBodyTx at h
  simp only [bind_eq_ok, pure_eq_ok, Prod.mk.injEq, and_true] at h
  obtain ⟨phase, hcheck, rfl⟩ := h
  obtain ⟨-, row, queued, hrow, hqueued, hmatch, hphase⟩ := checkLease_eq_ok.1 hcheck
  rw [Db.view_markBody]
  by_cases hid : id = lease.id
  · subst hid
    have hview : (db.view lease.id).row = some row := hrow
    have hlease : (db.view lease.id).phase = some phase := by
      simp [Db.view, hqueued, hphase]
    rw [if_pos rfl, hlease]
    exact Evolves.single (hallowed rfl) (Step.bodyMarked hview hmatch.1 hmatch.2.1 hlease)
  · rw [if_neg hid]
    exact Evolves.refl _

theorem finishTx_evolves {lease : QueueLease} {lock : Nat} {outcome : QueueResult} {now due : Int}
    (h : finishTx lease lock outcome now due db = .ok (db', ()))
    (hallowed : id = lease.id →
      allowed (.finished outcome (saturatingAdd now lease.retryMs) due)) :
    Evolves allowed (db.view id) (db'.view id) := by
  unfold finishTx at h
  simp only [bind_eq_ok, found_eq_ok, pure_eq_ok, Prod.mk.injEq, and_true] at h
  obtain ⟨phase, hcheck, row', hrow', result, hresult, rfl⟩ := h
  obtain ⟨-, row, queued, hrow, hqueued, hmatch, hphase⟩ := checkLease_eq_ok.1 hcheck
  obtain rfl : row = row' := Option.some.inj (hrow.symm.trans hrow')
  rw [Db.view_deleteQueueLease, Db.view_updateDelivery (f := Delivery.finish _ _ _ _) fun _ => rfl]
  by_cases hid : id = lease.id
  · subst hid
    have hview : (db.view lease.id).row = some row := hrow
    have hlease : (db.view lease.id).phase = some phase := by
      simp [Db.view, hqueued, hphase]
    rw [if_pos rfl, if_pos rfl, hview]
    exact Evolves.single (hallowed rfl)
      (Step.finished hview hmatch.1 hmatch.2.1 hlease hresult)
  · rw [if_neg hid, if_neg hid]
    exact Evolves.refl _

theorem relayRow_eq_some {row : Delivery} :
    relayRow db id = some row ↔ db.delivery? id = some row ∧ row.route = .relay := by
  simp [relayRow, Option.filter_eq_some_iff]

/-- An administrative event is appended to the history of its own delivery. -/
theorem adminEvent_view {i : Text} {action : AdminAction} {old new : DeliveryState} {note : Text}
    {duplicate extend : Bool} {now : Int}
    (h : adminEvent db i action old new note duplicate extend now = .ok db') :
    ∃ event : AdminEvent, event ∉ db.adminEvents ∧ event.action = action
      ∧ event.allowDuplicate = duplicate
      ∧ ∀ id, db'.view id =
        if id = i then { db.view id with events := (db.view id).events ++ [event] }
        else db.view id := by
  obtain ⟨⟨hfresh, -⟩, -⟩ := Db.insertAdminEvent_eq_ok.1 h
  refine ⟨_, ?_, rfl, rfl, fun _ => Db.view_insertAdminEvent h⟩
  intro hmem
  exact Keyed.lookup_none_iff.1 hfresh _ hmem rfl

theorem holdTx_evolves {i : Text} {now : Int} (h : holdTx i now db = .ok (db', ()))
    (hallowed : id = i → allowed .held) : Evolves allowed (db.view id) (db'.view id) := by
  unfold holdTx at h
  simp only [bind_eq_ok, found_eq_ok, require_eq_ok, pure_eq_ok, Prod.mk.injEq, and_true] at h
  obtain ⟨row, hrow, ⟨⟩, hholdable, written, hevent, rfl⟩ := h
  obtain ⟨hrow, hroute⟩ := relayRow_eq_some.1 hrow
  obtain ⟨event, -, -, -, hview⟩ := adminEvent_view hevent
  rw [hview, Db.view_updateDelivery (f := Delivery.holdManually) fun _ => rfl]
  by_cases hid : id = i
  · subst hid
    have hold : (db.view id).row = some row := hrow
    rw [if_pos rfl, if_pos rfl, hold]
    exact Evolves.single (hallowed rfl) (Step.held hold hroute hholdable.1 hholdable.2)
  · rw [if_neg hid, if_neg hid]
    exact Evolves.refl _

theorem retryTx_evolves {i : Text} {allowDuplicate extendExpired : Bool} {now : Int}
    (h : retryTx i allowDuplicate extendExpired now db = .ok (db', ()))
    (hallowed : ∀ row queued expires, db.delivery? i = some row →
      db.queueMessage? row.messageId = some queued →
      row.retryExpiry queued.maxAgeSeconds now = .ok expires → id = i →
      allowed (.retried allowDuplicate extendExpired now expires)) :
    Evolves allowed (db.view id) (db'.view id) := by
  unfold retryTx at h
  simp only [bind_eq_ok, found_eq_ok, require_eq_ok, pure_eq_ok, Prod.mk.injEq, and_true] at h
  obtain ⟨row, hrow, queued, hqueued, ⟨⟩, hretry, expires, hexpires, written, hevent, rfl⟩ := h
  obtain ⟨hrow, hroute⟩ := relayRow_eq_some.1 hrow
  obtain ⟨event, hnew, haction, hconsent, hview⟩ := adminEvent_view hevent
  rw [hview, Db.view_updateDelivery (f := Delivery.retry now expires) fun _ => rfl]
  by_cases hid : id = i
  · subst hid
    have hold : (db.view id).row = some row := hrow
    rw [if_pos rfl, if_pos rfl, hold]
    refine Evolves.single (hallowed row queued expires hrow hqueued hexpires rfl)
      (Step.retried hold hroute hretry haction hconsent ?_)
    intro hmem
    exact hnew (List.mem_of_mem_filter hmem)
  · rw [if_neg hid, if_neg hid]
    exact Evolves.refl _

theorem closeUnknownTx_evolves {i note : Text} {now : Int}
    (h : closeUnknownTx i note now db = .ok (db', ()))
    (hallowed : ∀ now, id = i → allowed (.closed now)) :
    Evolves allowed (db.view id) (db'.view id) := by
  unfold closeUnknownTx at h
  simp only [bind_eq_ok, found_eq_ok, require_eq_ok, pure_eq_ok, Prod.mk.injEq, and_true] at h
  obtain ⟨row, hrow, ⟨⟩, hclosable, written, hevent, rfl⟩ := h
  obtain ⟨hrow, hroute⟩ := relayRow_eq_some.1 hrow
  obtain ⟨event, -, -, -, hview⟩ := adminEvent_view hevent
  rw [hview, Db.view_updateDelivery (f := Delivery.closeUnknown now) fun _ => rfl]
  by_cases hid : id = i
  · subst hid
    have hold : (db.view id).row = some row := hrow
    rw [if_pos rfl, if_pos rfl, hold]
    exact Evolves.single (hallowed now rfl)
      (Step.closed hold hroute hclosable.1 hclosable.2.1 hclosable.2.2)
  · rw [if_neg hid, if_neg hid]
    exact Evolves.refl _

theorem postpone_evolves {i : Text} {reason : String} {due : Int}
    (hallowed : allowed (.postponed reason due)) :
    Evolves allowed (db.view id)
      ((db.updateDelivery i (Delivery.postponeReport reason due)).view id) := by
  rw [Db.view_updateDelivery (postponeReport_id · reason due)]
  by_cases hid : id = i
  · rw [if_pos hid]
    obtain ⟨row, phase, report, events⟩ := db.view id
    cases row with
    | none => exact Evolves.refl _
    | some row => exact Evolves.single hallowed (Step.postponed rfl)
  · rw [if_neg hid]
    exact Evolves.refl _

/-! ### The loops -/

theorem expireTx_evolves {now : Int} {limit count : Nat}
    (hunique : Keyed.Unique Delivery.id db.deliveries)
    (h : expireTx now limit db = .ok (db', count)) (hallowed : allowed (.expired now)) :
    Evolves allowed (db.view id) (db'.view id) := by
  unfold expireTx at h
  simp only [Except.ok.injEq, Prod.mk.injEq] at h
  obtain ⟨rfl, -⟩ := h
  have hsweep := sweep_foldl (ε := StoreError)
    (fun db id => Db.updateDelivery db id (Delivery.expire now)) db (expiredIds now limit db)
  have hnodup : ((expiredIds now limit db).map fun id => id).Nodup := by
    rw [List.map_id']
    exact Keyed.unique_scan hunique
  have hframe : ∀ s (i : Text) t,
      (Except.ok (Db.updateDelivery s i (Delivery.expire now)) : Except StoreError Db) = .ok t →
      ∀ k, k ≠ i → t.view k = s.view k := by
    rintro s i t ⟨⟩ k hk
    rw [Db.view_updateDelivery (f := Delivery.expire now) fun _ => rfl, if_neg hk]
  rcases hsweep.view_cases Db.view hnodup hframe id with
    hsame | ⟨i, hi, rfl, before, after, hround, hbefore, hafter⟩
  · rw [hsame]
    exact Evolves.refl _
  · cases hround
    obtain ⟨row, hscan, rfl⟩ := List.mem_map.1 hi
    obtain ⟨hmem, hdue⟩ := Keyed.mem_of_mem_scan hscan
    rw [decide_eq_true_eq] at hdue
    have hrow : (db.view row.id).row = some row := Keyed.lookup_of_mem hunique hmem
    rw [hafter, Db.view_updateDelivery (f := Delivery.expire now) fun _ => rfl, if_pos rfl, hbefore,
      hrow]
    exact Evolves.single hallowed (Step.expired hrow hdue.1 hdue.2.1 hdue.2.2)

/-- A round of recovery passes a protected delivery over, or recovers it and nothing else. -/
theorem recoverRow_view {active : List (Text × LeaseGuard)} {now : Int} {s t : Db × Nat}
    {row : Text × Bool} (h : recoverRow active now s row = .ok t) :
    ((active.any fun entry => entry.1 = row.1) = true ∧ t = s)
      ∨ (active.any fun entry => entry.1 = row.1) = false
        ∧ ∃ next, later now 1800000 = .ok next ∧ t.2 = s.2 + 1 ∧ ∀ k, t.1.view k =
          if k = row.1 then
            { s.1.view k with row := (s.1.view k).row.map (Delivery.recover row.2 next), phase := none }
          else s.1.view k := by
  unfold recoverRow at h
  split_ifs at h with hactive
  · cases h
    exact Or.inl ⟨hactive, rfl⟩
  · simp only [bind_eq_ok, pure_eq_ok] at h
    obtain ⟨next, hnext, rfl⟩ := h
    refine Or.inr ⟨Bool.eq_false_iff.2 hactive, next, hnext, rfl, fun k => ?_⟩
    rw [Db.view_deleteQueueLease,
      Db.view_updateDelivery (f := Delivery.recover row.2 next) fun _ => rfl]
    split_ifs <;> rfl

theorem recoverRow_frame {active : List (Text × LeaseGuard)} {now : Int} {s t : Db × Nat}
    {row : Text × Bool} (h : recoverRow active now s row = .ok t) {k : Text} (hk : k ≠ row.1) :
    t.1.view k = s.1.view k := by
  rcases recoverRow_view h with ⟨-, rfl⟩ | ⟨-, next, -, -, hview⟩
  · rfl
  · rw [hview k, if_neg hk]

theorem recoverableRows_nodup {limit : Nat} {cursor : Text}
    (hunique : Keyed.Unique Delivery.id db.deliveries) :
    ((recoverableRows limit cursor db).map Prod.fst).Nodup := by
  unfold recoverableRows
  rw [List.map_map]
  exact Keyed.unique_scan hunique

/-- A scanned row is a leased delivery, with what its phase and its flag say of the body. -/
theorem mem_recoverableRows {limit : Nat} {cursor : Text} {row : Text × Bool}
    (hunique : Keyed.Unique Delivery.id db.deliveries) (h : row ∈ recoverableRows limit cursor db) :
    ∃ found phase, (db.view row.1).row = some found ∧ (db.view row.1).phase = some phase
      ∧ found.route = .relay ∧ found.state = .leased ∧ row.2 = found.unknownIn phase := by
  obtain ⟨found, hscan, rfl⟩ := List.mem_map.1 h
  obtain ⟨hfound, hleased⟩ := Keyed.mem_of_mem_scan hscan
  rw [decide_eq_true_eq] at hleased
  obtain ⟨hroute, hstate, -, hqueued⟩ := hleased
  obtain ⟨queued, hqueued⟩ := Option.isSome_iff_exists.1 hqueued
  refine ⟨found, queued.phase, Keyed.lookup_of_mem hunique hfound, ?_, hroute, hstate, ?_⟩
  · simp [Db.view, hqueued]
  · simp [Delivery.unknownIn, hqueued]

/-- What recovery leaves of a delivery: one that is scanned and unprotected is recovered, every other
one stays as it is. -/
theorem recoverTx_view {active : List (Text × LeaseGuard)} {now : Int} {limit : Nat}
    {cursor : Text} {result : Nat × List (Text × Bool)}
    (hunique : Keyed.Unique Delivery.id db.deliveries)
    (h : recoverTx active now limit cursor db = .ok (db', result)) (id : Text) :
    ((id ∉ (recoverableRows limit cursor db).map Prod.fst
        ∨ (active.any fun entry => entry.1 = id) = true) ∧ db'.view id = db.view id)
      ∨ (id ∈ (recoverableRows limit cursor db).map Prod.fst
        ∧ (active.any fun entry => entry.1 = id) = false
        ∧ ∃ found phase next, (db.view id).row = some found ∧ (db.view id).phase = some phase
          ∧ found.route = .relay ∧ found.state = .leased ∧ later now 1800000 = .ok next
          ∧ db'.view id = { db.view id with
            row := some (found.recover (found.unknownIn phase) next), phase := none }) := by
  unfold recoverTx at h
  simp only [bind_eq_ok, pure_eq_ok, Prod.mk.injEq] at h
  obtain ⟨⟨written, recovered⟩, hloop, rfl, -⟩ := h
  have hnodup := @recoverableRows_nodup _ limit cursor hunique
  have hframe : ∀ s (row : Text × Bool) t, recoverRow active now s row = .ok t →
      ∀ k, k ≠ row.1 → t.1.view k = s.1.view k :=
    fun s row t hround k hk => recoverRow_frame hround hk
  by_cases hscanned : id ∈ (recoverableRows limit cursor db).map Prod.fst
  · obtain ⟨row, hrow, rfl⟩ := List.mem_map.1 hscanned
    obtain ⟨before, after, hround, hbefore, hafter⟩ :=
      foldlM_view (fun s k => s.1.view k) hloop hnodup hframe hrow
    dsimp only at hbefore hafter
    rcases recoverRow_view hround with ⟨hactive, rfl⟩ | ⟨hfree, next, hnext, -, hview⟩
    · exact Or.inl ⟨Or.inr hactive, hafter.trans hbefore⟩
    · obtain ⟨found, phase, hfound, hphase, hroute, hstate, hunknown⟩ :=
        mem_recoverableRows hunique hrow
      refine Or.inr ⟨hscanned, hfree, found, phase, next, hfound, hphase, hroute, hstate, hnext, ?_⟩
      rw [hafter, hview, if_pos rfl, hbefore, hfound, hunknown]
      rfl
  · refine Or.inl ⟨Or.inl hscanned, ?_⟩
    refine (sweep_foldlM hloop).view_eq (fun s k => s.1.view k) hframe ?_
    intro row hrow heq
    exact hscanned (heq ▸ List.mem_map_of_mem hrow)

theorem recoverTx_evolves {active : List (Text × LeaseGuard)} {now : Int} {limit : Nat}
    {cursor : Text} {result : Nat × List (Text × Bool)}
    (hunique : Keyed.Unique Delivery.id db.deliveries)
    (h : recoverTx active now limit cursor db = .ok (db', result))
    (hallowed : ∀ next, later now 1800000 = .ok next →
      (active.any fun entry => entry.1 = id) = false → allowed (.recovered next)) :
    Evolves allowed (db.view id) (db'.view id) := by
  rcases recoverTx_view hunique h id with
    ⟨-, hsame⟩ | ⟨-, hfree, found, phase, next, hrow, hphase, hroute, hstate, hnext, hview⟩
  · rw [hsame]
    exact Evolves.refl _
  · rw [hview]
    exact Evolves.single (hallowed next hnext hfree) (Step.recovered hrow hroute hstate hphase)

/-- One round of the claim loop passes its candidate over, exhausts it, or grants its lease. -/
inductive ClaimRound (ctx : ClaimContext) (c : Delivery) (p : ClaimProgress) : ClaimProgress → Prop
  | skipped : ClaimRound ctx c p { p with last := some (c.nextAttemptAtMs, c.id) }
  | exhausted (halive : ctx.now < c.expiresAtMs) : ClaimRound ctx c p
      { p with
        db := p.db.updateDelivery c.id Delivery.exhaust
        last := some (c.nextAttemptAtMs, c.id) }
  | granted {recipient : Address} {message : Message} {queued : QueueMessage} {blob : Blob}
      {deadline : Int} {db : Db} {lease : QueueLease}
      (hfree : (ctx.active.any fun entry => entry.1 = c.id) = false)
      (hparse : Address.parse c.recipient = some recipient)
      (hdomain : p.domains.count recipient.domain < ctx.policy.perDomain)
      (hjoin : claimMessage p.db c.messageId = some (message, queued, blob))
      (hinsert : (p.db.updateDelivery c.id
        (Delivery.lease (ctx.token c.id).text deadline)).insertQueueLease ⟨c.id, .ready⟩ = .ok db)
      (hid : lease.id = c.id) (htoken : lease.token = (ctx.token c.id).text)
      (hgeneration : lease.generation = c.generation + 1) (hrecipient : lease.recipient = recipient)
      (hguard : lease.guard = ⟨ctx.nextGuard + p.leases.length, ctx.lock, recipient.domain⟩)
      (hdeadline : later ctx.now (ctx.policy.leaseSeconds * 1000) = .ok deadline)
      (halive : ctx.now < c.expiresAtMs) :
      ClaimRound ctx c p
        { db := db
          domains := recipient.domain :: p.domains
          leases := p.leases ++ [lease]
          last := some (c.nextAttemptAtMs, c.id) }

theorem claimOne_round {ctx : ClaimContext} {c : Delivery} {p p' : ClaimProgress}
    (h : claimOne ctx c p = .ok p') : ClaimRound ctx c p p' := by
  unfold claimOne at h
  dsimp only at h
  split_ifs at h with hactive hexpired hcounter
  · cases h
    exact .skipped
  · cases h
    exact .skipped
  · cases h
    exact .exhausted (by omega)
  · rw [bind_eq_ok] at h
    obtain ⟨recipient, hparse, h⟩ := h
    rw [found_eq_ok] at hparse
    split_ifs at h with hdomain
    · cases h
      exact .skipped
    · unfold grantLease at h
      simp only [bind_eq_ok, found_eq_ok, pure_eq_ok] at h
      obtain ⟨⟨message, queued, blob⟩, hjoin, sender, hsender, deadline, hdeadline, db, hinsert, rfl⟩ :=
        h
      exact .granted (Bool.eq_false_iff.2 hactive) hparse (by omega) hjoin hinsert rfl rfl rfl rfl rfl
        hdeadline (by omega)

theorem sweep_claimLoop {ctx : ClaimContext} {rows : List Delivery} {p p' : ClaimProgress}
    (h : claimLoop ctx rows p = .ok p') :
    Sweep (fun p c => claimOne ctx c p) p rows p' := by
  induction rows generalizing p with
  | nil =>
      cases h
      exact Sweep.stop
  | cons c rows ih =>
      unfold claimLoop at h
      rw [bind_eq_ok] at h
      obtain ⟨middle, hone, h⟩ := h
      split_ifs at h with hfull
      · rw [pure_eq_ok] at h
        subst h
        exact Sweep.next hone Sweep.stop
      · exact Sweep.next hone (ih h)

theorem ClaimRound.view_eq {ctx : ClaimContext} {c : Delivery} {p p' : ClaimProgress}
    (h : ClaimRound ctx c p p') {k : Text} (hk : k ≠ c.id) : p'.db.view k = p.db.view k := by
  cases h with
  | skipped => rfl
  | exhausted =>
      dsimp only
      rw [Db.view_updateDelivery (f := Delivery.exhaust) fun _ => rfl, if_neg hk]
  | granted hfree hparse hdomain hjoin hinsert =>
      dsimp only
      rw [Db.view_insertQueueLease hinsert, if_neg hk,
        Db.view_updateDelivery (f := Delivery.lease _ _) fun _ => rfl, if_neg hk]

/-- A candidate is a ready row of the database the claim started from, and due. -/
theorem mem_candidates {now : Int} {cursor : Int × Text} {c : Delivery}
    (h : c ∈ candidates now cursor db) :
    c ∈ db.deliveries ∧ c.route = .relay ∧ c.Ready ∧ c.nextAttemptAtMs ≤ now := by
  obtain ⟨hmem, hready⟩ := Keyed.mem_of_mem_scan h
  rw [decide_eq_true_eq] at hready
  exact ⟨hmem, hready.1, hready.2.1, hready.2.2.1⟩

theorem candidates_unique {now : Int} {cursor : Int × Text}
    (hunique : Keyed.Unique Delivery.id db.deliveries) :
    ((candidates now cursor db).map Delivery.id).Nodup :=
  Keyed.unique_scan hunique

theorem claimTx_eq_ok {ctx : ClaimContext} {cursor : Int × Text} {domains : List Text}
    {progress : ClaimProgress} {rows : List Delivery}
    (h : claimTx ctx cursor domains db = .ok (db', progress, rows)) :
    Sweep (fun p c => claimOne ctx c p) ⟨db, domains, [], none⟩ (candidates ctx.now cursor db) progress
      ∧ progress.db = db' := by
  unfold claimTx at h
  simp only [bind_eq_ok, pure_eq_ok, Prod.mk.injEq] at h
  obtain ⟨progress', hloop, hdb, rfl, -⟩ := h
  exact ⟨sweep_claimLoop hloop, hdb⟩

theorem claimTx_evolves {ctx : ClaimContext} {cursor : Int × Text} {domains : List Text}
    {result : ClaimProgress × List Delivery} (hunique : Keyed.Unique Delivery.id db.deliveries)
    (h : claimTx ctx cursor domains db = .ok (db', result))
    (hleased : ∀ token deadline, later ctx.now (ctx.policy.leaseSeconds * 1000) = .ok deadline →
      allowed (.leased token ctx.now deadline)) (hexhausted : allowed (.exhausted ctx.now)) :
    Evolves allowed (db.view id) (db'.view id) := by
  obtain ⟨progress, rows⟩ := result
  obtain ⟨hsweep, rfl⟩ := claimTx_eq_ok h
  have hframe : ∀ s (c : Delivery) t, claimOne ctx c s = .ok t →
      ∀ k, k ≠ c.id → t.db.view k = s.db.view k := by
    intro s c t hround k hk
    exact (claimOne_round hround).view_eq hk
  rcases hsweep.view_cases (fun s k => s.db.view k) (candidates_unique hunique) hframe id with
    hsame | ⟨c, hmem, rfl, before, after, hround, hbefore, hafter⟩
  · rw [hsame]
    exact Evolves.refl _
  · obtain ⟨hmem, hroute, hready, hdue⟩ := mem_candidates hmem
    have hrow : (db.view c.id).row = some c := Keyed.lookup_of_mem hunique hmem
    dsimp only at hbefore hafter
    cases claimOne_round hround with
    | skipped =>
        rw [hafter]
        dsimp only
        rw [hbefore]
        exact Evolves.refl _
    | exhausted halive =>
        rw [hafter]
        dsimp only
        rw [Db.view_updateDelivery (f := Delivery.exhaust) fun _ => rfl, if_pos rfl, hbefore, hrow]
        exact Evolves.single hexhausted (Step.exhausted hrow hroute hready hdue halive)
    | granted hfree hparse hdomain hjoin hinsert _ _ _ _ _ hdeadline halive =>
        have hphase : (db.view c.id).phase = none := by
          obtain ⟨⟨hnone, -⟩, -⟩ := Db.insertQueueLease_eq_ok.1 hinsert
          rw [← hbefore]
          exact congrArg (Option.map QueueLeaseRow.phase) hnone
        rw [hafter]
        dsimp only
        rw [Db.view_insertQueueLease hinsert, if_pos rfl,
          Db.view_updateDelivery (f := Delivery.lease _ _) fun _ => rfl, if_pos rfl, hbefore, hrow]
        exact Evolves.single (hleased _ _ hdeadline)
          (Step.leased hrow hroute hready hphase hdue halive)

theorem nextFailure_row {now : Int} {failure : Failure} (h : nextFailure now db = some failure) :
    ∃ row ∈ db.deliveries, failure.id = row.id
      ∧ row.route = .relay ∧ row.state = .failed ∧ row.notificationState = .pending
      ∧ row.notificationDueMs ≤ now := by
  unfold nextFailure at h
  simp only [Option.bind_eq_bind, Option.bind_eq_some_iff, Option.some.injEq] at h
  obtain ⟨row, hhead, message, -, rfl⟩ := h
  have hmem : row ∈ dueFailures now db := List.mem_of_head? hhead
  unfold dueFailures at hmem
  rw [List.mem_insertionSort, List.mem_filter, decide_eq_true_eq] at hmem
  exact ⟨row, hmem.1, rfl, hmem.2.1, hmem.2.2.1, hmem.2.2.2.1, hmem.2.2.2.2.1⟩

theorem prepareReport_deliveryId {store : Store} {policy : NotificationPolicy}
    {postmaster : Address} {failure : Failure} {now : Int} {input : NotificationInput}
    {task : NotificationTask}
    (h : prepareReport store policy postmaster failure now input = .ok task) :
    task.plan.deliveryId = failure.id := by
  unfold prepareReport at h
  simp only [bind_eq_ok] at h
  obtain ⟨recipient, -, bytes, -, h⟩ := h
  split_ifs at h with hlocal
  · simp only [bind_eq_ok, pure_eq_ok] at h
    obtain ⟨_, -, _, -, _, -, rfl⟩ := h
    rfl
  · simp only [bind_eq_ok, pure_eq_ok] at h
    obtain ⟨_, -, _, -, rfl⟩ := h
    rfl

/-- Where the task comes from that `notification_next` hands out. -/
theorem notificationNext_task {store : Store} {policy : NotificationPolicy}
    {input : NotificationInput} {task : NotificationTask}
    (h : (notificationNext store policy input).2 = .ok (.prepare task)) :
    ∃ postmaster now failure, policy.validate = .ok postmaster
      ∧ (store.queue.now input.reading).2 = .ok now ∧ nextFailure now store.db = some failure
      ∧ ∃ queue, prepareReport { store with queue := queue } policy postmaster failure now input
        = .ok task := by
  unfold notificationNext at h
  cases hvalidate : policy.validate with
  | error e => simp [hvalidate] at h
  | ok postmaster =>
      simp only [hvalidate] at h
      split at h
      · cases h
      · next queue now hnow =>
          cases hdue : nextFailure now store.db with
          | none => simp [hdue] at h
          | some failure =>
              refine ⟨postmaster, now, failure, rfl, by rw [hnow], hdue, queue, ?_⟩
              simp only [hdue] at h
              cases hsuppressed : failure.suppressed with
              | some reason =>
                  simp only [hsuppressed] at h
                  unfold Store.autocommit at h
                  cases h
              | none =>
                  simp only [hsuppressed] at h
                  split at h
                  · next hprepared =>
                      cases h
                      exact hprepared
                  · split at h
                    · cases h
                    · cases h

/-! ### Intake -/

section Intake

variable {now : Int}
  (hcreated : ∀ row : Delivery, row.nextAttemptAtMs = now →
    row.destinationDomain = domainPart row.recipient → allowed (.created row))
include hcreated

theorem insertDelivery_evolves {row : Delivery} (hfresh : row.Fresh)
    (hdue : row.nextAttemptAtMs = now) (hdomain : row.destinationDomain = domainPart row.recipient)
    (h : db.insertDelivery row = .ok db') : Evolves allowed (db.view id) (db'.view id) := by
  obtain ⟨⟨hnone, -⟩, -⟩ := Db.insertDelivery_eq_ok.1 h
  rw [Db.view_insertDelivery h]
  by_cases hid : id = row.id
  · subst hid
    rw [if_pos rfl]
    exact Evolves.single (hcreated row hdue hdomain) (Step.created hfresh hnone)
  · rw [if_neg hid]
    exact Evolves.refl _

theorem deliver_evolves {delivery : Uuid} {recipient message : Text} {size : Nat}
    (h : deliver delivery recipient message size now db = .ok db') :
    Evolves allowed (db.view id) (db'.view id) := by
  obtain ⟨account, mailbox, hfound, rfl⟩ := deliver_eq_ok h
  have hinsert : db.insertDelivery
      (localDelivery delivery recipient (domainPart recipient) message now) = .ok _ :=
    Db.insertDelivery_eq_ok.2 ⟨⟨hfound.fresh, hfound.fresh_recipient, hfound.message⟩, rfl⟩
  have hview : (db.delivered account mailbox delivery recipient message size now).view id
      = ({ db with deliveries := db.deliveries ++
          [localDelivery delivery recipient (domainPart recipient) message now] } : Db).view id :=
    Db.view_congr rfl rfl rfl rfl
  rw [hview]
  exact insertDelivery_evolves hcreated (.delivered _ _ _ _ _) rfl rfl hinsert

theorem insertRelay_evolves {ids : Text → Uuid} {message : Text} {recipients : List Text}
    {body : QueueBody} {age : Nat} (h : insertRelay ids message recipients body age now db = .ok db') :
    Evolves allowed (db.view id) (db'.view id) := by
  obtain ⟨expires, queued, -, hqueued, hloop⟩ := insertRelay_eq_ok h
  obtain ⟨-, rfl⟩ := Db.insertQueueMessage_eq_ok.1 hqueued
  refine (sweep_foldlM hloop).relates
    (fun s t => Evolves allowed (s.view id) (t.view id)) (fun s => Evolves.refl _)
    (fun s t u => Evolves.trans) ?_
  intro s recipient t _ hround
  obtain ⟨-, hinsert⟩ := insertRelayDelivery_eq_ok hround
  exact insertDelivery_evolves hcreated (.pending _ _ _ _ _ _) rfl rfl hinsert

theorem writeAcceptance_evolves {ids : FreshIds} {message : PreparedMessage} {plan : Acceptance}
    {identity : Option SubmissionIdentity} {relay : Option RelayAcceptance}
    (h : writeAcceptance ids message plan identity relay now db = .ok db') :
    Evolves allowed (db.view id) (db'.view id) := by
  obtain ⟨-, delivered, hlocal, h⟩ := writeAcceptance_eq_ok h
  have hdelivered : Evolves allowed (db.view id) (delivered.view id) := by
    refine (sweep_foldlM hlocal).relates
      (fun s t => Evolves allowed (s.view id) (t.view id)) (fun s => Evolves.refl _)
      (fun s t u => Evolves.trans) ?_
    intro s recipient t _ hround
    exact deliver_evolves hcreated hround
  rcases h with ⟨-, rfl⟩ | ⟨r, -, hrelay⟩
  · exact hdelivered
  · exact hdelivered.trans (insertRelay_evolves hcreated hrelay)

theorem writeEnqueue_evolves {ids : FreshIds} {message : PreparedMessage} {plan : QueuePlan}
    (h : writeEnqueue ids message plan now db = .ok db') :
    Evolves allowed (db.view id) (db'.view id) := by
  obtain ⟨-, hrelay⟩ := writeEnqueue_eq_ok h
  have hevolves : Evolves allowed _ (db'.view id) := insertRelay_evolves hcreated hrelay
  exact hevolves

theorem placeReport_evolves {delivery : Uuid} {plan : NotificationPlan} {size : Nat}
    (h : placeReport delivery plan size now db = .ok db') :
    Evolves allowed (db.view id) (db'.view id) := by
  unfold placeReport at h
  split_ifs at h
  · exact deliver_evolves hcreated h
  · exact insertRelay_evolves hcreated h

omit hcreated in
/-- Placing a report leaves the delivery it is about as it was. -/
theorem writeReport_keeps {delivery : Uuid} {prepared : PreparedNotification} {placed : Db}
    {row : Delivery}
    (hplaced : placeReport delivery prepared.plan prepared.message.size now
      (db.withMessage (prepared.message.blobRow now) (reportRow prepared now)) = .ok placed)
    (hrow : db.delivery? id = some row) (hnew : db.notification? id = none) :
    (placed.view id).row = some row ∧ (placed.view id).report = none := by
  have hfirst : Evolves (fun e => ∃ row, e = .created row) _ (placed.view id) :=
    placeReport_evolves (fun row _ _ => ⟨row, rfl⟩) hplaced
  have hstart : (db.view id).row = some row ∧ (db.view id).report = none := ⟨hrow, hnew⟩
  refine hfirst.keeps (fun v => v.row = some row ∧ v.report = none) ?_ hstart
  rintro e v v' ⟨fresh, rfl⟩ hstep ⟨hold, hreport⟩
  cases hstep with
  | created hfresh hnone =>
      rw [hold] at hnone
      cases hnone

omit hcreated in
theorem eligible_eq_true {plan : NotificationPlan} (h : eligible db plan = true) :
    ∃ row message, db.delivery? plan.deliveryId = some row
      ∧ (row.state = .failed ∧ row.route = .relay ∧ row.possiblyDelivered = false
        ∧ row.notificationState = .pending)
      ∧ db.message? row.messageId = some message
      ∧ message.source = .submission ∧ message.authenticatedAccountId.isSome = true
      ∧ message.reversePath = plan.recipient.asStr := by
  unfold eligible at h
  cases hrow : db.delivery? plan.deliveryId with
  | none => simp [hrow] at h
  | some row =>
      simp only [hrow, Bool.and_eq_true, decide_eq_true_eq, Option.any_eq_true] at h
      obtain ⟨hstate, message, hmessage, hsource⟩ := h
      exact ⟨row, message, rfl, hstate, hmessage, hsource⟩

/-- A report adds its own delivery and settles the one it is about. -/
theorem writeReport_evolves {delivery : Uuid} {prepared : PreparedNotification}
    (hnew : db.notification? prepared.plan.deliveryId = none)
    (heligible : eligible db prepared.plan = true)
    (h : writeReport delivery prepared now db = .ok db')
    (hreported : ∀ notification : Notification, notification.createdAtMs = now →
      prepared.plan.deliveryId = id → allowed (.reported notification)) :
    Evolves allowed (db.view id) (db'.view id) := by
  obtain ⟨-, placed, noted, hplaced, hnoted, rfl⟩ := writeReport_eq_ok h
  have hfirst : Evolves allowed _ (placed.view id) := placeReport_evolves hcreated hplaced
  change Evolves allowed (db.view id) (placed.view id) at hfirst
  refine hfirst.trans ?_
  rw [Db.view_updateDelivery (f := Delivery.reportCreated) fun _ => rfl,
    Db.view_insertNotification hnoted]
  dsimp only
  by_cases hid : id = prepared.plan.deliveryId
  · obtain ⟨row, -, hrow, hdue, -⟩ := eligible_eq_true heligible
    have hkept := writeReport_keeps hplaced hrow hnew
    subst hid
    rw [if_pos rfl, if_pos rfl, hkept.1]
    exact Evolves.single (hreported _ rfl rfl)
      (Step.reported hkept.1 hdue.2.1 hdue.1 hdue.2.2.1 hdue.2.2.2 hkept.2)
  · rw [if_neg hid, if_neg hid]
    exact Evolves.refl _

end Intake

theorem suppress_evolves {now : Int} {failure : Failure} {reason : String}
    (hunique : Keyed.Unique Delivery.id db.deliveries) (hdue : nextFailure now db = some failure)
    (hallowed : allowed (.suppressed reason now)) :
    Evolves allowed (db.view id)
      ((db.updateDelivery failure.id (Delivery.suppress reason)).view id) := by
  rw [Db.view_updateDelivery (suppress_id · reason)]
  by_cases hid : id = failure.id
  · rw [if_pos hid]
    obtain ⟨row, hhead, hid', hfailed⟩ := nextFailure_row hdue
    have hrow : (db.view id).row = some row := by
      rw [hid, hid']
      exact Keyed.lookup_of_mem hunique hhead
    rw [hrow]
    exact Evolves.single hallowed
      (Step.suppressed hrow hfailed.1 hfailed.2.1 hfailed.2.2.1 hfailed.2.2.2)
  · rw [if_neg hid]
    exact Evolves.refl _

end Rustymail
