import Rustymail.Lib.Visits
import Rustymail.Proof.ClockChanged
import Rustymail.Proof.Cursors
import Rustymail.Proof.Fencing
import Rustymail.Proof.Holding
import Rustymail.Proof.Relaying
import Rustymail.Proof.TrustedTimes

/-!
# Recovery reaches every orphan

A recovery call scans a batch behind its cursor, recovers the scanned deliveries that nobody holds,
and moves the cursor to the last one scanned, or back to the start. An orphaned delivery stays as it
is until a call reaches it, so that the calls of one sweep recover each orphan exactly once.
-/

namespace Rustymail

open Checked Lifecycle

/-- A call of `queue_recover`: the store it finds and what it is given. -/
structure RecoverCall where
  store : Store
  limit : Nat
  reading : Reading
  faults : Faults

def RecoverCall.run (call : RecoverCall) (live : LeaseGuard → Bool) : Store × Except StoreError Nat :=
  queueRecover call.store call.limit live call.reading call.faults

/-- The recovery call inside an operation. -/
def World.recoverCall? (w : World) : Op → Option RecoverCall
  | .queueRecover limit reading faults =>
      if w.opened then some ⟨w.store, limit, reading, faults⟩ else none
  | .queueClaim policy limit _ _ input =>
      if w.opened ∧ policy.Valid ∧ 1 ≤ limit ∧ limit ≤ batch then
        match w.store.queue.now input.guardReading with
        | (_, .error _) => none
        | (queue, .ok _) =>
            some ⟨{ w.store with queue := queue }, batch, input.recoverReading, input.recoverFaults⟩
      else none
  | _ => none

/-- Somebody holds a lease of the delivery, or a reader of its body. -/
def World.Guarded (w : World) (id : Text) : Prop := ∃ guard, w.live guard = true ∧ w.GuardOf guard id

/-- The recovery call inside the operation takes this delivery out of its lease: what its phase and
its flag say of the body decides between an unknown outcome and another attempt. -/
def World.Moves (w : World) (id : Text) (v : View) (op : Op) : Prop :=
  w.store.db.view id = v ∧ ∃ call row phase now, w.recoverCall? op = some call
    ∧ call.reading.nowMs = .ok now ∧ v.row = some row ∧ row.state = .leased ∧ v.phase = some phase
    ∧ (call.run w.live).1.db.view id =
      { v with
        row := some (row.recover (row.unknownIn phase) (now + 1800000))
        phase := none }

section Call

variable {s : Store} {limit : Nat} {live : LeaseGuard → Bool} {reading : Reading} {faults : Faults}

/-- A call that recovers nothing writes nothing. -/
theorem recoverTx_zero {active : List (Text × LeaseGuard)} {now : Int} {cursor : Text} {db db' : Db}
    {rows : List (Text × Bool)} (h : recoverTx active now limit cursor db = .ok (db', 0, rows)) :
    db' = db := by
  unfold recoverTx at h
  simp only [bind_eq_ok, pure_eq_ok, Prod.mk.injEq] at h
  obtain ⟨⟨written, recovered⟩, hloop, rfl, rfl, -⟩ := h
  refine (Loops.sweep_foldlM hloop).keeps (fun progress => progress.2 = 0 → progress.1 = db) ?_
    (fun _ => rfl) rfl
  intro progress row progress' _ hround hprogress
  rcases recoverRow_view hround with ⟨-, rfl⟩ | ⟨-, next, -, hcount, -⟩
  · exact hprogress
  · intro hzero
    omega

theorem recoverTx_rows {active : List (Text × LeaseGuard)} {now : Int} {cursor : Text} {db db' : Db}
    {count : Nat} {rows : List (Text × Bool)}
    (h : recoverTx active now limit cursor db = .ok (db', count, rows)) :
    rows = recoverableRows limit cursor db := by
  unfold recoverTx at h
  simp only [bind_eq_ok, pure_eq_ok, Prod.mk.injEq] at h
  obtain ⟨-, -, -, -, rfl⟩ := h
  rfl

/-- Where a successful recovery call leaves its cursor. -/
def nextRecoveryCursor (limit : Nat) (rows : List (Text × Bool)) : Text :=
  if rows.length = limit then (rows.getLast?.map Prod.fst).getD [] else []

/-- A recovery call fails and leaves everything, or its whole batch is written, which it reports
together with the new cursor unless it cannot know. -/
theorem queueRecover_cases (s : Store) (limit : Nat) (live : LeaseGuard → Bool) (reading : Reading)
    (faults : Faults) :
    (∃ e, (queueRecover s limit live reading faults).2 = .error e
        ∧ (queueRecover s limit live reading faults).1.db = s.db
        ∧ (queueRecover s limit live reading faults).1.queue.cursors = s.queue.cursors)
      ∨ ∃ now count, reading.nowMs = .ok now
        ∧ recoverTx (s.queue.retain live).active now limit s.queue.recoveryCursor s.db
          = .ok ((queueRecover s limit live reading faults).1.db, count,
            recoverableRows limit s.queue.recoveryCursor s.db)
        ∧ (((queueRecover s limit live reading faults).2 = .ok count
            ∧ 1 ≤ limit ∧ (queueRecover s limit live reading faults).1.queue.cursors
              = (nextRecoveryCursor limit (recoverableRows limit s.queue.recoveryCursor s.db),
                s.queue.readyCursor))
          ∨ ((queueRecover s limit live reading faults).2 = .error .queueOutcomeUnknown
            ∧ (queueRecover s limit live reading faults).1.queue.cursors = s.queue.cursors)) := by
  unfold queueRecover
  by_cases hlimit : 1 ≤ limit ∧ limit ≤ batch
  swap
  · rw [if_neg hlimit]
    exact Or.inl ⟨_, rfl, rfl, rfl⟩
  rw [if_pos hlimit]
  cases hnow : reading.nowMs with
  | error e => exact Or.inl ⟨e, rfl, rfl, rfl⟩
  | ok now =>
      dsimp only
      unfold Store.transaction
      dsimp only
      cases hbody : recoverTx (s.queue.retain live).active now limit
          (s.queue.retain live).recoveryCursor s.db with
      | error e => exact Or.inl ⟨e, rfl, rfl, rfl⟩
      | ok result =>
          obtain ⟨db, count, rows⟩ := result
          obtain rfl : rows = recoverableRows limit s.queue.recoveryCursor s.db := recoverTx_rows hbody
          dsimp only
          by_cases hzero : count = 0
          · subst hzero
            obtain rfl : db = s.db := recoverTx_zero hbody
            rw [if_pos rfl]
            exact Or.inr ⟨now, 0, rfl, hbody, Or.inl ⟨rfl, hlimit.1, rfl⟩⟩
          · rw [if_neg hzero]
            unfold Store.commit
            by_cases hbefore : faults.hit .queueBeforeCommit = true
            · rw [if_pos hbefore]
              exact Or.inl ⟨_, rfl, rfl, rfl⟩
            rw [if_neg hbefore]
            cases faults.report with
            | failed => exact Or.inl ⟨_, rfl, rfl, rfl⟩
            | failedButApplied => exact Or.inr ⟨now, count, rfl, hbody, Or.inr ⟨rfl, rfl⟩⟩
            | ok =>
                dsimp only
                by_cases hafter : faults.hit .queueAfterCommit = true
                · rw [if_pos hafter]
                  exact Or.inr ⟨now, count, rfl, hbody, Or.inr ⟨rfl, rfl⟩⟩
                · rw [if_neg hafter]
                  exact Or.inr ⟨now, count, rfl, hbody, Or.inl ⟨rfl, hlimit.1, rfl⟩⟩

/-- An orphan beyond the cursor is scanned, or the scan is full of rows before it and the cursor
moves to one of them. -/
theorem recoverableRows_reach {db : Db} {cursor id : Text} {row : Delivery} {phase : Phase}
    (hlimit : 1 ≤ limit) (hrow : (db.view id).row = some row) (hphase : (db.view id).phase = some phase)
    (hroute : row.route = .relay) (hstate : row.state = .leased) (hcursor : cursor < id) :
    id ∈ (recoverableRows limit cursor db).map Prod.fst
      ∨ ∃ last, nextRecoveryCursor limit (recoverableRows limit cursor db) = last ∧ last ≠ []
        ∧ last < id := by
  have : Std.Total fun a b : Delivery => a.id ≤ b.id := ⟨fun a b => List.le_total a.id b.id⟩
  have : IsTrans Delivery fun a b => a.id ≤ b.id := ⟨fun _ _ _ => List.le_trans⟩
  have hid : row.id = id := Keyed.lookup_some_key hrow
  obtain ⟨queued, hqueued, -⟩ := Option.map_eq_some_iff.1 hphase
  have hmatches : decide (row.route = .relay ∧ row.state = .leased ∧ cursor < row.id
      ∧ (db.queueLease? row.id).isSome) = true := by
    rw [hid]
    exact decide_eq_true ⟨hroute, hstate, hcursor, Option.isSome_iff_exists.2 ⟨queued, hqueued⟩⟩
  rcases @Keyed.scan_complete Delivery db.deliveries row (fun d => decide (d.route = .relay
      ∧ d.state = .leased ∧ cursor < d.id ∧ (db.queueLease? d.id).isSome)) (fun a b => a.id ≤ b.id)
      _ limit _ _ (Keyed.mem_of_lookup hrow) hmatches with hin | ⟨hfull, hbefore⟩
  · refine Or.inl ?_
    unfold recoverableRows
    rw [List.map_map]
    exact List.mem_map.2 ⟨row, hin, hid⟩
  · generalize hscan : ((db.deliveries.filter fun d => decide (d.route = .relay ∧ d.state = .leased
      ∧ cursor < d.id ∧ (db.queueLease? d.id).isSome)).insertionSort fun a b => a.id ≤ b.id).take
        limit = scan at hfull hbefore
    have hrows : recoverableRows limit cursor db = scan.map fun d => (d.id,
        (db.queueLease? d.id).any (fun q => decide (q.phase = .body)) || d.possiblyDelivered) := by
      rw [← hscan]
      rfl
    rw [hrows, List.map_map]
    by_cases hin : id ∈ scan.map fun d => d.id
    · exact Or.inl hin
    have hne : scan ≠ [] := List.ne_nil_of_length_pos (by omega)
    obtain ⟨last, hlast⟩ := Option.ne_none_iff_exists'.1 (mt List.getLast?_eq_none_iff.1 hne)
    have hmem : last ∈ scan := List.mem_of_getLast? hlast
    refine Or.inr ⟨last.id, ?_, ?_, ?_⟩
    · unfold nextRecoveryCursor
      rw [List.length_map, if_pos hfull, List.getLast?_map, hlast]
      rfl
    · rw [← hscan] at hmem
      have hbeyond := of_decide_eq_true (Keyed.mem_of_mem_scan hmem).2
      intro hnil
      rw [hnil] at hbeyond
      exact List.not_lt_nil cursor hbeyond.2.2.1
    · rcases List.le_iff_lt_or_eq.1 (hid ▸ hbefore last hmem) with hlt | heq
      · exact hlt
      · exact absurd (List.mem_map.2 ⟨last, hmem, heq⟩) hin

end Call

/-! ### The rest of a claim -/

/-- Expiry, leasing and exhausting concern deliveries that are not leased. -/
def Sweeping (e : LifeEvent) : Prop :=
  (∃ now, e = .expired now) ∨ (∃ token now deadline, e = .leased token now deadline)
    ∨ ∃ now, e = .exhausted now

theorem claimReady_recoveryCursor (s : Store) (policy : QueuePolicy) (limit : Nat) (now : Int)
    (counted : LeaseGuard → Bool) (input : ClaimInput) :
    (claimReady s policy limit now counted input).1.queue.recoveryCursor = s.queue.recoveryCursor := by
  unfold claimReady
  dsimp only
  split_ifs
  · rfl
  · generalize hctx : (⟨policy, now, min (policy.concurrency - s.queue.active.length) limit,
      s.queue.active, s.lock, s.nextGuard, input.token, input.random⟩ : ClaimContext) = ctx
    have hcursors : s.SameCursors (Store.transaction _ _ _).1 :=
      .transaction (claimTx ctx (s.queue.readyCursor.getD (-1, []))
        (activeDomains s.queue.active counted)) (atomic_commit input.claimFaults)
    split <;> rename_i hresult <;> rw [hresult] at hcursors
    · exact congrArg Prod.fst hcursors
    · exact congrArg Prod.fst hcursors

/-- What a claim does once its recovery call has returned. -/
theorem queueClaim_after {s : Store} {policy : QueuePolicy} {limit : Nat}
    {live counted : LeaseGuard → Bool} {input : ClaimInput} {queue : QueueRuntime} {now : Int}
    (hvalid : policy.Valid ∧ 1 ≤ limit ∧ limit ≤ batch)
    (hnow : s.queue.now input.guardReading = (queue, .ok now)) {recovered : Store}
    (hrecovered : (queueRecover { s with queue := queue } batch live input.recoverReading
      input.recoverFaults).1 = recovered) (hkeys : recovered.db.Keys) (id : Text) :
    (queueClaim s policy limit live counted input).1.queue.recoveryCursor
        = recovered.queue.recoveryCursor
      ∧ Evolves Sweeping (recovered.db.view id)
        ((queueClaim s policy limit live counted input).1.db.view id) := by
  unfold queueClaim
  rw [if_pos hvalid, hnow]
  dsimp only
  generalize hcall : queueRecover { s with queue := queue } batch live input.recoverReading
    input.recoverFaults = call at hrecovered
  obtain ⟨first, result⟩ := call
  obtain rfl : first = recovered := hrecovered
  cases result with
  | error e => exact ⟨rfl, Evolves.refl _⟩
  | ok count =>
      dsimp only
      have hcursors := queueExpire_cursors first batch input.expireReading input.expireFaults
      have hexpire := (queueExpire_leaves first batch input.expireReading input.expireFaults).2
      generalize hcall : queueExpire first batch input.expireReading input.expireFaults = call
        at hcursors hexpire
      obtain ⟨expired, result⟩ := call
      have hswept : Evolves Sweeping (first.db.view id) (expired.db.view id)
          ∧ expired.db.Keys := by
        rcases hexpire with hsame | ⟨again, count, htx⟩
        · dsimp only at hsame
          rw [hsame]
          exact ⟨Evolves.refl _, hkeys⟩
        · exact ⟨expireTx_evolves hkeys.deliveries htx (Or.inl ⟨again, rfl⟩),
            (expireTx_content htx).keys hkeys⟩
      cases result with
      | error e => exact ⟨congrArg Prod.fst hcursors, hswept.1⟩
      | ok count' =>
          refine ⟨(claimReady_recoveryCursor expired policy limit now counted input).trans
            (congrArg Prod.fst hcursors), ?_⟩
          rcases claimReady_now policy limit now counted input with
            hsame | ⟨ctx, cursor, domains, result, -, -, htx⟩
          · dsimp only at hsame ⊢
            rw [hsame]
            exact hswept.1
          · refine Evolves.trans hswept.1 (claimTx_evolves hswept.2.deliveries htx ?_ ?_)
            · intro token deadline _
              exact Or.inr (Or.inl ⟨token, _, deadline, rfl⟩)
            · exact Or.inr (Or.inr ⟨_, rfl⟩)

/-! ### One operation -/

namespace World

variable {w : World} {op : Op} {call : RecoverCall} {id : Text} {v : View}

theorem claim_store (w : World) (policy : QueuePolicy) (limit : Nat) (keepLease : QueueLease → Bool)
    (keepReader : QueuedReader → Bool) (input : ClaimInput) :
    (w.claim policy limit keepLease keepReader input).1.store =
      if w.opened then
        (queueClaim w.store policy limit w.live (w.without keepLease keepReader).live input).1
      else w.store := by
  have hopened : (w.without keepLease keepReader).opened = w.opened := rfl
  unfold claim
  dsimp only
  by_cases hopen : w.opened = true
  · rw [if_pos hopen, call_opened (hopened.trans hopen)]
    split
    · rename_i hresult
      exact (congrArg (fun result => result.1.store) hresult).symm
    · rename_i hresult
      exact (congrArg (fun result => result.1.store) hresult).symm
  · rw [if_neg hopen, call_closed (hopened ▸ hopen)]
    rfl

/-- An operation that is meant to recover and does not get that far changes nothing. -/
theorem recoverCall_none (hrecovers : op.recovers = true) (h : w.recoverCall? op = none) :
    (w.next op).store.db = w.store.db
      ∧ (w.next op).store.queue.cursors = w.store.queue.cursors := by
  cases op with
  | queueRecover limit reading faults =>
      unfold recoverCall? at h
      split_ifs at h with hopen
      have hcall := call_closed hopen fun s => Rustymail.queueRecover s limit w.live reading faults
      change (w.call _).1.store.db = _ ∧ (w.call _).1.store.queue.cursors = _
      rw [hcall]
      exact ⟨rfl, rfl⟩
  | queueClaim policy limit keepLease keepReader input =>
      change (w.claim policy limit keepLease keepReader input).1.store.db = _
        ∧ (w.claim policy limit keepLease keepReader input).1.store.queue.cursors = _
      rw [claim_store]
      by_cases hopen : w.opened = true
      swap
      · rw [if_neg hopen]
        exact ⟨rfl, rfl⟩
      rw [if_pos hopen]
      unfold queueClaim
      by_cases hvalid : policy.Valid ∧ 1 ≤ limit ∧ limit ≤ batch
      swap
      · rw [if_neg hvalid]
        exact ⟨rfl, rfl⟩
      rw [if_pos hvalid]
      have hcursors := now_cursors w.store.queue input.guardReading
      cases hnow : w.store.queue.now input.guardReading with
      | mk queue result =>
          rw [hnow] at hcursors
          cases result with
          | error e => exact ⟨rfl, hcursors⟩
          | ok now =>
              simp only [recoverCall?, if_pos (⟨hopen, hvalid⟩ : _ ∧ _), hnow] at h
              cases h
  | _ => cases hrecovers

/-- The recovery call starts from the store as it is, and what comes after it in the same operation
concerns deliveries that are not leased. -/
theorem recoverCall_some (hkeys : w.store.db.Keys) (h : w.recoverCall? op = some call) :
    call.store.db = w.store.db ∧ call.store.queue.active = w.store.queue.active
      ∧ call.store.queue.cursors = w.store.queue.cursors
      ∧ (w.next op).store.queue.recoveryCursor = (call.run w.live).1.queue.recoveryCursor
      ∧ ∀ id, Evolves Sweeping ((call.run w.live).1.db.view id) ((w.next op).store.db.view id) := by
  cases op with
  | queueRecover limit reading faults =>
      unfold recoverCall? at h
      split_ifs at h with hopen
      cases h
      have hcall := call_opened hopen fun s => Rustymail.queueRecover s limit w.live reading faults
      refine ⟨rfl, rfl, rfl, ?_⟩
      change (w.call _).1.store.queue.recoveryCursor = _ ∧ ∀ id, Evolves _ _ ((w.call _).1.store.db.view id)
      rw [hcall]
      exact ⟨rfl, fun id => Evolves.refl _⟩
  | queueClaim policy limit keepLease keepReader input =>
      unfold recoverCall? at h
      dsimp only at h
      split_ifs at h with hvalid
      have hcursors := now_cursors w.store.queue input.guardReading
      have hactive := now_active w.store.queue input.guardReading
      cases hnow : w.store.queue.now input.guardReading with
      | mk queue result =>
          rw [hnow] at h hcursors hactive
          cases result with
          | error e => cases h
          | ok now =>
              cases h
              refine ⟨rfl, hactive, hcursors, ?_⟩
              have hrecovered : (queueRecover { w.store with queue := queue } batch w.live
                  input.recoverReading input.recoverFaults).1.db.Keys := by
                rcases queueRecover_cases { w.store with queue := queue } batch w.live
                    input.recoverReading input.recoverFaults with
                  ⟨e, -, hsame, -⟩ | ⟨raw, count, -, htx, -⟩
                · rw [hsame]
                  exact hkeys
                · exact (recoverTx_content htx).keys hkeys
              have hafter := @queueClaim_after w.store policy limit w.live
                (w.without keepLease keepReader).live input queue now hvalid.2 hnow _ rfl hrecovered
              change (w.claim policy limit keepLease keepReader input).1.store.queue.recoveryCursor = _
                ∧ ∀ id, Evolves _ _
                  ((w.claim policy limit keepLease keepReader input).1.store.db.view id)
              rw [claim_store, if_pos hvalid.1]
              exact ⟨(hafter []).1, fun id => (hafter id).2⟩
  | _ => cases h

end World

/-! ### Orphans -/

/-- The delivery is leased and nobody holds it. -/
structure World.Orphaned (w : World) (id : Text) (v : View) : Prop where
  view_eq : w.store.db.view id = v
  leased : ∃ row, v.row = some row ∧ row.state = .leased
  free : ¬ w.Guarded id

/-- The delivery has left the lease of this generation. -/
def View.Past (generation : Nat) (v : View) : Prop :=
  ∃ row, v.row = some row
    ∧ (generation < row.generation ∨ (generation = row.generation ∧ row.state ≠ .leased))

/-- Only its holder's calls and recovery change a leased delivery. -/
theorem Lifecycle.Step.leased_cases {e : LifeEvent} {v v' : View} {row : Delivery}
    (hstep : Step e v v') (hrow : v.row = some row) (hstate : row.state = .leased) :
    v' = v ∨ (∃ deadline, e = .renewed deadline) ∨ e = .bodyMarked
      ∨ (∃ outcome next due, e = .finished outcome next due) ∨ ∃ next, e = .recovered next := by
  cases hstep with
  | created hfresh hnew =>
      rw [hrow] at hnew
      cases hnew
  | renewed => exact Or.inr (Or.inl ⟨_, rfl⟩)
  | bodyMarked => exact Or.inr (Or.inr (Or.inl rfl))
  | finished => exact Or.inr (Or.inr (Or.inr (Or.inl ⟨_, _, _, rfl⟩)))
  | recovered => exact Or.inr (Or.inr (Or.inr (Or.inr ⟨_, rfl⟩)))
  | leased hold hroute hready | exhausted hold hroute hready | expired hold hroute hready =>
      obtain rfl := Option.some.inj (hrow.symm.trans hold)
      rw [Delivery.Ready, hstate] at hready
      exact absurd hready (by decide)
  | held hold hroute hopen hidle =>
      obtain rfl := Option.some.inj (hrow.symm.trans hold)
      rw [hstate] at hidle
      exact absurd hidle (by decide)
  | retried hold hroute hretry =>
      obtain rfl := Option.some.inj (hrow.symm.trans hold)
      have hidle := hretry.1
      rw [hstate] at hidle
      exact absurd hidle (by decide)
  | closed hold hroute hidle =>
      obtain rfl := Option.some.inj (hrow.symm.trans hold)
      rw [hstate] at hidle
      exact absurd hidle (by decide)
  | suppressed hold hroute hfailed | reported hold hroute hfailed =>
      obtain rfl := Option.some.inj (hrow.symm.trans hold)
      rw [hstate] at hfailed
      cases hfailed
  | @postponed reason due _ _ hold =>
      obtain rfl := Option.some.inj (hrow.symm.trans hold)
      left
      have hsame : row.postponeReport reason due = row := by
        unfold Delivery.postponeReport
        rw [if_neg]
        rintro ⟨hfailed, -⟩
        rw [hstate] at hfailed
        cases hfailed
      rw [hsame, ← hrow]

theorem Delivery.past_of_ne {generation : Nat} {row row' : Delivery}
    (hpast : generation < row.generation ∨ (generation = row.generation ∧ row.state ≠ .leased))
    (hsame : row'.generation = row.generation) (hne : row'.state ≠ .leased) :
    generation < row'.generation ∨ (generation = row'.generation ∧ row'.state ≠ .leased) := by
  rw [hsame]
  exact hpast.imp_right fun h => ⟨h.1, hne⟩

/-- A lease once left is not entered again. -/
theorem Lifecycle.Step.past {generation : Nat} {e : LifeEvent} {v v' : View} (hstep : Step e v v')
    (h : v.Past generation) : v'.Past generation := by
  obtain ⟨row, hrow, hpast⟩ := h
  cases hstep with
  | created hfresh hnew =>
      rw [hrow] at hnew
      cases hnew
  | bodyMarked hold => exact ⟨row, hrow, hpast⟩
  | leased hold hroute hready =>
      obtain rfl := Option.some.inj (hrow.symm.trans hold)
      refine ⟨_, rfl, Or.inl ?_⟩
      change generation < row.generation + 1
      omega
  | renewed hold hroute hleased =>
      obtain rfl := Option.some.inj (hrow.symm.trans hold)
      refine ⟨_, rfl, Or.inl ?_⟩
      rcases hpast with hlater | ⟨-, hleft⟩
      · exact hlater
      · exact absurd hleased hleft
  | exhausted hold | held hold | retried hold | closed hold =>
      obtain rfl := Option.some.inj (hrow.symm.trans hold)
      exact ⟨_, rfl, row.past_of_ne hpast rfl (fun h => by cases h)⟩
  | expired hold =>
      obtain rfl := Option.some.inj (hrow.symm.trans hold)
      refine ⟨_, rfl, row.past_of_ne hpast rfl ?_⟩
      change (if row.possiblyDelivered then DeliveryState.uncertain else .failed) ≠ .leased
      split_ifs <;> decide
  | @recovered next phase _ _ hold =>
      obtain rfl := Option.some.inj (hrow.symm.trans hold)
      refine ⟨_, rfl, row.past_of_ne hpast rfl ?_⟩
      change (if row.unknownIn phase then DeliveryState.uncertain else .deferred) ≠ .leased
      split_ifs <;> decide
  | finished hold hroute hleased hphase hresult =>
      obtain rfl := Option.some.inj (hrow.symm.trans hold)
      exact ⟨_, rfl, row.past_of_ne hpast rfl (settle_ne_leased hresult _).1⟩
  | suppressed hold hroute hfailed hpending =>
      obtain rfl := Option.some.inj (hrow.symm.trans hold)
      refine ⟨_, rfl, ?_⟩
      unfold Delivery.suppress
      rw [if_pos hpending]
      exact hpast
  | reported hold =>
      obtain rfl := Option.some.inj (hrow.symm.trans hold)
      exact ⟨_, rfl, hpast⟩
  | postponed hold =>
      obtain rfl := Option.some.inj (hrow.symm.trans hold)
      refine ⟨_, rfl, ?_⟩
      unfold Delivery.postponeReport
      split_ifs
      · exact hpast
      · exact hpast

/-- A claim does not hand out the delivery of a lease that goes on. -/
theorem ClaimStep.id_ne {w : World} {id : Text} {policy : QueuePolicy} {limit : Nat} {keepLease : QueueLease → Bool}
    {keepReader : QueuedReader → Bool} {input : ClaimInput} {leases : List QueueLease} {w' : World}
    (h : ClaimStep w policy limit keepLease keepReader input leases w') (hkeys : w.store.db.Keys)
    {row : Delivery} (hrow : w.store.db.delivery? id = some row)
    (hsame : w'.store.db.delivery? id = some row) {l : QueueLease} (hl : l ∈ leases) : l.id ≠ id := by
  rintro rfl
  rcases h.handsOut with rfl | ⟨ctx, swept, hswept, hout, -⟩
  · cases hl
  · obtain ⟨found, hfound, -, hgranted⟩ := hout.granted l hl
    obtain ⟨after, hafter, -, -, -, hgeneration⟩ := hout.leased l hl
    obtain ⟨middle, hmiddle, hle⟩ := CommitsAll.generation_le hswept hkeys hrow
    obtain rfl := Option.some.inj (hfound.symm.trans hmiddle)
    obtain rfl := Option.some.inj (hafter.symm.trans hsame)
    have hnext := hgranted.generation_eq
    omega

namespace World

variable {w : World} {op : Op} {call : RecoverCall} {id : Text} {v : View} {generation : Nat}

theorem past_next (hkeys : w.store.db.Keys) (op : Op) (h : (w.store.db.view id).Past generation) :
    ((w.next op).store.db.view id).Past generation :=
  (w.next_evolves hkeys op id).keeps (View.Past generation) (fun _ _ _ _ hstep => hstep.past) h

/-- While a delivery stays under the lease it is under, nobody comes to hold it. -/
theorem Reachable.free_next (hreach : w.Reachable) (hfree : ¬ w.Guarded id) {row : Delivery}
    (hrow : w.store.db.delivery? id = some row)
    (hsame : (w.next op).store.db.delivery? id = some row) : ¬ (w.next op).Guarded id := by
  rintro ⟨guard, hlive, lease, hissued, rfl, hid⟩
  cases w.next_volatile hreach.keys op with
  | loosens hleases hreaders hissued' hlock hnext hactive =>
      rw [hissued'] at hissued
      refine hfree ⟨lease.guard, ?_, lease, hissued, rfl, hid⟩
      unfold live at hlive ⊢
      simp only [Bool.or_eq_true, List.any_eq_true] at hlive ⊢
      rcases hlive with ⟨l, hl, hsame⟩ | ⟨r, hr, hsame⟩
      · exact Or.inl ⟨l, hleases.subset hl, hsame⟩
      · exact Or.inr ⟨r, hreaders.subset hr, hsame⟩
  | @reads held reader hheld hguard hnext =>
      rw [hnext] at hlive hissued
      refine hfree ⟨lease.guard, ?_, lease, hissued, rfl, hid⟩
      unfold live at hlive
      simp only [Bool.or_eq_true, List.any_eq_true, decide_eq_true_eq] at hlive
      rcases hlive with ⟨l, hl, hsame⟩ | ⟨r, hr, hsame⟩
      · rw [← hsame]
        exact live_lease hl
      · rcases List.mem_append.1 hr with hold | hnew
        · rw [← hsame]
          exact live_reader hold
        · rw [← hsame, List.mem_singleton.1 hnew, hguard]
          exact live_lease hheld
  | @claims policy limit keepLease keepReader input leases hop hclaim =>
      rw [hclaim.issued_eq] at hissued
      rcases List.mem_append.1 hissued with hold | hnew
      swap
      · exact hclaim.id_ne hreach.keys hrow hsame hnew hid
      · rcases hclaim.mem_live hreach.owned hlive with ⟨-, -, hbefore, -⟩ | ⟨l, hl, hguard⟩
        · exact hfree ⟨lease.guard, hbefore, lease, hold, rfl, hid⟩
        · -- A new guard is no older lease's.
          have hserial := (hclaim.guards_new.1 l hl).1
          have hbelow := hreach.owned.below lease hold
          rw [hguard] at hserial
          omega
  | reopens hleases hreaders hleases' hreaders' =>
      unfold live at hlive
      rw [hleases', hreaders'] at hlive
      cases hlive

/-- The guard table protects exactly the deliveries that somebody holds. -/
theorem Owned.free_iff (hw : w.Owned) : ¬ w.Guarded id
    ↔ ((w.store.queue.retain w.live).active.any fun entry => entry.1 = id) = false := by
  rw [← Bool.not_eq_true, not_iff_not, List.any_eq_true]
  constructor
  · rintro ⟨guard, hlive, hof⟩
    exact ⟨(id, guard), List.mem_filter.2 ⟨hw.active_of_live hlive hof, hlive⟩, by simp⟩
  · rintro ⟨entry, hentry, hid⟩
    obtain ⟨hactive, hlive⟩ := List.mem_filter.1 hentry
    obtain ⟨l, hl, rfl⟩ := hw.entries entry hactive
    exact ⟨l.guard, hlive, l, hl, rfl, of_decide_eq_true hid⟩

/-- An operation that does not recover leaves an orphan alone. -/
theorem Orphaned.untouched (h : w.Orphaned id v) (hreach : w.Reachable)
    (hother : op.recovers = false) : (w.next op).store.db.view id = v := by
  obtain ⟨row, hrow, hstate⟩ := h.leased
  refine ((w.next_commits op).touches hreach.keys id).keeps (fun u => u = v) ?_ h.view_eq
  rintro e u u' ⟨hperforms, hrenews⟩ hstep rfl
  have hheld : ∀ {serial : Nat} {lease : QueueLease}, w.lease? serial = some lease →
      lease.id ≠ id := by
    rintro serial lease hlease hid
    have hmem := lease?_mem hlease
    exact h.free ⟨lease.guard, live_lease hmem, lease, (hreach.owned.leases lease hmem).1, rfl, hid⟩
  rcases hstep.leased_cases hrow hstate with
    hsame | ⟨deadline, rfl⟩ | rfl | ⟨outcome, next, due, rfl⟩ | ⟨next, rfl⟩
  · exact hsame
  · obtain ⟨serial, seconds, reading, faults, lease, -, hlease, hid⟩ := hrenews deadline rfl
    exact absurd hid (hheld hlease)
  · obtain ⟨serial, faults, lease, -, hlease, hid⟩ := hperforms
    exact absurd hid (hheld hlease)
  · obtain ⟨serial, reading, guardReading, faults, lease, -, hlease, hid⟩ := hperforms
    exact absurd hid (hheld hlease)
  · have hrecovers : op.recovers = true := hperforms.1
    rw [hother] at hrecovers
    cases hrecovers

/-- So does what comes after the recovery call in a claim. -/
theorem sweeping_leased {v v' : View} (h : Evolves Sweeping v v') {row : Delivery}
    (hrow : v.row = some row) (hstate : row.state = .leased) : v' = v := by
  refine h.keeps (fun u => u = v) ?_ rfl
  rintro e u u' hsweeping hstep rfl
  rcases hstep.leased_cases hrow hstate with
    hsame | ⟨deadline, rfl⟩ | rfl | ⟨outcome, next, due, rfl⟩ | ⟨next, rfl⟩
  · exact hsame
  all_goals rcases hsweeping with ⟨now, h⟩ | ⟨token, now, deadline', h⟩ | ⟨now, h⟩ <;> cases h

/-- The recovery call moves the orphan, or the cursor stays before it; and then the call, if it
succeeds, does not go back to the start. -/
theorem Orphaned.reached (h : w.Orphaned id v) (hreach : w.Reachable)
    (hcursor : w.store.queue.recoveryCursor < id) (hcall : w.recoverCall? op = some call) :
    w.Moves id v op ∨ ((call.run w.live).1.db.view id = v
      ∧ (call.run w.live).1.queue.recoveryCursor < id
      ∧ ∀ count, (call.run w.live).2 = .ok count →
        (call.run w.live).1.queue.recoveryCursor ≠ []) := by
  obtain ⟨row, hrow, hstate⟩ := h.leased
  obtain ⟨hdb, hactive, hcursors, -, -⟩ := recoverCall_some hreach.keys hcall
  have hview : call.store.db.view id = v := by
    rw [hdb]
    exact h.view_eq
  have hbefore : call.store.queue.recoveryCursor < id :=
    lt_of_eq_of_lt (congrArg Prod.fst hcursors) hcursor
  rcases queueRecover_cases call.store call.limit w.live call.reading call.faults with
    ⟨e, hfailed, hsame, hkept⟩ | ⟨now, count, hnow, htx, hend⟩
  · right
    refine ⟨(congrArg (Db.view · id) hsame).trans hview, ?_, ?_⟩
    · exact lt_of_eq_of_lt (congrArg Prod.fst hkept) hbefore
    · intro count hok
      exact absurd (hok.symm.trans hfailed) (by simp)
  · have hkeys : call.store.db.Keys := hdb ▸ hreach.keys
    have hfree : ((call.store.queue.retain w.live).active.any fun entry => entry.1 = id) = false := by
      unfold QueueRuntime.retain
      rw [hactive]
      exact hreach.owned.free_iff.1 h.free
    rcases recoverTx_view hkeys.deliveries htx id with
      ⟨hpassed, hsame⟩ | ⟨-, -, found, phase, next, hfound, hphase, -, hleased, hnext, hmoved⟩
    · right
      have hout := hpassed.resolve_right (by rw [hfree]; decide)
      have hview' := hsame.trans hview
      have hwf := hreach.view_wf id
      rw [h.view_eq] at hwf
      have hroute := hwf.relay_of_ne hrow (by rw [hstate]; decide)
      obtain ⟨phase, hphase⟩ := Option.isSome_iff_exists.1
        ((hwf.relayRow hrow hroute).leased_iff.1 hstate)
      rcases hend with ⟨hok, hlimit, hmoved⟩ | ⟨hunknown, hkept⟩
      · obtain hin | ⟨last, hlast, hne, hlt⟩ := recoverableRows_reach hlimit
          ((congrArg View.row hview).trans hrow) ((congrArg View.phase hview).trans hphase) hroute
          hstate hbefore
        · exact absurd hin hout
        · have hcursor' := (congrArg Prod.fst hmoved).trans hlast
          exact ⟨hview', lt_of_eq_of_lt hcursor' hlt, fun _ _ hnil => hne (hcursor'.symm.trans hnil)⟩
      · refine ⟨hview', lt_of_eq_of_lt (congrArg Prod.fst hkept) hbefore, ?_⟩
        intro count hok
        exact absurd (hok.symm.trans hunknown) (by simp)
    · left
      rw [hview] at hfound hphase hmoved
      refine ⟨h.view_eq, call, found, phase, now, hcall, hnow, hfound, hleased, hphase, ?_⟩
      rw [← (later_eq_ok hnext).1]
      exact hmoved

/-- A delivery that was moved has left its lease. -/
theorem Moves.past (h : w.Moves id v op) (hreach : w.Reachable) :
    ∃ row, v.row = some row ∧ row.state = .leased
      ∧ ((w.next op).store.db.view id).Past row.generation := by
  obtain ⟨-, call, row, phase, now, hcall, -, hrow, hstate, -, hmoved⟩ := h
  refine ⟨row, hrow, hstate, ?_⟩
  refine Evolves.keeps (View.Past row.generation)
    ((recoverCall_some hreach.keys hcall).2.2.2.2 id) (fun _ _ _ _ hstep => hstep.past) ?_
  refine ⟨_, congrArg View.row hmoved, Or.inr ⟨rfl, ?_⟩⟩
  change (if row.unknownIn phase then DeliveryState.uncertain else .deferred) ≠ .leased
  split_ifs <;> decide

/-- A delivery is not taken out of a lease it has left. -/
theorem Moves.not_past {row : Delivery} (h : w.Moves id v op) (hrow : v.row = some row) :
    ¬ (w.store.db.view id).Past row.generation := by
  obtain ⟨hview, call, found, phase, now, -, -, hfound, hstate, -⟩ := h
  obtain rfl := Option.some.inj (hrow.symm.trans hfound)
  rintro ⟨other, hother, hpast⟩
  rw [hview] at hother
  obtain rfl := Option.some.inj (hrow.symm.trans hother)
  rcases hpast with hlater | ⟨-, hleft⟩
  · exact lt_irrefl _ hlater
  · exact hleft hstate

/-- **One operation.** It moves the orphan, or leaves it an orphan beyond the cursor. -/
theorem Orphaned.next (h : w.Orphaned id v) (hreach : w.Reachable)
    (hcursor : w.store.queue.recoveryCursor < id) (hopens : ∀ m, op ≠ .reopen m) :
    w.Moves id v op ∨ (¬ w.Moves id v op ∧ (w.next op).Orphaned id v
      ∧ (w.next op).store.queue.recoveryCursor < id) := by
  obtain ⟨row, hrow, hstate⟩ := h.leased
  by_cases hmoves : w.Moves id v op
  · exact Or.inl hmoves
  refine Or.inr ⟨hmoves, ?_⟩
  have hstays : (w.next op).store.db.view id = v
      ∧ (w.next op).store.queue.recoveryCursor < id := by
    cases hrecovers : op.recovers with
    | false =>
        refine ⟨h.untouched hreach hrecovers, ?_⟩
        exact lt_of_eq_of_lt (congrArg Prod.fst (next_cursors hrecovers hopens)) hcursor
    | true =>
        cases hcall : w.recoverCall? op with
        | none =>
            obtain ⟨hdb, hkept⟩ := recoverCall_none hrecovers hcall
            rw [hdb]
            exact ⟨h.view_eq, lt_of_eq_of_lt (congrArg Prod.fst hkept) hcursor⟩
        | some call =>
            obtain ⟨hview, hcursor', -⟩ := (h.reached hreach hcursor hcall).resolve_left hmoves
            obtain ⟨-, -, -, hkept, hafter⟩ := recoverCall_some hreach.keys hcall
            refine ⟨?_, lt_of_eq_of_lt hkept hcursor'⟩
            have hsame := sweeping_leased (hafter id) ((congrArg View.row hview).trans hrow) hstate
            exact hsame.trans hview
  refine ⟨⟨hstays.1, ⟨row, hrow, hstate⟩, ?_⟩, hstays.2⟩
  exact hreach.free_next h.free ((congrArg View.row h.view_eq).trans hrow)
    ((congrArg View.row hstays.1).trans hrow)

theorem Reachable.nil_lt (hreach : w.Reachable) {row : Delivery}
    (hrow : w.store.db.delivery? id = some row) : ([] : Text) < id := by
  have hvalid := hreach.identified.deliveries row (Keyed.mem_of_lookup hrow)
  have hid : row.id = id := Keyed.lookup_some_key hrow
  rw [hid] at hvalid
  cases id with
  | nil => cases hvalid
  | cons first rest => exact List.nil_lt_cons first rest

/-- All that a recovery call does to the deliveries, and what a failing one leaves. -/
theorem Reachable.recoverCall_effect (hreach : w.Reachable) (hcall : w.recoverCall? op = some call) :
    (∀ id, (call.run w.live).1.db.view id = w.store.db.view id
        ∨ (¬ w.Guarded id ∧ w.Moves id (w.store.db.view id) op))
      ∧ ∀ e, (call.run w.live).2 = .error e →
        (call.run w.live).1.queue.recoveryCursor = w.store.queue.recoveryCursor
          ∧ ((call.run w.live).1.db = w.store.db
            ∨ (e = .queueOutcomeUnknown
              ∧ ∀ entry ∈ recoverableRows call.limit w.store.queue.recoveryCursor w.store.db,
                ¬ w.Guarded entry.1 → w.Moves entry.1 (w.store.db.view entry.1) op)) := by
  obtain ⟨hdb, hactive, hcursors, -, -⟩ := recoverCall_some hreach.keys hcall
  have hretained : (call.store.queue.retain w.live).active
      = (w.store.queue.retain w.live).active := by
    unfold QueueRuntime.retain
    rw [hactive]
  rcases queueRecover_cases call.store call.limit w.live call.reading call.faults with
    ⟨e, -, hsame, hkept⟩ | ⟨now, count, hnow, htx, hend⟩
  · have hnothing := hsame.trans hdb
    refine ⟨fun id => Or.inl (congrArg (Db.view · id) hnothing), fun e' _ => ⟨?_, Or.inl hnothing⟩⟩
    exact congrArg Prod.fst (hkept.trans hcursors)
  · have hcursor : call.store.queue.recoveryCursor = w.store.queue.recoveryCursor :=
      congrArg Prod.fst hcursors
    rw [hdb, hretained, hcursor] at htx
    have hview := recoverTx_view hreach.keys.deliveries htx
    have hmoves : ∀ id row phase next, (w.store.db.view id).row = some row →
        (w.store.db.view id).phase = some phase → row.state = .leased →
        later now 1800000 = .ok next → (call.run w.live).1.db.view id = { w.store.db.view id with
          row := some (row.recover (row.unknownIn phase) next), phase := none } →
        w.Moves id (w.store.db.view id) op := by
      intro id row phase next hrow hphase hstate hnext hafter
      refine ⟨rfl, call, row, phase, now, hcall, hnow, hrow, hstate, hphase, ?_⟩
      rw [← (later_eq_ok hnext).1]
      exact hafter
    constructor
    · intro id
      rcases hview id with
        ⟨-, hsame⟩ | ⟨-, hfree, row, phase, next, hrow, hphase, -, hstate, hnext, hafter⟩
      · exact Or.inl hsame
      · exact Or.inr ⟨hreach.owned.free_iff.2 hfree,
          hmoves id row phase next hrow hphase hstate hnext hafter⟩
    · intro e herror
      rcases hend with ⟨hok, -⟩ | ⟨hunknown, hkept⟩
      · exact absurd (herror.symm.trans hok) (by simp)
      · refine ⟨congrArg Prod.fst (hkept.trans hcursors), Or.inr ⟨?_, ?_⟩⟩
        · exact Except.error.inj (herror.symm.trans hunknown)
        · intro entry hentry hfree
          rcases hview entry.1 with
            ⟨hpassed, -⟩ | ⟨-, -, row, phase, next, hrow, hphase, -, hstate, hnext, hafter⟩
          · rcases hpassed with hout | hprotected
            · exact absurd (List.mem_map_of_mem hentry) hout
            · rw [hreach.owned.free_iff.1 hfree] at hprotected
              cases hprotected
          · exact hmoves entry.1 row phase next hrow hphase hstate hnext hafter

end World

/-- **Recovery reaches every orphan.** A sweep of recovery calls, on their own or inside claims and
among any other operations, takes every delivery that is orphaned when the sweep begins out of its
lease exactly once, by the phase and the flag it has; a recovery call changes nothing else; and one
that fails leaves the cursor, with all the rows or, where it cannot know, none of the batch. -/
theorem recovery_reaches_every_orphan :
    (∀ (w : World) (ops : List Op) (op : Op) (call : RecoverCall) (count : Nat), w.Reachable →
        w.store.queue.recoveryCursor = [] → (∀ m, Op.reopen m ∉ ops) →
        (w.run ops).recoverCall? op = some call → (call.run (w.run ops).live).2 = .ok count →
        (call.run (w.run ops).live).1.queue.recoveryCursor = [] →
        ∀ id row, w.store.db.delivery? id = some row → row.state = .leased → ¬ w.Guarded id →
          ∃! before, Runs.VisitsAfter World.next (World.Moves · id (w.store.db.view id)) w
            (ops ++ [op]) before)
      ∧ ∀ (w : World) (op : Op) (call : RecoverCall), w.Reachable → w.recoverCall? op = some call →
        (∀ id, (call.run w.live).1.db.view id = w.store.db.view id
            ∨ (¬ w.Guarded id ∧ w.Moves id (w.store.db.view id) op))
          ∧ ∀ e, (call.run w.live).2 = .error e →
            (call.run w.live).1.queue.recoveryCursor = w.store.queue.recoveryCursor
              ∧ ((call.run w.live).1.db = w.store.db
                ∨ (e = .queueOutcomeUnknown
                  ∧ ∀ entry ∈ recoverableRows call.limit w.store.queue.recoveryCursor w.store.db,
                    ¬ w.Guarded entry.1 → w.Moves entry.1 (w.store.db.view entry.1) op)) := by
  refine ⟨?_, fun w op call hreach hcall => hreach.recoverCall_effect hcall⟩
  intro w ops op call count hreach hstart hopens hcall hok hend id row hrow hstate hfree
  refine @Runs.visited_once World Op World.next (fun _ op => ∀ m, op ≠ .reopen m) _
    (fun u => u.Reachable ∧ u.Orphaned id (w.store.db.view id) ∧ u.store.queue.recoveryCursor < id)
    (fun u => u.Reachable ∧ (u.store.db.view id).Past row.generation) w ops ?_
    (fun _ _ => True) ?_ ?_ ?_ op (fun _ _ _ _ _ => trivial) ?_ ?_
  · rintro u op ⟨hu, hpast⟩ -
    exact ⟨fun hmoves => hmoves.not_past hrow hpast, hu.next op, World.past_next hu.keys op hpast⟩
  · rintro u op ⟨hu, horphaned, hcursor⟩ hopens -
    rcases horphaned.next hu hcursor hopens with hmoves | ⟨hnot, hnext, hcursor'⟩
    · obtain ⟨found, hfound, -, hpast⟩ := hmoves.past hu
      obtain rfl : found = row := Option.some.inj (hfound.symm.trans hrow)
      exact Or.inl ⟨hmoves, hu.next op, hpast⟩
    · exact Or.inr ⟨hnot, hu.next op, hnext, hcursor'⟩
  · refine ⟨hreach, ⟨rfl, ⟨row, hrow, hstate⟩, hfree⟩, ?_⟩
    rw [hstart]
    exact hreach.nil_lt hrow
  · refine Runs.along_of_forall fun op hop _ m heq => ?_
    exact hopens m (heq ▸ hop)
  · rintro u ⟨hu, hpast⟩ hmoves
    exact hmoves.not_past hrow hpast
  · rintro ⟨hu, horphaned, hcursor⟩ -
    refine (horphaned.reached hu hcursor hcall).resolve_right ?_
    rintro ⟨-, -, hne⟩
    exact hne count hok hend

/-- Two calls of one row each: the second one finds nothing more and ends the sweep. -/
theorem recovery_reaches_every_orphan_two_calls :
    ∃! before, Runs.VisitsAfter World.next
      (World.Moves · Sample.deliveryId.text (Sample.abandoned.store.db.view Sample.deliveryId.text))
      Sample.abandoned [.queueRecover 1 Sample.reading {}, .queueRecover 1 Sample.reading {}]
      before := by
  have hrow : (Sample.abandoned.store.db.delivery? Sample.deliveryId.text).map Delivery.state
      = some .leased := by decide
  obtain ⟨row, hrow, hstate⟩ := Option.map_eq_some_iff.1 hrow
  refine recovery_reaches_every_orphan.1 Sample.abandoned [.queueRecover 1 Sample.reading {}]
    (.queueRecover 1 Sample.reading {}) _ 0 (Sample.reachable _) rfl ?_ rfl rfl rfl
    Sample.deliveryId.text row hrow hstate ?_
  · intro m hmem
    simp at hmem
  · rintro ⟨guard, hlive, -⟩
    cases hlive

end Rustymail
