import Rustymail.Proof.Volatile
import Rustymail.Proof.Consent

/-!
# Fencing

Every lease of a delivery carries a higher generation than the ones before it, and no row is ever
behind a lease that was handed out for it. A call under a lease compares the generation with the
row's, so only the latest lease gets through, whatever its token is.
-/

namespace Rustymail

open Checked Lifecycle World

/-- The most recently issued lease of its delivery. -/
def World.Latest (w : World) (lease : QueueLease) : Prop :=
  ∃ before after, w.issued = before ++ lease :: after ∧ ∀ l ∈ after, l.id ≠ lease.id

/-- The one lease under which calls may succeed. -/
structure World.Current (w : World) (lease : QueueLease) : Prop where
  latest : w.Latest lease
  lock_eq : lease.guard.lock = w.store.lock
  leased : w.store.db.LeasedUnder lease

/-- The call reports an error, which is `StaleLease` once the `checks` pass, and changes no row. -/
def Refused {α : Type} (s : Store) (checks : Prop) (result : Store × Except StoreError α) : Prop :=
  (∃ e, result.2 = .error e) ∧ result.1.db = s.db ∧ (checks → result.2 = .error .staleLease)

/-- The call succeeds only under the current lease and is refused under any other. -/
structure FencedCall {α : Type} (w : World) (lease : QueueLease) (checks : Prop)
    (result : Store × Except StoreError α) : Prop where
  success : ∀ value, result.2 = .ok value → w.Current lease
  refused : ¬ w.Current lease → Refused w.store checks result

/-- The leases handed out so far, and the rows they are for. -/
structure World.Fenced (w : World) : Prop where
  reached : ∀ l ∈ w.issued, ∃ row, w.store.db.delivery? l.id = some row
    ∧ l.generation ≤ row.generation
  increasing : w.issued.Pairwise fun earlier later =>
    earlier.id = later.id → earlier.generation < later.generation

section Generations

variable {allowed : LifeEvent → Prop} {v v' : View} {row : Delivery} {w w' : World} {op : Op}
  {db db' : Db} {id : Text}

theorem Lifecycle.Evolves.generation_le (h : Evolves allowed v v') (hrow : v.row = some row) :
    ∃ row', v'.row = some row' ∧ row.generation ≤ row'.generation := by
  refine h.keeps (fun v => ∃ row', v.row = some row' ∧ row.generation ≤ row'.generation) ?_
    ⟨row, hrow, le_rfl⟩
  rintro e u u' - hstep ⟨middle, hmiddle, hle⟩
  obtain ⟨row', hrow', hsame | ⟨-, -, hnext⟩⟩ := hstep.generation hmiddle
  · exact ⟨row', hrow', hsame ▸ hle⟩
  · exact ⟨row', hrow', by omega⟩

theorem CommitsAll.generation_le (h : CommitsAll w op db db') (hkeys : db.Keys)
    (hrow : db.delivery? id = some row) :
    ∃ row', db'.delivery? id = some row' ∧ row.generation ≤ row'.generation :=
  (h.evolves hkeys id).generation_le hrow

theorem World.Fenced.reached_next (hw : w.Fenced) (hkeys : w.store.db.Keys)
    (hall : CommitsAll w op w.store.db db') {l : QueueLease} (hl : l ∈ w.issued) :
    ∃ row, db'.delivery? l.id = some row ∧ l.generation ≤ row.generation := by
  obtain ⟨row, hrow, hle⟩ := hw.reached l hl
  obtain ⟨row', hrow', hle'⟩ := hall.generation_le hkeys hrow
  exact ⟨row', hrow', hle.trans hle'⟩

end Generations

variable {w w' : World} {op : Op}

theorem ClaimStep.fenced {policy : QueuePolicy} {limit : Nat} {keepLease : QueueLease → Bool}
    {keepReader : QueuedReader → Bool} {input : ClaimInput} {leases : List QueueLease}
    (h : ClaimStep w policy limit keepLease keepReader input leases w')
    (hkeys : w.store.db.Keys) (hw : w.Fenced)
    (hall : CommitsAll w op w.store.db w'.store.db) : w'.Fenced := by
  rcases h.handsOut with rfl | ⟨ctx, swept, hswept, hout, -⟩
  · have hissued : w'.issued = w.issued := by
      rw [h.issued_eq, List.append_nil]
    refine ⟨?_, hissued ▸ hw.increasing⟩
    rw [hissued]
    exact fun l hl => hw.reached_next hkeys hall hl
  · constructor
    · intro l hl
      rw [h.issued_eq, List.mem_append] at hl
      rcases hl with hold | hfresh
      · exact hw.reached_next hkeys hall hold
      · obtain ⟨row, hrow, -, -, -, hgeneration⟩ := hout.leased l hfresh
        exact ⟨row, hrow, hgeneration.ge⟩
    · rw [h.issued_eq, List.pairwise_append]
      refine ⟨hw.increasing, ?_, ?_⟩
      · have hdistinct := List.pairwise_map.1 (List.nodup_iff_pairwise_ne.1 hout.distinct)
        exact hdistinct.imp fun hne heq => absurd heq hne
      · intro earlier hearlier later hlater heq
        -- the claim found the row no lower than the earlier lease had left it
        obtain ⟨row, hrow, hle⟩ := hw.reached_next hkeys hswept hearlier
        obtain ⟨row', hrow', -, hgranted⟩ := hout.granted later hlater
        obtain rfl : row = row' := Option.some.inj (hrow.symm.trans (heq ▸ hrow'))
        have := hgranted.generation_eq
        omega

theorem World.Reachable.fenced (h : w.Reachable) : w.Fenced := by
  refine h.induct World.Fenced ?_ ?_
  · intro root maxMessageBytes
    constructor <;> simp [World.init]
  · intro w op hreach hw
    have hall := w.next_commits op
    have hissued : (w.next op).issued = w.issued → (w.next op).Fenced := by
      intro hsame
      refine ⟨?_, hsame ▸ hw.increasing⟩
      rw [hsame]
      exact fun l hl => hw.reached_next hreach.keys hall hl
    cases w.next_volatile hreach.keys op with
    | loosens hleases hreaders hsame => exact hissued hsame
    | reads hlease hguard hnext => exact hissued (by rw [hnext])
    | claims hop hclaim => exact hclaim.fenced hreach.keys hw hall
    | reopens hleases hreaders hleases' hreaders' hsame => exact hissued hsame

theorem World.Fenced.current (hw : w.Fenced) {lease : QueueLease} {phase : Phase}
    (hlease : lease ∈ w.issued ∨ lease.guard.lock ≠ w.store.lock)
    (hcheck : checkLease w.store.db lease w.store.lock = .ok phase) : w.Current lease := by
  obtain ⟨hlock, row, queued, hrow, -, ⟨hroute, hstate, htoken, hgeneration⟩, -⟩ :=
    checkLease_eq_ok.1 hcheck
  rcases hlease with hissued | hforeign
  · obtain ⟨before, after, hsplit⟩ := List.append_of_mem hissued
    refine ⟨⟨before, after, hsplit, ?_⟩, hlock.symm, row, hrow, hroute, hstate, htoken, hgeneration⟩
    intro l hl heq
    have hincreasing := hw.increasing
    rw [hsplit, List.pairwise_append, List.pairwise_cons] at hincreasing
    have hlater := hincreasing.2.1.1 l hl heq.symm
    obtain ⟨row', hrow', hle⟩ := hw.reached l (hsplit ▸ by simp [hl])
    rw [heq, hrow] at hrow'
    cases hrow'
    omega
  · exact absurd hlock.symm hforeign

/-- A delivery and a generation determine the lease. -/
theorem World.Fenced.unique (hw : w.Fenced) {l l' : QueueLease} (hl : l ∈ w.issued)
    (hl' : l' ∈ w.issued) (hid : l.id = l'.id) (hgeneration : l.generation = l'.generation) :
    l = l' := by
  have hnodup : (w.issued.map fun l => (l.id, l.generation)).Nodup := by
    refine List.pairwise_map.2 (hw.increasing.imp ?_)
    intro earlier later hlt heq
    have := hlt (congrArg Prod.fst heq)
    have := congrArg Prod.snd heq
    omega
  exact List.inj_on_of_nodup_map hnodup hl hl' (Prod.ext hid hgeneration)

theorem checkLease_cases (db : Db) (lease : QueueLease) (lock : Nat) :
    checkLease db lease lock = .error .staleLease ∨ ∃ phase, checkLease db lease lock = .ok phase := by
  unfold checkLease require found
  cases db.delivery? lease.id with
  | none => by_cases hlock : lock = lease.guard.lock <;> simp [hlock, bind, Except.bind]
  | some row =>
      cases db.queueLease? lease.id with
      | none => by_cases hlock : lock = lease.guard.lock <;> simp [hlock, bind, Except.bind]
      | some queued =>
          by_cases hlock : lock = lease.guard.lock <;> simp [hlock, bind, Except.bind, pure, Except.pure]
          split_ifs <;> simp

theorem transaction_error {α β : Type} {s : Store} {body : Db → Except StoreError (Db × α)}
    {commit : Store → Db → α → Store × Except StoreError β} {e : StoreError}
    (h : body s.db = .error e) : s.transaction body commit = (s, .error e) := by
  unfold Store.transaction
  rw [h]

section Calls

variable {s : Store} {lease : QueueLease}

theorem queueRenew_refused (hstale : checkLease s.db lease s.lock = .error .staleLease)
    (seconds : Nat) (reading : Reading) (faults : Faults) :
    Refused s ((1 ≤ seconds ∧ seconds ≤ 3600) ∧ ∃ now, (s.queue.now reading).2 = .ok now)
      (queueRenew s lease seconds reading faults) := by
  unfold queueRenew
  by_cases hseconds : 1 ≤ seconds ∧ seconds ≤ 3600
  · rw [if_pos hseconds]
    cases hnow : s.queue.now reading with
    | mk queue clock =>
        cases clock with
        | error e =>
            refine ⟨⟨e, rfl⟩, rfl, ?_⟩
            rintro ⟨-, now, hclock⟩
            cases hclock
        | ok now =>
            have htx : renewTx lease s.lock now seconds s.db = .error .staleLease := by
              unfold renewTx
              rw [hstale]
              rfl
            dsimp only
            rw [transaction_error (s := { s with queue := queue }) htx]
            exact ⟨⟨_, rfl⟩, rfl, fun _ => rfl⟩
  · rw [if_neg hseconds]
    exact ⟨⟨_, rfl⟩, rfl, fun hchecks => absurd hchecks.1 hseconds⟩

theorem queueMarkBody_refused (hstale : checkLease s.db lease s.lock = .error .staleLease)
    (faults : Faults) : Refused s True (queueMarkBody s lease faults) := by
  have htx : markBodyTx lease s.lock s.db = .error .staleLease := by
    unfold markBodyTx
    rw [hstale]
    rfl
  unfold queueMarkBody
  rw [transaction_error htx]
  exact ⟨⟨_, rfl⟩, rfl, fun _ => rfl⟩

theorem queueOpenBody_refused (hstale : checkLease s.db lease s.lock = .error .staleLease)
    (file : Except StoreError Unit) : Refused s True (s, queueOpenBody s lease file) := by
  unfold queueOpenBody
  rw [hstale]
  exact ⟨⟨_, rfl⟩, rfl, fun _ => rfl⟩

theorem queueFinish_refused (hstale : checkLease s.db lease s.lock = .error .staleLease)
    (outcome : QueueResult) (reading guardReading : Reading) (faults : Faults) :
    Refused s (∃ now due, reading.nowMs = .ok now
        ∧ notificationDue (s.queue.now guardReading).1 now (s.queue.now guardReading).2 = .ok due)
      (queueFinish s lease outcome reading guardReading faults) := by
  unfold queueFinish
  cases hnow : reading.nowMs with
  | error e =>
      refine ⟨⟨e, rfl⟩, rfl, ?_⟩
      rintro ⟨now, due, hclock, -⟩
      cases hclock
  | ok now =>
      dsimp only
      cases hdue : notificationDue (s.queue.now guardReading).1 now (s.queue.now guardReading).2 with
      | error e =>
          refine ⟨⟨e, rfl⟩, rfl, ?_⟩
          rintro ⟨now', due, hclock, hdue'⟩
          cases hclock
          rw [hdue] at hdue'
          cases hdue'
      | ok due =>
          have htx : finishTx lease s.lock outcome now due s.db = .error .staleLease := by
            unfold finishTx
            rw [hstale]
            rfl
          dsimp only
          rw [transaction_error (s := { s with queue := (s.queue.now guardReading).1 }) htx]
          exact ⟨⟨_, rfl⟩, rfl, fun _ => rfl⟩

end Calls

/-- A call that is refused when the lease check fails is fenced. -/
theorem World.Fenced.call {α : Type} (hw : w.Fenced) {lease : QueueLease}
    (hlease : lease ∈ w.issued ∨ lease.guard.lock ≠ w.store.lock) {checks : Prop}
    {result : Store × Except StoreError α}
    (hrefused : checkLease w.store.db lease w.store.lock = .error .staleLease →
      Refused w.store checks result) : FencedCall w lease checks result := by
  rcases checkLease_cases w.store.db lease w.store.lock with hstale | ⟨phase, hcheck⟩
  · refine ⟨?_, fun _ => hrefused hstale⟩
    intro value hvalue
    obtain ⟨⟨e, herror⟩, -⟩ := hrefused hstale
    rw [hvalue] at herror
    cases herror
  · have hcurrent := hw.current hlease hcheck
    exact ⟨fun _ _ => hcurrent, fun hno => absurd hcurrent hno⟩

/-- Generations increase along the leases of a delivery, and every call under a lease is fenced.
A lease is one that was handed out in this directory, or one of another lock. -/
theorem lease_fencing (w : World) (hreach : w.Reachable) :
    (w.issued.Pairwise fun earlier later =>
        earlier.id = later.id → earlier.generation < later.generation)
      ∧ ∀ lease, lease ∈ w.issued ∨ lease.guard.lock ≠ w.store.lock →
        (∀ seconds reading faults, FencedCall w lease
          ((1 ≤ seconds ∧ seconds ≤ 3600) ∧ ∃ now, (w.store.queue.now reading).2 = .ok now)
          (queueRenew w.store lease seconds reading faults))
        ∧ (∀ faults, FencedCall w lease True (queueMarkBody w.store lease faults))
        ∧ (∀ file, FencedCall w lease True (w.store, queueOpenBody w.store lease file))
        ∧ ∀ outcome reading guardReading faults, FencedCall w lease
          (∃ now due, reading.nowMs = .ok now ∧ notificationDue (w.store.queue.now guardReading).1 now
            (w.store.queue.now guardReading).2 = .ok due)
          (queueFinish w.store lease outcome reading guardReading faults) := by
  have hw := hreach.fenced
  refine ⟨hw.increasing, ?_⟩
  intro lease hlease
  refine ⟨?_, ?_, ?_, ?_⟩
  · intro seconds reading faults
    exact hw.call hlease fun hstale => queueRenew_refused hstale seconds reading faults
  · intro faults
    exact hw.call hlease fun hstale => queueMarkBody_refused hstale faults
  · intro file
    exact hw.call hlease fun hstale => queueOpenBody_refused hstale file
  · intro outcome reading guardReading faults
    exact hw.call hlease fun hstale =>
      queueFinish_refused hstale outcome reading guardReading faults

/-- The delivery is claimed a second time under the same token; the first lease is stale. -/
theorem lease_fencing_same_token :
    ∃ first second, (Sample.fresh.run [Sample.enqueue, Sample.claim, Sample.finish 0 .connectionLost,
        Sample.retry false, Sample.claim]).issued = [first, second]
      ∧ first.id = second.id ∧ first.token = second.token ∧ first.generation < second.generation
      ∧ (queueMarkBody (Sample.fresh.run [Sample.enqueue, Sample.claim,
          Sample.finish 0 .connectionLost, Sample.retry false, Sample.claim]).store first {}).2
        = .error .staleLease := by
  obtain ⟨hincreasing, hcalls⟩ := lease_fencing (Sample.fresh.run [Sample.enqueue, Sample.claim,
    Sample.finish 0 .connectionLost, Sample.retry false, Sample.claim]) (Sample.reachable _)
  refine ⟨_, _, rfl, rfl, rfl, (List.pairwise_pair.1 hincreasing) rfl, ?_⟩
  refine (((hcalls _ (Or.inl List.mem_cons_self)).2.1 {}).refused ?_).2.2 trivial
  rintro ⟨-, -, row, hrow, -, -, -, hgeneration⟩
  cases hrow
  cases hgeneration

end Rustymail
