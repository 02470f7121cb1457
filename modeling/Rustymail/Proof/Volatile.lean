import Rustymail.Proof.ClaimLemmas

/-!
# What an operation does to the holders

Between two operations the world's volatile part changes in four ways: holders go away and dead
guards are forgotten, a body reader joins its lease, a claim hands out leases, or the directory is
opened again with nobody left.
-/

namespace Rustymail

open World

/-- The queue's table of guards after an operation that hands out none. -/
def Forgets (w : World) (active : List (Text × LeaseGuard)) : Prop :=
  active = w.store.queue.active ∨ active = w.store.queue.active.filter fun entry => w.live entry.2

/-- What a claim that succeeds did. -/
structure ClaimStep (w : World) (policy : QueuePolicy) (limit : Nat) (keepLease : QueueLease → Bool)
    (keepReader : QueuedReader → Bool) (input : ClaimInput) (leases : List QueueLease)
    (w' : World) : Prop where
  valid : policy.Valid
  leases_eq : w'.leases = w.leases.filter keepLease ++ leases
  readers_eq : w'.readers = w.readers.filter keepReader
  issued_eq : w'.issued = w.issued ++ leases
  root_eq : w'.store.root = w.store.root
  lock_eq : w'.store.lock = w.store.lock
  guard_eq : w'.store.nextGuard = w.store.nextGuard + leases.length
  active_eq : w'.store.queue.active = (w.store.queue.active.filter fun entry => w.live entry.2)
    ++ leases.map fun l => (l.id, l.guard)
  handsOut : leases = [] ∨ ∃ (ctx : ClaimContext) (swept : Db),
    CommitsAll w (.queueClaim policy limit keepLease keepReader input) w.store.db swept
      ∧ HandsOut ctx
        (activeDomains (w.store.queue.active.filter fun entry => w.live entry.2)
          (w.without keepLease keepReader).live) swept w'.store.db leases
      ∧ ctx.policy = policy
      ∧ ctx.available = min
        (policy.concurrency - (w.store.queue.active.filter fun entry => w.live entry.2).length) limit
      ∧ ctx.active = (w.store.queue.active.filter fun entry => w.live entry.2)
      ∧ ctx.lock = w.store.lock ∧ ctx.nextGuard = w.store.nextGuard

inductive VolatileStep (w : World) (op : Op) (w' : World) : Prop
  | loosens (hleases : w'.leases.Sublist w.leases) (hreaders : w'.readers.Sublist w.readers)
      (hissued : w'.issued = w.issued) (hlock : w'.store.lock = w.store.lock)
      (hguard : w'.store.nextGuard = w.store.nextGuard) (hactive : Forgets w w'.store.queue.active)
  | reads {lease : QueueLease} {reader : QueuedReader} (hlease : lease ∈ w.leases)
      (hguard : reader.guard = lease.guard) (hw : w' = { w with readers := w.readers ++ [reader] })
  | claims {policy : QueuePolicy} {limit : Nat} {keepLease : QueueLease → Bool}
      {keepReader : QueuedReader → Bool} {input : ClaimInput} {leases : List QueueLease}
      (hop : op = .queueClaim policy limit keepLease keepReader input)
      (hclaim : ClaimStep w policy limit keepLease keepReader input leases w')
  | reopens (hleases : w.leases = []) (hreaders : w.readers = []) (hleases' : w'.leases = [])
      (hreaders' : w'.readers = []) (hissued : w'.issued = w.issued)
      (hlock : w'.store.lock = w.store.lock + 1) (hguard : w'.store.nextGuard = w.store.nextGuard)
      (hactive : w'.store.queue.active = [])

variable {α : Type} {w : World} {op : Op}

theorem VolatileStep.of_store {s : Store} (hlock : s.lock = w.store.lock)
    (hguard : s.nextGuard = w.store.nextGuard) (hactive : Forgets w s.queue.active) :
    VolatileStep w op { w with store := s } :=
  .loosens (List.Sublist.refl _) (List.Sublist.refl _) rfl hlock hguard hactive

theorem VolatileStep.same (w : World) (op : Op) : VolatileStep w op w :=
  .loosens (List.Sublist.refl _) (List.Sublist.refl _) rfl rfl rfl (Or.inl rfl)

theorem VolatileStep.call {tx : Db → Db → Prop} {f : Store → Store × Except StoreError α}
    (h : w.store.Leaves tx (f w.store).1) : VolatileStep w op (w.call f).1 := by
  rcases w.call_cases f with hsame | hstore
  · rw [hsame]
    exact .same w op
  · rw [hstore]
    exact .of_store h.1.lock h.1.nextGuard (Or.inl h.1.active)

theorem VolatileStep.callWith {tx : QueueLease → Db → Db → Prop} {serial : Nat}
    {f : QueueLease → Store → Store × Except StoreError α}
    (h : ∀ lease, w.store.Leaves (tx lease) (f lease w.store).1) :
    VolatileStep w op (w.callWith serial f).1 := by
  rcases w.callWith_cases serial f with hsame | ⟨lease, -, hstore⟩
  · rw [hsame]
    exact .same w op
  · rw [hstore]
    exact .of_store (h lease).1.lock (h lease).1.nextGuard (Or.inl (h lease).1.active)

namespace World

theorem lease?_mem {serial : Nat} {lease : QueueLease} (h : w.lease? serial = some lease) :
    lease ∈ w.leases :=
  List.mem_of_find?_eq_some h

theorem queueOpenBody_guard {s : Store} {lease : QueueLease} {file : Except StoreError Unit}
    {reader : QueuedReader} (h : queueOpenBody s lease file = .ok reader) :
    reader.guard = lease.guard := by
  unfold queueOpenBody at h
  simp only [Checked.bind_eq_ok, Checked.pure_eq_ok] at h
  obtain ⟨phase, -, ⟨⟩, -, blob, -, ⟨⟩, -, rfl⟩ := h
  rfl

theorem claim_volatile (hkeys : w.store.db.Keys) (policy : QueuePolicy) (limit : Nat)
    (keepLease : QueueLease → Bool) (keepReader : QueuedReader → Bool) (input : ClaimInput) :
    VolatileStep w (.queueClaim policy limit keepLease keepReader input)
        (w.claim policy limit keepLease keepReader input).1
      ∧ ∀ leases, (w.claim policy limit keepLease keepReader input).2 = .ok leases →
        ClaimStep w policy limit keepLease keepReader input leases
          (w.claim policy limit keepLease keepReader input).1 := by
  have hsub : (w.leases.filter keepLease).Sublist w.leases := List.filter_sublist
  have hsub' : (w.readers.filter keepReader).Sublist w.readers := List.filter_sublist
  have hclaims := queueClaim_cases w.store policy limit w.live
    (w.without keepLease keepReader).live input
  rcases w.claim_cases policy limit keepLease keepReader input with
    hsame | ⟨e, herror, hfailed⟩ | ⟨leases, hok, hdone⟩
  · rw [hsame]
    refine ⟨.loosens hsub hsub' rfl rfl rfl (Or.inl rfl), ?_⟩
    intro leases hreply
    cases hreply
  · rw [hfailed]
    refine ⟨?_, fun leases hreply => by cases hreply⟩
    rcases hclaims with ⟨e', swept, -, hswept, hend⟩ | ⟨leases, swept, hok, -⟩
    · have hforgets : Forgets w swept.queue.active := hswept.active
      rcases hend with hstore | ⟨howner, -⟩
      · exact .loosens hsub hsub' rfl (hstore ▸ hswept.lock) (hstore ▸ hswept.nextGuard)
          (hstore ▸ hforgets)
      · exact .loosens hsub hsub' rfl (howner.lock.trans hswept.lock)
          (howner.nextGuard.trans hswept.nextGuard) (howner.active ▸ hforgets)
    · rw [herror] at hok
      cases hok
  · have hstep : ClaimStep w policy limit keepLease keepReader input leases
        (w.claim policy limit keepLease keepReader input).1 := by
      rw [hdone]
      rcases hclaims with ⟨e', swept, herror, -⟩ |
        ⟨leases', swept, hok', hvalid, hswept, hretained, hend⟩
      · rw [hok] at herror
        cases herror
      · obtain rfl : leases = leases' := Except.ok.inj (hok.symm.trans hok')
        have hretained' : swept.queue.active
            = w.store.queue.active.filter fun entry => w.live entry.2 := hretained
        have hchain : CommitsAll w (.queueClaim policy limit keepLease keepReader input) w.store.db
            swept.db := CommitsAll.swept rfl rfl hswept
        rcases hend with ⟨rfl, hstore⟩ | ⟨⟨hclaimed⟩⟩
        · refine ⟨hvalid, rfl, rfl, rfl, ?_, ?_, ?_, ?_, Or.inl rfl⟩
          · exact hstore ▸ hswept.root
          · exact hstore ▸ hswept.lock
          · exact hstore ▸ hswept.nextGuard
          · dsimp only
            rw [hstore, hretained']
            simp
        · refine ⟨hvalid, rfl, rfl, rfl, hclaimed.root.trans hswept.root,
            hclaimed.lock.trans hswept.lock, ?_, ?_, Or.inr ⟨hclaimed.ctx, swept.db, hchain, ?_,
              hclaimed.policy_eq, ?_, ?_, hclaimed.lock_eq.trans hswept.lock,
              hclaimed.guard_eq.trans hswept.nextGuard⟩⟩
          · rw [← hswept.nextGuard]
            exact hclaimed.nextGuard
          · rw [← hretained']
            exact hclaimed.active
          · have hout := claimTx_handsOut (hchain.keys hkeys) hclaimed.available_pos hclaimed.tx
            rw [← hclaimed.leases_eq] at hout
            rw [← hretained']
            exact hout
          · rw [← hretained']
            exact hclaimed.available_eq
          · rw [← hretained']
            exact hclaimed.active_eq
    refine ⟨.claims rfl hstep, ?_⟩
    intro leases' hreply
    rw [hdone] at hreply
    cases hreply
    exact hstep

theorem next_volatile (hkeys : w.store.db.Keys) (op : Op) : VolatileStep w op (w.next op) := by
  cases op with
  | createAccount address quotaBytes reading uidvalidity faults =>
      exact .call (createAccount_leaves _ address quotaBytes reading uidvalidity faults)
  | setAccountQuota address bytes => exact .call (setAccountQuota_leaves _ address bytes)
  | finishAuthentication principal reading faults =>
      exact .call (finishAuthentication_leaves _ principal reading faults)
  | createCredential login selector label scope phc reading =>
      exact .call (createCredential_leaves _ login selector label scope phc reading)
  | revokeCredential selector reading faults =>
      exact .call (revokeCredential_leaves _ selector reading faults)
  | disableAccount login reading faults => exact .call (disableAccount_leaves _ login reading faults)
  | setSendAs login address enabled faults =>
      exact .call (setSendAs_leaves _ login address enabled faults)
  | insertAlias address accountId => exact .call (insertAlias_leaves _ address accountId)
  | accept ids message plan reading faults =>
      exact .call (acceptInner_leaves _ ids message plan none none reading faults)
  | acceptSubmission ids message plan identity reading faults =>
      exact .call (acceptInner_leaves _ ids message plan (some identity) none reading faults)
  | acceptRelaySubmission ids message plan identity relay reading faults =>
      exact .call (acceptInner_leaves _ ids message plan (some identity) (some relay) reading faults)
  | enqueue ids message plan reading faults =>
      exact .call (enqueue_leaves _ ids message plan reading faults)
  | queueExpire limit reading faults => exact .call (queueExpire_leaves _ limit reading faults)
  | queueRecover limit reading faults =>
      change VolatileStep w _ (w.call _).1
      rcases w.call_cases (fun s => Rustymail.queueRecover s limit w.live reading faults) with
        hsame | hstore
      · rw [hsame]
        exact .same w _
      · rw [hstore]
        by_cases hlimit : 1 ≤ limit ∧ limit ≤ batch
        · obtain ⟨howner, -⟩ := queueRecover_leaves w.store hlimit w.live reading faults
          exact .of_store howner.lock howner.nextGuard (Or.inr howner.active)
        · rw [queueRecover_invalid w.store hlimit]
          exact .same w _
  | queueClaim policy limit keepLease keepReader input =>
      exact (claim_volatile hkeys policy limit keepLease keepReader input).1
  | queueRenew serial seconds reading faults =>
      exact .callWith fun lease => queueRenew_leaves _ lease seconds reading faults
  | queueMarkBody serial faults => exact .callWith fun lease => queueMarkBody_leaves _ lease faults
  | queueOpenBody serial file =>
      change VolatileStep w _ (w.openBody serial file).1
      rcases w.openBody_cases serial file with hsame | ⟨lease, reader, hlease, hreader, hw⟩
      · rw [hsame]
        exact .same w _
      · exact .reads (lease?_mem hlease) (queueOpenBody_guard hreader) hw
  | queueFinish serial outcome reading guardReading faults =>
      change VolatileStep w _ ((w.callWith serial fun lease s =>
        queueFinish s lease outcome reading guardReading faults).1.dropLease serial)
      rcases w.callWith_cases serial (fun lease s =>
        queueFinish s lease outcome reading guardReading faults) with hsame | ⟨lease, -, hstore⟩
      · rw [hsame]
        exact .loosens List.filter_sublist (List.Sublist.refl _) rfl rfl rfl (Or.inl rfl)
      · rw [hstore]
        obtain ⟨howner, -⟩ := queueFinish_leaves w.store lease outcome reading guardReading faults
        exact .loosens List.filter_sublist (List.Sublist.refl _) rfl howner.lock howner.nextGuard
          (Or.inl howner.active)
  | queueHold id reading faults => exact .call (queueHold_leaves _ id reading faults)
  | queueRetry id allowDuplicate extendExpired reading faults =>
      exact .call (queueRetry_leaves _ id allowDuplicate extendExpired reading faults)
  | queueCloseUnknown id note reading faults =>
      exact .call (queueCloseUnknown_leaves _ id note reading faults)
  | notificationNext policy input => exact .call (notificationNext_leaves _ policy input)
  | notificationFailed id error reading => exact .call (notificationFailed_leaves _ id error reading)
  | notificationCommit prepared delivery reading faults =>
      exact .call (notificationCommit_leaves _ prepared delivery reading faults)
  | dropLease serial =>
      exact .loosens List.filter_sublist (List.Sublist.refl _) rfl rfl rfl (Or.inl rfl)
  | dropReader index =>
      exact .loosens (List.Sublist.refl _) (List.eraseIdx_sublist _ _) rfl rfl rfl (Or.inl rfl)
  | close => exact .loosens (List.Sublist.refl _) (List.Sublist.refl _) rfl rfl rfl (Or.inl rfl)
  | crash => exact .loosens (List.nil_sublist _) (List.nil_sublist _) rfl rfl rfl (Or.inl rfl)
  | reopen maxMessageBytes =>
      change VolatileStep w _ (w.reopen maxMessageBytes).1
      rcases w.reopen_cases maxMessageBytes with hsame | ⟨-, hleases, hreaders, hw⟩
      · rw [hsame]
        exact .same w _
      · rw [hw]
        exact .reopens hleases hreaders hleases hreaders rfl rfl rfl rfl

end World

end Rustymail
