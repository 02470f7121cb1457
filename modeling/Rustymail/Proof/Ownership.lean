import Rustymail.Proof.Volatile
import Rustymail.Attempts
import Mathlib.Data.List.Dedup
import Mathlib.Data.List.Perm.Subperm

/-!
# Who may be sending

A guard is live while a lease or a body reader holds it, whatever the database says about its
delivery. The store's table of guards covers every live guard and has one entry for a delivery, so
no delivery has two live guards, and a claim that counts the table counts them all.
-/

namespace Rustymail

open World

/-- The guards that some lease or reader still holds, each once. -/
def World.liveGuards (w : World) : List LeaseGuard :=
  (w.leases.map QueueLease.guard ++ w.readers.map QueuedReader.guard).dedup

/-- The guard was made for a lease of this delivery. -/
def World.GuardOf (w : World) (guard : LeaseGuard) (id : Text) : Prop :=
  ∃ lease ∈ w.issued, lease.guard = guard ∧ lease.id = id

/-- The live guards, the table of guards and the leases handed out agree. -/
structure World.Owned (w : World) : Prop where
  serials : (w.issued.map fun l => l.guard.serial).Nodup
  below : ∀ l ∈ w.issued, l.guard.serial < w.store.nextGuard
  leases : ∀ l ∈ w.leases, l ∈ w.issued ∧ (l.id, l.guard) ∈ w.store.queue.active
  readers : ∀ r ∈ w.readers, ∃ l ∈ w.issued,
    l.guard = r.guard ∧ (l.id, l.guard) ∈ w.store.queue.active
  entries : ∀ entry ∈ w.store.queue.active, ∃ l ∈ w.issued, entry = (l.id, l.guard)
  distinct : (w.store.queue.active.map Prod.fst).Nodup

variable {w w' : World} {op : Op} {guard guard' : LeaseGuard} {id : Text}
  {policy : QueuePolicy} {limit : Nat} {keepLease : QueueLease → Bool}
  {keepReader : QueuedReader → Bool} {input : ClaimInput} {leases : List QueueLease}

theorem World.mem_liveGuards : guard ∈ w.liveGuards ↔ w.live guard = true := by
  unfold World.liveGuards World.live
  simp

theorem World.live_lease {l : QueueLease} (hl : l ∈ w.leases) : w.live l.guard = true := by
  rw [← mem_liveGuards]
  exact List.mem_dedup.2 (List.mem_append_left _ (List.mem_map_of_mem hl))

theorem World.live_reader {r : QueuedReader} (hr : r ∈ w.readers) : w.live r.guard = true := by
  rw [← mem_liveGuards]
  exact List.mem_dedup.2 (List.mem_append_right _ (List.mem_map_of_mem hr))

namespace World.Owned

theorem live_entry (hw : w.Owned) (hlive : w.live guard = true) :
    ∃ l ∈ w.issued, l.guard = guard ∧ (l.id, l.guard) ∈ w.store.queue.active := by
  unfold World.live at hlive
  simp only [Bool.or_eq_true, List.any_eq_true, decide_eq_true_eq] at hlive
  rcases hlive with ⟨l, hl, rfl⟩ | ⟨r, hr, rfl⟩
  · obtain ⟨hissued, hactive⟩ := hw.leases l hl
    exact ⟨l, hissued, rfl, hactive⟩
  · exact hw.readers r hr

/-- A guard belongs to one lease. -/
theorem lease_unique (hw : w.Owned) {l l' : QueueLease} (hl : l ∈ w.issued) (hl' : l' ∈ w.issued)
    (hguard : l.guard = l'.guard) : l = l' :=
  List.inj_on_of_nodup_map hw.serials hl hl' (congrArg LeaseGuard.serial hguard)

theorem active_of_live (hw : w.Owned) (hlive : w.live guard = true) (hof : w.GuardOf guard id) :
    (id, guard) ∈ w.store.queue.active := by
  obtain ⟨l, hl, hguard, hactive⟩ := hw.live_entry hlive
  obtain ⟨l', hl', hguard', rfl⟩ := hof
  obtain rfl := hw.lease_unique hl hl' (hguard.trans hguard'.symm)
  rw [← hguard]
  exact hactive

theorem exclusive (hw : w.Owned) (hlive : w.live guard = true) (hlive' : w.live guard' = true)
    (hof : w.GuardOf guard id) (hof' : w.GuardOf guard' id) : guard = guard' := by
  have hentry := hw.active_of_live hlive hof
  have hentry' := hw.active_of_live hlive' hof'
  have hsame := List.inj_on_of_nodup_map hw.distinct hentry hentry' rfl
  exact congrArg Prod.snd hsame

end World.Owned

theorem ClaimStep.guards_new
    (h : ClaimStep w policy limit keepLease keepReader input leases w') :
    (∀ l ∈ leases, w.store.nextGuard ≤ l.guard.serial ∧ l.guard.serial < w'.store.nextGuard)
      ∧ (leases.map fun l => l.guard.serial).Nodup := by
  rcases h.handsOut with rfl | ⟨ctx, swept, -, hout, -, -, -, -, hnext⟩
  · simp
  · have hserial : ∀ i, (hi : i < leases.length) →
        leases[i].guard.serial = w.store.nextGuard + i := by
      intro i hi
      rw [hout.serials i hi, hnext]
    constructor
    · intro l hl
      obtain ⟨i, hi, rfl⟩ := List.mem_iff_getElem.1 hl
      rw [hserial i hi, h.guard_eq]
      omega
    · rw [List.nodup_iff_pairwise_ne, List.pairwise_iff_getElem]
      intro i j hi hj hlt
      simp only [List.length_map] at hi hj
      simp only [List.getElem_map, hserial i hi, hserial j hj]
      omega

theorem ClaimStep.entries_distinct
    (h : ClaimStep w policy limit keepLease keepReader input leases w')
    (hdistinct : (w.store.queue.active.map Prod.fst).Nodup) :
    (w'.store.queue.active.map Prod.fst).Nodup := by
  have hkept := hdistinct.sublist
    ((List.filter_sublist (p := fun entry : Text × LeaseGuard => w.live entry.2)).map Prod.fst)
  rw [h.active_eq, List.map_append, List.map_map]
  rcases h.handsOut with rfl | ⟨ctx, swept, -, hout, -, -, hactive, -⟩
  · simpa using hkept
  · refine hkept.append hout.distinct ?_
    intro id hold hnew
    obtain ⟨l, hl, rfl⟩ := List.mem_map.1 hnew
    obtain ⟨entry, hentry, heq⟩ := List.mem_map.1 hold
    obtain ⟨row, -, -, hgranted⟩ := hout.granted l hl
    have hfree := hgranted.free
    rw [hactive, List.any_eq_false] at hfree
    exact hfree entry hentry (decide_eq_true (heq.trans hgranted.id_eq))

/-- Every kind of operation keeps the table of guards in agreement with the holders. -/
theorem VolatileStep.owned (h : VolatileStep w op w') (hw : w.Owned) : w'.Owned := by
  cases h with
  | loosens hleases hreaders hissued hlock hguard hactive =>
      have hkept : ∀ entry ∈ w.store.queue.active, w.live entry.2 = true →
          entry ∈ w'.store.queue.active := by
        intro entry hentry hlive
        rcases hactive with hsame | hfiltered
        · rw [hsame]
          exact hentry
        · rw [hfiltered]
          exact List.mem_filter.2 ⟨hentry, hlive⟩
      have hsublist : w'.store.queue.active.Sublist w.store.queue.active := by
        rcases hactive with hsame | hfiltered
        · rw [hsame]
        · rw [hfiltered]
          exact List.filter_sublist
      constructor
      · rw [hissued]
        exact hw.serials
      · rw [hissued, hguard]
        exact hw.below
      · intro l hl
        obtain ⟨hmem, hentry⟩ := hw.leases l (hleases.subset hl)
        rw [hissued]
        exact ⟨hmem, hkept _ hentry (live_lease (hleases.subset hl))⟩
      · intro r hr
        obtain ⟨l, hmem, hguard, hentry⟩ := hw.readers r (hreaders.subset hr)
        rw [hissued]
        refine ⟨l, hmem, hguard, hkept _ hentry ?_⟩
        rw [hguard]
        exact live_reader (hreaders.subset hr)
      · intro entry hentry
        rw [hissued]
        exact hw.entries entry (hsublist.subset hentry)
      · exact hw.distinct.sublist (hsublist.map Prod.fst)
  | @reads lease reader hlease hguard hnew =>
      subst hnew
      refine ⟨hw.serials, hw.below, hw.leases, ?_, hw.entries, hw.distinct⟩
      intro r hr
      rcases List.mem_append.1 hr with hold | hnew
      · exact hw.readers r hold
      · obtain rfl := List.mem_singleton.1 hnew
        obtain ⟨hissued, hactive⟩ := hw.leases lease hlease
        exact ⟨lease, hissued, hguard.symm, hactive⟩
  | @claims policy limit keepLease keepReader input leases hop hclaim =>
      obtain ⟨hnew, hserials⟩ := hclaim.guards_new
      have hkept : ∀ l ∈ w.issued, w.live l.guard = true → (l.id, l.guard) ∈ w.store.queue.active →
          (l.id, l.guard) ∈ w'.store.queue.active := by
        intro l hl hlive hentry
        rw [hclaim.active_eq]
        exact List.mem_append_left _ (List.mem_filter.2 ⟨hentry, hlive⟩)
      constructor
      · rw [hclaim.issued_eq, List.map_append]
        refine hw.serials.append hserials ?_
        intro serial hold hfresh
        obtain ⟨l, hl, rfl⟩ := List.mem_map.1 hold
        obtain ⟨l', hl', heq⟩ := List.mem_map.1 hfresh
        have := hw.below l hl
        have := (hnew l' hl').1
        omega
      · intro l hl
        rw [hclaim.issued_eq, List.mem_append] at hl
        rcases hl with hold | hfresh
        · have := hw.below l hold
          have := hclaim.guard_eq
          omega
        · exact (hnew l hfresh).2
      · intro l hl
        rw [hclaim.leases_eq, List.mem_append] at hl
        rcases hl with hold | hfresh
        · have hmem := List.mem_of_mem_filter hold
          obtain ⟨hissued, hentry⟩ := hw.leases l hmem
          exact ⟨hclaim.issued_eq ▸ List.mem_append_left _ hissued,
            hkept l hissued (live_lease hmem) hentry⟩
        · refine ⟨hclaim.issued_eq ▸ List.mem_append_right _ hfresh, ?_⟩
          rw [hclaim.active_eq]
          exact List.mem_append_right _ (List.mem_map_of_mem (f := fun l => (l.id, l.guard)) hfresh)
      · intro r hr
        rw [hclaim.readers_eq] at hr
        have hmem := List.mem_of_mem_filter hr
        obtain ⟨l, hissued, hguard, hentry⟩ := hw.readers r hmem
        refine ⟨l, hclaim.issued_eq ▸ List.mem_append_left _ hissued, hguard,
          hkept l hissued ?_ hentry⟩
        rw [hguard]
        exact live_reader hmem
      · intro entry hentry
        rw [hclaim.active_eq, List.mem_append] at hentry
        rw [hclaim.issued_eq]
        rcases hentry with hold | hfresh
        · obtain ⟨l, hl, heq⟩ := hw.entries entry (List.mem_of_mem_filter hold)
          exact ⟨l, List.mem_append_left _ hl, heq⟩
        · obtain ⟨l, hl, rfl⟩ := List.mem_map.1 hfresh
          exact ⟨l, List.mem_append_right _ hl, rfl⟩
      · exact hclaim.entries_distinct hw.distinct
  | reopens hleases hreaders hleases' hreaders' hissued hlock hguard hactive =>
      refine ⟨?_, ?_, ?_, ?_, ?_, ?_⟩
      · rw [hissued]
        exact hw.serials
      · rw [hissued, hguard]
        exact hw.below
      · simp [hleases']
      · simp [hreaders']
      · simp [hactive]
      · simp [hactive]

theorem World.Reachable.owned (h : w.Reachable) : w.Owned := by
  refine h.induct World.Owned ?_ ?_
  · intro root maxMessageBytes
    constructor <;> simp [World.init]
  · intro w op hreach hw
    exact (w.next_volatile hreach.keys op).owned hw

/-! ### The caps -/

/-- The live guards after a claim: those it counted, and those it made. -/
theorem ClaimStep.mem_live
    (h : ClaimStep w policy limit keepLease keepReader input leases w') (hw : w.Owned)
    (hlive : w'.live guard = true) :
    (∃ id, (id, guard) ∈ w.store.queue.active ∧ w.live guard = true
        ∧ (w.without keepLease keepReader).live guard = true)
      ∨ ∃ l ∈ leases, l.guard = guard := by
  unfold World.live at hlive
  rw [h.leases_eq, h.readers_eq, List.any_append, Bool.or_right_comm, Bool.or_eq_true] at hlive
  rcases hlive with hkept | hfresh
  · have hrest : (w.without keepLease keepReader).live guard = true := hkept
    have hbefore : w.live guard = true := by
      simp only [Bool.or_eq_true, List.any_eq_true, decide_eq_true_eq] at hkept
      rcases hkept with ⟨l, hl, rfl⟩ | ⟨r, hr, rfl⟩
      · exact live_lease (List.mem_of_mem_filter hl)
      · exact live_reader (List.mem_of_mem_filter hr)
    obtain ⟨l, -, rfl, hentry⟩ := hw.live_entry hbefore
    exact Or.inl ⟨l.id, hentry, hbefore, hrest⟩
  · rw [List.any_eq_true] at hfresh
    obtain ⟨l, hl, hguard⟩ := hfresh
    exact Or.inr ⟨l, hl, of_decide_eq_true hguard⟩

theorem ClaimStep.concurrency_le
    (h : ClaimStep w policy limit keepLease keepReader input leases w')
    (hw' : w'.Owned) (hsome : leases ≠ []) : w'.liveGuards.length ≤ policy.concurrency := by
  have hsubset : w'.liveGuards ⊆ w'.store.queue.active.map Prod.snd := by
    intro guard hguard
    obtain ⟨l, -, rfl, hentry⟩ := hw'.live_entry (mem_liveGuards.1 hguard)
    exact List.mem_map_of_mem (f := Prod.snd) hentry
  have hlength : w'.liveGuards.length ≤ w'.store.queue.active.length := by
    have hperm : w'.liveGuards.Subperm _ := List.Nodup.subperm (List.nodup_dedup _) hsubset
    simpa using hperm.length_le
  rcases h.handsOut with hnone | ⟨ctx, swept, -, hout, hpolicy, havailable, -⟩
  · exact absurd hnone hsome
  · have hpos := List.length_pos_iff.2 hsome
    have hroom := hout.length_le
    rw [h.active_eq, List.length_append, List.length_map] at hlength
    omega

theorem ClaimStep.length_le
    (h : ClaimStep w policy limit keepLease keepReader input leases w') : leases.length ≤ limit := by
  rcases h.handsOut with rfl | ⟨ctx, swept, -, hout, -, havailable, -⟩
  · simp
  · have := hout.length_le
    omega

theorem ClaimStep.domain_le
    (h : ClaimStep w policy limit keepLease keepReader input leases w') (hw : w.Owned)
    {l : QueueLease} (hl : l ∈ leases) :
    w'.liveGuards.countP (fun guard => guard.domain = l.recipient.domain) ≤ policy.perDomain := by
  rcases h.handsOut with rfl | ⟨ctx, swept, -, hout, hpolicy, -⟩
  · cases hl
  · obtain ⟨row, -, -, hgranted⟩ := hout.granted l hl
    have hbound := hout.domain_le l hl
    rw [hgranted.domain_eq, hpolicy] at hbound
    refine le_trans ?_ hbound
    set kept := (w.store.queue.active.filter fun entry => w.live entry.2).filter fun entry =>
      (w.without keepLease keepReader).live entry.2 with hkept
    have hsubset : w'.liveGuards ⊆ (leases.map QueueLease.guard).reverse ++ kept.map Prod.snd := by
      intro guard hguard
      rcases h.mem_live hw (mem_liveGuards.1 hguard) with
        ⟨id, hentry, hbefore, hrest⟩ | ⟨l', hl', rfl⟩
      · refine List.mem_append_right _ (List.mem_map.2 ⟨(id, guard), ?_, rfl⟩)
        exact List.mem_filter.2 ⟨List.mem_filter.2 ⟨hentry, hbefore⟩, hrest⟩
      · exact List.mem_append_left _ (List.mem_reverse.2 (List.mem_map_of_mem hl'))
    have hcount := (List.Nodup.subperm (List.nodup_dedup _) hsubset).countP_le
      (fun guard => guard.domain = l.recipient.domain)
    refine hcount.trans (le_of_eq ?_)
    unfold activeDomains
    rw [← hkept, List.count_append, List.countP_append, List.count_reverse, List.countP_reverse]
    simp only [List.count, List.countP_map, Function.comp_def, beq_eq_decide]

/-! ### Recovery -/

/-- Recovery passes over every delivery with a live guard, also when a claim runs it after reading
the clock. -/
theorem World.Owned.recover_view (hw : w.Owned) (hkeys : w.store.db.Keys)
    (hlive : w.live guard = true) (hof : w.GuardOf guard id) {queue : QueueRuntime}
    (hactive : queue.active = w.store.queue.active) (limit : Nat) (reading : Reading)
    (faults : Faults) :
    (queueRecover { w.store with queue := queue } limit w.live reading faults).1.db.view id
      = w.store.db.view id := by
  by_cases hlimit : 1 ≤ limit ∧ limit ≤ batch
  · obtain ⟨-, hdb⟩ := queueRecover_leaves { w.store with queue := queue } hlimit w.live reading
      faults
    rcases hdb with hsame | ⟨now, result, htx⟩
    · rw [hsame]
      rfl
    · have hentry : ((queue.retain w.live).active.any fun entry => entry.1 = id) = true := by
        rw [List.any_eq_true]
        refine ⟨(id, guard), ?_, by simp⟩
        unfold QueueRuntime.retain
        rw [hactive]
        exact List.mem_filter.2 ⟨hw.active_of_live hlive hof, hlive⟩
      have hevolves : Lifecycle.Evolves (fun _ => False) (w.store.db.view id) ((queueRecover
          { w.store with queue := queue } limit w.live reading faults).1.db.view id) :=
        recoverTx_evolves hkeys.deliveries htx (by simp [hentry])
      exact hevolves.keeps (fun v => v = w.store.db.view id) (fun _ _ _ hnever => hnever.elim) rfl
  · rw [queueRecover_invalid _ hlimit]

/-- At most one live guard for a delivery; a claim stays within its limit and its policy's caps,
counting every live guard; recovery leaves a delivery with a live guard alone. -/
theorem dispatch_exclusive_and_capped (w : World) (hreach : w.Reachable) :
    (∀ guard ∈ w.liveGuards, ∃! id, w.GuardOf guard id)
      ∧ (∀ guard ∈ w.liveGuards, ∀ guard' ∈ w.liveGuards, ∀ id,
        w.GuardOf guard id → w.GuardOf guard' id → guard = guard')
      ∧ (∀ policy limit keepLease keepReader input leases w',
        w.step (.queueClaim policy limit keepLease keepReader input) = (w', .leases (.ok leases)) →
        leases.length ≤ limit
          ∧ (leases ≠ [] → w'.liveGuards.length ≤ policy.concurrency)
          ∧ ∀ l ∈ leases, w'.liveGuards.countP (fun guard => guard.domain = l.recipient.domain)
            ≤ policy.perDomain)
      ∧ ∀ guard ∈ w.liveGuards, ∀ id, w.GuardOf guard id → ∀ queue limit reading faults,
        queue.active = w.store.queue.active →
        (queueRecover { w.store with queue := queue } limit w.live reading faults).1.db.view id
          = w.store.db.view id := by
  have hw := hreach.owned
  refine ⟨?_, ?_, ?_, ?_⟩
  · intro guard hguard
    obtain ⟨l, hl, rfl, hentry⟩ := hw.live_entry (mem_liveGuards.1 hguard)
    refine ⟨l.id, ⟨l, hl, rfl, rfl⟩, ?_⟩
    rintro id ⟨l', hl', hguard', rfl⟩
    rw [hw.lease_unique hl' hl hguard']
  · intro guard hguard guard' hguard' id hof hof'
    exact hw.exclusive (mem_liveGuards.1 hguard) (mem_liveGuards.1 hguard') hof hof'
  · intro policy limit keepLease keepReader input leases w' hstep
    obtain ⟨hvolatile, hclaimed⟩ := claim_volatile hreach.keys policy limit keepLease keepReader input
    have hw' : w' = (w.claim policy limit keepLease keepReader input).1 :=
      (congrArg Prod.fst hstep).symm
    have hreply : (w.claim policy limit keepLease keepReader input).2 = .ok leases :=
      Reply.leases.inj (congrArg Prod.snd hstep)
    have hclaim := hclaimed leases hreply
    rw [← hw'] at hclaim hvolatile
    exact ⟨hclaim.length_le, hclaim.concurrency_le (hvolatile.owned hw), fun l hl =>
      hclaim.domain_le hw hl⟩
  · intro guard hguard id hof queue limit reading faults hactive
    exact hw.recover_view hreach.keys (mem_liveGuards.1 hguard) hof hactive limit reading faults

/-- The sample claim makes the first live guard, and recovery then leaves its delivery alone. -/
theorem dispatch_exclusive_and_capped_first_claim :
    (Sample.fresh.run [Sample.enqueue, Sample.claim]).liveGuards.length = 1
      ∧ (Sample.fresh.run [Sample.enqueue, Sample.claim]).liveGuards.length
        ≤ ({} : QueuePolicy).concurrency
      ∧ ((Sample.fresh.run [Sample.enqueue, Sample.claim]).next
          (.queueRecover 1 Sample.reading {})).store.db.view Sample.deliveryId.text
        = (Sample.fresh.run [Sample.enqueue, Sample.claim]).store.db.view Sample.deliveryId.text := by
  obtain ⟨-, -, hcaps, -⟩ := dispatch_exclusive_and_capped (Sample.fresh.run [Sample.enqueue])
    (Sample.reachable _)
  obtain ⟨-, -, -, hrecover⟩ := dispatch_exclusive_and_capped
    (Sample.fresh.run [Sample.enqueue, Sample.claim]) (Sample.reachable _)
  refine ⟨by decide, (hcaps _ _ _ _ _ _ _ rfl).2.1 (by decide), ?_⟩
  have hheld := hrecover ⟨0, 0, Sample.recipient.domain⟩ (by decide) Sample.deliveryId.text
    ⟨_, List.mem_singleton_self _, rfl, rfl⟩
  have hrecovered := hheld _ 1 Sample.reading {} rfl
  exact hrecovered

end Rustymail
