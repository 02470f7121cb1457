import Rustymail.Proof.DispatchLemmas

/-!
# The dispatcher runs attempts

Every task of the dispatcher is a relay attempt as studied alone: what the loop, the other tasks and
everybody else do is to it what others do.
-/

namespace Rustymail

open World

/-- The task is an execution that began under its lease; as long as the lease is held, the execution
is in this world. -/
def RelayTask.Mirrors (t : RelayTask) (client : Client.SmtpClient) (w : World) : Prop :=
  ∃ (before world : World) (happenings : List Happening), before.Reachable ∧ t.lease ∈ before.leases
    ∧ (Execution.start client before t.lease).run happenings
      = ⟨world, client, t.lease, t.stage, t.course, t.orphans⟩
    ∧ (t.lease ∈ w.leases → world = w)

theorem Stage.isGone_iff {stage : Stage} : stage.isGone = true ↔ stage = .gone := by
  cases stage <;> simp [Stage.isGone]

/-- The task as far as this execution of it has come. -/
def RelayTask.at (t : RelayTask) (e : Execution) : RelayTask :=
  { t with stage := e.stage, course := e.course, orphans := e.orphans }

/-- The task or one of its calls needs the lease. -/
def RelayTask.Needs (t : RelayTask) : Prop := t.stage ≠ .gone ∨ t.orphans ≠ []

/-- The tasks and the store belong together. -/
structure Dispatcher.Attached (d : Dispatcher) : Prop where
  reachable : d.world.Reachable
  serials : Keyed.Unique RelayTask.serial d.tasks
  executions : ∀ t ∈ d.tasks, (d.execution t).Sound
  mirrors : ∀ t ∈ d.tasks, t.Mirrors d.client d.world
  held : ∀ l ∈ d.world.leases, ∃ t ∈ d.tasks, t.lease = l
  guards : d.world.liveGuards.length ≤ d.config.delivery.concurrency
  domains : ∀ domain, d.world.liveGuards.countP (fun guard => guard.domain = domain)
    ≤ d.config.delivery.perDomainConcurrency

section Guards

variable {w w' : World}

/-- Fewer live guards count less. -/
theorem World.countP_liveGuards_le (p : LeaseGuard → Bool)
    (h : ∀ guard, w'.live guard = true → p guard = true → w.live guard = true) :
    w'.liveGuards.countP p ≤ w.liveGuards.countP p := by
  rw [List.countP_eq_length_filter, List.countP_eq_length_filter]
  have hnodup : (w'.liveGuards.filter p).Nodup := (List.nodup_dedup _).filter p
  refine (List.Nodup.subperm hnodup ?_).length_le
  intro guard hguard
  obtain ⟨hmem, hp⟩ := List.mem_filter.1 hguard
  exact List.mem_filter.2 ⟨mem_liveGuards.2 (h guard (mem_liveGuards.1 hmem) hp), hp⟩

theorem World.length_liveGuards_le (h : ∀ guard, w'.live guard = true → w.live guard = true) :
    w'.liveGuards.length ≤ w.liveGuards.length := by
  have hcount := countP_liveGuards_le (fun _ => true) fun guard hguard _ => h guard hguard
  rwa [List.countP_true] at hcount

end Guards

namespace Dispatcher

variable {d d' : Dispatcher}

/-! ### Others use the store -/

theorem Attached.lease?_eq (h : d.Attached) {t : RelayTask} (hl : t.lease ∈ d.world.leases) : d.world.lease? t.serial = some t.lease :=
  h.reachable.owned.lease?_eq hl

theorem Attached.lease_held (h : d.Attached) {t : RelayTask} (ht : t ∈ d.tasks) (hneeds : t.Needs) :
    t.lease ∈ d.world.leases :=
  (h.executions t ht).held hneeds

theorem mirrors_of_foreign {t : RelayTask} {client : Client.SmtpClient} {w : World} {op : Op}
    (hm : t.Mirrors client w)
    (hforeign : t.lease ∈ (w.next op).leases → t.lease ∈ w.leases ∧ op.foreign w t.serial = true) :
    t.Mirrors client (w.next op) := by
  obtain ⟨before, world, happenings, hreach, hlease, hrun, hworld⟩ := hm
  by_cases hheld : t.lease ∈ (w.next op).leases
  · obtain ⟨hl, hop⟩ := hforeign hheld
    obtain rfl := hworld hl
    refine ⟨before, world.next op, happenings ++ [.other op], hreach, hlease, ?_, fun _ => rfl⟩
    unfold Execution.run at hrun ⊢
    rw [Runs.run_snoc, hrun]
    unfold Execution.step
    exact if_pos hop
  · exact ⟨before, world, happenings, hreach, hlease, hrun, fun hl => absurd hl hheld⟩

/-- An operation that makes no lease and leaves those alone that are needed. -/
theorem Attached.uses (h : d.Attached) {op : Op} (hlessens : d.world.Lessens (d.world.next op))
    (hforeign : ∀ t ∈ d.tasks, (t.Needs ∨ t.lease ∈ (d.world.next op).leases) →
      op.foreign d.world t.serial = true) :
    ({ d with world := d.world.next op } : Dispatcher).Attached where
  reachable := h.reachable.next op
  serials := h.serials
  executions t ht := by
    refine (h.executions t ht).withNext op ?_
    intro hneeds
    have hl := h.lease_held ht hneeds
    exact foreign_keeps (hforeign t ht (Or.inl hneeds)) (h.lease?_eq hl)
  mirrors t ht := by
    refine mirrors_of_foreign (h.mirrors t ht) ?_
    intro hl
    exact ⟨hlessens.leases hl, hforeign t ht (Or.inr hl)⟩
  held l hl := h.held l (hlessens.leases hl)
  guards := (length_liveGuards_le hlessens.live).trans h.guards
  domains domain :=
    (countP_liveGuards_le _ fun guard hguard _ => hlessens.live guard hguard).trans (h.domains domain)

/-- Only the marks of what was joined, and what belongs to the loop, differ. -/
theorem Attached.congr (h : d.Attached) (hworld : d'.world = d.world) (hconfig : d'.config = d.config)
    (hclient : d'.client = d.client)
    (htasks : d'.tasks.map RelayTask.core = d.tasks.map RelayTask.core) : d'.Attached := by
  have hsame : ∀ t' ∈ d'.tasks, ∃ t ∈ d.tasks, t.core = t'.core := by
    intro t' ht'
    have hmem := List.mem_map_of_mem (f := RelayTask.core) ht'
    rw [htasks] at hmem
    exact List.mem_map.1 hmem
  refine ⟨hworld ▸ h.reachable, ?_, ?_, ?_, ?_, ?_, ?_⟩
  · have hserials := congrArg (List.map RelayTask.serial) htasks
    rw [List.map_map, List.map_map] at hserials
    change (d'.tasks.map (RelayTask.serial ∘ RelayTask.core)).Nodup
    rw [hserials]
    exact h.serials
  · intro t' ht'
    obtain ⟨t, ht, hcore⟩ := hsame t' ht'
    have hexecution : d'.execution t' = d.execution t := by
      change d'.execution t'.core = d.execution t.core
      rw [← hcore]
      unfold execution
      rw [hworld, hclient]
    rw [hexecution]
    exact h.executions t ht
  · intro t' ht'
    obtain ⟨t, ht, hcore⟩ := hsame t' ht'
    change t'.core.Mirrors d'.client d'.world
    rw [← hcore, hworld, hclient]
    exact h.mirrors t ht
  · intro l hl
    rw [hworld] at hl
    obtain ⟨t, ht, rfl⟩ := h.held l hl
    have hmem := List.mem_map_of_mem (f := RelayTask.core) ht
    rw [← htasks] at hmem
    obtain ⟨t', ht', hcore⟩ := List.mem_map.1 hmem
    exact ⟨t', ht', (congrArg (fun t : RelayTask => t.lease) hcore : t'.core.lease = t.core.lease)⟩
  · rw [hworld, hconfig]
    exact h.guards
  · rw [hworld, hconfig]
    exact h.domains

/-! ### A task takes a step -/

theorem execution_at (t : RelayTask) (happening : Happening) :
    (d.advance t happening).execution (t.at ((d.execution t).step happening))
      = (d.execution t).step happening := by
  have hlease : ((d.execution t).step happening).lease = t.lease := Execution.step_lease happening
  have hclient : ((d.execution t).step happening).client = d.client := Execution.step_client happening
  change (⟨_, d.client, t.lease, _, _, _⟩ : Execution) = _
  rw [← hlease, ← hclient]
  rfl

theorem mem_advance {t t' : RelayTask} {happening : Happening} (ht' : t' ∈ (d.advance t happening).tasks)
    (hserials : Keyed.Unique RelayTask.serial d.tasks) (ht : t ∈ d.tasks) :
    t' = t.at ((d.execution t).step happening) ∨ (t' ∈ d.tasks ∧ t'.serial ≠ t.serial) := by
  rcases Keyed.mem_modify.1 ht' with ⟨old, hold, hsame, rfl⟩ | hother
  · obtain rfl : old = t := List.inj_on_of_nodup_map hserials hold ht hsame
    exact Or.inl rfl
  · exact Or.inr hother

theorem Attached.advance (h : d.Attached) {t : RelayTask} (ht : t ∈ d.tasks) {happening : Happening}
    (hown : happening.own = true) : (d.advance t happening).Attached := by
  have hsound := (h.executions t ht).step happening
  -- What the step means to the store: nothing, or an operation under the lease of the task.
  obtain ⟨hlessens, hnext⟩ : d.world.Lessens (d.advance t happening).world
      ∧ ((d.advance t happening).world = d.world ∨ ∃ op : Op, op.under t.serial = true
        ∧ (d.advance t happening).world = d.world.next op) := by
    rcases Execution.step_world (e := d.execution t) hown with hsame | ⟨op, hop, hsame⟩
    · have hworld : (d.advance t happening).world = d.world := hsame
      rw [hworld]
      exact ⟨⟨rfl, List.Subset.refl _, fun _ hguard => hguard⟩, Or.inl rfl⟩
    · have hworld : (d.advance t happening).world = d.world.next op := hsame
      rw [hworld]
      exact ⟨next_lessens h.reachable.keys (Op.not_claim_of_under hop), Or.inr ⟨op, hop, rfl⟩⟩
  refine ⟨hsound.reachable, ?_, ?_, ?_, ?_, ?_, ?_⟩
  · exact Keyed.unique_modify (fun _ => rfl) h.serials
  · intro t' ht'
    rcases mem_advance ht' h.serials ht with rfl | ⟨hold, hother⟩
    · rw [execution_at]
      exact hsound
    · rcases hnext with hworld | ⟨op, hop, hworld⟩
      · have hsame := h.executions t' hold
        unfold execution at hsame ⊢
        rw [hworld]
        exact hsame
      · have hsame := (h.executions t' hold).withNext op fun hneeds =>
          foreign_keeps (Op.foreign_of_under hop hother) (h.lease?_eq (h.lease_held hold hneeds))
        unfold execution at hsame ⊢
        rw [hworld]
        exact hsame
  · intro t' ht'
    rcases mem_advance ht' h.serials ht with rfl | ⟨hold, hother⟩
    · obtain ⟨before, world, happenings, hreach, hbefore, hrun, hworld⟩ := h.mirrors t ht
      by_cases hheld : t.lease ∈ d.world.leases
      · obtain rfl := hworld hheld
        refine ⟨before, _, happenings ++ [happening], hreach, hbefore, ?_, fun _ => rfl⟩
        change (Execution.start d.client before t.lease).run (happenings ++ [happening])
          = (d.advance t happening).execution (t.at ((d.execution t).step happening))
        rw [execution_at]
        unfold Execution.run at hrun ⊢
        rw [Runs.run_snoc, hrun]
        rfl
      · have hgone : t.stage = .gone ∧ t.orphans = [] := by
          by_contra hneeds
          rw [not_and_or] at hneeds
          exact hheld (h.lease_held ht hneeds)
        obtain ⟨hstage, hcourse, horphans⟩ :=
          Execution.step_over (e := d.execution t) hown hgone.1 hgone.2
        refine ⟨before, world, happenings, hreach, hbefore, ?_, fun hl => absurd (hlessens.leases hl) hheld⟩
        unfold RelayTask.at
        rw [hstage, hcourse, horphans]
        rw [hgone.1, hgone.2] at hrun
        exact hrun
    · rcases hnext with hworld | ⟨op, hop, hworld⟩
      · rw [hworld]
        exact h.mirrors t' hold
      · rw [hworld] at hlessens ⊢
        exact mirrors_of_foreign (h.mirrors t' hold) fun hl =>
          ⟨hlessens.leases hl, Op.foreign_of_under hop hother⟩
  · intro l hl
    obtain ⟨t', ht', rfl⟩ := h.held l (hlessens.leases hl)
    by_cases hsame : t'.serial = t.serial
    · exact ⟨_, Keyed.mem_modify.2 (Or.inl ⟨t', ht', hsame, rfl⟩), rfl⟩
    · exact ⟨t', Keyed.mem_modify.2 (Or.inr ⟨ht', hsame⟩), rfl⟩
  · exact (length_liveGuards_le hlessens.live).trans h.guards
  · intro domain
    exact (countP_liveGuards_le _ fun guard hguard _ => hlessens.live guard hguard).trans
      (h.domains domain)

/-! ### The loop claims -/

/-- A lease that is still held after a claim, or still needed, was left alone by it. -/
theorem Attached.claim_foreign (h : d.Attached) {keepLease : QueueLease → Bool}
    {keepReader : QueuedReader → Bool} {input : ClaimInput} {t : RelayTask} (ht : t ∈ d.tasks)
    (hkept : t.Needs ∨ (keepLease t.lease || !d.free t.lease) = true) :
    (d.claiming keepLease keepReader input).foreign d.world t.serial = true := by
  unfold claiming Op.foreign
  dsimp only
  rw [Option.all_eq_true]
  intro l hl
  obtain ⟨t', ht', rfl⟩ := h.held l (lease?_mem hl)
  obtain rfl : t' = t := List.inj_on_of_nodup_map h.serials ht' ht (serial_of_lease? hl)
  rcases hkept with hneeds | hkept
  · have hbusy : d.free t'.lease = false := by
      unfold free
      rw [List.all_eq_false]
      refine ⟨t', ht', ?_⟩
      have hleft : (t'.stage.isGone && t'.orphans.isEmpty) = false := by
        rw [Bool.and_eq_false_iff]
        rcases hneeds with hstage | horphans
        · exact Or.inl (Bool.eq_false_iff.2 fun hgone => hstage (Stage.isGone_iff.1 hgone))
        · exact Or.inr (Bool.eq_false_iff.2 fun hempty => horphans (List.isEmpty_iff.1 hempty))
      rw [hleft, bne_self_eq_false]
      exact Bool.false_ne_true
    rw [hbusy]
    exact Bool.or_true _
  · exact hkept

theorem Attached.fails (h : d.Attached) {keepLease : QueueLease → Bool}
    {keepReader : QueuedReader → Bool} {input : ClaimInput} {w' : World}
    (hworld : w' = d.world.next (d.claiming keepLease keepReader input))
    (hlessens : d.world.Lessens w')
    (hleases : ∀ l ∈ w'.leases, (keepLease l || !d.free l) = true) :
    ({ d with world := w' } : Dispatcher).Attached := by
  subst hworld
  refine h.uses hlessens ?_
  intro t ht hkept
  exact h.claim_foreign ht (hkept.imp_right (hleases t.lease))

/-- A claim keeps the caps and gives each new lease a task of its own. -/
theorem Attached.claims (h : d.Attached) {keepLease : QueueLease → Bool}
    {keepReader : QueuedReader → Bool} {input : ClaimInput} {leases : List QueueLease} {w' : World}
    (hstep : d.world.step (d.claiming keepLease keepReader input) = (w', .leases (.ok leases))) :
    ({ d with world := w', tasks := d.tasks ++ leases.map RelayTask.fresh } : Dispatcher).Attached := by
  have hworld : w' = d.world.next (d.claiming keepLease keepReader input) :=
    (congrArg Prod.fst hstep).symm
  have hreply : (d.world.claim d.config.queuePolicy d.config.delivery.batchSize
      (fun lease => keepLease lease || !d.free lease) keepReader input).2 = .ok leases :=
    Reply.leases.inj (congrArg Prod.snd hstep)
  have hclaim := (claim_volatile h.reachable.keys _ _ _ _ _).2 leases hreply
  change ClaimStep d.world _ _ _ _ _ _ (d.world.next (d.claiming keepLease keepReader input)) at hclaim
  rw [← hworld] at hclaim
  have hreach : w'.Reachable := hworld ▸ h.reachable.next _
  have howned := h.reachable.owned
  obtain ⟨hserial, hdistinct⟩ := hclaim.guards_new
  -- An old lease that is still there was kept by the claim.
  have hold : ∀ t ∈ d.tasks, t.lease ∈ w'.leases →
      t.lease ∈ d.world.leases ∧ (keepLease t.lease || !d.free t.lease) = true := by
    intro t ht hl
    rw [hclaim.leases_eq] at hl
    rcases List.mem_append.1 hl with hkept | hnew
    · exact List.mem_filter.1 hkept
    · have hbelow := howned.below t.lease (h.executions t ht).issued
      have hfresh := (hserial t.lease hnew).1
      omega
  have hforeign : ∀ t ∈ d.tasks, (t.Needs ∨ t.lease ∈ w'.leases) →
      (d.claiming keepLease keepReader input).foreign d.world t.serial = true := by
    intro t ht hkept
    exact h.claim_foreign ht (hkept.imp_right fun hl => (hold t ht hl).2)
  refine ⟨hreach, ?_, ?_, ?_, ?_, ?_, ?_⟩
  · unfold Keyed.Unique
    rw [List.map_append, List.map_map]
    refine List.Nodup.append h.serials hdistinct ?_
    intro serial hmem hnew
    obtain ⟨t, ht, rfl⟩ := List.mem_map.1 hmem
    obtain ⟨l, hl, heq⟩ := List.mem_map.1 hnew
    have hbelow := howned.below t.lease (h.executions t ht).issued
    have hfresh := (hserial l hl).1
    change l.guard.serial = t.lease.guard.serial at heq
    omega
  · intro t ht
    rcases List.mem_append.1 ht with hmem | hnew
    · change (⟨w', d.client, t.lease, t.stage, t.course, t.orphans⟩ : Execution).Sound
      rw [hworld]
      exact (h.executions t hmem).withNext _ fun hneeds =>
        foreign_keeps (hforeign t hmem (Or.inl hneeds)) (h.lease?_eq (h.lease_held hmem hneeds))
    · obtain ⟨l, hl, rfl⟩ := List.mem_map.1 hnew
      refine Execution.Sound.start hreach d.client ?_
      rw [hclaim.leases_eq]
      exact List.mem_append_right _ hl
  · intro t ht
    rcases List.mem_append.1 ht with hmem | hnew
    · change t.Mirrors d.client w'
      rw [hworld]
      refine mirrors_of_foreign (h.mirrors t hmem) ?_
      rw [← hworld]
      intro hl
      exact ⟨(hold t hmem hl).1, hforeign t hmem (Or.inr hl)⟩
    · obtain ⟨l, hl, rfl⟩ := List.mem_map.1 hnew
      refine ⟨w', w', [], hreach, ?_, rfl, fun _ => rfl⟩
      change l ∈ w'.leases
      rw [hclaim.leases_eq]
      exact List.mem_append_right _ hl
  · intro l hl
    change l ∈ w'.leases at hl
    rw [hclaim.leases_eq] at hl
    rcases List.mem_append.1 hl with hkept | hnew
    · obtain ⟨t, ht, rfl⟩ := h.held l (List.mem_filter.1 hkept).1
      exact ⟨t, List.mem_append_left _ ht, rfl⟩
    · exact ⟨.fresh l, List.mem_append_right _ (List.mem_map_of_mem hnew), rfl⟩
  · by_cases hnone : leases = []
    · refine (length_liveGuards_le ?_).trans h.guards
      intro guard hguard
      rcases hclaim.mem_live howned hguard with ⟨id, -, hlive, -⟩ | ⟨l, hl, -⟩
      · exact hlive
      · rw [hnone] at hl
        cases hl
    · exact hclaim.concurrency_le hreach.owned hnone
  · intro domain
    by_cases hsome : ∃ l ∈ leases, l.recipient.domain = domain
    · obtain ⟨l, hl, rfl⟩ := hsome
      exact hclaim.domain_le howned hl
    · refine (countP_liveGuards_le _ ?_).trans (h.domains domain)
      intro guard hguard hdomain
      rcases hclaim.mem_live howned hguard with ⟨id, -, hlive, -⟩ | ⟨l, hl, rfl⟩
      · exact hlive
      · rcases hclaim.handsOut with rfl | ⟨ctx, swept, -, hout, -⟩
        · cases hl
        · obtain ⟨row, -, -, hgranted⟩ := hout.granted l hl
          exact absurd ⟨l, hl, hgranted.domain_eq.symm.trans (of_decide_eq_true hdomain)⟩ hsome

/-- The process dies, and with it everything but the database. -/
theorem Attached.crashes (h : d.Attached) : ({ d with
    world := d.world.next .crash
    tasks := d.tasks.map RelayTask.crashed } : Dispatcher).Attached := by
  have hlessens : d.world.Lessens (d.world.next .crash) :=
    next_lessens h.reachable.keys fun _ _ _ _ _ heq => by cases heq
  refine ⟨h.reachable.next .crash, ?_, ?_, ?_, ?_, ?_, ?_⟩
  · unfold Keyed.Unique
    rw [List.map_map]
    exact h.serials
  · intro t' ht'
    obtain ⟨t, ht, rfl⟩ := List.mem_map.1 ht'
    exact (h.executions t ht).step .crash
  · intro t' ht'
    obtain ⟨t, ht, rfl⟩ := List.mem_map.1 ht'
    obtain ⟨before, world, happenings, hreach, hbefore, hrun, -⟩ := h.mirrors t ht
    refine ⟨before, world.next .crash, happenings ++ [.crash], hreach, hbefore, ?_, fun hl => by cases hl⟩
    unfold Execution.run at hrun ⊢
    change Runs.run Execution.step (Execution.start d.client before t.lease) _ = _
    rw [Runs.run_snoc, hrun]
    rfl
  · intro l hl
    cases hl
  · exact (length_liveGuards_le hlessens.live).trans h.guards
  · intro domain
    exact (countP_liveGuards_le _ fun guard hguard _ => hlessens.live guard hguard).trans
      (h.domains domain)

theorem Attached.step (h : d.Attached) (next : Dispatch) : (d.step next).Attached := by
  obtain ⟨hconfig, hclient⟩ := d.step_fixed next
  cases d.step_moves next with
  | rests hworld htasks => exact h.congr hworld hconfig hclient htasks
  | uses op hop hworld htasks =>
      have hlessens := next_lessens h.reachable.keys (Op.not_claim_of_byOthers hop)
      refine (h.uses hlessens fun t ht _ => Op.foreign_of_byOthers hop).congr hworld hconfig hclient ?_
      rw [htasks]
  | fails hphase hworld hlessens hkept htasks =>
      refine (h.fails hworld hlessens hkept).congr rfl hconfig hclient ?_
      rw [htasks]
  | claims leases hphase hstep htasks =>
      refine (h.claims hstep).congr rfl hconfig hclient ?_
      rw [htasks]
  | advances t happening ht hown hd =>
      rw [hd]
      exact h.advance (Keyed.mem_of_lookup ht) hown
  | crashes hworld htasks =>
      refine h.crashes.congr hworld hconfig hclient ?_
      rw [htasks]

theorem attached_start (config : Core.Config) (client : Client.SmtpClient) {w : World}
    (hreach : w.Reachable) (hleases : w.leases = []) (hreaders : w.readers = []) :
    (start config client w).Attached := by
  have hguards : w.liveGuards = [] := by
    unfold World.liveGuards
    rw [hleases, hreaders]
    rfl
  refine ⟨hreach, List.nodup_nil, (fun t ht => by cases ht), (fun t ht => by cases ht), ?_, ?_, ?_⟩
  · intro l hl
    change l ∈ w.leases at hl
    rw [hleases] at hl
    cases hl
  · change w.liveGuards.length ≤ _
    rw [hguards]
    exact Nat.zero_le _
  · intro domain
    change w.liveGuards.countP _ ≤ _
    rw [hguards]
    exact Nat.zero_le _

end Dispatcher

end Rustymail
