import Rustymail.Proof.Dispatching
import Rustymail.Proof.Startup

/-!
# The loop of the dispatcher

The attempts under way stay within the caps of the configuration. Once the loop is told to stop
nothing new begins, and aborting ends whatever goes on.
-/

namespace Rustymail

open World

variable {d d' : Dispatcher}

namespace Dispatcher

/-! ### The loop -/

/-- The bounds of the loop, and what its phases mean. -/
structure Orderly (d : Dispatcher) : Prop where
  joined : ∀ t ∈ d.tasks, t.joined = true → t.stage = .gone
  claiming : d.phase = .claiming → d.unjoined < d.config.delivery.concurrency
  unjoined : d.unjoined ≤ 2 * d.config.delivery.concurrency - 1
  notices : d.notices.length ≤ 1
  stopped : d.phase = .stopped → d.unjoined = 0 ∧ d.notices = []

theorem countP_modify_le {rows : List RelayTask} {serial : Nat} {f : RelayTask → RelayTask}
    (hf : ∀ t, (f t).joined = false → t.joined = false) :
    (Keyed.modify RelayTask.serial rows serial f).countP (fun t => !t.joined)
      ≤ rows.countP fun t => !t.joined := by
  unfold Keyed.modify
  rw [List.countP_map]
  refine List.countP_mono_left ?_
  intro t _ hopen
  rw [Function.comp_apply, Bool.not_eq_true'] at hopen
  rw [Bool.not_eq_true']
  split_ifs at hopen with hserial
  · exact hf t hopen
  · exact hopen

theorem Orderly.of_phase (h : d.Orderly) {phase : LoopPhase} (hclaiming : phase ≠ .claiming)
    (hstopped : phase ≠ .stopped) : ({ d with phase := phase } : Dispatcher).Orderly :=
  ⟨h.joined, fun heq => absurd heq hclaiming, h.unjoined, h.notices, fun heq => absurd heq hstopped⟩

theorem Orderly.withNotice (h : d.Orderly) (index : Nat) (notice : Notice) :
    (d.withNotice index notice).Orderly := by
  refine ⟨h.joined, h.claiming, h.unjoined, ?_, ?_⟩
  · change (d.notices.set index notice).length ≤ 1
    rw [List.length_set]
    exact h.notices
  · intro hphase
    obtain ⟨hnone, hnotices⟩ := h.stopped hphase
    refine ⟨hnone, ?_⟩
    change d.notices.set index notice = []
    rw [hnotices]
    rfl

/-- A gone task stays gone. -/
theorem step_gone {e : Execution} {happening : Happening} (hgone : e.stage = .gone)
    (hown : happening.own = true) : (e.step happening).stage = .gone := by
  obtain ⟨world, client, lease, stage, course, orphans⟩ := e
  subst hgone
  cases happening with
  | performOrphan call input =>
      unfold Execution.step
      dsimp only
      split_ifs <;> rfl
  | release => cases orphans <;> rfl
  | crash => cases hown
  | other op => cases hown
  | _ => rfl

theorem Orderly.advance (h : d.Orderly) (hserials : Keyed.Unique RelayTask.serial d.tasks)
    {t : RelayTask} (ht : t ∈ d.tasks) {happening : Happening} (hown : happening.own = true) :
    (d.advance t happening).Orderly := by
  have hcount : (d.advance t happening).unjoined ≤ d.unjoined := countP_modify_le fun _ hopen => hopen
  refine ⟨?_, fun hphase => hcount.trans_lt (h.claiming hphase), hcount.trans h.unjoined, h.notices, ?_⟩
  · intro t' ht' hjoined
    rcases mem_advance ht' hserials ht with rfl | ⟨hold, -⟩
    · exact step_gone (h.joined t ht hjoined) hown
    · exact h.joined t' hold hjoined
  · intro hphase
    obtain ⟨hnone, hnotices⟩ := h.stopped hphase
    exact ⟨Nat.le_zero.1 (hcount.trans_eq hnone), hnotices⟩

theorem Orderly.join (h : d.Orderly) {t : RelayTask} (hended : d.ended t = true)
    (hserials : Keyed.Unique RelayTask.serial d.tasks) (ht : t ∈ d.tasks) :
    (d.update t.serial fun t => { t with joined := true }).Orderly := by
  have hcount : (d.update t.serial fun t => { t with joined := true }).unjoined ≤ d.unjoined :=
    countP_modify_le fun _ hopen => by cases hopen
  refine ⟨?_, fun hphase => hcount.trans_lt (h.claiming hphase), hcount.trans h.unjoined, h.notices, ?_⟩
  · intro t' ht' hjoined
    rcases Keyed.mem_modify.1 ht' with ⟨old, hold, hsame, rfl⟩ | ⟨hold, -⟩
    · obtain rfl : old = t := List.inj_on_of_nodup_map hserials hold ht hsame
      exact Stage.isGone_iff.1 (Bool.and_eq_true_iff.1 hended).1
    · exact h.joined t' hold hjoined
  · intro hphase
    obtain ⟨hnone, hnotices⟩ := h.stopped hphase
    exact ⟨Nat.le_zero.1 (hcount.trans_eq hnone), hnotices⟩

theorem Orderly.notify (h : d.Orderly) (hphase : d.phase ≠ .stopped) : d.notify.Orderly := by
  unfold Dispatcher.notify
  split_ifs
  · exact ⟨h.joined, h.claiming, h.unjoined, Nat.le_refl 1, fun heq => absurd heq hphase⟩
  · exact h

theorem Orderly.expired (h : d.Orderly) (hphase : d.phase = .expiring) (world : World) (reply : Reply) :
    (d.expired world reply).Orderly := by
  have hworld : ({ d with world := world } : Dispatcher).Orderly :=
    ⟨h.joined, h.claiming, h.unjoined, h.notices, h.stopped⟩
  have hnotify := hworld.notify (by simp [hphase])
  unfold Dispatcher.expired
  split
  · dsimp only
    split_ifs with hroom
    · exact hnotify.of_phase (by decide) (by decide)
    · exact ⟨hnotify.joined, fun _ => Nat.lt_of_not_le hroom, hnotify.unjoined, hnotify.notices,
        fun heq => by cases heq⟩
  · exact hworld.of_phase (by decide) (by decide)

theorem length_claimed_le {w w' : World} {policy : QueuePolicy} {limit : Nat}
    {keepLease : QueueLease → Bool} {keepReader : QueuedReader → Bool} {input : ClaimInput}
    {leases : List QueueLease} (hreach : w.Reachable)
    (hstep : w.step (.queueClaim policy limit keepLease keepReader input) = (w', .leases (.ok leases))) :
    leases.length ≤ policy.concurrency := by
  have hworld : w' = (w.claim policy limit keepLease keepReader input).1 :=
    (congrArg Prod.fst hstep).symm
  have hreply : (w.claim policy limit keepLease keepReader input).2 = .ok leases :=
    Reply.leases.inj (congrArg Prod.snd hstep)
  have hclaim := (claim_volatile hreach.keys policy limit keepLease keepReader input).2 leases hreply
  rw [← hworld] at hclaim
  have hreach' : w'.Reachable := by
    rw [hworld]
    exact hreach.next (.queueClaim policy limit keepLease keepReader input)
  by_cases hnone : leases = []
  · rw [hnone]
    exact Nat.zero_le _
  · have hdistinct : (leases.map QueueLease.guard).Nodup := by
      refine List.Nodup.of_map LeaseGuard.serial ?_
      rw [List.map_map]
      exact hclaim.guards_new.2
    have hlive : leases.map QueueLease.guard ⊆ w'.liveGuards := by
      intro guard hguard
      obtain ⟨l, hl, rfl⟩ := List.mem_map.1 hguard
      refine mem_liveGuards.2 (live_lease ?_)
      rw [hclaim.leases_eq]
      exact List.mem_append_right _ hl
    calc
      leases.length = (leases.map QueueLease.guard).length := (List.length_map _).symm
      _ ≤ w'.liveGuards.length := (List.Nodup.subperm hdistinct hlive).length_le
      _ ≤ policy.concurrency := hclaim.concurrency_le hreach'.owned hnone

theorem Orderly.claimed (h : d.Orderly) (hphase : d.phase = .claiming) {leases : List QueueLease}
    (hleases : leases.length ≤ d.config.delivery.concurrency) (world : World) :
    (d.claimed world (.leases (.ok leases))).Orderly := by
  have hopen : (leases.map RelayTask.fresh).countP (fun t => !t.joined) = leases.length := by
    rw [List.countP_eq_length.2, List.length_map]
    intro t ht
    obtain ⟨l, -, rfl⟩ := List.mem_map.1 ht
    rfl
  have hcount : (d.claimed world (.leases (.ok leases))).unjoined = d.unjoined + leases.length := by
    unfold Dispatcher.unjoined
    change (d.tasks ++ leases.map RelayTask.fresh).countP _ = _
    rw [List.countP_append, hopen]
  refine ⟨?_, (fun heq => by cases heq), ?_, h.notices, (fun heq => by cases heq)⟩
  · intro t ht hjoined
    rcases List.mem_append.1 ht with hold | hnew
    · exact h.joined t hold hjoined
    · obtain ⟨l, -, rfl⟩ := List.mem_map.1 hnew
      cases hjoined
  · rw [hcount]
    have hroom := h.claiming hphase
    change d.unjoined + leases.length ≤ 2 * d.config.delivery.concurrency - 1
    omega

theorem Orderly.step (h : d.Orderly) (hattached : d.Attached) (next : Dispatch) :
    (d.step next).Orderly := by
  cases next with
  | stop =>
      unfold Dispatcher.step
      dsimp only
      split_ifs
      · exact h.of_phase (by decide) (by decide)
      · exact h
  | tick =>
      unfold Dispatcher.step
      dsimp only
      split_ifs
      · exact h.of_phase (by decide) (by decide)
      · exact h
  | expire reading faults =>
      unfold Dispatcher.step
      dsimp only
      split_ifs with hphase
      · exact h.expired hphase _ _
      · exact h
  | claim keepLease keepReader input =>
      unfold Dispatcher.step
      dsimp only
      split_ifs with hphase
      · cases hreply : d.world.step (d.claiming keepLease keepReader input) with
        | mk world reply =>
            by_cases hleases : ∃ leases, reply = .leases (.ok leases)
            · obtain ⟨leases, rfl⟩ := hleases
              exact h.claimed hphase (length_claimed_le hattached.reachable hreply) world
            · have hrefused : d.claimed world reply = { d with world := world, phase := .selecting } := by
                unfold Dispatcher.claimed
                split
                · exact absurd ⟨_, rfl⟩ hleases
                · rfl
              change (d.claimed world reply).Orderly
              rw [hrefused]
              exact ⟨h.joined, (fun heq => by cases heq), h.unjoined, h.notices,
                (fun heq => by cases heq)⟩
      · exact h
  | unavailable =>
      unfold Dispatcher.step
      dsimp only
      split_ifs
      · exact h.of_phase (by decide) (by decide)
      · exact h
  | join serial =>
      unfold Dispatcher.step
      dsimp only
      split_ifs
      · cases ht : d.task? serial with
        | none => exact h
        | some t =>
            dsimp only
            split_ifs with hended
            · obtain rfl : t.serial = serial := Keyed.lookup_some_key ht
              exact h.join hended hattached.serials (Keyed.mem_of_lookup ht)
            · exact h
      · exact h
  | joinNotice index =>
      unfold Dispatcher.step
      dsimp only
      split_ifs
      · split
        · refine ⟨h.joined, h.claiming, h.unjoined, ?_, ?_⟩
          · exact (List.length_eraseIdx_le _ _).trans h.notices
          · intro hphase
            obtain ⟨hnone, hnotices⟩ := h.stopped hphase
            exact ⟨hnone, by simp [hnotices]⟩
        · exact h
      · exact h
  | timeout =>
      unfold Dispatcher.step
      dsimp only
      split_ifs
      · exact h.of_phase (by decide) (by decide)
      · exact h
  | drained =>
      unfold Dispatcher.step
      dsimp only
      split_ifs with hdrained
      · exact ⟨h.joined, (fun heq => by cases heq), h.unjoined, h.notices, fun _ => hdrained.2⟩
      · exact h
  | task serial happening =>
      unfold Dispatcher.step
      dsimp only
      cases ht : d.task? serial with
      | none => exact h
      | some t =>
          dsimp only
          split_ifs with hown
          · exact h.advance hattached.serials (Keyed.mem_of_lookup ht) hown
          · exact h
  | notice index input =>
      unfold Dispatcher.step
      dsimp only
      cases d.notices[index]? with
      | none => exact h
      | some notice =>
          dsimp only
          cases notice.pending with
          | none => exact h
          | some call =>
              have hworld : ({ d with world := (d.world.step (d.noticeOp call input)).1 } :
                  Dispatcher).Orderly :=
                ⟨h.joined, h.claiming, h.unjoined, h.notices, h.stopped⟩
              exact hworld.withNotice index _
  | refuseNotice index error =>
      unfold Dispatcher.step
      dsimp only
      split
      · exact h.withNotice index _
      · exact h.withNotice index _
      · exact h.withNotice index _
      · exact h
  | prepared index message =>
      unfold Dispatcher.step
      dsimp only
      split
      · exact h.withNotice index _
      · exact h.withNotice index _
      · exact h
  | abortNotice index queued =>
      unfold Dispatcher.step
      dsimp only
      cases d.notices[index]? with
      | none => exact h
      | some notice =>
          have hgone := h.withNotice index .gone
          exact ⟨hgone.joined, hgone.claiming, hgone.unjoined, hgone.notices, hgone.stopped⟩
  | stray index input =>
      unfold Dispatcher.step
      dsimp only
      split
      · exact ⟨h.joined, h.claiming, h.unjoined, h.notices, h.stopped⟩
      · exact ⟨h.joined, h.claiming, h.unjoined, h.notices, h.stopped⟩
      · exact h
  | other op =>
      unfold Dispatcher.step
      dsimp only
      split_ifs
      · exact ⟨h.joined, h.claiming, h.unjoined, h.notices, h.stopped⟩
      · exact h
  | crash =>
      have hall : (d.tasks.map RelayTask.crashed).countP (fun t => !t.joined) = 0 := by
        rw [List.countP_eq_zero]
        intro t ht hopen
        obtain ⟨old, -, rfl⟩ := List.mem_map.1 ht
        cases hopen
      refine ⟨?_, (fun heq => by cases heq), ?_, Nat.zero_le 1, fun _ => ⟨hall, rfl⟩⟩
      · intro t ht _
        obtain ⟨old, -, rfl⟩ := List.mem_map.1 ht
        rfl
      · change (d.tasks.map RelayTask.crashed).countP _ ≤ _
        rw [hall]
        exact Nat.zero_le _

theorem orderly_start (config : Core.Config) (client : Client.SmtpClient) (w : World) :
    (start config client w).Orderly :=
  ⟨(fun t ht => by cases ht), (fun heq => by cases heq), Nat.zero_le _, Nat.zero_le 1,
    (fun heq => by cases heq)⟩

theorem run_sound (config : Core.Config) (client : Client.SmtpClient) {w : World}
    (hreach : w.Reachable) (hleases : w.leases = []) (hreaders : w.readers = [])
    (steps : List Dispatch) :
    ((start config client w).run steps).Attached ∧ ((start config client w).run steps).Orderly := by
  refine Runs.invariant (fun d : Dispatcher => d.Attached ∧ d.Orderly)
    ⟨attached_start config client hreach hleases hreaders, orderly_start config client w⟩ ?_ steps
  rintro d next ⟨hattached, horderly⟩
  exact ⟨hattached.step next, horderly.step hattached next⟩

end Dispatcher

/-! ### What holds of every run -/

/-- **The dispatcher stays within its caps.** The live guards never exceed the configured concurrency,
nor those of one domain the cap for a domain; each held lease is the lease of exactly one task, no two
tasks that need a lease work on one delivery, and at most one report is under way. -/
theorem relay_tasks_capped (config : Core.Config) (client : Client.SmtpClient) (w : World)
    (hreach : w.Reachable) (hleases : w.leases = []) (hreaders : w.readers = [])
    (steps : List Dispatch) :
    let d := (Dispatcher.start config client w).run steps
    d.world.liveGuards.length ≤ config.delivery.concurrency
      ∧ (∀ domain, d.world.liveGuards.countP (fun guard => guard.domain = domain)
        ≤ config.delivery.perDomainConcurrency)
      ∧ (∀ l ∈ d.world.leases, ∃! t, t ∈ d.tasks ∧ t.lease = l)
      ∧ (∀ t ∈ d.tasks, t.Needs → t.lease ∈ d.world.leases)
      ∧ (∀ t ∈ d.tasks, ∀ t' ∈ d.tasks, t.Needs → t'.Needs → t.lease.id = t'.lease.id → t = t')
      ∧ d.unjoined ≤ 2 * config.delivery.concurrency - 1
      ∧ d.notices.length ≤ 1 := by
  intro d
  obtain ⟨hattached, horderly⟩ := Dispatcher.run_sound config client hreach hleases hreaders steps
  have hconfig : d.config = config := by
    refine Runs.invariant (fun d : Dispatcher => d.config = config) rfl ?_ steps
    intro d next hd
    exact (d.step_fixed next).1.trans hd
  have hguards := hattached.guards
  have hdomains := hattached.domains
  have hunjoined := horderly.unjoined
  change d.world.liveGuards.length ≤ d.config.delivery.concurrency at hguards
  change ∀ domain, _ ≤ d.config.delivery.perDomainConcurrency at hdomains
  change d.unjoined ≤ 2 * d.config.delivery.concurrency - 1 at hunjoined
  rw [hconfig] at hguards hdomains hunjoined
  have hsame : ∀ t ∈ d.tasks, ∀ t' ∈ d.tasks, t.serial = t'.serial → t = t' :=
    fun t ht t' ht' heq => List.inj_on_of_nodup_map hattached.serials ht ht' heq
  refine ⟨hguards, hdomains, ?_, fun t ht hneeds => hattached.lease_held ht hneeds, ?_, hunjoined,
    horderly.notices⟩
  · intro l hl
    obtain ⟨t, ht, rfl⟩ := hattached.held l hl
    refine ⟨t, ⟨ht, rfl⟩, ?_⟩
    rintro t' ⟨ht', hlease⟩
    exact hsame t' ht' t ht (congrArg (fun l : QueueLease => l.guard.serial) hlease)
  · intro t ht t' ht' hneeds hneeds' hid
    have howned := hattached.reachable.owned
    have hissued := (hattached.executions t ht).issued
    have hissued' := (hattached.executions t' ht').issued
    refine hsame t ht t' ht' (congrArg LeaseGuard.serial ?_)
    exact howned.exclusive (live_lease (hattached.lease_held ht hneeds))
      (live_lease (hattached.lease_held ht' hneeds')) ⟨t.lease, hissued, rfl, rfl⟩
      ⟨t'.lease, hissued', rfl, hid.symm⟩

namespace Sample

/-- One round of the loop. -/
def round : List Dispatch :=
  [.tick, .expire reading {}, .claim (fun _ => true) (fun _ => true)
    ⟨reading, reading, reading, {}, {}, {}, fun _ => token, fun _ _ => 0⟩]

def dispatcher : Dispatcher := .start config client (fresh.run [enqueue])

end Sample

theorem relay_tasks_capped_round :
    (Sample.dispatcher.run Sample.round).world.liveGuards.length = 1
      ∧ (Sample.dispatcher.run Sample.round).world.liveGuards.length ≤ 16
      ∧ (Sample.dispatcher.run Sample.round).notices.length ≤ 1 := by
  obtain ⟨hguards, -, -, -, -, -, hnotices⟩ := relay_tasks_capped Sample.config Sample.client
    (Sample.fresh.run [Sample.enqueue]) (Sample.reachable _) rfl rfl Sample.round
  exact ⟨by decide, hguards, hnotices⟩

/-! ### Stopping -/

/-- The loop has been left. -/
def LoopPhase.left : LoopPhase → Bool
  | .draining | .aborting | .stopped => true
  | _ => false

/-- The steps of `abort_all` and of the joining after it: nobody else takes part in them. -/
def Dispatch.aborts : Dispatch → Bool
  | .task _ (.abort queued) | .abortNotice _ queued => !queued
  | .task _ .release | .join _ | .joinNotice _ | .drained => true
  | _ => false

namespace Dispatcher

theorem step_left (h : d.phase.left = true) (next : Dispatch) : (d.step next).phase.left = true := by
  cases next with
  | crash => rfl
  | expire reading faults =>
      unfold step
      dsimp only
      split_ifs with hphase
      · rw [hphase] at h
        cases h
      · exact h
  | claim keepLease keepReader input =>
      unfold step
      dsimp only
      split_ifs with hphase
      · rw [hphase] at h
        cases h
      · exact h
  | unavailable =>
      unfold step
      dsimp only
      split_ifs with hphase
      · rcases hphase with hphase | hphase <;> rw [hphase] at h <;> cases h
      · exact h
  | stop =>
      unfold step
      dsimp only
      split_ifs
      · rfl
      · exact h
  | tick =>
      unfold step
      dsimp only
      split_ifs with hphase
      · rw [hphase] at h
        cases h
      · exact h
  | timeout =>
      unfold step
      dsimp only
      split_ifs
      · rfl
      · exact h
  | drained =>
      unfold step
      dsimp only
      split_ifs
      · rfl
      · exact h
  | _ =>
      unfold step
      dsimp only
      repeat' split
      all_goals exact h

/-- Outside the loop nothing new begins. -/
theorem step_spawns_nothing (hattached : d.Attached) (h : d.phase.left = true) (next : Dispatch) :
    (d.step next).world.issued = d.world.issued
      ∧ (d.step next).tasks.map (fun t => t.lease) = d.tasks.map fun t => t.lease := by
  have hkeys := hattached.reachable.keys
  cases d.step_moves next with
  | rests hworld htasks =>
      refine ⟨congrArg World.issued hworld, ?_⟩
      have hleases := congrArg (List.map fun t : RelayTask => t.lease) htasks
      rw [List.map_map, List.map_map] at hleases
      exact hleases
  | uses op hop hworld htasks =>
      rw [hworld, htasks]
      exact ⟨(next_lessens hkeys (Op.not_claim_of_byOthers hop)).issued, rfl⟩
  | fails hphase hworld hlessens hkept htasks =>
      rw [hphase] at h
      cases h
  | claims leases hphase hstep htasks =>
      rw [hphase] at h
      cases h
  | advances t happening ht hown hd =>
      rw [hd]
      refine ⟨?_, Keyed.map_modify fun _ => rfl⟩
      rcases Execution.step_world (e := d.execution t) hown with hsame | ⟨op, hop, hsame⟩
      · exact congrArg World.issued hsame
      · have hissued := (next_lessens hkeys (Op.not_claim_of_under hop)).issued
        exact (congrArg World.issued hsame).trans hissued
  | crashes hworld htasks =>
      rw [hworld, htasks, List.map_map]
      exact ⟨rfl, rfl⟩

/-- One task fewer is left to join. -/
theorem unjoined_join {rows : List RelayTask} (hserials : Keyed.Unique RelayTask.serial rows)
    {t : RelayTask} (ht : t ∈ rows) (hopen : t.joined = false) :
    (Keyed.modify RelayTask.serial rows t.serial fun t => { t with joined := true }).countP
      (fun t => !t.joined) + 1 = rows.countP fun t => !t.joined := by
  induction rows with
  | nil => cases ht
  | cons first rest ih =>
      obtain ⟨hfresh, hrest⟩ := List.nodup_cons.1 hserials
      unfold Keyed.modify at ih ⊢
      rw [List.map_cons, List.countP_cons, List.countP_cons]
      rcases List.mem_cons.1 ht with rfl | hmem
      · have hothers : rest.map (fun row => if row.serial = t.serial then { row with joined := true }
            else row) = rest := by
          refine (List.map_congr_left ?_).trans (List.map_id rest)
          intro row hrow
          have hne : row.serial ≠ t.serial := fun heq => hfresh (heq ▸ List.mem_map_of_mem hrow)
          exact if_neg hne
        rw [hothers, if_pos rfl, hopen]
        rfl
      · have hne : first.serial ≠ t.serial := fun heq => hfresh (heq ▸ List.mem_map_of_mem hmem)
        have hless := ih hrest hmem
        rw [if_neg hne]
        omega

theorem task?_advance {t : RelayTask} (ht : d.task? t.serial = some t) (happening : Happening) :
    (d.advance t happening).task? t.serial = some (t.at ((d.execution t).step happening)) := by
  have hkey : ∀ row : RelayTask, (row.at ((d.execution t).step happening)).serial = row.serial :=
    fun _ => rfl
  refine (Keyed.lookup_modify hkey).trans ?_
  rw [if_pos rfl]
  exact congrArg (Option.map _) ht

theorem unjoined_advance (t : RelayTask) (happening : Happening) :
    (d.advance t happening).unjoined = d.unjoined := by
  have hmarks : ∀ rows : List RelayTask, rows.countP (fun t => !t.joined)
      = (rows.map fun t => t.joined).countP fun joined => !joined := by
    intro rows
    rw [List.countP_map]
    rfl
  unfold unjoined
  rw [hmarks, hmarks d.tasks]
  exact congrArg _ (Keyed.map_modify fun _ => rfl)

/-- Abort one task, drop what it holds, and join it. -/
def endTask (t : RelayTask) : List Dispatch :=
  [.task t.serial (.abort false), .task t.serial .release, .join t.serial]

/-- What a task has let go of is gone. -/
theorem release_drops (e : Execution) (hgone : e.stage = .gone) :
    (e.step .release).stage = .gone ∧ (e.step .release).orphans = e.orphans
      ∧ (e.orphans = [] → (e.step .release).world.lease? e.serial = none) := by
  unfold Execution.step
  dsimp only
  split
  · rename_i hstage horphans
    refine ⟨hgone, rfl, fun _ => ?_⟩
    change List.find? (fun l : QueueLease => decide (l.guard.serial = e.serial))
      (e.world.leases.filter fun l => decide (l.guard.serial ≠ e.serial)) = none
    rw [List.find?_eq_none]
    intro l hl hsame
    exact of_decide_eq_true (List.mem_filter.1 hl).2 (of_decide_eq_true hsame)
  · rename_i hother
    exact ⟨hgone, rfl, fun hempty => absurd hempty (hother hgone)⟩

theorem step_task {t : RelayTask} (ht : d.task? t.serial = some t) {happening : Happening}
    (hown : happening.own = true) : d.step (.task t.serial happening) = d.advance t happening := by
  unfold step
  dsimp only
  rw [ht]
  exact if_pos hown

theorem endTask_joins (hserials : Keyed.Unique RelayTask.serial d.tasks) (hphase : d.phase = .aborting)
    {t : RelayTask} (ht : d.task? t.serial = some t) (hopen : t.joined = false) :
    (d.run (endTask t)).phase = .aborting ∧ (d.run (endTask t)).notices = d.notices
      ∧ (d.run (endTask t)).unjoined + 1 = d.unjoined := by
  -- The task after its abortion, and after letting go of its lease.
  set t₁ := t.at ((d.execution t).step (.abort false)) with ht₁
  set d₁ := d.advance t (.abort false) with hd₁
  have hfound₁ : d₁.task? t₁.serial = some t₁ := task?_advance ht (.abort false)
  obtain ⟨hgone, horphans, hdropped⟩ := release_drops (d₁.execution t₁) rfl
  set t₂ := t₁.at ((d₁.execution t₁).step .release) with ht₂
  set d₂ := d₁.advance t₁ .release with hd₂
  have hfound₂ : d₂.task? t₂.serial = some t₂ := task?_advance hfound₁ .release
  have hended : d₂.ended t₂ = true := by
    unfold ended
    rw [Bool.and_eq_true]
    refine ⟨Stage.isGone_iff.2 hgone, ?_⟩
    rw [Bool.or_eq_true]
    by_cases hempty : t₁.orphans = []
    · exact Or.inr (Option.isNone_iff_eq_none.2 (hdropped hempty))
    · refine Or.inl ?_
      rw [Bool.not_eq_true', List.isEmpty_eq_false_iff]
      change ((d₁.execution t₁).step .release).orphans ≠ []
      rw [horphans]
      exact hempty
  have hrun : d.run (endTask t) = d₂.update t₂.serial fun t => { t with joined := true } := by
    change ((d.step (.task t.serial (.abort false))).step (.task t₁.serial .release)).step
      (.join t₂.serial) = _
    rw [step_task ht rfl, step_task hfound₁ rfl]
    change d₂.step (.join t₂.serial) = _
    unfold step
    dsimp only
    have hphase₂ : d₂.phase = .aborting := hphase
    rw [if_pos (Or.inr (Or.inr hphase₂)), hfound₂]
    exact if_pos hended
  have hserials₂ : Keyed.Unique RelayTask.serial d₂.tasks :=
    Keyed.unique_modify (fun _ => rfl) (Keyed.unique_modify (fun _ => rfl) hserials)
  have hjoin := unjoined_join hserials₂ (Keyed.mem_of_lookup hfound₂) hopen
  rw [hrun]
  refine ⟨hphase, rfl, hjoin.trans ?_⟩
  calc
    d₂.unjoined = d₁.unjoined := unjoined_advance t₁ .release
    _ = d.unjoined := unjoined_advance t (.abort false)

theorem endTask_aborts (t : RelayTask) : ∀ next ∈ endTask t, next.aborts = true := by
  intro next hnext
  unfold endTask at hnext
  simp only [List.mem_cons, List.not_mem_nil, or_false] at hnext
  rcases hnext with rfl | rfl | rfl <;> rfl

/-- All tasks can be aborted and joined, whatever they are waiting for. -/
theorem abort_tasks (hattached : d.Attached) (hphase : d.phase = .aborting) (n : Nat)
    (hn : d.unjoined = n) : ∃ steps, steps.length = 3 * n
      ∧ (∀ next ∈ steps, next.aborts = true) ∧ (d.run steps).phase = .aborting
      ∧ (d.run steps).notices = d.notices ∧ (d.run steps).unjoined = 0 := by
  induction n generalizing d with
  | zero => exact ⟨[], rfl, (fun next hnext => by cases hnext), hphase, rfl, hn⟩
  | succ n ih =>
      obtain ⟨t, ht, hopen⟩ : ∃ t ∈ d.tasks, (!t.joined) = true := by
        apply List.countP_pos_iff.1
        change 0 < d.unjoined
        omega
      have hfound : d.task? t.serial = some t := Keyed.lookup_of_mem hattached.serials ht
      obtain ⟨hphase', hnotices, hless⟩ :=
        endTask_joins hattached.serials hphase hfound (by simpa using hopen)
      have hattached' : (d.run (endTask t)).Attached :=
        Runs.invariant Attached hattached (fun d next h => h.step next) (endTask t)
      obtain ⟨steps, hlength, haborts, hlast, hkept, hnone⟩ := ih hattached' hphase' (by omega)
      have hrun : d.run (endTask t ++ steps) = (d.run (endTask t)).run steps := Runs.run_append _ _
      refine ⟨endTask t ++ steps, ?_, ?_, ?_, ?_, ?_⟩
      · rw [List.length_append, hlength]
        change 3 + 3 * n = 3 * (n + 1)
        omega
      · intro next hnext
        rcases List.mem_append.1 hnext with hfirst | hrest
        · exact endTask_aborts t next hfirst
        · exact haborts next hrest
      · rw [hrun]
        exact hlast
      · rw [hrun, hkept, hnotices]
      · rw [hrun]
        exact hnone

/-- The notice can be aborted and joined, and then the loop has stopped. -/
theorem abort_notice (hphase : d.phase = .aborting) (hnone : d.unjoined = 0)
    (hone : d.notices.length ≤ 1) : ∃ steps, steps.length ≤ 2 * d.notices.length + 1
      ∧ (∀ next ∈ steps, next.aborts = true) ∧ (d.run steps).phase = .stopped := by
  have hdrained : ∀ d : Dispatcher, d.phase = .aborting → d.unjoined = 0 → d.notices = [] →
      (d.step .drained).phase = .stopped := by
    intro d hphase hnone hnotices
    unfold step
    dsimp only
    rw [if_pos ⟨Or.inr hphase, hnone, hnotices⟩]
  cases hnotices : d.notices with
  | nil =>
      refine ⟨[.drained], Nat.le_refl 1, ?_, hdrained d hphase hnone hnotices⟩
      intro next hnext
      rw [List.mem_singleton.1 hnext]
      rfl
  | cons notice rest =>
      have hrest : rest = [] := by
        rw [hnotices] at hone
        exact List.length_eq_zero_iff.1 (Nat.le_zero.1 (Nat.le_of_succ_le_succ hone))
      subst hrest
      refine ⟨[.abortNotice 0 false, .joinNotice 0, .drained], Nat.le_refl 3, ?_, ?_⟩
      · intro next hnext
        simp only [List.mem_cons, List.not_mem_nil, or_false] at hnext
        rcases hnext with rfl | rfl | rfl <;> rfl
      · set d₁ := d.step (.abortNotice 0 false) with hd₁
        have hfirst : d₁.phase = .aborting ∧ d₁.unjoined = 0 ∧ d₁.notices = [.gone] := by
          rw [hd₁]
          unfold step
          dsimp only
          rw [hnotices]
          refine ⟨hphase, hnone, ?_⟩
          change d.notices.set 0 .gone = _
          rw [hnotices]
          rfl
        have hsecond : d₁.step (.joinNotice 0) = { d₁ with notices := [] } := by
          unfold step
          dsimp only
          rw [if_pos (Or.inr (Or.inr hfirst.1)), hfirst.2.2]
          rfl
        change ((d₁.step (.joinNotice 0)).step .drained).phase = .stopped
        rw [hsecond]
        exact hdrained _ hfirst.1 hfirst.2.1 rfl

end Dispatcher

end Rustymail
