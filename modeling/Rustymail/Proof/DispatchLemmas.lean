import Rustymail.Proof.LostAcceptance
import Rustymail.Server.Dispatch

/-!
# What the dispatcher and its tasks do to each other

A task uses the store under its own lease, and everybody else leaves a lease alone that is still
needed. Only a claim makes leases.
-/

namespace Rustymail

open World

variable {w : World} {op : Op} {serial serial' : Nat}

/-! ### Whose operations these are -/

/-- The operation is made under the lease with this number. -/
def Op.under (serial : Nat) : Op → Bool
  | .queueRenew s _ _ _ | .queueMarkBody s _ | .queueOpenBody s _ | .queueFinish s _ _ _ _
  | .dropLease s => s == serial
  | _ => false

theorem TaskCall.op_under (call : TaskCall) (input : CallInput) :
    (call.op serial input).under serial = true := by
  cases call <;> exact beq_self_eq_true serial

theorem Op.foreign_of_under (h : op.under serial = true) (hne : serial' ≠ serial) :
    op.foreign w serial' = true := by
  have hother : ∀ s : Nat, (s == serial) = true → (s != serial') = true := by
    intro s hs
    rw [bne_iff_ne, eq_of_beq hs]
    exact hne.symm
  cases op with
  | queueRenew s seconds reading faults => exact hother s h
  | queueMarkBody s faults => exact hother s h
  | queueOpenBody s file => exact hother s h
  | queueFinish s outcome reading guardReading faults => exact hother s h
  | dropLease s => exact hother s h
  | _ => cases h

theorem Op.foreign_of_byOthers (h : op.byOthers = true) : op.foreign w serial = true := by
  cases op <;> first | rfl | cases h

/-- What an operation that claims nothing leaves of the leases and guards. -/
structure World.Lessens (w w' : World) : Prop where
  issued : w'.issued = w.issued
  leases : w'.leases ⊆ w.leases
  live : ∀ guard, w'.live guard = true → w.live guard = true

theorem World.next_lessens (hkeys : w.store.db.Keys)
    (hop : ∀ policy limit keepLease keepReader input,
      op ≠ .queueClaim policy limit keepLease keepReader input) : w.Lessens (w.next op) := by
  have hlive : ∀ {guard : LeaseGuard}, w.live guard = true ↔
      (∃ l ∈ w.leases, l.guard = guard) ∨ ∃ r ∈ w.readers, r.guard = guard := by
    intro guard
    unfold World.live
    simp only [Bool.or_eq_true, List.any_eq_true, decide_eq_true_eq]
  cases w.next_volatile hkeys op with
  | loosens hleases hreaders hissued =>
      refine ⟨hissued, hleases.subset, ?_⟩
      intro guard hguard
      unfold World.live at hguard
      simp only [Bool.or_eq_true, List.any_eq_true, decide_eq_true_eq] at hguard
      rcases hguard with ⟨l, hl, heq⟩ | ⟨r, hr, heq⟩
      · exact hlive.2 (Or.inl ⟨l, hleases.subset hl, heq⟩)
      · exact hlive.2 (Or.inr ⟨r, hreaders.subset hr, heq⟩)
  | @reads lease reader hlease hguard hnext =>
      rw [hnext]
      refine ⟨rfl, List.Subset.refl _, ?_⟩
      intro guard hlater
      unfold World.live at hlater
      simp only [Bool.or_eq_true, List.any_eq_true, decide_eq_true_eq] at hlater
      rcases hlater with ⟨l, hl, heq⟩ | ⟨r, hr, heq⟩
      · exact hlive.2 (Or.inl ⟨l, hl, heq⟩)
      · rcases List.mem_append.1 hr with hold | hnew
        · exact hlive.2 (Or.inr ⟨r, hold, heq⟩)
        · obtain rfl := List.mem_singleton.1 hnew
          exact hlive.2 (Or.inl ⟨lease, hlease, hguard.symm.trans heq⟩)
  | claims heq hclaim => exact absurd heq (hop _ _ _ _ _)
  | reopens hleases hreaders hleases' hreaders' hissued =>
      refine ⟨hissued, ?_, ?_⟩
      · rw [hleases']
        exact List.nil_subset _
      · intro guard hguard
        unfold World.live at hguard
        rw [hleases', hreaders'] at hguard
        cases hguard

/-- The same of a claim that fails. -/
theorem World.claim_lessens {policy : QueuePolicy} {limit : Nat} {keepLease : QueueLease → Bool}
    {keepReader : QueuedReader → Bool} {input : ClaimInput} {e : StoreError}
    (h : (w.claim policy limit keepLease keepReader input).2 = .error e) :
    w.Lessens (w.claim policy limit keepLease keepReader input).1
      ∧ ∀ l ∈ (w.claim policy limit keepLease keepReader input).1.leases, keepLease l = true := by
  have hrest : ∀ store : Store, w.Lessens { w.without keepLease keepReader with store := store }
      ∧ ∀ l ∈ w.leases.filter keepLease, keepLease l = true := by
    intro store
    refine ⟨⟨rfl, List.filter_sublist.subset, ?_⟩, fun l hl => (List.mem_filter.1 hl).2⟩
    intro guard hguard
    unfold World.live at hguard ⊢
    simp only [Bool.or_eq_true, List.any_eq_true, decide_eq_true_eq] at hguard ⊢
    rcases hguard with ⟨l, hl, heq⟩ | ⟨r, hr, heq⟩
    · exact Or.inl ⟨l, List.mem_of_mem_filter hl, heq⟩
    · exact Or.inr ⟨r, List.mem_of_mem_filter hr, heq⟩
  rcases w.claim_cases policy limit keepLease keepReader input with
    hsame | ⟨e', -, hfailed⟩ | ⟨leases, -, hdone⟩
  · rw [hsame]
    exact hrest w.store
  · rw [hfailed]
    exact hrest _
  · rw [hdone] at h
    cases h

theorem Op.not_claim_of_under (h : op.under serial = true) (policy : QueuePolicy) (limit : Nat)
    (keepLease : QueueLease → Bool) (keepReader : QueuedReader → Bool) (input : ClaimInput) :
    op ≠ .queueClaim policy limit keepLease keepReader input := by
  rintro rfl
  cases h

theorem Op.not_claim_of_byOthers (h : op.byOthers = true) (policy : QueuePolicy) (limit : Nat)
    (keepLease : QueueLease → Bool) (keepReader : QueuedReader → Bool) (input : ClaimInput) :
    op ≠ .queueClaim policy limit keepLease keepReader input := by
  rintro rfl
  cases h

theorem NoticeCall.op_byOthers (call : NoticeCall) (policy : NotificationPolicy) (input : NoticeInput) :
    (call.op policy input).byOthers = true := by
  cases call <;> rfl

/-! ### Steps of a task -/

namespace Execution

variable {e : Execution} {happening : Happening}

theorem step_client (happening : Happening) : (e.step happening).client = e.client := by
  cases happening <;> unfold step <;> dsimp only
  case perform call input heard queued =>
    split_ifs
    · unfold answered
      split <;> try rfl
      split_ifs <;> rfl
    · rfl
  case refuse call queued =>
    split_ifs
    · unfold answered
      split <;> try rfl
    · rfl
  all_goals first | rfl | (split <;> rfl)

/-- A task uses the store at most once in a step, and under its lease. -/
theorem step_world (hown : happening.own = true) : (e.step happening).world = e.world
    ∨ ∃ op : Op, op.under e.serial = true ∧ (e.step happening).world = e.world.next op := by
  cases happening with
  | perform call input heard queued =>
      unfold step
      dsimp only
      split_ifs
      · exact Or.inr ⟨_, TaskCall.op_under call input, answered_world _ _ _⟩
      · exact Or.inl rfl
  | refuse call queued =>
      unfold step
      dsimp only
      split_ifs
      · exact Or.inl (answered_world _ _ _)
      · exact Or.inl rfl
  | wire answer =>
      unfold step
      dsimp only
      split <;> exact Or.inl rfl
  | tick =>
      unfold step
      dsimp only
      split <;> exact Or.inl rfl
  | conclude =>
      unfold step
      dsimp only
      split <;> exact Or.inl rfl
  | unwrap sole =>
      unfold step
      dsimp only
      split <;> exact Or.inl rfl
  | abort queued => exact Or.inl rfl
  | performOrphan call input =>
      unfold step
      dsimp only
      split_ifs
      · exact Or.inr ⟨_, TaskCall.op_under call input, rfl⟩
      · exact Or.inl rfl
  | dropOrphans => exact Or.inl rfl
  | release =>
      unfold step
      dsimp only
      split
      · exact Or.inr ⟨.dropLease e.serial, beq_self_eq_true e.serial, rfl⟩
      · exact Or.inl rfl
  | crash => cases hown
  | other op => cases hown

/-- A task that is gone without leaving a call behind does nothing more. -/
theorem step_over (hown : happening.own = true) (hgone : e.stage = .gone) (horphans : e.orphans = []) :
    (e.step happening).stage = .gone ∧ (e.step happening).course = e.course
      ∧ (e.step happening).orphans = [] := by
  obtain ⟨world, client, lease, stage, course, orphans⟩ := e
  subst hgone horphans
  cases happening with
  | perform call input heard queued => exact ⟨rfl, rfl, rfl⟩
  | refuse call queued => exact ⟨rfl, rfl, rfl⟩
  | abort queued => cases queued <;> exact ⟨rfl, rfl, rfl⟩
  | performOrphan call input => exact ⟨rfl, rfl, rfl⟩
  | crash => cases hown
  | other op => cases hown
  | _ => exact ⟨rfl, rfl, rfl⟩

end Execution

/-! ### What a step of the dispatcher can do -/

/-- The tasks without the mark that they were joined. -/
def RelayTask.core (t : RelayTask) : RelayTask := { t with joined := false }

def RelayTask.fresh (lease : QueueLease) : RelayTask := { lease := lease }

def RelayTask.crashed (t : RelayTask) : RelayTask :=
  { t with stage := .gone, orphans := [], joined := true }

namespace Dispatcher

variable {d d' : Dispatcher}

/-- A step of the dispatcher, as far as the store and the tasks are concerned. -/
inductive Moves (d d' : Dispatcher) : Prop
  | rests (hworld : d'.world = d.world)
      (htasks : d'.tasks.map RelayTask.core = d.tasks.map RelayTask.core)
  | uses (op : Op) (hop : op.byOthers = true) (hworld : d'.world = d.world.next op)
      (htasks : d'.tasks = d.tasks)
  | fails {keepLease : QueueLease → Bool} {keepReader : QueuedReader → Bool} {input : ClaimInput}
      (hphase : d.phase = .claiming) (hworld : d'.world = d.world.next (d.claiming keepLease keepReader input))
      (hlessens : d.world.Lessens d'.world)
      (hkept : ∀ l ∈ d'.world.leases, (keepLease l || !d.free l) = true) (htasks : d'.tasks = d.tasks)
  | claims {keepLease : QueueLease → Bool} {keepReader : QueuedReader → Bool} {input : ClaimInput}
      (leases : List QueueLease) (hphase : d.phase = .claiming)
      (hstep : d.world.step (d.claiming keepLease keepReader input) = (d'.world, .leases (.ok leases)))
      (htasks : d'.tasks = d.tasks ++ leases.map RelayTask.fresh)
  | advances (t : RelayTask) (happening : Happening) (ht : d.task? t.serial = some t)
      (hown : happening.own = true) (hd : d' = d.advance t happening)
  | crashes (hworld : d'.world = d.world.next .crash)
      (htasks : d'.tasks = d.tasks.map RelayTask.crashed)

theorem Moves.idle (hworld : d'.world = d.world) (htasks : d'.tasks = d.tasks) : Moves d d' :=
  .rests hworld (congrArg _ htasks)

theorem expired_world (world : World) (reply : Reply) :
    (d.expired world reply).world = world ∧ (d.expired world reply).tasks = d.tasks := by
  unfold expired notify
  split
  · dsimp only
    split_ifs <;> exact ⟨rfl, rfl⟩
  · exact ⟨rfl, rfl⟩

theorem step_moves (d : Dispatcher) (next : Dispatch) : Moves d (d.step next) := by
  cases next with
  | expire reading faults =>
      unfold step
      dsimp only
      split_ifs
      · obtain ⟨hworld, htasks⟩ := expired_world (d := d) (d.world.step (d.expiry reading faults)).1
          (d.world.step (d.expiry reading faults)).2
        exact .uses (d.expiry reading faults) rfl hworld htasks
      · exact .idle rfl rfl
  | claim keepLease keepReader input =>
      unfold step
      dsimp only
      split_ifs with hphase
      · unfold claimed
        cases hreply : (d.world.claim d.config.queuePolicy d.config.delivery.batchSize
            (fun lease => keepLease lease || !d.free lease) keepReader input).2 with
        | error e =>
            have hstep : d.world.step (d.claiming keepLease keepReader input)
                = ((d.world.claim d.config.queuePolicy d.config.delivery.batchSize
                  (fun lease => keepLease lease || !d.free lease) keepReader input).1,
                  .leases (.error e)) := by
              rw [← hreply]
              rfl
            rw [hstep]
            exact .fails hphase (congrArg Prod.fst hstep).symm (claim_lessens hreply).1
              (claim_lessens hreply).2 rfl
        | ok leases =>
            have hstep : d.world.step (d.claiming keepLease keepReader input)
                = ((d.world.claim d.config.queuePolicy d.config.delivery.batchSize
                  (fun lease => keepLease lease || !d.free lease) keepReader input).1,
                  .leases (.ok leases)) := by
              rw [← hreply]
              rfl
            rw [hstep]
            exact .claims leases hphase hstep rfl
      · exact .idle rfl rfl
  | join serial =>
      unfold step
      dsimp only
      split_ifs
      · cases ht : d.task? serial with
        | none => exact .idle rfl rfl
        | some t =>
            dsimp only
            split_ifs
            · exact .rests rfl (Keyed.map_modify fun _ => rfl)
            · exact .idle rfl rfl
      · exact .idle rfl rfl
  | task serial happening =>
      unfold step
      dsimp only
      cases ht : d.task? serial with
      | none => exact .idle rfl rfl
      | some t =>
          dsimp only
          split_ifs with hown
          · have hserial : t.serial = serial := Keyed.lookup_some_key ht
            exact .advances t happening (hserial ▸ ht) hown rfl
          · exact .idle rfl rfl
  | notice index input =>
      unfold step
      dsimp only
      cases hnotice : d.notices[index]? with
      | none => exact .idle rfl rfl
      | some notice =>
          dsimp only
          cases hcall : notice.pending with
          | none => exact .idle rfl rfl
          | some call => exact .uses _ (NoticeCall.op_byOthers call _ input) rfl rfl
  | stray index input =>
      unfold step
      dsimp only
      cases hcall : d.strays[index]? with
      | none => exact .idle rfl rfl
      | some call =>
          cases input with
          | none => exact .idle rfl rfl
          | some input => exact .uses _ (NoticeCall.op_byOthers call _ input) rfl rfl
  | other op =>
      unfold step
      dsimp only
      split_ifs with hop
      · exact .uses op hop rfl rfl
      · exact .idle rfl rfl
  | crash => exact .crashes rfl rfl
  | _ =>
      unfold step
      dsimp only
      repeat' split
      all_goals exact .idle rfl rfl

theorem step_fixed (d : Dispatcher) (next : Dispatch) :
    (d.step next).config = d.config ∧ (d.step next).client = d.client := by
  cases next <;> unfold step <;> dsimp only
  case expire reading faults =>
    split_ifs
    · unfold expired notify
      dsimp only
      repeat' split
      all_goals exact ⟨rfl, rfl⟩
    · exact ⟨rfl, rfl⟩
  case claim keepLease keepReader input =>
    split_ifs
    · unfold claimed
      split <;> exact ⟨rfl, rfl⟩
    · exact ⟨rfl, rfl⟩
  all_goals
    repeat' split
    all_goals exact ⟨rfl, rfl⟩

end Dispatcher

end Rustymail
