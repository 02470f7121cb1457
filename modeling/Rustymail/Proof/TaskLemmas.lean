import Rustymail.Proof.BodyPhase
import Rustymail.Proof.ClientLemmas
import Rustymail.Server.Relay

/-!
# What holds of a relay attempt

A task and its queued calls keep the lease as long as they need it. `before_body` has put the phase on
record before anything of the message is written, and a result that is to be recorded fits what was
read since the terminator went out.
-/

namespace Rustymail

open Checked Dialogue Lifecycle World
open Client (Course)

/-! ### Who holds the lease -/

section Leases

variable {w : World} {op : Op} {l : QueueLease} {serial : Nat}

theorem World.call_leases {α : Type} (w : World) (f : Store → Store × Except StoreError α) :
    (w.call f).1.leases = w.leases := by
  rcases w.call_cases f with hsame | hstore
  · rw [hsame]
  · rw [hstore]

theorem World.callWith_leases {α : Type} (w : World) (serial : Nat)
    (f : QueueLease → Store → Store × Except StoreError α) :
    (w.callWith serial f).1.leases = w.leases := by
  rcases w.callWith_cases serial f with hsame | ⟨lease, -, hstore⟩
  · rw [hsame]
  · rw [hstore]

theorem World.openBody_leases (w : World) (serial : Nat) (file : Except StoreError Unit) :
    (w.openBody serial file).1.leases = w.leases := by
  rcases w.openBody_cases serial file with hsame | ⟨lease, reader, -, -, hopened⟩
  · rw [hsame]
  · rw [hopened]

theorem World.mem_claim_leases (hl : l ∈ w.leases) {policy : QueuePolicy} {limit : Nat}
    {keepLease : QueueLease → Bool} {keepReader : QueuedReader → Bool} {input : ClaimInput}
    (hkeep : keepLease l = true) : l ∈ (w.claim policy limit keepLease keepReader input).1.leases := by
  have hkept : l ∈ w.leases.filter keepLease := List.mem_filter.2 ⟨hl, hkeep⟩
  rcases w.claim_cases policy limit keepLease keepReader input with
    hsame | ⟨e, -, hfailed⟩ | ⟨leases, -, hdone⟩
  · rw [hsame]
    exact hkept
  · rw [hfailed]
    exact hkept
  · rw [hdone]
    exact List.mem_append_left _ hkept

theorem World.serial_of_lease? (h : w.lease? serial = some l) : l.guard.serial = serial := by
  have hfound := List.find?_some h
  rwa [decide_eq_true_eq] at hfound

/-- A held lease is found under its number. -/
theorem World.Owned.lease?_eq (hw : w.Owned) (hl : l ∈ w.leases) :
    w.lease? l.guard.serial = some l := by
  have hsome : (w.lease? l.guard.serial).isSome := by
    unfold World.lease?
    rw [List.find?_isSome]
    exact ⟨l, hl, by simp⟩
  obtain ⟨l', hl'⟩ := Option.isSome_iff_exists.1 hsome
  have hserial := serial_of_lease? hl'
  have hissued := (hw.leases l' (lease?_mem hl')).1
  rw [hl', List.inj_on_of_nodup_map hw.serials hissued (hw.leases l hl).1 hserial]

theorem World.foreign_keeps (hforeign : op.foreign w serial = true)
    (hl : w.lease? serial = some l) : l ∈ (w.next op).leases := by
  have hmem := lease?_mem hl
  have hserial := serial_of_lease? hl
  cases op with
  | queueClaim policy limit keepLease keepReader input =>
      have hkeep : keepLease l = true := by
        simpa [Op.foreign, hl] using hforeign
      exact mem_claim_leases hmem hkeep
  | queueRenew s seconds reading faults =>
      change l ∈ (w.callWith _ _).1.leases
      rw [callWith_leases]
      exact hmem
  | queueMarkBody s faults =>
      change l ∈ (w.callWith _ _).1.leases
      rw [callWith_leases]
      exact hmem
  | queueOpenBody s file =>
      change l ∈ (w.openBody s file).1.leases
      rw [openBody_leases]
      exact hmem
  | queueFinish s outcome reading guardReading faults =>
      have hother : s ≠ serial := by simpa [Op.foreign] using hforeign
      change l ∈ ((w.callWith _ _).1.dropLease s).leases
      refine List.mem_filter.2 ⟨?_, by simp [hserial, Ne.symm hother]⟩
      rw [callWith_leases]
      exact hmem
  | dropLease s =>
      have hother : s ≠ serial := by simpa [Op.foreign] using hforeign
      exact List.mem_filter.2 ⟨hmem, by simp [hserial, Ne.symm hother]⟩
  | dropReader index => exact hmem
  | close => exact hmem
  | crash => cases hforeign
  | reopen maxMessageBytes =>
      change l ∈ (w.reopen maxMessageBytes).1.leases
      rcases w.reopen_cases maxMessageBytes with hsame | ⟨-, hnone, -⟩
      · rw [hsame]
        exact hmem
      · rw [hnone] at hmem
        cases hmem
  | _ =>
      change l ∈ (w.call _).1.leases
      rw [call_leases]
      exact hmem

theorem World.call_keeps {call : TaskCall} {input : CallInput} (hl : l ∈ w.leases)
    (hcall : ∀ result, call ≠ .finish result) : l ∈ (w.next (call.op serial input)).leases := by
  cases call with
  | openBody =>
      change l ∈ (w.openBody serial input.file).1.leases
      rw [openBody_leases]
      exact hl
  | markBody =>
      change l ∈ (w.callWith _ _).1.leases
      rw [callWith_leases]
      exact hl
  | renew =>
      change l ∈ (w.callWith _ _).1.leases
      rw [callWith_leases]
      exact hl
  | finish result => exact absurd rfl (hcall result)

theorem World.next_issued (hkeys : w.store.db.Keys) (op : Op) (hl : l ∈ w.issued) :
    l ∈ (w.next op).issued := by
  cases w.next_volatile hkeys op with
  | loosens hleases hreaders hissued => exact hissued ▸ hl
  | reads hlease hguard hnext =>
      rw [hnext]
      exact hl
  | claims hop hclaim =>
      rw [hclaim.issued_eq]
      exact List.mem_append_left _ hl
  | reopens hleases hreaders hleases' hreaders' hissued => exact hissued ▸ hl

/-- A successful `queue_mark_body` has the phase on record. -/
theorem World.markBody_recorded {input : CallInput} (hl : w.lease? serial = some l)
    (hok : (w.step (TaskCall.markBody.op serial input)).2.succeeded = true) :
    BodySince l.generation ((w.next (TaskCall.markBody.op serial input)).store.db.view l.id) := by
  have hcall : w.callWith serial (fun lease s => queueMarkBody s lease input.faults)
      = w.call fun s => queueMarkBody s l input.faults := by
    unfold World.callWith
    rw [hl]
  have hstep : w.step (TaskCall.markBody.op serial input)
      = answer .unit (w.call fun s => queueMarkBody s l input.faults) := by
    rw [← hcall]
    rfl
  unfold World.next
  rw [hstep] at hok ⊢
  by_cases hopen : w.opened = true
  · rw [call_opened hopen] at hok ⊢
    have hdone : ∃ s, queueMarkBody w.store l input.faults = (s, .ok ()) := by
      cases hresult : queueMarkBody w.store l input.faults with
      | mk s result =>
          cases result with
          | error e =>
              rw [hresult] at hok
              cases hok
          | ok value => exact ⟨s, rfl⟩
    obtain ⟨s, hdone⟩ := hdone
    obtain ⟨db, htx, rfl⟩ := transaction_commit_ok hdone
    unfold markBodyTx at htx
    simp only [bind_eq_ok, pure_eq_ok, Prod.mk.injEq, and_true] at htx
    obtain ⟨phase, hcheck, rfl⟩ := htx
    obtain ⟨-, row, queued, hrow, hqueued, hmatch, -⟩ := checkLease_eq_ok.1 hcheck
    have hview : ((w.store.db.updateQueueLease l.id QueueLeaseRow.markBody).view l.id)
        = { w.store.db.view l.id with phase := some .body } := by
      rw [Db.view_markBody, if_pos rfl]
      simp [Db.view, hqueued]
    unfold answer
    dsimp only
    rw [hdone]
    dsimp only
    rw [hview]
    exact ⟨row, hrow, hmatch.2.2.2.ge, fun _ _ => rfl⟩
  · rw [call_closed hopen] at hok
    cases hok

end Leases

/-! ### The task -/

/-- The result fits what the attempt has read since its terminator went out. -/
def HonestResult (result : QueueResult) (course : Course) : Prop :=
  course.terminated = true → ∃ a : Client.AttemptResult, result = a.queued ∧ a.Honest course

/-- What holds of an execution at every moment. -/
structure Execution.Sound (e : Execution) : Prop where
  reachable : e.world.Reachable
  issued : e.lease ∈ e.world.issued
  held : (e.stage ≠ .gone ∨ e.orphans ≠ []) → e.lease ∈ e.world.leases
  opening : e.stage = .opening → e.course = {}
  attempt : ∀ attempt renewing, e.stage = .attempting attempt renewing →
    Always Course.observe Course.permits Client.Reported Client.FailedWith attempt e.course
  result : ∀ result, (e.stage = .concluded result ∨ e.stage = .finishing result) →
    HonestResult result e.course
  alone : ∀ result, e.stage = .finishing result → e.orphans = []
  orphan : ∀ result, .finish result ∈ e.orphans →
    e.stage = .gone ∧ e.orphans = [.finish result] ∧ HonestResult result e.course
  marked : e.course.marked = true →
    BodySince e.lease.generation (e.world.store.db.view e.lease.id)
  terminated : e.course.terminated = true → e.course.marked = true

namespace Execution.Sound

variable {e : Execution}

/-- The store is used, and whoever needs the lease keeps it. -/
theorem withNext (h : e.Sound) (op : Op)
    (hheld : (e.stage ≠ .gone ∨ e.orphans ≠ []) → e.lease ∈ (e.world.next op).leases) :
    ({ e with world := e.world.next op } : Execution).Sound :=
  { h with
    reachable := h.reachable.next op
    issued := next_issued h.reachable.keys op h.issued
    held := hheld
    marked := fun hmarked => next_bodySince h.reachable.keys op (h.marked hmarked) }

/-- The task moves on, and nobody else of its own. -/
theorem withStage (h : e.Sound) (hhere : e.stage ≠ .gone) {stage : Stage}
    (hopening : stage ≠ .opening)
    (hattempt : ∀ attempt renewing, stage = .attempting attempt renewing →
      Always Course.observe Course.permits Client.Reported Client.FailedWith attempt e.course)
    (hresult : ∀ result, (stage = .concluded result ∨ stage = .finishing result) →
      HonestResult result e.course)
    (halone : ∀ result, stage = .finishing result → e.orphans = []) :
    ({ e with stage := stage } : Execution).Sound :=
  { h with
    held := fun _ => h.held (Or.inl hhere)
    opening := fun hstage => absurd hstage hopening
    attempt := hattempt
    result := hresult
    alone := halone
    orphan := fun result hmem => absurd (h.orphan result hmem).1 hhere }

theorem observe_marked (course : Course) (question : Client.Ask) (answer : question.Answer)
    (hquestion : question ≠ .beforeBody) :
    (course.observe question answer).marked = course.marked := by
  unfold Client.Course.observe
  split
  · exact absurd rfl hquestion
  · split_ifs <;> rfl
  · split_ifs <;> rfl
  · rfl

theorem observe_terminated (course : Course) (question : Client.Ask) (answer : question.Answer)
    (hafter : (course.observe question answer).terminated = true) :
    course.terminated = true ∨ question = .write .dataWrite Client.terminator := by
  unfold Client.Course.observe at hafter
  split at hafter
  · exact Or.inl hafter
  · split_ifs at hafter with hbytes
    · exact Or.inr (by rw [hbytes])
    · exact Or.inl hafter
  · split_ifs at hafter <;> exact Or.inl hafter
  · exact Or.inl hafter

/-- The attempt gets an answer. -/
theorem withAnswer (h : e.Sound) {question : Client.Ask} {next : question.Answer → Attempt}
    {renewing : Bool} (hstage : e.stage = .attempting (.ask question next) renewing)
    (answer : question.Answer)
    (hmarked : (e.course.observe question answer).marked = true →
      BodySince e.lease.generation (e.world.store.db.view e.lease.id)) :
    ({ e with
        stage := .attempting (next answer) renewing
        course := e.course.observe question answer } : Execution).Sound := by
  obtain ⟨hpermits, hnext⟩ := h.attempt _ _ hstage
  have hhere : e.stage ≠ .gone := by simp [hstage]
  exact
    { h with
      held := fun _ => h.held (Or.inl hhere)
      opening := fun hopening => by cases hopening
      attempt := fun attempt _ hattempt => by
        cases hattempt
        exact hnext answer
      result := fun result hresult => by rcases hresult with hresult | hresult <;> cases hresult
      alone := fun result hresult => by cases hresult
      orphan := fun result hmem => absurd (h.orphan result hmem).1 hhere
      marked := hmarked
      terminated := fun hafter => by
        have hbefore : e.course.marked = true := by
          rcases observe_terminated _ _ _ hafter with hterminated | rfl
          · exact h.terminated hterminated
          · exact hpermits
        by_cases hquestion : question = .beforeBody
        · subst hquestion
          simp [Client.Course.observe, hbefore]
        · rw [observe_marked _ _ _ hquestion]
          exact hbefore }

/-- More calls of the task stay behind in the worker's queue, none of them a result. -/
theorem withOrphans (h : e.Sound) {calls : List TaskCall} (hhere : e.stage ≠ .gone)
    (hstage : ∀ result, e.stage ≠ .finishing result)
    (hcalls : ∀ result, .finish result ∉ calls) :
    ({ e with orphans := e.orphans ++ calls } : Execution).Sound :=
  { h with
    held := fun _ => h.held (Or.inl hhere)
    alone := fun result hfinishing => absurd hfinishing (hstage result)
    orphan := fun result hmem => by
      rcases List.mem_append.1 hmem with hold | hnew
      · exact absurd (h.orphan result hold).1 hhere
      · exact absurd hnew (hcalls result) }

theorem finish_not_awaited (attempt : Attempt) (result : QueueResult) :
    TaskCall.finish result ∉ awaitedCall attempt := by
  unfold awaitedCall
  split <;> simp

theorem finishing_of_pending {stage : Stage} {result : QueueResult}
    (h : .finish result ∈ stage.pending) : stage = .finishing result := by
  cases stage with
  | finishing result' =>
      cases List.mem_singleton.1 h
      rfl
  | opening => simp [Stage.pending] at h
  | concluded result' => simp [Stage.pending] at h
  | gone => simp [Stage.pending] at h
  | attempting attempt renewing =>
      rcases List.mem_append.1 h with hmem | hmem
      · exact absurd hmem (finish_not_awaited attempt result)
      · split_ifs at hmem <;> simp at hmem

/-- A call other than the last is answered. -/
theorem answered (h : e.Sound) {call : TaskCall} {ok queued : Bool}
    (hcall : ∀ result, call ≠ .finish result)
    (hmark : call = .markBody → ok = true →
      BodySince e.lease.generation (e.world.store.db.view e.lease.id)) :
    (e.answered call ok queued).Sound := by
  unfold Execution.answered
  split
  · rename_i hstage
    refine h.withStage (by simp [hstage]) ?_ ?_ ?_ ?_
    · split_ifs <;> simp
    · intro attempt renewing heq
      split_ifs at heq
      cases heq
      rw [h.opening hstage]
      exact Client.tryAttempt_reported _ _
    · intro result heq hterminated
      rw [h.opening hstage] at hterminated
      cases hterminated
    · intro result heq
      split_ifs at heq
  · rename_i next renewing hstage
    refine h.withAnswer hstage ok ?_
    intro hmarked
    by_cases hok : ok = true
    · exact hmark rfl hok
    · apply h.marked
      simpa [Client.Course.observe, hok] using hmarked
  · rename_i attempt hstage
    have hhere : e.stage ≠ .gone := by simp [hstage]
    by_cases hok : ok = true
    · rw [if_pos hok]
      refine h.withStage hhere (by simp) ?_ (by simp) (by simp)
      rintro attempt' renewing ⟨⟩
      exact h.attempt _ _ hstage
    · rw [if_neg hok]
      have hconcluded : ({ e with stage := .concluded .connectionLost } : Execution).Sound := by
        refine h.withStage hhere (by simp) (by simp) ?_ (by simp)
        rintro result (⟨⟨⟩⟩ | ⟨⟨⟩⟩) hterminated
        exact ⟨.connectionLost, rfl, trivial⟩
      refine hconcluded.withOrphans (by simp) (by simp) ?_
      intro result hmem
      split_ifs at hmem
      · exact finish_not_awaited attempt result hmem
      · cases hmem
  · exact absurd rfl (hcall _)
  · exact h

/-- The last call uses the lease up, and with it the task is gone. -/
theorem finished (h : e.Sound) (op : Op) :
    ({ e with world := e.world.next op, stage := .gone, orphans := [] } : Execution).Sound where
  reachable := h.reachable.next op
  issued := next_issued h.reachable.keys op h.issued
  held := by simp
  opening := by simp
  attempt := by simp
  result := by simp
  alone := by simp
  orphan := by simp
  marked := fun hmarked => next_bodySince h.reachable.keys op (h.marked hmarked)
  terminated := h.terminated

theorem lease?_eq (h : e.Sound) (hhere : e.stage ≠ .gone ∨ e.orphans ≠ []) :
    e.world.lease? e.serial = some e.lease :=
  h.reachable.owned.lease?_eq (h.held hhere)

/-- The worker performs a call that the task waits for. -/
theorem performs (h : e.Sound) {call : TaskCall} (hcall : call ∈ e.stage.pending)
    (input : CallInput) (heard queued : Bool) :
    ((e.performed call input).answered call
      ((e.world.step (call.op e.serial input)).2.succeeded && heard) queued).Sound := by
  have hhere : e.stage ≠ .gone := by
    intro hgone
    rw [hgone] at hcall
    cases hcall
  by_cases hfinish : ∃ result, call = .finish result
  · obtain ⟨result, rfl⟩ := hfinish
    have hstage := finishing_of_pending hcall
    have hgone := h.finished (TaskCall.op e.serial input (.finish result))
    have horphans := h.alone result hstage
    unfold Execution.answered Execution.performed
    rw [hstage]
    rw [← horphans] at hgone
    exact hgone
  · have hother : ∀ result, call ≠ .finish result := by
      intro result heq
      exact hfinish ⟨result, heq⟩
    have hnext := h.withNext (call.op e.serial input) fun hneeds => call_keeps (h.held hneeds) hother
    refine answered hnext hother ?_
    rintro rfl hok
    rw [Bool.and_eq_true] at hok
    exact markBody_recorded (h.lease?_eq (Or.inl hhere)) hok.1

/-- The worker performs a call that was left behind. -/
theorem performsOrphan (h : e.Sound) {call : TaskCall} (hcall : call ∈ e.orphans)
    (input : CallInput) :
    ({ e.performed call input with orphans := e.orphans.erase call } : Execution).Sound := by
  by_cases hfinish : ∃ result, call = .finish result
  · obtain ⟨result, rfl⟩ := hfinish
    obtain ⟨hgone, horphans, -⟩ := h.orphan result hcall
    have hlast := h.finished (TaskCall.op e.serial input (.finish result))
    have herase : e.orphans.erase (.finish result) = [] := by
      rw [horphans]
      simp
    rw [herase]
    rw [← hgone] at hlast
    exact hlast
  · have hother : ∀ result, call ≠ .finish result := by
      intro result heq
      exact hfinish ⟨result, heq⟩
    have hneeds : e.orphans ≠ [] := List.ne_nil_of_mem hcall
    have hnext := h.withNext (call.op e.serial input) fun hneeds => call_keeps (h.held hneeds) hother
    exact
      { hnext with
        held := fun _ => call_keeps (h.held (Or.inr hneeds)) hother
        alone := fun result hfinishing => by
          have hnone := h.alone result hfinishing
          exact absurd hnone hneeds
        orphan := fun result hmem => by
          obtain ⟨-, horphans, -⟩ := h.orphan result (List.mem_of_mem_erase hmem)
          rw [horphans, List.mem_singleton] at hcall
          exact absurd hcall (hother result) }

/-- The task is aborted. -/
theorem aborted (h : e.Sound) (queued : Bool) :
    ({ e with
        stage := .gone
        orphans := e.orphans ++ if queued then e.stage.pending else [] } : Execution).Sound :=
  { h with
    held := fun hneeds => by
      apply h.held
      rcases hneeds with hgone | horphans
      · exact absurd rfl hgone
      · by_contra hnone
        rw [not_or, not_not, not_not] at hnone
        obtain ⟨hgone, hempty⟩ := hnone
        rw [hgone, hempty] at horphans
        cases queued <;> exact horphans rfl
    opening := fun hopening => by cases hopening
    attempt := fun attempt renewing hattempt => by cases hattempt
    result := fun result hresult => by rcases hresult with hresult | hresult <;> cases hresult
    alone := fun result hfinishing => by cases hfinishing
    orphan := fun result hmem => by
      refine ⟨rfl, ?_⟩
      rcases List.mem_append.1 hmem with hold | hnew
      · obtain ⟨hgone, horphans, hhonest⟩ := h.orphan result hold
        refine ⟨?_, hhonest⟩
        rw [hgone, horphans]
        cases queued <;> rfl
      · split_ifs at hnew with hqueued
        · have hstage := finishing_of_pending hnew
          refine ⟨?_, h.result result (Or.inr hstage)⟩
          rw [h.alone result hstage, if_pos hqueued, hstage]
          rfl
        · cases hnew }

theorem step (h : e.Sound) (happening : Happening) : (e.step happening).Sound := by
  cases happening with
  | perform call input heard queued =>
      unfold Execution.step
      dsimp only
      split_ifs with hcall
      · exact h.performs hcall input heard queued
      · exact h
  | refuse call queued =>
      unfold Execution.step
      dsimp only
      split_ifs with hcall
      · by_cases hfinish : ∃ result, call = .finish result
        · obtain ⟨result, rfl⟩ := hfinish
          have hstage := finishing_of_pending hcall
          have hgone : ({ e with stage := .gone } : Execution).Sound := by
            have haborted := h.aborted false
            simpa using haborted
          unfold Execution.answered
          rw [hstage]
          exact hgone
        · refine h.answered (fun result heq => hfinish ⟨result, heq⟩) ?_
          rintro - ⟨⟩
      · exact h
  | wire answer =>
      unfold Execution.step
      dsimp only
      split
      · exact h
      · rename_i question next hquestion hstage
        have hother : question ≠ .beforeBody := by
          rintro rfl
          exact hquestion next rfl HEq.rfl
        refine h.withAnswer hstage (answer question) ?_
        rw [observe_marked _ _ _ hother]
        exact h.marked
      · exact h
  | tick =>
      unfold Execution.step
      dsimp only
      split
      · rename_i attempt renewing hstage
        refine h.withStage (by simp [hstage]) (by simp) ?_ (by simp) (by simp)
        rintro attempt' renewing' ⟨⟩
        exact h.attempt _ _ hstage
      · exact h
  | conclude =>
      unfold Execution.step
      dsimp only
      split
      · rename_i result hstage
        have hreported := h.attempt _ _ hstage
        refine h.withStage (by simp [hstage]) (by simp) (by simp) ?_ (by simp)
        rintro queued (⟨⟨⟩⟩ | ⟨⟨⟩⟩) hterminated
        exact ⟨result, rfl, hreported hterminated⟩
      · rename_i failure hstage
        have hfailed := h.attempt _ _ hstage
        refine h.withStage (by simp [hstage]) (by simp) (by simp) ?_ (by simp)
        rintro queued (⟨⟨⟩⟩ | ⟨⟨⟩⟩) hterminated
        obtain rfl := hfailed hterminated
        exact ⟨.connectionLost, rfl, trivial⟩
      · exact h
  | unwrap sole =>
      unfold Execution.step
      dsimp only
      split
      · rename_i result hstage
        split_ifs with hsole
        · refine h.withStage (by simp [hstage]) (by simp) (by simp) ?_ fun _ _ => hsole.2
          rintro result' (⟨⟨⟩⟩ | ⟨⟨⟩⟩)
          exact h.result result (Or.inl hstage)
        · have haborted := h.aborted false
          simpa using haborted
      · exact h
  | abort queued => exact h.aborted queued
  | performOrphan call input =>
      unfold Execution.step
      dsimp only
      split_ifs with hcall
      · exact h.performsOrphan hcall input
      · exact h
  | dropOrphans =>
      exact
        { h with
          held := fun hneeds => h.held (Or.inl (hneeds.resolve_right fun hnone => hnone rfl))
          alone := fun _ _ => rfl
          orphan := fun result hmem => by cases hmem }
  | release =>
      unfold Execution.step
      dsimp only
      split
      · rename_i hgone hempty
        refine h.withNext _ ?_
        intro hneeds
        rw [hgone, hempty] at hneeds
        simp at hneeds
      · exact h
  | crash => exact h.finished .crash
  | other op =>
      unfold Execution.step
      dsimp only
      split_ifs with hforeign
      · exact h.withNext op fun hneeds => foreign_keeps hforeign (h.lease?_eq hneeds)
      · exact h

end Execution.Sound

end Rustymail
