import Rustymail.Proof.TaskLemmas

/-!
# No acceptance is lost

While a task or one of its queued calls holds the lease, the delivery stays under it. When the
terminator is out, the attempt can only end with a recorded reply or as an unknown outcome.
-/

namespace Rustymail

open Checked Dialogue Lifecycle World
open Client (Course)

namespace Execution

variable {e : Execution}

theorem Sound.start {w : World} (hreach : w.Reachable) (client : Client.SmtpClient)
    {lease : QueueLease} (hlease : lease ∈ w.leases) : (Execution.start client w lease).Sound where
  reachable := hreach
  issued := (hreach.owned.leases lease hlease).1
  held := fun _ => hlease
  opening := fun _ => rfl
  attempt := by simp [Execution.start]
  result := by simp [Execution.start]
  alone := by simp [Execution.start]
  orphan := by simp [Execution.start]
  marked := by simp [Execution.start]
  terminated := by simp [Execution.start]

theorem answered_lease (call : TaskCall) (ok queued : Bool) :
    (e.answered call ok queued).lease = e.lease := by
  unfold answered
  split <;> try rfl
  split_ifs <;> rfl

theorem answered_world (call : TaskCall) (ok queued : Bool) :
    (e.answered call ok queued).world = e.world := by
  unfold answered
  split <;> try rfl
  split_ifs <;> rfl

theorem answered_terminated (call : TaskCall) (ok queued : Bool) :
    (e.answered call ok queued).course.terminated = e.course.terminated := by
  unfold answered
  split <;> try rfl
  split_ifs <;> rfl

theorem step_lease (happening : Happening) : (e.step happening).lease = e.lease := by
  cases happening <;> unfold step <;> dsimp only
  case perform call input heard queued =>
    split_ifs
    · rw [answered_lease]
      rfl
    · rfl
  case refuse call queued =>
    split_ifs
    · rw [answered_lease]
    · rfl
  all_goals (split <;> rfl)

/-- Along every run the lease is the same and the execution is sound. -/
theorem run_sound {w : World} (hreach : w.Reachable) (client : Client.SmtpClient)
    {lease : QueueLease} (hlease : lease ∈ w.leases) (happenings : List Happening) :
    ((start client w lease).run happenings).Sound
      ∧ ((start client w lease).run happenings).lease = lease := by
  refine Runs.invariant (fun e : Execution => e.Sound ∧ e.lease = lease)
    ⟨Sound.start hreach client hlease, rfl⟩ ?_ happenings
  rintro e happening ⟨hsound, hsame⟩
  exact ⟨hsound.step happening, (step_lease happening).trans hsame⟩

/-- The terminator goes out after `before_body` has succeeded, and while the task is there. -/
theorem Sound.terminates (h : e.Sound) (happening : Happening)
    (hbefore : e.course.terminated = false) (hafter : (e.step happening).course.terminated = true) :
    e.stage ≠ .gone ∧ e.course.marked = true := by
  have hsame : (e.step happening).course.terminated ≠ e.course.terminated := by
    rw [hbefore, hafter]
    simp
  cases happening with
  | wire answer =>
      unfold Execution.step at hafter
      dsimp only at hafter
      split at hafter
      · exact absurd (hbefore.symm.trans hafter) (by simp)
      · rename_i question next hquestion hstage
        obtain ⟨hpermits, -⟩ := h.attempt _ _ hstage
        rcases Sound.observe_terminated _ _ _ hafter with hterminated | rfl
        · rw [hbefore] at hterminated
          cases hterminated
        · exact ⟨by simp [hstage], hpermits⟩
      · exact absurd (hbefore.symm.trans hafter) (by simp)
  | perform call input heard queued =>
      unfold Execution.step at hsame
      dsimp only at hsame
      split_ifs at hsame
      · rw [answered_terminated] at hsame
        exact absurd rfl hsame
      · exact absurd rfl hsame
  | refuse call queued =>
      unfold Execution.step at hsame
      dsimp only at hsame
      split_ifs at hsame
      · rw [answered_terminated] at hsame
        exact absurd rfl hsame
      · exact absurd rfl hsame
  | _ =>
      unfold Execution.step at hsame
      dsimp only at hsame
      first
      | exact absurd rfl hsame
      | (split at hsame <;> exact absurd rfl hsame)

/-- Whoever finishes the attempt has a result that fits what was read. -/
theorem Sound.step_world (h : e.Sound)
    (hattempt : e.world.store.db.OnAttempt e.lease.id e.lease.generation) (happening : Happening) :
    (e.step happening).world = e.world
      ∨ ∃ op, (e.step happening).world = e.world.next op
        ∧ ∀ outcome, e.world.FinishesWith op e.lease.id outcome → HonestResult outcome e.course := by
  have hcall : ∀ (call : TaskCall) (input : CallInput),
      (∀ result, call = .finish result → HonestResult result e.course) → ∀ outcome,
      e.world.FinishesWith (call.op e.serial input) e.lease.id outcome →
        HonestResult outcome e.course := by
    rintro call input hresult outcome ⟨serial, reading, guardReading, faults, lease, heq, -⟩
    cases call with
    | finish recorded =>
        cases heq
        exact hresult _ rfl
    | openBody => cases heq
    | markBody => cases heq
    | renew => cases heq
  cases happening with
  | perform call input heard queued =>
      unfold Execution.step
      dsimp only
      split_ifs with hpending
      · refine Or.inr ⟨call.op e.serial input, answered_world _ _ _, hcall call input ?_⟩
        rintro recorded rfl
        exact h.result recorded (Or.inr (Sound.finishing_of_pending hpending))
      · exact Or.inl rfl
  | performOrphan call input =>
      unfold Execution.step
      dsimp only
      split_ifs with horphan
      · refine Or.inr ⟨call.op e.serial input, rfl, hcall call input ?_⟩
        rintro recorded rfl
        exact (h.orphan recorded horphan).2.2
      · exact Or.inl rfl
  | refuse call queued =>
      unfold Execution.step
      dsimp only
      split_ifs
      · exact Or.inl (answered_world _ _ _)
      · exact Or.inl rfl
  | wire answer =>
      unfold Execution.step
      dsimp only
      split <;> exact Or.inl rfl
  | tick =>
      unfold Execution.step
      dsimp only
      split <;> exact Or.inl rfl
  | conclude =>
      unfold Execution.step
      dsimp only
      split <;> exact Or.inl rfl
  | unwrap sole =>
      unfold Execution.step
      dsimp only
      split <;> exact Or.inl rfl
  | abort queued => exact Or.inl rfl
  | dropOrphans => exact Or.inl rfl
  | release =>
      unfold Execution.step
      dsimp only
      split
      · refine Or.inr ⟨.dropLease e.serial, rfl, ?_⟩
        rintro outcome ⟨serial, reading, guardReading, faults, lease, heq, -⟩
        cases heq
      · exact Or.inl rfl
  | crash =>
      refine Or.inr ⟨.crash, rfl, ?_⟩
      rintro outcome ⟨serial, reading, guardReading, faults, lease, heq, -⟩
      cases heq
  | other op =>
      unfold Execution.step
      dsimp only
      split_ifs with hforeign
      · refine Or.inr ⟨op, rfl, ?_⟩
        rintro outcome ⟨serial, reading, guardReading, faults, lease, rfl, hlease, hid⟩
        -- another holder of this delivery would have this lease's generation, and so be it
        have hmem := lease?_mem hlease
        obtain ⟨row, hrow, -, -, -, hgeneration⟩ := (h.reachable.held lease hmem).1
        obtain ⟨row', hrow', -, hgeneration'⟩ := hattempt
        rw [hid, hrow'] at hrow
        cases hrow
        have hsame : lease = e.lease := h.reachable.fenced.unique
          (h.reachable.owned.leases lease hmem).1 h.issued hid (hgeneration.symm.trans hgeneration')
        have hserial := serial_of_lease? hlease
        rw [hsame] at hserial
        simp [Op.foreign, Execution.serial, hserial] at hforeign
      · exact Or.inl rfl

end Execution

/-- A result recorded in the body settles the delivery by the reply it stands for. -/
theorem Lifecycle.Recorded.settled {course : Course} {outcome : QueueResult} {before after : Delivery}
    (h : Recorded outcome before.possiblyDelivered after) (hhonest : HonestResult outcome course)
    (hterminated : course.terminated = true) : SettledBy course before after := by
  obtain ⟨result, hresult, hstate, hflag⟩ := h
  obtain ⟨a, rfl, ha⟩ := hhonest hterminated
  rw [settle_state] at hstate
  have hunknown : after.state = .uncertain → SettledBy course before after := by
    intro huncertain
    rw [huncertain] at hflag
    exact Or.inr (Or.inr (Or.inr ⟨huncertain, by simpa using hflag⟩))
  cases a with
  | delivered code =>
      obtain ⟨hlow, hhigh, hreply⟩ := ha
      simp only [Client.AttemptResult.queued, QueueResult.classify, hlow, hhigh, and_self,
        if_true] at hresult
      cases hresult
      exact Or.inl ⟨by simpa using hstate, code, hlow, hhigh, hreply⟩
  | temporary code =>
      obtain ⟨hlow, hhigh, hreply⟩ := ha
      simp only [Client.AttemptResult.queued, QueueResult.classify, hlow, hhigh, and_self,
        if_true] at hresult
      cases hresult
      by_cases hearlier : before.possiblyDelivered = true
      · exact hunknown (by simpa [hearlier] using hstate)
      · refine Or.inr (Or.inl ⟨?_, Bool.eq_false_iff.2 hearlier, code, hlow, hhigh, hreply⟩)
        simpa [hearlier] using hstate
  | permanent code =>
      obtain ⟨hlow, hhigh, hreply⟩ := ha
      simp only [Client.AttemptResult.queued, QueueResult.classify, hlow, hhigh, and_self,
        if_true] at hresult
      cases hresult
      by_cases hearlier : before.possiblyDelivered = true
      · exact hunknown (by simpa [hearlier] using hstate)
      · refine Or.inr (Or.inr (Or.inl ⟨?_, Bool.eq_false_iff.2 hearlier, code, hlow, hhigh, hreply⟩))
        simpa [hearlier] using hstate
  | connectionLost =>
      cases hresult
      apply hunknown
      rw [hstate]
      split_ifs <;> rfl
  | hold => exact ha.elim
  | deferred => exact ha.elim

/-- **No acceptance is lost.** Whatever the peer, the reader, the clock and the faults do, and whoever
is aborted or crashes: when the terminator goes out, the phase `body` is on record, and the delivery
then leaves its lease settled by a complete reply or as an unknown outcome. -/
theorem no_acceptance_lost (client : Client.SmtpClient) (w : World) (hreach : w.Reachable)
    (lease : QueueLease) (hlease : lease ∈ w.leases) (happenings : List Happening) (e : Execution)
    (he : e = (Execution.start client w lease).run happenings) (happening : Happening) :
    (e.course.terminated = false → (e.step happening).course.terminated = true →
        e.world.store.db.InBody lease.id lease.generation)
      ∧ (e.course.terminated = true → e.world.store.db.OnAttempt lease.id lease.generation →
        ¬ (e.step happening).world.store.db.OnAttempt lease.id lease.generation →
        ∃ before after, e.world.store.db.delivery? lease.id = some before
          ∧ (e.step happening).world.store.db.delivery? lease.id = some after
          ∧ SettledBy e.course before after) := by
  obtain ⟨hsound, hsame⟩ := Execution.run_sound hreach client hlease happenings
  rw [← he] at hsound hsame
  subst hsame
  have hbody : e.course.marked = true →
      e.world.store.db.OnAttempt e.lease.id e.lease.generation →
      e.world.store.db.InBody e.lease.id e.lease.generation := by
    rintro hmarked ⟨row, hrow, hstate, hgeneration⟩
    obtain ⟨row', hrow', -, hphase⟩ := hsound.marked hmarked
    have hequal : row' = row := Option.some.inj (hrow'.symm.trans hrow)
    subst hequal
    exact ⟨⟨row', hrow, hstate, hgeneration⟩, hphase hgeneration hstate⟩
  constructor
  · intro hbefore hafter
    obtain ⟨hhere, hmarked⟩ := hsound.terminates happening hbefore hafter
    obtain ⟨row, hrow, -, hstate, -, hgeneration⟩ :=
      (hsound.reachable.held e.lease (hsound.held (Or.inl hhere))).1
    exact hbody hmarked ⟨row, hrow, hstate, hgeneration⟩
  · intro hterminated hattempt hended
    obtain ⟨⟨row, hrow, hstate, hgeneration⟩, hphase⟩ :=
      hbody (hsound.terminated hterminated) hattempt
    rcases hsound.step_world hattempt happening with hworld | ⟨op, hworld, hhonest⟩
    · rw [hworld] at hended
      exact absurd hattempt hended
    · rw [hworld] at hended ⊢
      rcases next_from_body hsound.reachable.keys op hrow hstate hgeneration hphase with
        hstill | ⟨outcome, after, hfinishes, hafter, hrecorded⟩ | ⟨after, -, hafter, habandoned⟩
      · exact absurd hstill hended
      · exact ⟨row, after, hrow, hafter, hrecorded.settled (hhonest outcome hfinishes) hterminated⟩
      · exact ⟨row, after, hrow, hafter, Or.inr (Or.inr (Or.inr habandoned))⟩

namespace Sample

def claimed : World := fresh.run [enqueue, claim]

def lease : QueueLease := (claimed.lease? 0).get (by decide)

theorem lease_mem : lease ∈ claimed.leases := lease?_mem (Option.some_get _).symm

def client : Client.SmtpClient := ⟨ascii "h", false, false, none⟩

/-- A friendly answer, with this line or this piece of the body. -/
def obliging (line chunk : Text) : (question : Client.Ask) → question.Answer
  | .connect | .handshake | .write _ _ | .beforeBody => true
  | .prefetched => false
  | .line _ => some (some line)
  | .pump => .bytes chunk

def callInput : CallInput := ⟨.ok (), reading, reading, {}⟩

def writes : Happening := .wire (obliging [] [])

def reads (line : String) : Happening := .wire (obliging (ascii line) [])

/-- The peer takes the message, and then the process dies before it answers. -/
def silence : List Happening :=
  [.perform .openBody callInput true false, writes, reads "220 h", writes, reads "250 h", writes,
    reads "250 h", writes, reads "250 h", writes, reads "354 h",
    .perform .markBody callInput true false, .wire (obliging [] (ascii "a" ++ crlf ++ crlf)), writes,
    .wire (obliging [] []), writes, .crash, .other (.reopen 1000)]

def crashed : Execution := (Execution.start client claimed lease).run silence

end Sample

/-- The process died with the terminator out; recovery leaves the outcome unknown. -/
theorem no_acceptance_lost_crashed :
    Sample.crashed.course.terminated = true
      ∧ ∃ before after, Sample.crashed.world.store.db.delivery? Sample.lease.id = some before
        ∧ (Sample.crashed.step (.other (.queueRecover 1 Sample.reading {}))).world.store.db.delivery?
          Sample.lease.id = some after
        ∧ SettledBy Sample.crashed.course before after := by
  have hterminated : Sample.crashed.course.terminated = true := by decide
  have hended : ((Sample.crashed.step
      (.other (.queueRecover 1 Sample.reading {}))).world.store.db.delivery? Sample.lease.id).map
        Delivery.state = some .uncertain := by decide
  have hbefore : (Sample.crashed.world.store.db.delivery? Sample.lease.id).map
      (fun row => (row.state, row.generation)) = some (.leased, Sample.lease.generation) := by decide
  refine ⟨hterminated, (no_acceptance_lost Sample.client Sample.claimed (Sample.reachable _)
    Sample.lease Sample.lease_mem Sample.silence Sample.crashed rfl
    (.other (.queueRecover 1 Sample.reading {}))).2 hterminated ?_ ?_⟩
  · obtain ⟨row, hrow, hsame⟩ := Option.map_eq_some_iff.1 hbefore
    exact ⟨row, hrow, congrArg Prod.fst hsame, congrArg Prod.snd hsame⟩
  · rintro ⟨row, hrow, hstate, -⟩
    rw [hrow] at hended
    simp [hstate] at hended

end Rustymail
