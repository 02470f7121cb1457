import Rustymail.Proof.LostAcceptance
import Rustymail.Proof.Preliminaries
import Rustymail.Proof.Terminal

/-!
# What the client calls a result and what the queue takes

The queue accepts a delivery only in the phase `body` and a setup failure only in the phase `ready`.
The phase is written by `before_body`, whose commit the client may know nothing about. So the
argument follows what became of `before_body`: not asked, refused as far as the client knows, or
granted.
-/

namespace Rustymail

open Checked Dialogue Lifecycle World

/-- What the classification of `queue_finish` asks of a result. -/
def QueueResult.Fits (phase : Phase) : QueueResult → Prop
  | .delivered code => phase = .body ∧ 200 ≤ code ∧ code < 300
  | .temporary code => 400 ≤ code ∧ code < 500
  | .permanent code => 500 ≤ code ∧ code < 600
  | .deferred => phase = .ready
  | .connectionLost | .hold => True

theorem QueueResult.Fits.classify {result : QueueResult} {phase : Phase} (h : result.Fits phase) :
    ∃ recorded, result.classify phase = .ok recorded := by
  cases result with
  | delivered code =>
      obtain ⟨rfl, hcode⟩ := h
      exact ⟨_, if_pos hcode⟩
  | temporary code => exact ⟨_, if_pos h⟩
  | permanent code => exact ⟨_, if_pos h⟩
  | deferred =>
      obtain rfl := h
      exact ⟨_, rfl⟩
  | connectionLost => cases phase <;> exact ⟨_, rfl⟩
  | hold => exact ⟨_, rfl⟩

/-! ### The phase under a held lease -/

section Phases

variable {e : LifeEvent} {v v' : View} {row : Delivery}

/-- Only the beginning of its body changes the phase of a lease. -/
theorem Lifecycle.Step.phase_eq (hstep : Step e v v') (hrow : v.row = some row)
    (hstate : row.state = .leased) (hmark : e ≠ .bodyMarked)
    (hfinish : ∀ outcome next due, e ≠ .finished outcome next due)
    (hrecover : ∀ next, e ≠ .recovered next) : v'.phase = v.phase := by
  cases hstep with
  | leased hold hroute hready hnone =>
      obtain rfl := Option.some.inj (hrow.symm.trans hold)
      simp [Delivery.Ready, hstate] at hready
  | bodyMarked => exact absurd rfl hmark
  | finished => exact absurd rfl (hfinish _ _ _)
  | recovered => exact absurd rfl (hrecover _)
  | _ => rfl

/-- Leases made since the row had this generation have not begun their body. -/
def UnmarkedSince (generation : Nat) (v : View) : Prop :=
  ∀ row, v.row = some row → generation < row.generation → v.phase ≠ some .body

theorem Lifecycle.Step.unmarkedSince {generation : Nat} (hstep : Step e v v')
    (hmark : e ≠ .bodyMarked) (h : UnmarkedSince generation v) : UnmarkedSince generation v' := by
  have hkeep : ∀ row, v.row = some row → v'.phase = v.phase →
      (∃ row', v'.row = some row' ∧ row'.generation = row.generation) →
      UnmarkedSince generation v' := by
    rintro row hrow hphase ⟨row', hrow', hsame⟩ row'' hrow'' hlater
    obtain rfl := Option.some.inj (hrow'.symm.trans hrow'')
    rw [hphase]
    exact h row hrow (hsame ▸ hlater)
  cases hstep with
  | created hfresh hnew =>
      rintro row' hrow' hlater
      obtain rfl := Option.some.inj hrow'
      cases hfresh <;> cases hlater
  | leased hold => exact fun _ _ _ hbody => by cases hbody
  | bodyMarked => exact absurd rfl hmark
  | finished hold => exact fun _ _ _ hbody => by cases hbody
  | recovered hold => exact fun _ _ _ hbody => by cases hbody
  | suppressed hold hroute hfailed hpending =>
      exact hkeep _ hold rfl ⟨_, rfl, by simp [Delivery.suppress, hpending]⟩
  | @postponed reason due row v hold =>
      refine hkeep _ hold rfl ⟨_, rfl, ?_⟩
      unfold Delivery.postponeReport
      split_ifs <;> rfl
  | exhausted hold | renewed hold | expired hold | held hold | retried hold | closed hold
  | reported hold => exact hkeep _ hold rfl ⟨_, rfl, rfl⟩

variable {w : World} {l : QueueLease} {op : Op}

/-- While a lease is held, nobody else begins its body. -/
theorem World.next_phase (hreach : w.Reachable) (hl : l ∈ w.leases)
    (hkept : l ∈ (w.next op).leases)
    (hmark : ∀ serial faults, op = .queueMarkBody serial faults → w.lease? serial ≠ some l) :
    ((w.next op).store.db.view l.id).phase = (w.store.db.view l.id).phase := by
  have howned := hreach.owned
  obtain ⟨row, hrow, hroute, hstate, -⟩ := (hreach.held l hl).1
  have hend := (next_evolves hreach.keys op l.id).keeps
    (fun v => v.phase = (w.store.db.view l.id).phase ∧ ∃ row, v.row = some row ∧ row.state = .leased)
    ?_ ⟨rfl, row, hrow, hstate⟩
  · exact hend.1
  · rintro e v v' hperforms hstep ⟨hphase, row, hrow, hstate⟩
    have hfinish : ∀ outcome next due, e ≠ .finished outcome next due := by
      rintro outcome next due rfl
      exact howned.finishes_own hl hperforms hkept
    have hrecover : ∀ next, e ≠ .recovered next := by
      rintro next rfl
      have hfree := hperforms.2
      rw [howned.listed hl] at hfree
      cases hfree
    have hbegin : e ≠ .bodyMarked := by
      rintro rfl
      obtain ⟨serial, faults, lease, hop, hlease, hid⟩ := hperforms
      have hmem := lease?_mem hlease
      have hguard : lease.guard = l.guard :=
        howned.exclusive (live_lease hmem) (live_lease hl)
          ⟨lease, (howned.leases lease hmem).1, rfl, hid⟩ ⟨l, (howned.leases l hl).1, rfl, rfl⟩
      have hserial := serial_of_lease? hlease
      rw [hguard] at hserial
      exact hmark serial faults hop (hserial ▸ howned.lease?_eq hl)
    obtain ⟨row', hrow', -, hstate', -⟩ | ⟨outcome, next, due, rfl⟩ | ⟨next, rfl⟩ :=
      hstep.leased_or_ended hrow hstate
    · exact ⟨(hstep.phase_eq hrow hstate hbegin hfinish hrecover).trans hphase, row', hrow', hstate'⟩
    · exact absurd rfl (hfinish outcome next due)
    · exact absurd rfl (hrecover next)

/-- A lease starts in the phase `ready`. -/
theorem World.step_ready (hreach : w.Reachable) {leases : List QueueLease}
    (hreply : (w.step op).2 = .leases (.ok leases)) (hl : l ∈ leases) :
    ((w.next op).store.db.view l.id).phase = some .ready := by
  obtain ⟨policy, limit, keepLease, keepReader, input, rfl, hclaim⟩ := step_claims hreach hreply
  generalize hop : Op.queueClaim policy limit keepLease keepReader input = op at hclaim ⊢
  rcases hclaim.handsOut with rfl | ⟨ctx, swept, hswept, hout, -⟩
  · cases hl
  · obtain ⟨found, hfound, -, hgranted⟩ := hout.granted l hl
    obtain ⟨row, hrow, hroute, hstate, -, hgeneration⟩ := hout.leased l hl
    have hview : ((w.next op).store.db.view l.id).row = some row := hrow
    have hbefore : UnmarkedSince ((w.store.db.delivery? l.id).elim 0 Delivery.generation)
        (w.store.db.view l.id) := by
      intro old hold hlater
      have hold' : w.store.db.delivery? l.id = some old := hold
      rw [hold'] at hlater
      exact absurd hlater (lt_irrefl _)
    have hafter := (next_evolves hreach.keys op l.id).keeps (UnmarkedSince _) ?_ hbefore
    · have hreached : (w.store.db.delivery? l.id).elim 0 Delivery.generation ≤ found.generation := by
        cases hold : w.store.db.delivery? l.id with
        | none => exact Nat.zero_le _
        | some old =>
            obtain ⟨found', hfound', hle⟩ := (hop ▸ hswept).generation_le hreach.keys hold
            obtain rfl := Option.some.inj (hfound.symm.trans hfound')
            exact hle
      have hnew := hgranted.generation_eq
      have hbody := hafter row hview (by omega)
      have hphase := ((hreach.next op).view_wf l.id).relayRow hview hroute |>.leased_iff.1 hstate
      obtain ⟨phase, hphase⟩ := Option.isSome_iff_exists.1 hphase
      rw [hphase] at hbody ⊢
      cases phase with
      | ready => rfl
      | body => exact absurd rfl hbody
    · rintro e v v' hperforms hstep
      refine hstep.unmarkedSince ?_
      rintro rfl
      obtain ⟨serial, faults, lease, hmark, -⟩ := hperforms
      rw [← hop] at hmark
      cases hmark

end Phases

/-! ### The client -/

/-- What a result promises, given what became of `before_body`: nothing if it was not asked, and
otherwise what the client was told. -/
def QueueResult.Earned (leave : Option Bool) : QueueResult → Prop
  | .delivered code => leave = some true ∧ 200 ≤ code ∧ code < 300
  | .temporary code => 400 ≤ code ∧ code < 500
  | .permanent code => 500 ≤ code ∧ code < 600
  | .deferred => leave = none
  | .connectionLost | .hold => True

namespace Client

/-- What became of `before_body`. -/
def observeLeave (leave : Option Bool) : (question : Ask) → question.Answer → Option Bool
  | .beforeBody, granted => some granted
  | _, _ => leave

theorem observeLeave_eq {question : Ask} (h : question ≠ .beforeBody) (leave : Option Bool)
    (answer : question.Answer) : observeLeave leave question answer = leave := by
  cases question with
  | beforeBody => exact absurd rfl h
  | _ => rfl

/-- However the attempt ends, its result is earned. -/
abbrev Earning (attempt : Attempt) (leave : Option Bool) : Prop :=
  Always observeLeave (fun _ _ => True) (fun result leave => result.queued.Earned leave)
    (fun failure leave => (attemptResult (.error failure)).queued.Earned leave) attempt leave

/-- Once `before_body` has answered, no failure is called a setup failure. -/
def AfterLeave (granted : Bool) {α : Type} (talk : Talk Failure α) : Prop :=
  Always observeLeave (fun _ _ => True) (fun _ leave => leave = some granted)
    (fun failure leave => failure ≠ .setup ∧ leave = some granted) talk (some granted)

variable {granted : Bool} {α β : Type}

theorem AfterLeave.bind {talk : Talk Failure α} {next : α → Talk Failure β}
    (h : AfterLeave granted talk) (hnext : ∀ value, AfterLeave granted (next value)) :
    AfterLeave granted (talk >>= next) := by
  refine Always.then h ?_
  rintro value leave rfl
  exact hnext value

theorem AfterLeave.require {p : Prop} [Decidable p] {failure : Failure} (h : failure ≠ .setup) :
    AfterLeave granted (Dialogue.require p failure) :=
  Always.require (fun _ => rfl) fun _ => ⟨h, rfl⟩

theorem AfterLeave.lost {talk : Talk Unit α} (h : Preliminary talk) :
    AfterLeave granted (lost talk) := by
  refine Always.mapError ((Always.ignoring h (fun _ _ => trivial) ?_).imp ?_ ?_)
  · intro question hquestion answer
    refine observeLeave_eq ?_ _ answer
    rintro rfl
    cases hquestion
  · exact fun _ _ hsame => hsame
  · exact fun _ _ hsame => ⟨by simp, hsame⟩

theorem afterLeave_write (deadline : Deadline) (bytes : Text) :
    AfterLeave granted (lost (write deadline bytes)) :=
  Always.mapError (Always.insist trivial (fun _ _ => rfl) fun _ => ⟨by simp, rfl⟩)

theorem afterLeave_sendBody (message : Message) (rounds : Nat) (progress : BodyProgress) :
    AfterLeave granted (sendBody message rounds progress) := by
  induction rounds generalizing progress with
  | zero => exact ⟨by simp, rfl⟩
  | succ rounds ih =>
      refine ⟨trivial, ?_⟩
      intro answer
      match answer with
      | .elapsed => exact ⟨by simp, rfl⟩
      | .failed => exact ⟨by simp, rfl⟩
      | .bytes [] => exact AfterLeave.require (by simp)
      | .bytes (byte :: rest) =>
          refine AfterLeave.bind (.require (by simp)) fun _ => ?_
          refine AfterLeave.bind ?_ fun sent => (afterLeave_write _ _).bind fun _ => ih sent.1
          exact Always.found (fun _ _ => rfl) ⟨by simp, rfl⟩

theorem earning_rejected (code : Nat) (leave : Option Bool) : Earning (rejected code) leave := by
  unfold rejected
  split_ifs with htemporary hpermanent
  · exact ⟨htemporary.1, by omega⟩
  · exact ⟨hpermanent.1, by omega⟩
  · exact trivial

/-- A failure after `before_body` is a lost connection or a held message. -/
theorem AfterLeave.earning {talk : Talk Failure α} {next : α → Attempt}
    (h : AfterLeave granted talk) (hnext : ∀ value, Earning (next value) (some granted)) :
    Earning (talk >>= next) (some granted) := by
  refine Always.bind (h.imp ?_ ?_)
  · rintro value leave rfl
    exact hnext value
  · rintro failure leave ⟨hfailure, -⟩
    cases failure with
    | connection => exact trivial
    | setup => exact absurd rfl hfailure
    | content => exact trivial

theorem earning_transmit (message : Message) : Earning (transmit message) none := by
  refine Always.bind (Always.insist trivial ?_ fun _ => trivial)
  intro answer hgranted
  obtain rfl : answer = true := hgranted
  change Always _ _ _ _ _ (some true)
  refine AfterLeave.earning (afterLeave_sendBody message _ _) fun _ => ?_
  refine AfterLeave.earning (afterLeave_write .dataWrite terminator) fun _ => ?_
  refine AfterLeave.earning (.lost (preliminary_response .finalReply false)) fun reply => ?_
  by_cases hsuccess : success reply.code = true
  · rw [if_pos hsuccess]
    unfold success at hsuccess
    rw [decide_eq_true_eq] at hsuccess
    exact ⟨rfl, hsuccess⟩
  · rw [if_neg hsuccess]
    exact earning_rejected reply.code (some true)

/-- **Every result of an attempt is earned**, whatever the peer and the reader do. -/
theorem earning_tryAttempt (client : SmtpClient) (message : Message) :
    Earning (client.tryAttempt message) none := by
  refine tryAttempt_always client message (fun _ _ => trivial) ?_ ?_
    (fun code => earning_rejected code none) (earning_transmit message)
  · intro question hquestion answer
    refine observeLeave_eq ?_ none answer
    rintro rfl
    cases hquestion
  · intro failure
    cases failure with
    | connection => exact trivial
    | setup => exact rfl
    | content => exact trivial

end Client

/-! ### The task -/

/-- What became of `before_body` fits the phase of the lease and every result in sight. Once a call
may be left behind in the worker's queue, the client is past caring what becomes of it. -/
structure Execution.Apt (e : Execution) (leave : Option Bool) : Prop where
  ready : leave = none → (e.stage ≠ .gone ∨ e.orphans ≠ []) →
    (e.world.store.db.view e.lease.id).phase = some .ready
  marked : leave = some true → e.course.marked = true
  opening : e.stage = .opening → leave = none
  attempt : ∀ attempt renewing, e.stage = .attempting attempt renewing →
    Client.Earning attempt leave
  result : ∀ result, (e.stage = .concluded result ∨ e.stage = .finishing result) →
    result.Earned leave
  orphan : ∀ result, .finish result ∈ e.orphans → result.Earned leave
  unmarked : .markBody ∈ e.orphans → leave ≠ none

namespace Execution.Apt

variable {e : Execution} {leave : Option Bool}

/-- The store is used, and not to begin the body under this lease. -/
theorem withNext (h : e.Apt leave) (hsound : e.Sound) (op : Op)
    (hkept : (e.stage ≠ .gone ∨ e.orphans ≠ []) → e.lease ∈ (e.world.next op).leases)
    (hmark : leave = none → ∀ serial faults, op = .queueMarkBody serial faults →
      e.world.lease? serial ≠ some e.lease) :
    ({ e with world := e.world.next op } : Execution).Apt leave :=
  { h with
    ready := fun hnone hneeds => by
      have hsame := World.next_phase hsound.reachable (hsound.held hneeds) (hkept hneeds) (hmark hnone)
      exact hsame.trans (h.ready hnone hneeds) }

theorem withStage (h : e.Apt leave) (hhere : e.stage ≠ .gone) {stage : Stage}
    (hopening : stage ≠ .opening)
    (hattempt : ∀ attempt renewing, stage = .attempting attempt renewing →
      Client.Earning attempt leave)
    (hresult : ∀ result, (stage = .concluded result ∨ stage = .finishing result) →
      result.Earned leave) : ({ e with stage := stage } : Execution).Apt leave :=
  { h with
    ready := fun hnone _ => h.ready hnone (Or.inl hhere)
    opening := fun hstage => absurd hstage hopening
    attempt := hattempt
    result := hresult }

/-- `before_body` has answered, whatever the worker has done about it. -/
theorem withLeave (h : e.Apt leave) (hsound : e.Sound) {next : Bool → Attempt} {renewing : Bool}
    (hstage : e.stage = .attempting (.ask .beforeBody next) renewing) (w : World) (granted : Bool) :
    ({ e with
        world := w
        stage := .attempting (next granted) renewing
        course := e.course.observe .beforeBody granted } : Execution).Apt (some granted) where
  ready := fun hnone => by cases hnone
  marked := fun hgranted => by
    obtain rfl : granted = true := Option.some.inj hgranted
    simp [Client.Course.observe]
  opening := fun hopening => by cases hopening
  attempt := fun attempt _ hattempt => by
    cases hattempt
    exact (h.attempt _ _ hstage).2 granted
  result := fun result hresult => by rcases hresult with hresult | hresult <;> cases hresult
  orphan := fun result hmem => by
    have hgone := (hsound.orphan result hmem).1
    rw [hstage] at hgone
    cases hgone
  unmarked := fun _ => by simp

/-- The task gives up the attempt, and calls of its own may stay behind. -/
theorem abandoned (h : e.Apt leave) (hsound : e.Sound) (hhere : e.stage ≠ .gone) {stage : Stage}
    {calls : List TaskCall} (hopening : stage ≠ .opening)
    (hattempt : ∀ attempt renewing, stage ≠ .attempting attempt renewing)
    (hresult : ∀ result, (stage = .concluded result ∨ stage = .finishing result) →
      result = .connectionLost)
    (hcalls : ∀ result, .finish result ∉ calls) :
    ({ e with stage := stage, orphans := e.orphans ++ calls } : Execution).Apt
      (leave.or (some false)) where
  ready := fun hnone => by cases leave <;> cases hnone
  marked := fun hgranted => by
    cases leave with
    | none => cases hgranted
    | some granted => exact h.marked hgranted
  opening := fun hstage => absurd hstage hopening
  attempt := fun attempt renewing hstage => absurd hstage (hattempt attempt renewing)
  result := fun result hstage => by
    rw [hresult result hstage]
    exact trivial
  orphan := fun result hmem => by
    rcases List.mem_append.1 hmem with hold | hnew
    · exact absurd (hsound.orphan result hold).1 hhere
    · exact absurd hnew (hcalls result)
  unmarked := fun _ => by cases leave <;> simp

/-- The last call uses the lease up. -/
theorem finished (h : e.Apt leave) (w : World) :
    ({ e with world := w, stage := .gone, orphans := [] } : Execution).Apt leave where
  ready := fun _ hneeds => by simp at hneeds
  marked := h.marked
  opening := fun hopening => by cases hopening
  attempt := fun attempt renewing hattempt => by cases hattempt
  result := fun result hresult => by rcases hresult with hresult | hresult <;> cases hresult
  orphan := fun result hmem => by cases hmem
  unmarked := fun hmem => by cases hmem

/-- A call other than `queue_mark_body` and the last is answered. -/
theorem answered (h : e.Apt leave) (hsound : e.Sound) {call : TaskCall} {ok queued : Bool}
    (hmark : call ≠ .markBody) (hfinish : ∀ result, call ≠ .finish result) :
    ∃ leave', (e.answered call ok queued).Apt leave' := by
  unfold Execution.answered
  split
  · rename_i hstage
    refine ⟨leave, h.withStage (by simp [hstage]) ?_ ?_ ?_⟩
    · split_ifs <;> simp
    · intro attempt renewing heq
      split_ifs at heq
      cases heq
      rw [h.opening hstage]
      exact Client.earning_tryAttempt _ _
    · intro result heq
      split_ifs at heq
      · rcases heq with heq | heq <;> cases heq
      · rcases heq with heq | heq
        · cases heq
          exact trivial
        · cases heq
  · exact absurd rfl hmark
  · rename_i attempt hstage
    have hhere : e.stage ≠ .gone := by simp [hstage]
    by_cases hok : ok = true
    · rw [if_pos hok]
      refine ⟨leave, h.withStage hhere (by simp) ?_ (by simp)⟩
      rintro attempt' renewing ⟨⟩
      exact h.attempt _ _ hstage
    · rw [if_neg hok]
      refine ⟨_, h.abandoned hsound hhere (by simp) (by simp) ?_ ?_⟩
      · rintro result (⟨⟨⟩⟩ | ⟨⟨⟩⟩)
        rfl
      · intro result hmem
        split_ifs at hmem
        · exact Sound.finish_not_awaited attempt result hmem
        · cases hmem
  · exact absurd rfl (hfinish _)
  · exact ⟨leave, h⟩

theorem attempting_of_pending {stage : Stage} (h : .markBody ∈ stage.pending) :
    ∃ next renewing, stage = .attempting (.ask .beforeBody next) renewing := by
  cases stage with
  | attempting attempt renewing =>
      rcases List.mem_append.1 h with hmem | hmem
      · unfold awaitedCall at hmem
        split at hmem
        · exact ⟨_, renewing, rfl⟩
        · cases hmem
      · split_ifs at hmem <;> simp at hmem
  | opening => simp [Stage.pending] at h
  | concluded result => simp [Stage.pending] at h
  | finishing result => simp [Stage.pending] at h
  | gone => simp [Stage.pending] at h

/-- A call that is neither `queue_mark_body` nor the last leaves the lease and its phase alone. -/
theorem performed (h : e.Apt leave) (hsound : e.Sound) {call : TaskCall} (input : CallInput)
    (hmark : leave = none → call ≠ .markBody) (hfinish : ∀ result, call ≠ .finish result) :
    (e.performed call input).Apt leave := by
  refine h.withNext hsound _ (fun hneeds => World.call_keeps (hsound.held hneeds) hfinish) ?_
  intro hnone serial faults hop
  cases call with
  | markBody => exact absurd rfl (hmark hnone)
  | openBody => cases hop
  | renew => cases hop
  | finish result => cases hop

theorem performs (h : e.Apt leave) (hsound : e.Sound) {call : TaskCall}
    (hcall : call ∈ e.stage.pending) (input : CallInput) (heard queued : Bool) :
    ∃ leave', ((e.performed call input).answered call
      ((e.world.step (call.op e.serial input)).2.succeeded && heard) queued).Apt leave' := by
  generalize ((e.world.step (call.op e.serial input)).2.succeeded && heard) = ok
  by_cases hmark : call = .markBody
  · subst hmark
    obtain ⟨next, renewing, hstage⟩ := attempting_of_pending hcall
    have hgranted := h.withLeave hsound hstage (e.performed .markBody input).world ok
    refine ⟨some ok, ?_⟩
    unfold Execution.answered Execution.performed
    rw [hstage]
    exact hgranted
  · by_cases hfinish : ∃ result, call = .finish result
    · obtain ⟨result, rfl⟩ := hfinish
      have hstage := Sound.finishing_of_pending hcall
      have hdone := h.finished (e.world.next (TaskCall.op e.serial input (.finish result)))
      refine ⟨leave, ?_⟩
      unfold Execution.answered Execution.performed
      rw [hstage]
      rw [← hsound.alone result hstage] at hdone
      exact hdone
    · have hother : ∀ result, call ≠ .finish result := fun result heq => hfinish ⟨result, heq⟩
      have hsound' : (e.performed call input).Sound :=
        hsound.withNext _ fun hneeds => World.call_keeps (hsound.held hneeds) hother
      exact (h.performed hsound input (fun _ => hmark) hother).answered hsound' hmark hother

theorem refuses (h : e.Apt leave) (hsound : e.Sound) {call : TaskCall}
    (hcall : call ∈ e.stage.pending) (queued : Bool) :
    ∃ leave', (e.answered call false queued).Apt leave' := by
  by_cases hmark : call = .markBody
  · subst hmark
    obtain ⟨next, renewing, hstage⟩ := attempting_of_pending hcall
    have hrefused := h.withLeave hsound hstage e.world false
    refine ⟨some false, ?_⟩
    unfold Execution.answered
    rw [hstage]
    exact hrefused
  · by_cases hfinish : ∃ result, call = .finish result
    · obtain ⟨result, rfl⟩ := hfinish
      have hstage := Sound.finishing_of_pending hcall
      have hdone := h.finished e.world
      refine ⟨leave, ?_⟩
      unfold Execution.answered
      rw [hstage]
      rw [← hsound.alone result hstage] at hdone
      exact hdone
    · exact h.answered hsound hmark fun result heq => hfinish ⟨result, heq⟩

theorem aborted (h : e.Apt leave) (hsound : e.Sound) (queued : Bool) :
    ∃ leave', ({ e with
      stage := .gone
      orphans := e.orphans ++ if queued then e.stage.pending else [] } : Execution).Apt leave' := by
  by_cases hfinishing : ∃ result, e.stage = .finishing result
  · obtain ⟨result, hstage⟩ := hfinishing
    have hcalls : ∀ call ∈ e.orphans ++ (if queued then e.stage.pending else []),
        call = .finish result := by
      intro call hmem
      rw [hsound.alone result hstage, hstage, List.nil_append] at hmem
      split_ifs at hmem
      · exact List.mem_singleton.1 hmem
      · cases hmem
    refine ⟨leave, { h with
      ready := fun hnone _ => h.ready hnone (Or.inl (by simp [hstage]))
      opening := fun hopening => by cases hopening
      attempt := fun attempt renewing hattempt => by cases hattempt
      result := fun result hresult => by rcases hresult with hresult | hresult <;> cases hresult
      orphan := fun result' hmem => ?_
      unmarked := fun hmem => ?_ }⟩
    · obtain rfl : result' = result := TaskCall.finish.inj (hcalls _ hmem)
      exact h.result _ (Or.inr hstage)
    · cases hcalls _ hmem
  · by_cases hgone : e.stage = .gone
    · have hsame : e.orphans ++ (if queued then e.stage.pending else []) = e.orphans := by
        rw [hgone]
        cases queued <;> simp [Stage.pending]
      rw [hsame, ← hgone]
      exact ⟨leave, h⟩
    · refine ⟨_, h.abandoned hsound hgone (by simp) (by simp) (by simp) ?_⟩
      intro result hmem
      split_ifs at hmem
      · exact hfinishing ⟨result, Sound.finishing_of_pending hmem⟩
      · cases hmem

theorem performsOrphan (h : e.Apt leave) (hsound : e.Sound) {call : TaskCall}
    (hcall : call ∈ e.orphans) (input : CallInput) :
    ({ e.performed call input with orphans := e.orphans.erase call } : Execution).Apt leave := by
  by_cases hfinish : ∃ result, call = .finish result
  · obtain ⟨result, rfl⟩ := hfinish
    obtain ⟨hgone, horphans, -⟩ := hsound.orphan result hcall
    have hdone := h.finished (e.world.next (TaskCall.op e.serial input (.finish result)))
    have herase : e.orphans.erase (.finish result) = [] := by
      rw [horphans]
      simp
    rw [herase]
    rw [← hgone] at hdone
    exact hdone
  · have hother : ∀ result, call ≠ .finish result := fun result heq => hfinish ⟨result, heq⟩
    have hneeds : e.stage ≠ .gone ∨ e.orphans ≠ [] := Or.inr (List.ne_nil_of_mem hcall)
    have hnext : (e.performed call input).Apt leave := by
      refine h.performed hsound input ?_ hother
      rintro hnone rfl
      exact h.unmarked hcall hnone
    exact
      { hnext with
        ready := fun hnone _ => hnext.ready hnone hneeds
        orphan := fun result hmem => h.orphan result (List.mem_of_mem_erase hmem)
        unmarked := fun hmem => h.unmarked (List.mem_of_mem_erase hmem) }

theorem step (h : e.Apt leave) (hsound : e.Sound) (happening : Happening) :
    ∃ leave', (e.step happening).Apt leave' := by
  cases happening with
  | perform call input heard queued =>
      unfold Execution.step
      dsimp only
      split_ifs with hcall
      · exact h.performs hsound hcall input heard queued
      · exact ⟨leave, h⟩
  | refuse call queued =>
      unfold Execution.step
      dsimp only
      split_ifs with hcall
      · exact h.refuses hsound hcall queued
      · exact ⟨leave, h⟩
  | wire answer =>
      unfold Execution.step
      dsimp only
      split
      · exact ⟨leave, h⟩
      · rename_i question next hquestion hstage
        have hother : question ≠ .beforeBody := by
          rintro rfl
          exact hquestion next rfl HEq.rfl
        have hnext := (h.attempt _ _ hstage).2 (answer question)
        rw [Client.observeLeave_eq hother] at hnext
        have hhere : e.stage ≠ .gone := by simp [hstage]
        have hmoved := @withStage e leave h hhere (.attempting (next (answer question)) false)
          (by simp) (by rintro attempt renewing ⟨⟩; exact hnext) (by simp)
        refine ⟨leave, { hmoved with marked := fun hgranted => ?_ }⟩
        rw [Sound.observe_marked _ _ _ hother]
        exact h.marked hgranted
      · exact ⟨leave, h⟩
  | tick =>
      unfold Execution.step
      dsimp only
      split
      · rename_i attempt renewing hstage
        refine ⟨leave, h.withStage (by simp [hstage]) (by simp) ?_ (by simp)⟩
        rintro attempt' renewing' ⟨⟩
        exact h.attempt _ _ hstage
      · exact ⟨leave, h⟩
  | conclude =>
      unfold Execution.step
      dsimp only
      split
      · rename_i result hstage
        refine ⟨leave, h.withStage (by simp [hstage]) (by simp) (by simp) ?_⟩
        rintro queued (⟨⟨⟩⟩ | ⟨⟨⟩⟩)
        exact h.attempt _ _ hstage
      · rename_i failure hstage
        refine ⟨leave, h.withStage (by simp [hstage]) (by simp) (by simp) ?_⟩
        rintro queued (⟨⟨⟩⟩ | ⟨⟨⟩⟩)
        exact h.attempt _ _ hstage
      · exact ⟨leave, h⟩
  | unwrap sole =>
      unfold Execution.step
      dsimp only
      split
      · rename_i result hstage
        refine ⟨leave, h.withStage (by simp [hstage]) ?_ ?_ ?_⟩
        · split_ifs <;> simp
        · intro attempt renewing heq
          split_ifs at heq
        · intro result' heq
          split_ifs at heq
          · rcases heq with heq | heq
            · cases heq
            · cases heq
              exact h.result result (Or.inl hstage)
          · rcases heq with heq | heq <;> cases heq
      · exact ⟨leave, h⟩
  | abort queued => exact h.aborted hsound queued
  | performOrphan call input =>
      unfold Execution.step
      dsimp only
      split_ifs with hcall
      · exact ⟨leave, h.performsOrphan hsound hcall input⟩
      · exact ⟨leave, h⟩
  | dropOrphans =>
      refine ⟨leave, { h with
        ready := fun hnone hneeds => ?_
        orphan := fun result hmem => by cases hmem
        unmarked := fun hmem => by cases hmem }⟩
      exact h.ready hnone (Or.inl (hneeds.resolve_right fun hnone => hnone rfl))
  | release =>
      unfold Execution.step
      dsimp only
      split
      · rename_i hgone hempty
        have hdone := h.finished (e.world.next (.dropLease e.serial))
        rw [← hgone, ← hempty] at hdone
        exact ⟨leave, hdone⟩
      · exact ⟨leave, h⟩
  | crash => exact ⟨leave, h.finished _⟩
  | other op =>
      unfold Execution.step
      dsimp only
      split_ifs with hforeign
      · refine ⟨leave, h.withNext hsound op
          (fun hneeds => World.foreign_keeps hforeign (hsound.lease?_eq hneeds)) ?_⟩
        rintro - serial faults rfl hlease
        have hother : serial ≠ e.serial := by simpa [Op.foreign] using hforeign
        exact hother (World.serial_of_lease? hlease).symm
      · exact ⟨leave, h⟩

end Execution.Apt

/-- From the claim on, a task under the lease is sound and apt. -/
theorem Execution.run_apt {w : World} (hreach : w.Reachable) {claim : Op} {leases : List QueueLease}
    (hclaimed : (w.step claim).2 = .leases (.ok leases)) {lease : QueueLease} (hlease : lease ∈ leases)
    (client : Client.SmtpClient) (happenings : List Happening) :
    ((start client (w.next claim) lease).run happenings).Sound
      ∧ ((start client (w.next claim) lease).run happenings).lease = lease
      ∧ ∃ leave, ((start client (w.next claim) lease).run happenings).Apt leave := by
  obtain ⟨policy, limit, keepLease, keepReader, input, -, hclaim⟩ :=
    World.step_claims hreach hclaimed
  have hheld : lease ∈ (w.next claim).leases := by
    rw [hclaim.leases_eq]
    exact List.mem_append_right _ hlease
  have hstart : (start client (w.next claim) lease).Apt none :=
    { ready := fun _ _ => World.step_ready hreach hclaimed hlease
      marked := by simp
      opening := fun _ => rfl
      attempt := by simp [start]
      result := by simp [start]
      orphan := by simp [start]
      unmarked := by simp [start] }
  refine Runs.invariant
    (fun e : Execution => e.Sound ∧ e.lease = lease ∧ ∃ leave, e.Apt leave)
    ⟨Sound.start (hreach.next claim) client hheld, rfl, none, hstart⟩ ?_ happenings
  rintro e happening ⟨hsound, hsame, leave, hapt⟩
  exact ⟨hsound.step happening, (step_lease happening).trans hsame, hapt.step hsound happening⟩

/-! ### The queue's side -/

section Finish

variable {s : Store} {lease : QueueLease} {phase : Phase} {result : QueueResult}

theorem World.held_phase {w : World} (hreach : w.Reachable) (hheld : lease ∈ w.leases) :
    ∃ phase, (w.store.db.view lease.id).phase = some phase
      ∧ checkLease w.store.db lease w.store.lock = .ok phase := by
  obtain ⟨⟨row, hrow, hroute, hstate, htoken, hgeneration⟩, hlock⟩ := hreach.held lease hheld
  have hview : (w.store.db.view lease.id).row = some row := hrow
  have hsome := ((hreach.view_wf lease.id).relayRow hview hroute).leased_iff.1 hstate
  obtain ⟨phase, hphase⟩ := Option.isSome_iff_exists.1 hsome
  obtain ⟨queued, hqueued, hsame⟩ := Option.map_eq_some_iff.1 hphase
  exact ⟨phase, hphase, checkLease_eq_ok.2 ⟨hlock.symm, row, queued, hrow, hqueued,
    ⟨hroute, hstate, htoken, hgeneration⟩, hsame⟩⟩

theorem finishTx_of_fits (hcheck : checkLease s.db lease s.lock = .ok phase) (hfits : result.Fits phase)
    (now due : Int) : ∃ db, finishTx lease s.lock result now due s.db = .ok (db, ()) := by
  obtain ⟨-, row, queued, hrow, -⟩ := checkLease_eq_ok.1 hcheck
  obtain ⟨recorded, hrecorded⟩ := hfits.classify
  refine ⟨(s.db.updateDelivery lease.id (Delivery.finish (settle row.possiblyDelivered recorded)
    result.reason (saturatingAdd now lease.retryMs) due)).deleteQueueLease lease.id, ?_⟩
  unfold finishTx
  rw [hcheck, bind_ok, hrow, found_some, bind_ok, hrecorded, bind_ok]
  rfl

theorem now_error {queue queue' : QueueRuntime} {reading : Reading} {e : StoreError}
    (h : queue.now reading = (queue', .error e)) :
    e = .clockChanged ∨ reading.nowMs = .error e := by
  unfold QueueRuntime.now at h
  cases hnow : reading.nowMs with
  | error e' =>
      rw [hnow] at h
      cases h
      exact Or.inr rfl
  | ok wall =>
      rw [hnow] at h
      dsimp only at h
      split_ifs at h
      · cases h
        exact Or.inl rfl
      · cases h

/-- A result that fits is refused as invalid only when the clock cannot be read. -/
theorem queueFinish_invalid (hcheck : checkLease s.db lease s.lock = .ok phase)
    (hfits : result.Fits phase) {reading guardReading : Reading} {faults : Faults}
    (hinvalid : (queueFinish s lease result reading guardReading faults).2 = .error .invalidInput) :
    reading.nowMs = .error .invalidInput ∨ guardReading.nowMs = .error .invalidInput := by
  unfold queueFinish at hinvalid
  cases hnow : reading.nowMs with
  | error e =>
      rw [hnow] at hinvalid
      exact Or.inl (congrArg Except.error (Except.error.inj hinvalid))
  | ok now =>
      rw [hnow] at hinvalid
      dsimp only at hinvalid
      cases hguard : s.queue.now guardReading with
      | mk queue guarded =>
          rw [hguard] at hinvalid
          cases hdue : notificationDue queue now guarded with
          | error e =>
              rw [hdue] at hinvalid
              cases hinvalid
              right
              unfold notificationDue at hdue
              split at hdue
              · cases hdue
              · subst hdue
                exact (now_error hguard).resolve_left (by simp)
          | ok due =>
              rw [hdue] at hinvalid
              obtain ⟨db, hrecorded⟩ := finishTx_of_fits hcheck hfits now due
              dsimp only at hinvalid
              unfold Store.transaction at hinvalid
              dsimp only at hinvalid
              rw [hrecorded] at hinvalid
              dsimp only at hinvalid
              unfold Store.commit at hinvalid
              split_ifs at hinvalid
              · cases hinvalid
              · split at hinvalid <;> cases hinvalid
              · split at hinvalid <;> cases hinvalid

end Finish

/-- **The client and the queue agree on results.** A result that a task has for its lease fits the
phase the lease is then in, so that only an unreadable clock makes the queue call it invalid. -/
theorem results_well_classified (client : Client.SmtpClient) (w : World) (hreach : w.Reachable)
    (claim : Op) (leases : List QueueLease) (hclaimed : (w.step claim).2 = .leases (.ok leases))
    (lease : QueueLease) (hlease : lease ∈ leases) (happenings : List Happening) (e : Execution)
    (he : e = (Execution.start client (w.next claim) lease).run happenings) (result : QueueResult)
    (hresult : .finish result ∈ e.stage.pending ++ e.orphans) :
    ∃ phase, checkLease e.world.store.db lease e.world.store.lock = .ok phase ∧ result.Fits phase
      ∧ (∃ recorded, result.classify phase = .ok recorded)
      ∧ ∀ input,
        (e.world.step ((TaskCall.finish result).op e.serial input)).2
            = .unit (.error .invalidInput) →
          input.reading.nowMs = .error .invalidInput
            ∨ input.guardReading.nowMs = .error .invalidInput := by
  obtain ⟨hsound, hsame, leave, hapt⟩ :=
    Execution.run_apt hreach hclaimed hlease client happenings
  rw [← he] at hsound hsame hapt
  subst hsame
  have hneeds : e.stage ≠ .gone ∨ e.orphans ≠ [] := by
    rcases List.mem_append.1 hresult with hpending | horphan
    · exact Or.inl (by simp [Execution.Sound.finishing_of_pending hpending])
    · exact Or.inr (List.ne_nil_of_mem horphan)
  have hearned : result.Earned leave := by
    rcases List.mem_append.1 hresult with hpending | horphan
    · exact hapt.result result (Or.inr (Execution.Sound.finishing_of_pending hpending))
    · exact hapt.orphan result horphan
  obtain ⟨phase, hphase, hcheck⟩ := World.held_phase hsound.reachable (hsound.held hneeds)
  have hfits : result.Fits phase := by
    cases result with
    | delivered code =>
        obtain ⟨hleave, hcode⟩ := hearned
        obtain ⟨row, hrow, -, hbody⟩ := hsound.marked (hapt.marked hleave)
        obtain ⟨-, row', queued, hrow', -, ⟨-, hstate, -, hgeneration⟩, -⟩ :=
          checkLease_eq_ok.1 hcheck
        obtain rfl : row = row' := Option.some.inj (hrow.symm.trans hrow')
        have hmarked := hbody hgeneration hstate
        rw [hphase] at hmarked
        exact ⟨Option.some.inj hmarked, hcode⟩
    | deferred =>
        have hready := hapt.ready hearned hneeds
        rw [hphase] at hready
        exact Option.some.inj hready
    | temporary code => exact hearned
    | permanent code => exact hearned
    | connectionLost => exact trivial
    | hold => exact trivial
  refine ⟨phase, hcheck, hfits, hfits.classify, ?_⟩
  intro input hinvalid
  have hcall : e.world.callWith e.serial (fun lease s =>
      queueFinish s lease result input.reading input.guardReading input.faults)
      = e.world.call fun s =>
        queueFinish s e.lease result input.reading input.guardReading input.faults := by
    unfold World.callWith
    rw [hsound.lease?_eq hneeds]
  change Reply.unit (e.world.callWith _ _).2 = _ at hinvalid
  rw [hcall] at hinvalid
  have hreply := Reply.unit.inj hinvalid
  by_cases hopen : e.world.opened = true
  · rw [World.call_opened hopen] at hreply
    exact queueFinish_invalid hcheck hfits hreply
  · rw [World.call_closed hopen] at hreply
    cases hreply

/-- The peer takes the message and says so. -/
def Sample.taken : List Happening :=
  [.perform .openBody callInput true false, writes, reads "220 h", writes, reads "250 h", writes,
    reads "250 h", writes, reads "250 h", writes, reads "354 h",
    .perform .markBody callInput true false, .wire (obliging [] (ascii "a" ++ crlf ++ crlf)), writes,
    .wire (obliging [] []), writes, reads "250 h", .conclude, .unwrap true]

def Sample.told : Execution := (Execution.start client claimed lease).run taken

/-- The delivery is to be recorded, in a phase that it fits. -/
theorem results_well_classified_delivered :
    TaskCall.finish (.delivered 250) ∈ Sample.told.stage.pending
      ∧ ∃ phase, checkLease Sample.told.world.store.db Sample.lease Sample.told.world.store.lock
          = .ok phase ∧ QueueResult.Fits phase (.delivered 250) := by
  have hpending : TaskCall.finish (.delivered 250) ∈ Sample.told.stage.pending := by decide
  obtain ⟨phase, hcheck, hfits, -⟩ := results_well_classified Sample.client
    (Sample.fresh.run [Sample.enqueue]) (Sample.reachable _) Sample.claim [Sample.lease] rfl
    Sample.lease List.mem_cons_self Sample.taken Sample.told rfl (.delivered 250)
    (List.mem_append_left _ hpending)
  exact ⟨hpending, phase, hcheck, hfits⟩

/-- The same delivery under a live lease, but the clock shows a time before 1970. -/
theorem results_well_classified_no_clock :
    TaskCall.finish (.delivered 250) ∈ Sample.told.stage.pending
      ∧ checkLease Sample.told.world.store.db Sample.lease Sample.told.world.store.lock = .ok .body
      ∧ (Sample.told.world.step ((TaskCall.finish (.delivered 250)).op Sample.told.serial
        ⟨.ok (), ⟨none, 0⟩, Sample.reading, {}⟩)).2 = .unit (.error .invalidInput) := by
  refine ⟨by decide, ?_, ?_⟩
  · rfl
  · rfl

end Rustymail
