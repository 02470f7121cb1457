import Rustymail.Lifecycle

namespace Rustymail

namespace Lifecycle

variable {e : LifeEvent} {v v' : View} {allowed : LifeEvent → Prop}

theorem Evolves.refl (v : View) : Evolves allowed v v := Relation.ReflTransGen.refl

theorem Evolves.single (hallowed : allowed e) (hstep : Step e v v') : Evolves allowed v v' :=
  Relation.ReflTransGen.single ⟨e, hallowed, hstep⟩

theorem Evolves.trans {v'' : View} (hfirst : Evolves allowed v v') (hsecond : Evolves allowed v' v'') :
    Evolves allowed v v'' := Relation.ReflTransGen.trans hfirst hsecond

theorem Evolves.mono {allowed' : LifeEvent → Prop} (h : Evolves allowed v v')
    (hallowed : ∀ e, allowed e → allowed' e) : Evolves allowed' v v' := by
  refine Relation.ReflTransGen.mono ?_ _ _ h
  rintro v v' ⟨e, he, hstep⟩
  exact ⟨e, hallowed e he, hstep⟩

/-- What every allowed event keeps, the whole evolution keeps. -/
theorem Evolves.keeps (fact : View → Prop) (h : Evolves allowed v v')
    (hstep : ∀ e v v', allowed e → Step e v v' → fact v → fact v') (hfact : fact v) : fact v' := by
  induction h with
  | refl => exact hfact
  | tail _ hlast ih =>
      obtain ⟨e, hallowed, hlast⟩ := hlast
      exact hstep e _ _ hallowed hlast ih

/-- A result stored by `queue_finish`, after an earlier unknown outcome has had its say. -/
theorem classify_state {outcome : QueueResult} {phase : Phase}
    {result : DeliveryState × Option Nat × String} (h : outcome.classify phase = .ok result) :
    (result.1 = .delivered ∧ phase = .body ∧ ∃ code, outcome = .delivered code ∧ 200 ≤ code ∧ code < 300)
      ∨ (result.1 = .deferred ∧ ((∃ code, outcome = .temporary code ∧ 400 ≤ code ∧ code < 500)
          ∨ (phase = .ready ∧ (outcome = .connectionLost ∨ outcome = .deferred))))
      ∨ (result.1 = .failed ∧ ∃ code, outcome = .permanent code ∧ 500 ≤ code ∧ code < 600)
      ∨ (result.1 = .uncertain ∧ phase = .body ∧ outcome = .connectionLost)
      ∨ (result.1 = .hold ∧ outcome = .hold) := by
  cases outcome <;> cases phase <;> simp only [QueueResult.classify] at h <;>
    first
    | cases h; simp
    | (split_ifs at h with hcode; cases h; simp [hcode])
    | cases h

theorem settle_state (wasUnknown : Bool) (result : DeliveryState × Option Nat × String) :
    (settle wasUnknown result).1 =
      if wasUnknown = true ∧ result.1 ≠ .delivered then .uncertain else result.1 := by
  unfold settle
  split_ifs <;> rfl

theorem settle_ne_leased {outcome : QueueResult} {phase : Phase}
    {result : DeliveryState × Option Nat × String} (h : outcome.classify phase = .ok result)
    (wasUnknown : Bool) :
    (settle wasUnknown result).1 ≠ .leased ∧ (settle wasUnknown result).1 ≠ .pending := by
  rw [settle_state]
  have hstate := classify_state h
  constructor <;> split_ifs <;> grind

end Lifecycle

open Lifecycle

theorem View.Wf.init (events : List AdminEvent) : View.Wf ⟨none, none, none, events⟩ where
  absent := fun _ => ⟨rfl, rfl⟩
  route := by simp
  relay := by simp
  localMail := by simp

/-- A delivery that is on the relay route stays well formed if its new row does. -/
theorem View.Wf.of_relay {v : View} {row : Delivery} (hrow : v.row = some row)
    (hroute : row.route = .relay) (hwf : row.RelayWf v.phase v.report.isSome) : v.Wf where
  absent := by simp [hrow]
  route := by simp [hrow, hroute]
  relay := by
    intro other hother _
    rw [hrow, Option.mem_some_iff] at hother
    exact hother ▸ hwf
  localMail := by simp [hrow, hroute]

theorem View.Wf.relayRow {v : View} {row : Delivery} (h : v.Wf) (hrow : v.row = some row)
    (hroute : row.route = .relay) : row.RelayWf v.phase v.report.isSome :=
  h.relay row hrow hroute

/-- What is not delivered on the spot goes through the relay. -/
theorem View.Wf.relay_of_ne {v : View} {row : Delivery} (h : v.Wf) (hrow : v.row = some row)
    (hstate : row.state ≠ .delivered) : row.route = .relay := by
  cases hroute : row.route with
  | relay => rfl
  | direct => exact absurd hroute (h.route row hrow)
  | localMail => exact absurd (h.localMail row hrow hroute).state_eq hstate

section Rows

variable {row : Delivery} {phase : Option Phase} {reported : Bool}

theorem Delivery.RelayWf.ready (h : row.RelayWf phase reported) (hready : row.Ready) :
    phase = none ∧ row.leaseToken = none ∧ row.leaseUntilMs = none ∧ row.closedAtMs = none
      ∧ row.notificationState = .pending := by
  have hstate : row.state ≠ .leased ∧ row.state ≠ .uncertain ∧ row.state ≠ .failed := by
    rcases hready with h | h <;> simp [h]
  have htoken := h.token_none hstate.1
  refine ⟨?_, htoken, ?_, ?_, ?_⟩
  · cases phase with
    | none => rfl
    | some _ => exact absurd (h.leased_iff.2 rfl) hstate.1
  · have := h.until_iff
    rw [htoken] at this
    simpa using this
  · by_contra hclosed
    exact hstate.2.1 (h.closed_unknown hclosed).1
  · by_contra hsettled
    exact hstate.2.2 (h.settled_failed hsettled)

theorem Delivery.RelayWf.lease (h : row.RelayWf phase reported) (hready : row.Ready) (token : Uuid)
    (deadline : Int) : (row.lease token.text deadline).RelayWf (some .ready) reported := by
  obtain ⟨-, -, -, hclosed, hpending⟩ := h.ready hready
  have hcreated := h.created_iff
  constructor <;> simp_all [Delivery.lease, Uuid.length]

theorem Delivery.RelayWf.exhaust (h : row.RelayWf phase reported) (hready : row.Ready) :
    row.exhaust.RelayWf phase reported := by
  obtain ⟨hphase, htoken, huntil, hclosed, hpending⟩ := h.ready hready
  have hcreated := h.created_iff
  constructor <;> simp_all [Delivery.exhaust]

theorem Delivery.RelayWf.expire (h : row.RelayWf phase reported) (hready : row.Ready) (now : Int) :
    (row.expire now).RelayWf phase reported := by
  obtain ⟨hphase, htoken, huntil, hclosed, hpending⟩ := h.ready hready
  have hcreated := h.created_iff
  cases hunknown : row.possiblyDelivered <;>
    constructor <;> simp_all [Delivery.expire]

theorem Delivery.RelayWf.leased (h : row.RelayWf phase reported) (hstate : row.state = .leased) :
    row.closedAtMs = none ∧ row.notificationState = .pending ∧ reported = false := by
  have hpending : row.notificationState = .pending := by
    by_contra hsettled
    simpa [hstate] using h.settled_failed hsettled
  refine ⟨?_, hpending, ?_⟩
  · by_contra hclosed
    simpa [hstate] using (h.closed_unknown hclosed).1
  · have hcreated := h.created_iff
    simpa [hpending] using hcreated

theorem Delivery.RelayWf.extend (h : row.RelayWf phase reported) (deadline : Int) :
    (row.extend deadline).RelayWf phase reported := by
  have huntil := h.until_iff
  constructor
  case until_iff => simpa [Delivery.extend] using huntil
  case leased_iff => exact h.leased_iff
  case token_iff => exact h.token_iff
  case token_none => exact h.token_none
  case uncertain_flag => exact h.uncertain_flag
  case certain_flag => exact h.certain_flag
  case closed_unknown => exact h.closed_unknown
  case created_iff => exact h.created_iff
  case settled_failed => exact h.settled_failed

theorem Delivery.RelayWf.markBody (h : row.RelayWf phase reported) (hphase : phase.isSome) :
    row.RelayWf (some .body) reported where
  leased_iff := by simpa [hphase] using h.leased_iff
  token_iff := h.token_iff
  token_none := h.token_none
  until_iff := h.until_iff
  uncertain_flag := h.uncertain_flag
  certain_flag := h.certain_flag
  closed_unknown := h.closed_unknown
  created_iff := h.created_iff
  settled_failed := h.settled_failed

theorem Delivery.RelayWf.finish (h : row.RelayWf phase reported) (hstate : row.state = .leased)
    {outcome : QueueResult} {reached : Phase} {result : DeliveryState × Option Nat × String}
    (hresult : outcome.classify reached = .ok result) (reason : Option LifecycleReason)
    (next due : Int) :
    (row.finish (settle row.possiblyDelivered result) reason next due).RelayWf none reported := by
  obtain ⟨hclosed, hpending, hreported⟩ := h.leased hstate
  have hsettled := (settle_ne_leased hresult row.possiblyDelivered).1
  constructor <;> simp_all [Delivery.finish]
  rintro (hdeferred | hfailed)
  · simp [hdeferred]
  · simp [hfailed]

theorem Delivery.RelayWf.recover (h : row.RelayWf phase reported) (hstate : row.state = .leased)
    (unknown : Bool) (next : Int) : (row.recover unknown next).RelayWf none reported := by
  obtain ⟨hclosed, hpending, hreported⟩ := h.leased hstate
  cases unknown <;> constructor <;> simp_all [Delivery.recover]

theorem Delivery.RelayWf.unleased (h : row.RelayWf phase reported) (hstate : row.state ≠ .leased) :
    phase = none ∧ row.leaseToken = none ∧ row.leaseUntilMs = none := by
  have htoken := h.token_none hstate
  refine ⟨?_, htoken, ?_⟩
  · cases phase with
    | none => rfl
    | some _ => exact absurd (h.leased_iff.2 rfl) hstate
  · have huntil := h.until_iff
    rw [htoken] at huntil
    simpa using huntil

/-- Administrators act on deliveries that are neither in flight nor finished. -/
theorem Delivery.RelayWf.idle (h : row.RelayWf phase reported)
    (hstate : row.state ∈ [DeliveryState.pending, .deferred, .uncertain, .hold]) :
    phase = none ∧ row.leaseToken = none ∧ row.leaseUntilMs = none
      ∧ row.notificationState = .pending ∧ reported = false := by
  have hidle : row.state ≠ .leased ∧ row.state ≠ .failed := by
    simp only [List.mem_cons, List.not_mem_nil, or_false] at hstate
    rcases hstate with h | h | h | h <;> simp [h]
  have hpending : row.notificationState = .pending := by
    by_contra hsettled
    exact hidle.2 (h.settled_failed hsettled)
  obtain ⟨hphase, htoken, huntil⟩ := h.unleased hidle.1
  refine ⟨hphase, htoken, huntil, hpending, ?_⟩
  have hcreated := h.created_iff
  simpa [hpending] using hcreated

theorem Delivery.RelayWf.holdManually (h : row.RelayWf phase reported)
    (hopen : row.closedAtMs = none)
    (hstate : row.state ∈ [DeliveryState.pending, .deferred, .uncertain, .hold]) :
    row.holdManually.RelayWf phase reported := by
  obtain ⟨hphase, htoken, huntil, hpending, hreported⟩ := h.idle hstate
  clear hstate
  constructor <;> simp_all [Delivery.holdManually]

theorem Delivery.RelayWf.retry (h : row.RelayWf phase reported) {allow extend : Bool} {now : Int}
    (hretry : row.Retryable allow extend now) (expires : Int) :
    (row.retry now expires).RelayWf phase reported := by
  have hstate : row.state ∈ [DeliveryState.pending, .deferred, .uncertain, .hold] :=
    List.mem_cons_of_mem _ hretry.1
  obtain ⟨hphase, htoken, huntil, hpending, hreported⟩ := h.idle hstate
  have hopen := hretry.2.1
  clear hstate hretry
  constructor <;> simp_all [Delivery.retry]

theorem Delivery.RelayWf.closeUnknown (h : row.RelayWf phase reported)
    (hstate : row.state = .uncertain ∨ row.state = .hold) (hunknown : row.possiblyDelivered = true)
    (now : Int) : (row.closeUnknown now).RelayWf phase reported := by
  have hidle : row.state ∈ [DeliveryState.pending, .deferred, .uncertain, .hold] := by
    rcases hstate with h | h <;> simp [h]
  obtain ⟨hphase, htoken, huntil, hpending, hreported⟩ := h.idle hidle
  clear hidle hstate
  constructor <;> simp_all [Delivery.closeUnknown]

theorem Delivery.RelayWf.failed (h : row.RelayWf phase reported) (hstate : row.state = .failed) :
    phase = none ∧ row.leaseToken = none ∧ row.leaseUntilMs = none
      ∧ row.possiblyDelivered = false ∧ row.closedAtMs = none := by
  obtain ⟨hphase, htoken, huntil⟩ := h.unleased (by simp [hstate])
  refine ⟨hphase, htoken, huntil, h.certain_flag (Or.inr hstate), ?_⟩
  by_contra hclosed
  simpa [hstate] using (h.closed_unknown hclosed).1

theorem Delivery.RelayWf.suppress (h : row.RelayWf phase reported) (hstate : row.state = .failed)
    (hpending : row.notificationState = .pending) (reason : String) :
    (row.suppress reason).RelayWf phase reported := by
  obtain ⟨hphase, htoken, huntil, hcertain, hclosed⟩ := h.failed hstate
  have hcreated := h.created_iff
  constructor <;> simp_all [Delivery.suppress]

theorem Delivery.RelayWf.reportCreated (h : row.RelayWf phase reported)
    (hstate : row.state = .failed) : row.reportCreated.RelayWf phase true := by
  obtain ⟨hphase, htoken, huntil, hcertain, hclosed⟩ := h.failed hstate
  constructor <;> simp_all [Delivery.reportCreated]

theorem Delivery.RelayWf.postponeReport (h : row.RelayWf phase reported) (reason : String)
    (due : Int) : (row.postponeReport reason due).RelayWf phase reported := by
  unfold Delivery.postponeReport
  split_ifs with hdue
  · obtain ⟨hphase, htoken, huntil, hcertain, hclosed⟩ := h.failed hdue.1
    have hcreated := h.created_iff
    have hpending := hdue.2
    constructor <;> simp_all
  · exact h

theorem Delivery.LocalWf.postponeReport (h : row.LocalWf phase reported) (reason : String)
    (due : Int) : row.postponeReport reason due = row := by
  unfold Delivery.postponeReport
  rw [if_neg]
  simp [h.state_eq]

end Rows

theorem Delivery.Fresh.relayWf {row : Delivery} (h : row.Fresh) (hroute : row.route = .relay) :
    row.RelayWf none false := by
  cases h with
  | delivered => simp [localDelivery] at hroute
  | pending => constructor <;> simp [relayDelivery]

theorem Delivery.Fresh.localWf {row : Delivery} (h : row.Fresh) (hroute : row.route = .localMail) :
    row.LocalWf none false := by
  cases h with
  | delivered => constructor <;> simp [localDelivery]
  | pending => simp [relayDelivery] at hroute

theorem Delivery.Fresh.route_ne {row : Delivery} (h : row.Fresh) : row.route ≠ .direct := by
  cases h <;> simp [localDelivery, relayDelivery]

/-- Every event keeps the representation invariant. -/
theorem Lifecycle.Step.wf {e : LifeEvent} {v v' : View} (hstep : Step e v v') (hwf : v.Wf) :
    v'.Wf := by
  cases hstep with
  | created hrow hnew =>
      obtain ⟨hphase, hreport⟩ := hwf.absent hnew
      constructor
      · simp
      · simpa using hrow.route_ne
      · simpa [hphase, hreport] using hrow.relayWf
      · simpa [hphase, hreport] using hrow.localWf
  | leased hrow hroute hready hphase =>
      exact .of_relay rfl hroute ((hwf.relayRow hrow hroute).lease hready _ _)
  | exhausted hrow hroute hready =>
      exact .of_relay rfl hroute ((hwf.relayRow hrow hroute).exhaust hready)
  | renewed hrow hroute hstate =>
      exact .of_relay rfl hroute ((hwf.relayRow hrow hroute).extend _)
  | bodyMarked hrow hroute hstate hphase =>
      exact .of_relay hrow hroute ((hwf.relayRow hrow hroute).markBody (by simp [hphase]))
  | finished hrow hroute hstate hphase hresult =>
      exact .of_relay rfl hroute ((hwf.relayRow hrow hroute).finish hstate hresult _ _ _)
  | recovered hrow hroute hstate hphase =>
      exact .of_relay rfl hroute ((hwf.relayRow hrow hroute).recover hstate _ _)
  | expired hrow hroute hready =>
      exact .of_relay rfl hroute ((hwf.relayRow hrow hroute).expire hready _)
  | held hrow hroute hopen hstate =>
      exact .of_relay rfl hroute ((hwf.relayRow hrow hroute).holdManually hopen hstate)
  | retried hrow hroute hretry haction hconsent hnew =>
      exact .of_relay rfl hroute ((hwf.relayRow hrow hroute).retry hretry _)
  | closed hrow hroute hstate hunknown hopen =>
      exact .of_relay rfl hroute ((hwf.relayRow hrow hroute).closeUnknown hstate hunknown _)
  | suppressed hrow hroute hstate hpending =>
      refine .of_relay rfl ?_ ((hwf.relayRow hrow hroute).suppress hstate hpending _)
      simpa [Delivery.suppress, hpending] using hroute
  | @postponed reason due row v hrow =>
      have hsame : (row.postponeReport reason due).route = row.route := by
        unfold Delivery.postponeReport
        split_ifs <;> rfl
      constructor
      · simp
      · simpa [hsame] using hwf.route row hrow
      · simpa [hsame] using fun hroute => (hwf.relayRow hrow hroute).postponeReport reason due
      · intro other hother hroute
        rw [Option.mem_some_iff] at hother
        subst hother
        rw [hsame] at hroute
        have hlocal := hwf.localMail row hrow hroute
        rw [hlocal.postponeReport]
        exact hlocal
  | reported hrow hroute hstate hcertain hpending hnone =>
      exact .of_relay rfl hroute ((hwf.relayRow hrow hroute).reportCreated hstate)

end Rustymail
