import Rustymail.Proof.OperationFlow

/-!
# Whose message is accepted

A session has at most one request in the worker's channel, and that one carries the envelope with
which its DATA began. So the answer a session hears is about the rows of that envelope.
-/

namespace Rustymail

/-- A message that is there, and for whom it has deliveries. -/
structure Db.Addressed (db : Db) (id : Text) (locals remotes : List Text) : Prop where
  present : ∃ m ∈ db.messages, m.id = id
  mailed : recordedRecipients db id (· == .localMail) = locals
  relayed : recordedRecipients db id (· == .relay) = remotes

section Addressed

variable {w : World} {op : Op} {db db' : Db} {id : Text} {locals remotes : List Text} {a : Added}

/-- The recorded recipients depend on the identities of the deliveries only. -/
theorem recordedRecipients_eq (db : Db) (id : Text) (onRoute : Route → Bool) :
    recordedRecipients db id onRoute
      = btreeSet (((db.deliveries.map Delivery.identity).filter
        fun t => decide (t.2.1 = id) && onRoute t.2.2.2).map fun t => t.2.2.1) := by
  unfold recordedRecipients
  rw [List.filter_map, List.map_map]
  rfl

theorem SameRefs.addressed (hsame : SameRefs db db') (h : db.Addressed id locals remotes) :
    db'.Addressed id locals remotes := by
  have hold : ∀ onRoute : Route → Bool, recordedRecipients db' id onRoute
      = recordedRecipients db id onRoute := by
    intro onRoute
    rw [recordedRecipients_eq, hsame.deliveries]
    exact (recordedRecipients_eq db id onRoute).symm
  refine ⟨?_, (hold _).trans h.mailed, (hold _).trans h.relayed⟩
  rw [hsame.messages]
  exact h.present

/-- Another message brings deliveries of its own. -/
theorem Adds.addressed (hadds : Adds db db' a) (ha : a.Wf) (h : db.Addressed id locals remotes) :
    db'.Addressed id locals remotes := by
  obtain ⟨m, hm, hid⟩ := h.present
  have hother : a.message.id ≠ id := by
    intro heq
    have hnone := Keyed.lookup_none_iff.1 hadds.message_fresh m hm
    exact hnone (hid.trans heq.symm)
  have hnew : ∀ onRoute : Route → Bool, recordedRecipients db' id onRoute
      = recordedRecipients db id onRoute := by
    intro onRoute
    rw [recordedRecipients_eq, recordedRecipients_eq, hadds.deliveries, List.map_append,
      List.filter_append]
    have hnil : ((a.mailed ++ a.relayed).map Delivery.identity).filter
        (fun t => decide (t.2.1 = id) && onRoute t.2.2.2) = [] := by
      rw [List.filter_eq_nil_iff]
      intro t ht
      obtain ⟨d, hd, rfl⟩ := List.mem_map.1 ht
      have hmessage : d.messageId = a.message.id := by
        rcases List.mem_append.1 hd with hmailed | hrelayed
        · exact (ha.mailed d hmailed).1
        · exact (ha.relayed d hrelayed).1
      have hne : (Delivery.identity d).2.1 ≠ id := fun heq => hother (hmessage.symm.trans heq)
      simp [hne]
    rw [hnil, List.append_nil]
  refine ⟨⟨m, ?_, hid⟩, (hnew _).trans h.mailed, (hnew _).trans h.relayed⟩
  rw [hadds.messages]
  exact List.mem_append_left _ hm

/-- Nothing that happens later changes for whom a message is. -/
theorem World.next_addressed (h : w.store.db.Addressed id locals remotes) (op : Op) :
    (w.next op).store.db.Addressed id locals remotes := by
  have hcommits := w.next_commits op
  revert hcommits
  generalize (w.next op).store.db = db'
  intro hcommits
  induction hcommits with
  | refl => exact h
  | tail _ hlast ih =>
      rcases hlast.cases_adds with hsame | ⟨a, ha, -, hadds⟩
      · exact hsame.addressed ih
      · exact hadds.addressed ha ih

theorem Db.Holds.addressed {operationId : Text} {fingerprint : Fingerprint}
    (h : db.Holds operationId fingerprint id) :
    db.Addressed id fingerprint.localSet fingerprint.remoteSet := by
  obtain ⟨message, hmem, blob, rfl, -, -, rfl⟩ := h
  exact ⟨⟨message, hmem, rfl⟩, rfl, rfl⟩

end Addressed

namespace Server

variable {w : World} {request : AcceptRequest} {input : WorkInput}

theorem AcceptRequest.perform_addressed (hreach : w.Reachable) {accepted : AcceptedMessage}
    (h : (request.perform input w).2 = .ok accepted) :
    (request.perform input w).1.store.db.Addressed accepted.messageId (localKeys request.plan)
      (remoteKeys request.relay) := by
  rcases request.perform_cases input w with hrefused | ⟨-, hsubmission, hcall⟩
  · rw [hrefused] at h
    cases h
  rw [hcall] at h ⊢
  by_cases hopen : w.opened = true
  · rw [World.call_opened hopen] at h ⊢
    have honce : AcceptsOnce w.store
        ⟨input.ids, request.message, request.plan, request.identity, request.relay⟩ input.reading
        (acceptInner w.store input.ids request.message request.plan request.identity request.relay
          input.reading input.faults) :=
      acceptInner_once hreach _ hsubmission
    obtain ⟨id, replayed⟩ := accepted
    cases replayed with
    | true =>
        have hholds := ((honce.replayed_iff id).1 h).2
        rw [← honce.replayed id h] at hholds
        exact hholds.addressed
    | false => exact (honce.accepted id h).2.addressed
  · rw [World.call_closed hopen] at h
    cases h

theorem AcceptRequest.perform_keeps {id : Text} {locals remotes : List Text}
    (h : w.store.db.Addressed id locals remotes) :
    (request.perform input w).1.store.db.Addressed id locals remotes := by
  rcases request.perform_cases input w with hrefused | ⟨⟨op, -, hnext⟩, -, -⟩
  · rw [hrefused]
    exact h
  · rw [hnext]
    exact World.next_addressed h op

/-! ### The channel -/

/-- The request was built from an envelope with which the session's DATA began. -/
def AcceptRequest.Asks (config : Config) (n : Nat) (begun : Option Principal → Envelope → Prop)
    (request : AcceptRequest) : Prop :=
  ∃ principal envelope operation message identity, begun principal envelope
    ∧ request = acceptRequest config n operation envelope message identity
    ∧ identity.isSome = principal.isSome

/-- The request of a session, if this is one. -/
def Request.of? (n : Nat) : Request → Option AcceptRequest
  | .call _ => none
  | .accept request => if request.reply.session = n then some request else none

/-- The requests of a session in the channel. -/
def pending (queue : List Request) (n : Nat) : List AcceptRequest := queue.filterMap (Request.of? n)

theorem pending_append (queue : List Request) (request : Request) (n : Nat) :
    pending (queue ++ [request]) n = pending queue n ++ (Request.of? n request).toList := by
  unfold pending
  rw [List.filterMap_append, List.filterMap_cons, List.filterMap_nil]
  cases Request.of? n request with
  | none => rfl
  | some request => rfl

/-- A live session has a request in the channel only while it waits for the answer, and the answer
is about that request. -/
def Phase.Booked (config : Config) (n : Nat) (begun : Option Principal → Envelope → Prop) (db : Db)
    (pending : List AcceptRequest) : Phase → Prop
  | .receiving _ principal envelope => pending = [] ∧ begun principal envelope
  | .dispatching request => pending = [] ∧ request.Asks config n begun
  | .waiting operation .awaited => ∃ request, pending = [request]
      ∧ request.reply.operation = operation ∧ request.Asks config n begun
  | .waiting _ (.answered (.ok accepted)) => pending = [] ∧ ∃ request : AcceptRequest,
      request.Asks config n begun
        ∧ db.Addressed accepted.messageId (localKeys request.plan) (remoteKeys request.relay)
  | .closed => True
  | _ => pending = []

/-- Every session is booked for what its DATA began with. -/
structure Service.Booked (begun : Nat → Option Principal → Envelope → Prop) (s : Service) : Prop where
  reachable : s.world.Reachable
  phases : ∀ n, (s.sessions n).Booked s.config n (begun n) s.world.store.db (pending s.queue n)

namespace Phase

variable {config : Config} {n : Nat} {begun : Option Principal → Envelope → Prop} {db db' : Db}
variable {pending : List AcceptRequest} {p : Phase}

theorem connect_booked (h : p.Booked config n begun db pending) :
    p.connect.1.Booked config n begun db pending := by
  cases p with
  | _ => exact h

theorem revoked_booked (h : p.Booked config n begun db pending) :
    p.revoked.1.Booked config n begun db pending := by
  cases p with
  | receiving operation principal envelope =>
      unfold revoked
      dsimp only
      split_ifs
      · trivial
      · exact h
  | _ => exact h

theorem submissionIdentity_isSome {principal : Option Principal} {author : Option Address}
    {identity : Option SubmissionIdentity} (h : submissionIdentity principal author = some identity) :
    identity.isSome = principal.isSome := by
  cases principal with
  | none =>
      cases author with
      | none =>
          cases h
          rfl
      | some author => cases h
  | some principal =>
      cases author with
      | none => cases h
      | some author =>
          cases h
          rfl

/-- The envelope goes into the request as it is. -/
theorem received_booked (result : Received) (h : p.Booked config n begun db pending) :
    (p.received config n result).1.Booked config n begun db pending := by
  cases p with
  | receiving operation principal envelope =>
      obtain ⟨hpending, hbegun⟩ := h
      unfold received
      cases result with
      | elapsed => trivial
      | finished result =>
          cases result with
          | error e => trivial
          | ok received =>
              obtain ⟨message, author⟩ := received
              dsimp only
              cases hidentity : submissionIdentity principal author with
              | none => trivial
              | some identity =>
                  exact ⟨hpending, principal, envelope, operation, message, identity, hbegun, rfl,
                    submissionIdentity_isSome hidentity⟩
  | _ => exact h

theorem concluded_booked (wrote : Bool) (result : Except StoreError AcceptedMessage)
    (hpending : pending = []) : (concluded wrote result).1.Booked config n begun db pending := by
  have hreplied : ∀ written, (replied wrote written).1.Booked config n begun db pending := by
    intro written
    cases wrote with
    | false => trivial
    | true => exact hpending
  cases result with
  | ok accepted => exact hreplied _
  | error e =>
      unfold concluded
      dsimp only
      cases acceptReply e with
      | none => trivial
      | some reply => exact hreplied _

theorem unsent_booked (wrote : Bool) (h : p.Booked config n begun db pending) :
    (p.unsent wrote).1.Booked config n begun db pending := by
  cases p with
  | dispatching request => exact concluded_booked wrote _ h.1
  | _ => exact h

theorem elapse_booked (h : p.Booked config n begun db pending) :
    p.elapse.1.Booked config n begun db pending := by
  cases p with
  | dispatching request => trivial
  | waiting operation fate => trivial
  | _ => exact h

theorem hear_booked (wrote : Bool) (h : p.Booked config n begun db pending) :
    (p.hear wrote).1.Booked config n begun db pending := by
  cases p with
  | waiting operation fate =>
      cases fate with
      | awaited => exact h
      | dropped => exact concluded_booked wrote _ h
      | answered result =>
          refine concluded_booked wrote result ?_
          cases result with
          | ok accepted => exact h.1
          | error e => exact h
  | _ => exact h

theorem abort_booked (h : p.Booked config n begun db pending) :
    p.abort.1.Booked config n begun db pending := by
  cases p with
  | absent => exact h
  | _ => trivial

/-- A session that waits for nothing in the channel does not care about it. -/
theorem Booked.emptied (h : p.Booked config n begun db pending)
    (hawaited : ∀ operation, p ≠ .waiting operation .awaited) : p.Booked config n begun db [] := by
  cases p with
  | waiting operation fate =>
      cases fate with
      | awaited => exact absurd rfl (hawaited operation)
      | dropped => rfl
      | answered result =>
          cases result with
          | ok accepted => exact ⟨rfl, h.2⟩
          | error e => rfl
  | receiving operation principal envelope => exact ⟨rfl, h.2⟩
  | dispatching request => exact ⟨rfl, h.2⟩
  | closed => trivial
  | absent => rfl
  | idle => rfl

theorem orphan_booked (h : p.Booked config n begun db pending) :
    p.orphan.Booked config n begun db [] := by
  by_cases hawaited : ∃ operation, p = .waiting operation .awaited
  · obtain ⟨operation, rfl⟩ := hawaited
    rfl
  · have heq : p.orphan = p := by
      cases p with
      | waiting operation fate =>
          cases fate with
          | awaited => exact absurd ⟨operation, rfl⟩ hawaited
          | _ => rfl
      | _ => rfl
    rw [heq]
    exact h.emptied fun operation hp => hawaited ⟨operation, hp⟩

/-- The answer to the only request of a session. -/
theorem answer_booked {request : AcceptRequest} {rest : List Request}
    {result : Except StoreError AcceptedMessage}
    (h : p.Booked config request.reply.session begun db
      (Server.pending (.accept request :: rest) request.reply.session))
    (hresult : ∀ accepted, result = .ok accepted →
      db.Addressed accepted.messageId (localKeys request.plan) (remoteKeys request.relay)) :
    (p.answer request.reply result).Booked config request.reply.session begun db
      (Server.pending rest request.reply.session) := by
  have hhead : Server.pending (.accept request :: rest) request.reply.session
      = request :: Server.pending rest request.reply.session := by
    unfold Server.pending
    rw [List.filterMap_cons, Request.of?, if_pos rfl]
  rw [hhead] at h
  cases p with
  | waiting operation fate =>
      cases fate with
      | awaited =>
          obtain ⟨other, hother, rfl, hasks⟩ := h
          rw [List.cons.injEq] at hother
          obtain ⟨rfl, hrest⟩ := hother
          unfold answer
          dsimp only
          rw [if_pos rfl, hrest]
          cases result with
          | ok accepted => exact ⟨rfl, request, hasks, hresult accepted rfl⟩
          | error e => rfl
      | dropped => cases h
      | answered result =>
          cases result with
          | ok accepted => cases h.1
          | error e => cases h
  | receiving operation principal envelope => cases h.1
  | dispatching request => cases h.1
  | closed => trivial
  | absent => cases h
  | idle => cases h

/-- What a session between transactions is booked for does not matter. -/
theorem Booked.rebook {begun' : Option Principal → Envelope → Prop}
    (h : p.Booked config n begun db pending)
    (hbegun : p ≠ .absent → p ≠ .idle →
      ∀ principal envelope, begun principal envelope → begun' principal envelope) :
    p.Booked config n begun' db pending := by
  have hasks : ∀ request : AcceptRequest, p ≠ .absent → p ≠ .idle →
      request.Asks config n begun → request.Asks config n begun' := by
    rintro request habsent hidle ⟨principal, envelope, operation, message, identity, hold, hrest⟩
    exact ⟨principal, envelope, operation, message, identity, hbegun habsent hidle _ _ hold, hrest⟩
  cases p with
  | receiving operation principal envelope =>
      exact ⟨h.1, hbegun (by simp) (by simp) _ _ h.2⟩
  | dispatching request => exact ⟨h.1, hasks request (by simp) (by simp) h.2⟩
  | waiting operation fate =>
      cases fate with
      | awaited =>
          obtain ⟨request, hpending, hoperation, hold⟩ := h
          exact ⟨request, hpending, hoperation, hasks request (by simp) (by simp) hold⟩
      | dropped => exact h
      | answered result =>
          cases result with
          | ok accepted =>
              obtain ⟨hpending, request, hold, haddressed⟩ := h
              exact ⟨hpending, request, hasks request (by simp) (by simp) hold, haddressed⟩
          | error e => exact h
  | _ => exact h

/-- The store may go on. -/
theorem Booked.store (h : p.Booked config n begun db pending)
    (hstore : ∀ id locals remotes, db.Addressed id locals remotes → db'.Addressed id locals remotes) :
    p.Booked config n begun db' pending := by
  cases p with
  | waiting operation fate =>
      cases fate with
      | answered result =>
          cases result with
          | ok accepted =>
              obtain ⟨hpending, request, hasks, haddressed⟩ := h
              exact ⟨hpending, request, hasks, hstore _ _ _ haddressed⟩
          | error e => exact h
      | _ => exact h
  | _ => exact h

end Phase

namespace Service

variable {begun : Nat → Option Principal → Envelope → Prop} {s : Service}

theorem turn_booked (h : s.Booked begun) (n : Nat) (turn : Phase → Turn)
    (hturn : (turn (s.sessions n)).1.Booked s.config n (begun n) s.world.store.db (pending s.queue n)) :
    (s.turn n turn).1.Booked begun := by
  refine ⟨h.reachable, ?_⟩
  exact (Function.forall_update_iff s.sessions fun m p =>
    p.Booked s.config m (begun m) s.world.store.db (pending s.queue m)).2 ⟨hturn, fun m _ => h.phases m⟩

theorem next_store_booked (h : s.Booked begun) (op : Op) :
    Service.Booked begun { s with world := s.world.next op } :=
  ⟨h.reachable.next op, fun n => (h.phases n).store fun _ _ _ haddressed =>
    World.next_addressed haddressed op⟩

theorem die_booked (h : s.Booked begun) : s.die.Booked begun := by
  refine ⟨h.reachable.next .close, fun n => ?_⟩
  refine (Phase.orphan_booked (h.phases n)).store fun _ _ _ haddressed => ?_
  exact World.next_addressed haddressed .close

theorem crash_booked (h : s.Booked begun) : s.crash.Booked begun := by
  refine ⟨h.reachable.next .crash, fun n => ?_⟩
  change ((s.sessions n).abort.1).Booked s.config n (begun n) _ []
  cases s.sessions n with
  | absent => rfl
  | _ => trivial

theorem call_booked (h : s.Booked begun) (op : Op) : (s.call op).Booked begun := by
  unfold call
  split_ifs
  · refine ⟨h.reachable, fun n => ?_⟩
    change (s.sessions n).Booked s.config n (begun n) s.world.store.db
      (pending (s.queue ++ [.call op]) n)
    rw [pending_append, Request.of?, Option.toList_none, List.append_nil]
    exact h.phases n
  · exact h

/-- A session hands its request over, and waits. -/
theorem send_booked (h : s.Booked begun) (n : Nat) (wrote : Bool) :
    (s.send n wrote).1.Booked begun := by
  unfold send
  by_cases hopen : s.world.opened = false
  · rw [if_pos hopen]
    exact turn_booked h n _ (Phase.unsent_booked wrote (h.phases n))
  rw [if_neg hopen]
  cases hphase : s.sessions n with
  | dispatching request =>
      dsimp only
      split_ifs
      · have hbooked := h.phases n
        rw [hphase] at hbooked
        obtain ⟨hpending, hasks⟩ := hbooked
        have hsession : request.reply.session = n := by
          obtain ⟨_, _, _, _, _, -, rfl, -⟩ := hasks
          rfl
        refine ⟨h.reachable, fun m => ?_⟩
        change (Function.update s.sessions n (.waiting request.reply.operation .awaited) m).Booked
          s.config m (begun m) s.world.store.db (pending (s.queue ++ [.accept request]) m)
        rw [pending_append]
        by_cases hm : m = n
        · subst hm
          rw [Function.update_self]
          refine ⟨request, ?_, rfl, hasks⟩
          rw [hpending, Request.of?, if_pos hsession]
          rfl
        · rw [Function.update_of_ne hm, Request.of?, if_neg (fun heq => hm (heq.symm.trans hsession)),
            Option.toList_none, List.append_nil]
          exact h.phases m
      · exact h
  | _ => exact h

/-- The worker performs an acceptance, and its session hears of that one. -/
theorem performed_booked (h : s.Booked begun) {request : AcceptRequest} {rest : List Request}
    (hqueue : s.queue = .accept request :: rest) (input : WorkInput) (dies : Bool) :
    (s.performed rest request (request.perform input s.world) dies).Booked begun := by
  have hreach : (request.perform input s.world).1.Reachable :=
    (AcceptRequest.perform_performed h.reachable).reachable
  have hstore : ∀ n, (s.sessions n).Booked s.config n (begun n)
      (request.perform input s.world).1.store.db (pending s.queue n) :=
    fun n => (h.phases n).store fun _ _ _ => AcceptRequest.perform_keeps
  unfold performed
  cases dies with
  | true =>
      refine ⟨hreach.next .close, fun n => ?_⟩
      refine (Phase.orphan_booked (hstore n)).store fun _ _ _ haddressed => ?_
      exact World.next_addressed haddressed .close
  | false =>
      refine ⟨hreach, ?_⟩
      refine (Function.forall_update_iff s.sessions fun n p => p.Booked s.config n (begun n)
        (request.perform input s.world).1.store.db (pending rest n)).2 ⟨?_, fun n hn => ?_⟩
      · refine Phase.answer_booked (hqueue ▸ hstore request.reply.session) ?_
        exact fun accepted hok => AcceptRequest.perform_addressed h.reachable hok
      · have hphase := hstore n
        rw [hqueue, pending, List.filterMap_cons, Request.of?, if_neg hn.symm] at hphase
        exact hphase

theorem work_booked (h : s.Booked begun) (input : WorkInput) (dies : Bool) :
    (s.work input dies).Booked begun := by
  unfold work
  by_cases hopen : s.world.opened = false
  · rw [if_pos hopen]
    exact h
  rw [if_neg hopen]
  cases hqueue : s.queue with
  | nil => exact h
  | cons request rest =>
      cases request with
      | call op =>
          have hcalled : Service.Booked begun
              { s with world := s.world.next op, queue := rest } := by
            refine ⟨h.reachable.next op, fun n => ?_⟩
            have hphase := (next_store_booked h op).phases n
            rw [hqueue] at hphase
            exact hphase
          dsimp only
          cases dies with
          | false => exact hcalled
          | true => exact die_booked hcalled
      | accept request => exact performed_booked h hqueue input dies

/-- Every step but the start of a transaction keeps the bookings. -/
theorem next_booked (h : s.Booked begun) (action : Action)
    (hbegins : ∀ n input, action ≠ .beginData n input) : (s.next action).Booked begun := by
  cases action with
  | beginData n input => exact absurd rfl (hbegins n input)
  | connect n => exact turn_booked h n _ (Phase.connect_booked (h.phases n))
  | revoked n => exact turn_booked h n _ (Phase.revoked_booked (h.phases n))
  | received n result => exact turn_booked h n _ (Phase.received_booked result (h.phases n))
  | send n wrote => exact send_booked h n wrote
  | elapse n => exact turn_booked h n _ (Phase.elapse_booked (h.phases n))
  | hear n wrote => exact turn_booked h n _ (Phase.hear_booked wrote (h.phases n))
  | abort n => exact turn_booked h n _ (Phase.abort_booked (h.phases n))
  | call op => exact call_booked h op
  | release op =>
      change Service.Booked begun (if op.drops then _ else _)
      split_ifs
      · exact next_store_booked h op
      · exact h
  | work input dies => exact work_booked h input dies
  | die => exact die_booked h
  | crash => exact crash_booked h
  | restart maxMessageBytes => exact next_store_booked (crash_booked h) (.reopen maxMessageBytes)

/-- A transaction begins with an envelope that is booked for its session. -/
theorem beginData_booked (h : s.Booked begun) (n : Nat) (input : BeginInput)
    (hbegun : begun n input.principal input.envelope) :
    (s.next (.beginData n input)).Booked begun := by
  refine turn_booked h n _ ?_
  have hphase := h.phases n
  cases hidle : s.sessions n with
  | idle =>
      rw [hidle] at hphase
      unfold Phase.beginData replied
      dsimp only
      split_ifs
      · exact hphase
      · trivial
      · exact hphase
      · trivial
      · trivial
      · exact ⟨hphase, hbegun⟩
      · trivial
  | _ =>
      rw [hidle] at hphase
      exact hphase

/-- What a session between transactions is booked for does not matter. -/
theorem Booked.rebook {begun' : Nat → Option Principal → Envelope → Prop} (h : s.Booked begun)
    (hbegun : ∀ n, s.sessions n ≠ .absent → s.sessions n ≠ .idle →
      ∀ principal envelope, begun n principal envelope → begun' n principal envelope) :
    s.Booked begun' :=
  ⟨h.reachable, fun n => (h.phases n).rebook (hbegun n)⟩

end Service

end Server

end Rustymail
