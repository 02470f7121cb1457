import Rustymail.Proof.OperationIds
import Rustymail.Server.Data

/-!
# What a step of the service can do

Besides starting a transaction, a step of the service is a chain of moves: sessions fall back, the
store performs an operation under no operation id, the worker takes a request from its channel, or a
request enters it. The invariants below only look at moves.
-/

namespace Rustymail.Server

/-- The operation id a session may still bring to the worker. -/
def Phase.pledge? : Phase → Option Text
  | .receiving operation _ _ => some operation.text
  | .dispatching request => some request.plan.operationId
  | _ => none

/-- The session is in this transaction, and knows that no message came of it so far. -/
def Phase.Clear (operation : Uuid) : Phase → Prop
  | .receiving u _ _ => u = operation
  | .dispatching request => request.reply.operation = operation
  | .waiting u (.answered (.error e)) => u = operation ∧ e ≠ .outcomeUnknown
  | _ => False

def Phase.Formed : Phase → Prop
  | .dispatching request => request.plan.operationId = request.reply.operation.text
  | _ => True

/-- The second phase promises nothing that the first did not. -/
structure Phase.Falls (p p' : Phase) : Prop where
  operation : ∀ u, p'.operation? = some u → p.operation? = some u
  pledge : ∀ key, p'.pledge? = some key → p.pledge? = some key
  clear : ∀ u, p'.Clear u → p.Clear u
  accepted : ∀ u a, p' = .waiting u (.answered (.ok a)) → p = .waiting u (.answered (.ok a))
  formed : p.Formed → p'.Formed

namespace Phase

variable {p : Phase}

theorem Falls.refl (p : Phase) : p.Falls p :=
  ⟨fun _ h => h, fun _ h => h, fun _ h => h, fun _ _ h => h, fun h => h⟩

/-- Outside a transaction there is nothing to promise. -/
theorem Falls.of_none {p' : Phase} (h : p'.operation? = none) : p.Falls p' := by
  cases p' with
  | receiving => cases h
  | dispatching => cases h
  | waiting => cases h
  | absent | idle | closed =>
      refine ⟨fun _ h => (by cases h), fun _ h => (by cases h), fun _ h => h.elim,
        fun _ _ h => (by cases h), fun _ => trivial⟩

theorem Clear.operation {u : Uuid} (h : p.Clear u) : p.operation? = some u := by
  cases p with
  | receiving operation principal envelope => exact congrArg some h
  | dispatching request => exact congrArg some h
  | waiting operation fate =>
      cases fate with
      | answered result =>
          cases result with
          | error e => exact congrArg some h.1
          | ok accepted => exact h.elim
      | _ => exact h.elim
  | _ => exact h.elim

theorem replied_none (wrote : Bool) (written : Written) :
    (replied wrote written).1.operation? = none := by
  cases wrote with
  | true => rfl
  | false => rfl

theorem concluded_none (wrote : Bool) (result : Except StoreError AcceptedMessage) :
    (concluded wrote result).1.operation? = none := by
  cases result with
  | ok accepted => exact replied_none _ _
  | error e =>
      unfold concluded
      dsimp only
      cases acceptReply e with
      | none => rfl
      | some reply => exact replied_none _ _

theorem connect_falls : p.Falls p.connect.1 := by
  cases p with
  | absent => exact .of_none rfl
  | _ => exact .refl _

theorem beginData_cases (input : BeginInput) :
    (p = .idle ∧ (input.permit = true ∧ input.staged = true)
        ∧ (p.beginData input).1 = .receiving input.operation input.principal input.envelope)
      ∨ p.Falls (p.beginData input).1 := by
  cases p with
  | idle =>
      unfold beginData
      dsimp only
      split_ifs with hpermit hstaged hprefixed hwrote
      · exact Or.inr (.of_none (replied_none _ _))
      · exact Or.inr (.of_none (replied_none _ _))
      · exact Or.inr (.of_none rfl)
      · exact Or.inl ⟨rfl, ⟨by simpa using hpermit, by simpa using hstaged⟩, rfl⟩
      · exact Or.inr (.of_none rfl)
  | _ => exact Or.inr (.refl _)

theorem revoked_falls : p.Falls p.revoked.1 := by
  cases p with
  | receiving operation principal envelope =>
      unfold revoked
      dsimp only
      split_ifs
      · exact .of_none rfl
      · exact .refl _
  | _ => exact .refl _

theorem received_falls (config : Config) (session : Nat) (result : Received) :
    p.Falls (p.received config session result).1 := by
  cases p with
  | receiving operation principal envelope =>
      cases result with
      | elapsed => exact .of_none rfl
      | finished result =>
          cases result with
          | error error => exact .of_none rfl
          | ok received =>
              obtain ⟨message, author⟩ := received
              unfold received
              dsimp only
              cases submissionIdentity principal author with
              | none => exact .of_none rfl
              | some identity =>
                  exact ⟨fun _ h => h, fun _ h => h, fun _ h => h, fun _ _ h => (by cases h),
                    fun _ => rfl⟩
  | _ => exact .refl _

theorem unsent_falls (wrote : Bool) : p.Falls (p.unsent wrote).1 := by
  cases p with
  | dispatching request => exact .of_none (concluded_none _ _)
  | _ => exact .refl _

theorem elapse_falls : p.Falls p.elapse.1 := by
  cases p with
  | dispatching request => exact .of_none rfl
  | waiting operation fate => exact .of_none rfl
  | _ => exact .refl _

theorem hear_falls (wrote : Bool) : p.Falls (p.hear wrote).1 := by
  cases p with
  | waiting operation fate =>
      cases fate with
      | awaited => exact .refl _
      | answered result => exact .of_none (concluded_none _ _)
      | dropped => exact .of_none (concluded_none _ _)
  | _ => exact .refl _

theorem abort_falls : p.Falls p.abort.1 := by
  cases p with
  | _ => exact .of_none rfl

theorem orphan_falls : p.Falls p.orphan := by
  cases p with
  | waiting operation fate =>
      cases fate with
      | awaited =>
          exact ⟨fun _ h => h, fun _ h => (by cases h), fun _ h => h.elim, fun _ _ h => (by cases h),
            fun _ => trivial⟩
      | _ => exact .refl _
  | _ => exact .refl _

/-- What a session in a transaction may write, and how it may stop. -/
structure Honest (p : Phase) (turn : Turn) : Prop where
  reply : ∀ reply u, turn.2 = some (.reply reply) → p.operation? = some u →
    (400 ≤ reply.code ∧ reply.code < 600) ∧ p.Clear u ∧ turn.1.operation? = none
  accepted : ∀ m u, turn.2 = some (.accepted m) → p.operation? = some u →
    ∃ accepted, p = .waiting u (.answered (.ok accepted)) ∧ accepted.messageId = m
  silent : ∀ u, turn.2 = none → p.operation? = some u → turn.1.operation? = some u ∨ turn.1 = .closed

theorem Honest.of_none {turn : Turn} (h : p.operation? = none) : p.Honest turn := by
  constructor
  · intro reply u _ hu
    rw [h] at hu
    cases hu
  · intro m u _ hu
    rw [h] at hu
    cases hu
  · intro u _ hu
    rw [h] at hu
    cases hu

theorem Honest.stay (p : Phase) : p.Honest (p, none) :=
  ⟨fun _ _ h => (by cases h), fun _ _ h => (by cases h), fun _ _ h => Or.inl h⟩

theorem Honest.close (p : Phase) : p.Honest (.closed, none) :=
  ⟨fun _ _ h => (by cases h), fun _ _ h => (by cases h), fun _ _ _ => Or.inr rfl⟩

theorem Honest.refuse {reply : Reply} {next : Phase} (hcode : 400 ≤ reply.code ∧ reply.code < 600)
    (hclear : ∀ u, p.operation? = some u → p.Clear u) (hnext : next.operation? = none) :
    p.Honest (next, some (.reply reply)) := by
  refine ⟨?_, fun _ _ h => (by cases h), fun _ h => (by cases h)⟩
  rintro _ u ⟨⟩ hu
  exact ⟨hcode, hclear u hu, hnext⟩

theorem receiveReply_code (error : ServerError) :
    400 ≤ (receiveReply error).code ∧ (receiveReply error).code < 600 := by
  unfold receiveReply
  split <;> decide

theorem acceptReply_code {error : StoreError} {reply : Reply} (h : acceptReply error = some reply) :
    error ≠ .outcomeUnknown ∧ 400 ≤ reply.code ∧ reply.code < 600 := by
  unfold acceptReply at h
  split at h <;> cases h <;> simp_all

/-- A definite error of the store is passed on while nothing came of the transaction. -/
theorem Honest.concluded {e : StoreError} (wrote : Bool)
    (hclear : e ≠ .outcomeUnknown → ∀ u, p.operation? = some u → p.Clear u) :
    p.Honest (concluded wrote (.error e)) := by
  unfold Phase.concluded
  dsimp only
  cases hreply : acceptReply e with
  | none => exact .close p
  | some reply =>
      obtain ⟨hknown, hcode⟩ := acceptReply_code hreply
      exact .refuse hcode (hclear hknown) (replied_none wrote (.reply reply))

theorem connect_honest : p.Honest p.connect := by
  cases p with
  | absent => exact .of_none rfl
  | _ => exact .stay _

theorem beginData_honest (input : BeginInput) : p.Honest (p.beginData input) := by
  cases p with
  | idle => exact .of_none rfl
  | _ => exact .stay _

theorem revoked_honest : p.Honest p.revoked := by
  cases p with
  | receiving operation principal envelope =>
      unfold revoked
      dsimp only
      split_ifs
      · exact .refuse (by decide) (fun u hu => Option.some.inj hu) rfl
      · exact .stay _
  | _ => exact .stay _

theorem received_honest (config : Config) (session : Nat) (result : Received) :
    p.Honest (p.received config session result) := by
  cases p with
  | receiving operation principal envelope =>
      have hclear : ∀ u, (receiving operation principal envelope).operation? = some u →
          (receiving operation principal envelope).Clear u := fun u hu => Option.some.inj hu
      cases result with
      | elapsed => exact .refuse (by decide) hclear rfl
      | finished result =>
          cases result with
          | error error => exact .refuse (receiveReply_code error) hclear rfl
          | ok received =>
              obtain ⟨message, author⟩ := received
              unfold received
              dsimp only
              cases submissionIdentity principal author with
              | none => exact .close _
              | some identity =>
                  exact ⟨fun _ _ h => (by cases h), fun _ _ h => (by cases h), fun _ _ h => Or.inl h⟩
  | _ => exact .stay _

theorem unsent_honest (wrote : Bool) : p.Honest (p.unsent wrote) := by
  cases p with
  | dispatching request =>
      change Honest _ (Phase.concluded wrote (.error .workerUnavailable))
      refine Honest.concluded wrote ?_
      intro _ u hu
      exact Option.some.inj hu
  | _ => exact .stay _

theorem elapse_honest : p.Honest p.elapse := by
  cases p with
  | dispatching request => exact .close _
  | waiting operation fate => exact .close _
  | _ => exact .stay _

theorem hear_honest (wrote : Bool) : p.Honest (p.hear wrote) := by
  cases p with
  | waiting operation fate =>
      cases fate with
      | awaited => exact .stay _
      | answered result =>
          cases result with
          | error e =>
              change Honest _ (Phase.concluded wrote (.error e))
              refine Honest.concluded wrote ?_
              intro hknown u hu
              exact ⟨Option.some.inj hu, hknown⟩
          | ok accepted =>
              refine ⟨fun _ _ h => (by cases h), ?_, fun _ h => (by cases h)⟩
              rintro m u ⟨⟩ hu
              obtain rfl := Option.some.inj hu
              exact ⟨accepted, rfl, rfl⟩
      | dropped => exact .close _
  | _ => exact .stay _

theorem abort_honest : p.Honest p.abort := by
  cases p with
  | absent => exact .of_none rfl
  | _ => exact .close _

end Phase

namespace Service

/-- The operation ids in the worker's channel. -/
def names (s : Service) : List Text := s.queue.filterMap Request.operationId?

/-- What the steps of the service are made of. `named` are the operation ids that enter from outside
the sessions. -/
inductive Move (named : List Text) (s : Service) : Service → Prop
  | sessions (f : Nat → Phase) (hfalls : ∀ n, (s.sessions n).Falls (f n)) :
      Move named s { s with sessions := f }
  | store (op : Op) (hop : op.operationId? = none) : Move named s { s with world := s.world.next op }
  | emptied : Move named s { s with queue := [] }
  | called (op : Op) (rest : List Request) (hqueue : s.queue = .call op :: rest) :
      Move named s { s with world := s.world.next op, queue := rest }
  | performed (request : AcceptRequest) (rest : List Request) (input : WorkInput)
      (hqueue : s.queue = .accept request :: rest) (answered : Bool) :
      Move named s
        { s with
          world := (request.perform input s.world).1
          queue := rest
          sessions :=
            if answered then
              Function.update s.sessions request.reply.session
                ((s.sessions request.reply.session).answer request.reply
                  (request.perform input s.world).2)
            else s.sessions }
  | sent (n : Nat) (request : AcceptRequest) (hphase : s.sessions n = .dispatching request) :
      Move named s
        { s with
          queue := s.queue ++ [.accept request]
          sessions := Function.update s.sessions n (.waiting request.reply.operation .awaited) }
  | call (op : Op) (hnamed : ∀ key, op.operationId? = some key → key ∈ named) :
      Move named s { s with queue := s.queue ++ [.call op] }

def Moves (named : List Text) : Service → Service → Prop := Relation.ReflTransGen (Move named)

variable {named : List Text} {s s' : Service}

theorem update_falls {n : Nat} {p : Phase} (h : (s.sessions n).Falls p) (m : Nat) :
    (s.sessions m).Falls (Function.update s.sessions n p m) := by
  by_cases hm : m = n
  · subst hm
    rw [Function.update_self]
    exact h
  · rw [Function.update_of_ne hm]
    exact .refl _

theorem turn_moves (n : Nat) (turn : Phase → Turn) (h : (s.sessions n).Falls (turn (s.sessions n)).1) :
    Moves named s (s.turn n turn).1 :=
  .single (.sessions _ (update_falls h))

theorem die_moves (named : List Text) (s : Service) : Moves named s s.die := by
  have hclose : Move named s { s with world := s.world.next .close } := .store .close rfl
  refine ((Relation.ReflTransGen.single hclose).tail .emptied).tail ?_
  exact .sessions _ fun n => Phase.orphan_falls

theorem crash_moves (named : List Text) (s : Service) : Moves named s s.crash := by
  have hcrash : Move named s { s with world := s.world.next .crash } := .store .crash rfl
  refine ((Relation.ReflTransGen.single hcrash).tail .emptied).tail ?_
  exact .sessions _ fun n => Phase.abort_falls

theorem send_moves (named : List Text) (s : Service) (n : Nat) (wrote : Bool) :
    Moves named s (s.send n wrote).1 := by
  unfold send
  by_cases hopen : s.world.opened = false
  · rw [if_pos hopen]
    exact turn_moves n _ (Phase.unsent_falls wrote)
  · rw [if_neg hopen]
    cases hphase : s.sessions n with
    | dispatching request =>
        dsimp only
        split_ifs
        · exact .single (.sent n request hphase)
        · exact .refl
    | _ => exact .refl

theorem call_moves (s : Service) (op : Op) : Moves op.operationId?.toList s (s.call op) := by
  unfold call
  split_ifs
  · refine .single (.call op ?_)
    intro key hkey
    simp [hkey]
  · exact .refl

theorem work_moves (named : List Text) (s : Service) (input : WorkInput) (dies : Bool) :
    Moves named s (s.work input dies) := by
  unfold work
  by_cases hopen : s.world.opened = false
  · rw [if_pos hopen]
    exact .refl
  · rw [if_neg hopen]
    cases hqueue : s.queue with
    | nil => exact .refl
    | cons request rest =>
        cases request with
        | call op =>
            dsimp only
            cases dies with
            | false => exact .single (.called op rest hqueue)
            | true => exact .head (.called op rest hqueue) (die_moves _ _)
        | accept request =>
            dsimp only
            unfold performed
            cases dies with
            | false => exact .single (.performed request rest input hqueue true)
            | true =>
                exact .head (.performed request rest input hqueue false) (die_moves _ _)

/-- A step starts a transaction under an id it draws, or is a chain of moves. -/
theorem next_cases (s : Service) (action : Action) :
    (∃ n u principal envelope, s.sessions n = .idle ∧ action.drawn = [u]
        ∧ s.next action
          = { s with sessions := Function.update s.sessions n (.receiving u principal envelope) })
      ∨ Moves action.named s (s.next action) := by
  cases action with
  | beginData n input =>
      rcases Phase.beginData_cases input with ⟨hidle, hdrawn, hphase⟩ | hfalls
      · refine Or.inl ⟨n, input.operation, input.principal, input.envelope, hidle, if_pos hdrawn, ?_⟩
        rw [← hphase]
        rfl
      · exact Or.inr (turn_moves n _ hfalls)
  | connect n => exact Or.inr (turn_moves n _ Phase.connect_falls)
  | revoked n => exact Or.inr (turn_moves n _ Phase.revoked_falls)
  | received n result => exact Or.inr (turn_moves n _ (Phase.received_falls _ _ _))
  | send n wrote => exact Or.inr (send_moves _ s n wrote)
  | elapse n => exact Or.inr (turn_moves n _ Phase.elapse_falls)
  | hear n wrote => exact Or.inr (turn_moves n _ (Phase.hear_falls wrote))
  | abort n => exact Or.inr (turn_moves n _ Phase.abort_falls)
  | call op => exact Or.inr (call_moves s op)
  | release op =>
      refine Or.inr ?_
      change Moves _ s (if op.drops then _ else _)
      split_ifs with hdrops
      · refine .single (.store op ?_)
        cases op <;> first | rfl | cases hdrops
      · exact .refl
  | work input dies => exact Or.inr (work_moves _ s input dies)
  | die => exact Or.inr (die_moves _ s)
  | crash => exact Or.inr (crash_moves _ s)
  | restart maxMessageBytes =>
      exact Or.inr ((crash_moves _ s).tail (.store (.reopen maxMessageBytes) rfl))

theorem operation?_orphan (p : Phase) : p.orphan.operation? = p.operation? := by
  cases p with
  | waiting operation fate =>
      cases fate with
      | _ => rfl
  | _ => rfl

theorem answer_cases (p : Phase) (reply : ReplyTo) (result : Except StoreError AcceptedMessage) :
    p.answer reply result = p
      ∨ (p = .waiting reply.operation .awaited
        ∧ p.answer reply result = .waiting reply.operation (.answered result)) := by
  cases p with
  | waiting operation fate =>
      cases fate with
      | awaited =>
          unfold Phase.answer
          dsimp only
          split_ifs with hsame
          · exact Or.inr ⟨by rw [hsame], by rw [hsame]⟩
          · exact Or.inl rfl
      | _ => exact Or.inl rfl
  | _ => exact Or.inl rfl

theorem work_operation? (s : Service) (input : WorkInput) (dies : Bool) (n : Nat) :
    ((s.work input dies).sessions n).operation? = (s.sessions n).operation? := by
  unfold work
  by_cases hopen : s.world.opened = false
  · rw [if_pos hopen]
  · rw [if_neg hopen]
    cases hqueue : s.queue with
    | nil => rfl
    | cons request rest =>
        cases request with
        | call op =>
            cases dies with
            | false => rfl
            | true => exact operation?_orphan _
        | accept request =>
            cases dies with
            | true => exact operation?_orphan _
            | false =>
                revert n
                refine (Function.forall_update_iff s.sessions fun n p =>
                  p.operation? = (s.sessions n).operation?).2 ⟨?_, fun n _ => rfl⟩
                rcases answer_cases (s.sessions request.reply.session) request.reply
                    (request.perform input s.world).2 with hsame | ⟨hphase, hanswer⟩
                · rw [hsame]
                · rw [hanswer, hphase]
                  rfl

theorem send_turns (s : Service) (n : Nat) (wrote : Bool) :
    (∃ turn, s.send n wrote = s.turn n turn ∧ (s.sessions n).Honest (turn (s.sessions n)))
      ∨ ((s.send n wrote).2 = none
        ∧ ∀ m, ((s.send n wrote).1.sessions m).operation? = (s.sessions m).operation?) := by
  unfold send
  by_cases hopen : s.world.opened = false
  · rw [if_pos hopen]
    exact Or.inl ⟨_, rfl, Phase.unsent_honest wrote⟩
  · rw [if_neg hopen]
    refine Or.inr ?_
    cases hphase : s.sessions n with
    | dispatching request =>
        dsimp only
        split_ifs
        · refine ⟨rfl, (Function.forall_update_iff s.sessions fun m p =>
            p.operation? = (s.sessions m).operation?).2 ⟨?_, fun m _ => rfl⟩⟩
          rw [hphase]
          rfl
        · exact ⟨rfl, fun m => rfl⟩
    | _ => exact ⟨rfl, fun m => rfl⟩

theorem abort_operation? (p : Phase) : p.abort.1.operation? = p.operation? ∨ p.abort.1 = .closed := by
  cases p with
  | absent => exact Or.inl rfl
  | _ => exact Or.inr rfl

/-- Only the turn of a session writes, and only to that session; nothing else ends a transaction but
the end of the process. -/
theorem step_turns (s : Service) (action : Action) :
    (∃ n turn, s.step action = s.turn n turn ∧ (s.sessions n).Honest (turn (s.sessions n)))
      ∨ ((s.step action).2 = none ∧ ∀ n, ((s.next action).sessions n).operation?
          = (s.sessions n).operation? ∨ (s.next action).sessions n = .closed) := by
  cases action with
  | connect n => exact Or.inl ⟨n, _, rfl, Phase.connect_honest⟩
  | beginData n input => exact Or.inl ⟨n, _, rfl, Phase.beginData_honest input⟩
  | revoked n => exact Or.inl ⟨n, _, rfl, Phase.revoked_honest⟩
  | received n result => exact Or.inl ⟨n, _, rfl, Phase.received_honest _ _ _⟩
  | elapse n => exact Or.inl ⟨n, _, rfl, Phase.elapse_honest⟩
  | hear n wrote => exact Or.inl ⟨n, _, rfl, Phase.hear_honest wrote⟩
  | abort n => exact Or.inl ⟨n, _, rfl, Phase.abort_honest⟩
  | send n wrote =>
      rcases s.send_turns n wrote with ⟨turn, hturn⟩ | ⟨hnone, hsame⟩
      · exact Or.inl ⟨n, turn, hturn⟩
      · exact Or.inr ⟨hnone, fun m => Or.inl (hsame m)⟩
  | call op =>
      refine Or.inr ⟨rfl, fun n => Or.inl ?_⟩
      change ((s.call op).sessions n).operation? = _
      unfold call
      split_ifs
      · rfl
      · rfl
  | release op =>
      refine Or.inr ⟨rfl, fun n => Or.inl ?_⟩
      change ((if op.drops then { s with world := s.world.next op } else s).sessions n).operation? = _
      split_ifs
      · rfl
      · rfl
  | work input dies => exact Or.inr ⟨rfl, fun n => Or.inl (s.work_operation? input dies n)⟩
  | die => exact Or.inr ⟨rfl, fun n => Or.inl (operation?_orphan _)⟩
  | crash => exact Or.inr ⟨rfl, fun n => abort_operation? _⟩
  | restart maxMessageBytes => exact Or.inr ⟨rfl, fun n => abort_operation? _⟩

end Service

/-- Freshness passes to the beginning of a run. -/
theorem Fresh.of_append {before later : List Action} (h : Fresh (before ++ later)) : Fresh before := by
  obtain ⟨hnodup, hapart⟩ := h
  rw [List.flatMap_append] at hnodup hapart
  refine ⟨(List.nodup_append.1 hnodup).1, ?_⟩
  intro u hu hmem
  refine hapart u (List.mem_append_left _ hu) ?_
  rw [List.flatMap_append]
  exact List.mem_append_left _ hmem

end Rustymail.Server
