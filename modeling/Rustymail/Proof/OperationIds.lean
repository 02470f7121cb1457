import Rustymail.Proof.ExactlyOnce
import Rustymail.Server.Worker

/-!
# Who commits under an operation id

Messages are never removed, and a new one carries the operation id its operation was called with, or
the key of a report, which is no operation id at all.
-/

namespace Rustymail

variable {w : World} {op : Op} {db db' : Db}

theorem Op.operationId?_of_intake {i : Intake} (h : op.intake? = some i) :
    op.operationId? = some i.plan.operationId := by
  cases op <;> simp only [Op.intake?, reduceCtorEq, Option.some.injEq] at h <;> subst h <;> rfl

theorem writeReport_messages {delivery : Uuid} {prepared : PreparedNotification} {now : Int}
    (h : writeReport delivery prepared now db = .ok db') :
    db'.messages = db.messages ++ [reportRow prepared now] := by
  obtain ⟨-, placed, noted, hplaced, hnoted, rfl⟩ := writeReport_eq_ok h
  obtain ⟨-, rfl⟩ := Db.insertNotification_eq_ok.1 hnoted
  rcases placeReport_eq_ok hplaced with ⟨account, mailbox, rfl⟩ | ⟨expires, rfl⟩
  · rfl
  · rfl

/-- The second list of messages extends the first by messages under these keys. -/
def ExtendsUnder (allowed : Text → Prop) (messages messages' : List Message) : Prop :=
  ∃ new, messages' = messages ++ new ∧ ∀ m ∈ new, allowed m.ingestKey

namespace ExtendsUnder

variable {allowed : Text → Prop} {a b c : List Message}

theorem refl : ExtendsUnder allowed a a := ⟨[], by simp⟩

theorem single {m : Message} (hm : allowed m.ingestKey) : ExtendsUnder allowed a (a ++ [m]) :=
  ⟨[m], rfl, by simpa using hm⟩

theorem trans (h : ExtendsUnder allowed a b) (h' : ExtendsUnder allowed b c) :
    ExtendsUnder allowed a c := by
  obtain ⟨new, rfl, hnew⟩ := h
  obtain ⟨new', rfl, hnew'⟩ := h'
  refine ⟨new ++ new', List.append_assoc _ _ _, ?_⟩
  intro m hm
  rcases List.mem_append.1 hm with hm | hm
  · exact hnew m hm
  · exact hnew' m hm

theorem mono {allowed' : Text → Prop} (h : ExtendsUnder allowed a b)
    (hallowed : ∀ key, allowed key → allowed' key) : ExtendsUnder allowed' a b := by
  obtain ⟨new, heq, hnew⟩ := h
  exact ⟨new, heq, fun m hm => hallowed _ (hnew m hm)⟩

theorem old (h : ExtendsUnder allowed a b) {m : Message} (hm : m ∈ a) : m ∈ b := by
  obtain ⟨new, rfl, -⟩ := h
  exact List.mem_append_left _ hm

theorem new (h : ExtendsUnder allowed a b) {m : Message} (hm : m ∈ b) :
    m ∈ a ∨ allowed m.ingestKey := by
  obtain ⟨new, rfl, hnew⟩ := h
  rcases List.mem_append.1 hm with hm | hm
  · exact Or.inl hm
  · exact Or.inr (hnew m hm)

end ExtendsUnder

/-- The keys under which an operation may add messages. -/
def Op.MayAdd (op : Op) (key : Text) : Prop := op.operationId? = some key ∨ validId key = false

theorem Brings.extends (h : Brings w op db db') :
    ExtendsUnder op.MayAdd db.messages db'.messages := by
  cases h with
  | @acceptance i now hop hvalid hauth hnew htx =>
      rw [(writeAcceptance_adds_message hvalid htx).messages]
      exact .single (Or.inl (Op.operationId?_of_intake hop))
  | @enqueued ids message plan now hop hvalid hnew htx =>
      obtain ⟨reading, faults, rfl⟩ := hop
      rw [(writeEnqueue_adds_message hvalid htx).messages]
      exact .single (Or.inl rfl)
  | @report prepared delivery now hop hnew heligible htx =>
      rw [writeReport_messages htx]
      exact .single (Or.inr (dsnKey_not_valid _))

theorem Commits.extends (h : Commits w op db db') :
    ExtendsUnder op.MayAdd db.messages db'.messages := by
  rcases h.cases_content with hcontent | ⟨hmail, -⟩ | hbrings
  · rw [hcontent.messages]
    exact .refl
  · rw [hmail.messages]
    exact .refl
  · exact hbrings.extends

theorem World.next_extends (w : World) (op : Op) :
    ExtendsUnder op.MayAdd w.store.db.messages (w.next op).store.db.messages := by
  have hall := w.next_commits op
  revert hall
  generalize (w.next op).store.db = db'
  intro hall
  induction hall with
  | refl => exact .refl
  | tail _ hlast ih => exact ih.trans hlast.extends

/-- Whether new or replayed, an accepted message is there. -/
theorem ExactlyOnce.present {operationId : Text} {permitted : Prop} {fingerprint : Fingerprint}
    {adds : Db → Prop} {result : Store × Except StoreError AcceptedMessage}
    (h : ExactlyOnce db operationId permitted fingerprint adds result) {accepted : AcceptedMessage}
    (hok : result.2 = .ok accepted) :
    ∃ m ∈ result.1.db.messages, m.id = accepted.messageId ∧ m.ingestKey = operationId := by
  obtain ⟨id, replayed⟩ := accepted
  cases replayed with
  | true =>
      obtain ⟨-, m, hm, -, hid, hkey, -⟩ := (h.replayed_iff id).1 hok
      rw [h.replayed id hok]
      exact ⟨m, hm, hid, hkey⟩
  | false =>
      obtain ⟨-, m, hm, -, hid, hkey, -⟩ := h.accepted id hok
      exact ⟨m, hm, hid, hkey⟩

namespace Server

/-- What the worker makes of an acceptance, as far as its answer is concerned. -/
structure AcceptRequest.Performed (request : AcceptRequest) (w : World)
    (outcome : World × Except StoreError AcceptedMessage) : Prop where
  reachable : outcome.1.Reachable
  accepted : ∀ accepted, outcome.2 = .ok accepted → ∃ m ∈ outcome.1.store.db.messages,
    m.id = accepted.messageId ∧ m.ingestKey = request.plan.operationId
  refused : ∀ e, outcome.2 = .error e → e ≠ .outcomeUnknown → outcome.1.store.db = w.store.db

variable {request : AcceptRequest} {input : WorkInput}

/-- Every acceptance the worker does not refuse by itself is an operation of the store. -/
theorem AcceptRequest.perform_cases (request : AcceptRequest) (input : WorkInput) (w : World) :
    request.perform input w = (w, .error .permissionDenied)
      ∨ (∃ op : Op, op.operationId? = some request.plan.operationId
          ∧ (request.perform input w).1 = w.next op)
        ∧ (request.relay.isSome → request.identity.isSome)
        ∧ request.perform input w = w.call fun s => acceptInner s input.ids request.message
          request.plan request.identity request.relay input.reading input.faults := by
  obtain ⟨message, plan, identity, relay, reply⟩ := request
  cases identity with
  | none =>
      cases relay with
      | none =>
          refine Or.inr ⟨⟨.accept input.ids message plan input.reading input.faults, rfl, rfl⟩, ?_, rfl⟩
          simp
      | some relay => exact Or.inl rfl
  | some identity =>
      cases relay with
      | none =>
          refine Or.inr ⟨⟨.acceptSubmission input.ids message plan identity input.reading input.faults,
            rfl, rfl⟩, ?_, rfl⟩
          simp
      | some relay =>
          refine Or.inr ⟨⟨.acceptRelaySubmission input.ids message plan identity relay input.reading
            input.faults, rfl, rfl⟩, ?_, rfl⟩
          simp

theorem AcceptRequest.perform_extends (request : AcceptRequest) (input : WorkInput) (w : World) :
    ExtendsUnder (fun key => key = request.plan.operationId ∨ validId key = false)
      w.store.db.messages (request.perform input w).1.store.db.messages := by
  rcases request.perform_cases input w with hrefused | ⟨⟨op, hop, hnext⟩, -, -⟩
  · rw [hrefused]
    exact .refl
  · rw [hnext]
    refine (w.next_extends op).mono ?_
    rintro key (hkey | hkey)
    · rw [hop, Option.some.injEq] at hkey
      exact Or.inl hkey.symm
    · exact Or.inr hkey

theorem AcceptRequest.perform_performed (hreach : w.Reachable) :
    request.Performed w (request.perform input w) := by
  rcases request.perform_cases input w with hrefused | ⟨⟨op, -, hnext⟩, hsubmission, hcall⟩
  · rw [hrefused]
    exact ⟨hreach, fun _ hok => (by cases hok), fun _ _ _ => rfl⟩
  · have hreach' : (request.perform input w).1.Reachable := hnext ▸ hreach.next op
    by_cases hopen : w.opened = true
    · have honce : AcceptsOnce w.store
          ⟨input.ids, request.message, request.plan, request.identity, request.relay⟩ input.reading
          (acceptInner w.store input.ids request.message request.plan request.identity request.relay
            input.reading input.faults) :=
        acceptInner_once hreach _ hsubmission
      rw [World.call_opened hopen] at hcall
      rw [hcall] at hreach' ⊢
      exact ⟨hreach', fun _ hok => honce.present hok, fun e herror hne => honce.refused e herror hne⟩
    · rw [World.call_closed hopen] at hcall
      rw [hcall]
      exact ⟨hreach, fun _ hok => (by cases hok), fun _ _ _ => rfl⟩

end Server

end Rustymail
