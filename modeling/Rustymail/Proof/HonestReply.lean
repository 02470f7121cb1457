import Rustymail.Proof.OperationFlow

/-!
# The reply to DATA is honest

A refusal leaves an operation id that no step can bring back, and an acceptance has found the message
in the store.
-/

namespace Rustymail.Server

namespace Service

variable {named : List Text} {drawn : List Uuid} {s s' : Service} {key : Text}

/-! ### The replies -/

theorem turn_writes {n m : Nat} {turn : Phase → Turn} {written : Written}
    (h : (s.turn m turn).2 = some (n, written)) : n = m ∧ (turn (s.sessions m)).2 = some written := by
  unfold Service.turn at h
  dsimp only at h
  rw [Option.map_eq_some_iff] at h
  obtain ⟨written', hwritten, heq⟩ := h
  cases heq
  exact ⟨rfl, hwritten⟩

/-- What is written to a session in a transaction is its own honest turn. -/
theorem writes_turn {action : Action} {n : Nat} {written : Written} (h : s.writes action n written) :
    ∃ turn, s.next action = (s.turn n turn).1 ∧ (turn (s.sessions n)).2 = some written
      ∧ (s.sessions n).Honest (turn (s.sessions n)) := by
  unfold writes at h
  rcases s.step_turns action with ⟨m, turn, hstep, hhonest⟩ | ⟨hnone, -⟩
  · rw [hstep] at h
    obtain ⟨rfl, hwritten⟩ := turn_writes h
    exact ⟨turn, congrArg Prod.fst hstep, hwritten, hhonest⟩
  · rw [hnone] at h
    cases h

theorem Sound.written_accepted (h : s.Sound drawn named) {action : Action} {n : Nat} {u : Uuid}
    {m : Text} (hu : (s.sessions n).operation? = some u) (hwrites : s.writes action n (.accepted m)) :
    ∃ row ∈ s.world.store.db.messages, row.id = m ∧ row.ingestKey = u.text := by
  obtain ⟨turn, -, hwritten, hhonest⟩ := writes_turn hwrites
  obtain ⟨accepted, hphase, rfl⟩ := hhonest.accepted m u hwritten hu
  exact h.accepted n u accepted hphase

theorem Sound.written_reply (h : s.Sound drawn named) {action : Action} {n : Nat} {u : Uuid}
    {reply : Reply} (hu : (s.sessions n).operation? = some u)
    (hwrites : s.writes action n (.reply reply)) :
    (400 ≤ reply.code ∧ reply.code < 600) ∧ (s.next action).Quiet u.text := by
  obtain ⟨turn, hnext, hwritten, hhonest⟩ := writes_turn hwrites
  obtain ⟨hcode, hclear, hover⟩ := hhonest.reply reply u hwritten hu
  obtain ⟨habsent, hunnamed⟩ := h.clear n u hclear
  refine ⟨hcode, ?_⟩
  rw [hnext]
  refine ⟨habsent, hunnamed, (Function.forall_update_iff s.sessions fun m p =>
    p.pledge? ≠ some u.text).2 ⟨?_, ?_⟩⟩
  · intro hpledge
    -- a session outside a transaction pledges no more than one that is not connected
    have hfalls : Phase.absent.Falls (turn (s.sessions n)).1 := .of_none hover
    cases hfalls.pledge _ hpledge
  · intro m hm hpledge
    refine hm (h.sole m n u ?_ hu)
    cases hphase : s.sessions m with
    | receiving v principal envelope =>
        rw [hphase] at hpledge
        exact congrArg some (uuid_eq_of_text (Option.some.inj hpledge))
    | dispatching request =>
        have hformed := h.formed m
        rw [hphase] at hpledge hformed
        exact congrArg some (uuid_eq_of_text (hformed.symm.trans (Option.some.inj hpledge)))
    | _ =>
        rw [hphase] at hpledge
        cases hpledge

/-- A step that writes nothing to a session in a transaction leaves it there or closes it. -/
theorem silent_stays {action : Action} {n : Nat} {u : Uuid} (hu : (s.sessions n).operation? = some u)
    (hsilent : ∀ written, ¬ s.writes action n written) :
    ((s.next action).sessions n).operation? = some u ∨ (s.next action).sessions n = .closed := by
  rcases s.step_turns action with ⟨m, turn, hstep, hhonest⟩ | ⟨-, hsame⟩
  · have hnext : s.next action = (s.turn m turn).1 := congrArg Prod.fst hstep
    rw [hnext]
    unfold Service.turn
    dsimp only
    by_cases hm : n = m
    · subst hm
      rw [Function.update_self]
      refine hhonest.silent u ?_ hu
      by_contra hwritten
      obtain ⟨written, hwritten⟩ := Option.ne_none_iff_exists'.1 hwritten
      refine hsilent written ?_
      unfold writes
      rw [hstep]
      unfold Service.turn
      dsimp only
      rw [hwritten]
      rfl
    · rw [Function.update_of_ne hm]
      exact Or.inl hu
  · rcases hsame n with hsame | hclosed
    · exact Or.inl (hsame.trans hu)
    · exact Or.inr hclosed

/-- A turn that leaves a closed session alone keeps it closed, whoever's turn it is. -/
theorem turn_closed {n m : Nat} {turn : Phase → Turn} (hturn : turn .closed = (.closed, none))
    (hclosed : s.sessions n = .closed) :
    (s.turn m turn).1.sessions n = .closed ∧ ∀ written, (s.turn m turn).2 ≠ some (n, written) := by
  constructor
  · unfold Service.turn
    dsimp only
    by_cases hm : n = m
    · subst hm
      rw [Function.update_self, hclosed, hturn]
    · rw [Function.update_of_ne hm]
      exact hclosed
  · intro written hwritten
    obtain ⟨rfl, hwritten⟩ := turn_writes hwritten
    rw [hclosed, hturn] at hwritten
    cases hwritten

theorem send_closed {n m : Nat} {wrote : Bool} (hclosed : s.sessions n = .closed) :
    (s.send m wrote).1.sessions n = .closed ∧ ∀ written, (s.send m wrote).2 ≠ some (n, written) := by
  unfold Service.send
  by_cases hopen : s.world.opened = false
  · rw [if_pos hopen]
    exact turn_closed rfl hclosed
  · rw [if_neg hopen]
    cases hphase : s.sessions m with
    | dispatching request =>
        dsimp only
        split_ifs
        · refine ⟨?_, fun _ h => (by cases h)⟩
          have hm : n ≠ m := by
            rintro rfl
            rw [hclosed] at hphase
            cases hphase
          dsimp only
          rw [Function.update_of_ne hm]
          exact hclosed
        · exact ⟨hclosed, fun _ h => (by cases h)⟩
    | _ => exact ⟨hclosed, fun _ h => (by cases h)⟩

theorem work_closed {n : Nat} {input : WorkInput} {dies : Bool} (hclosed : s.sessions n = .closed) :
    (s.work input dies).sessions n = .closed := by
  have horphan : (s.sessions n).orphan = .closed := by rw [hclosed]; rfl
  unfold work
  by_cases hopen : s.world.opened = false
  · rw [if_pos hopen]
    exact hclosed
  · rw [if_neg hopen]
    cases hqueue : s.queue with
    | nil => exact hclosed
    | cons request rest =>
        cases request with
        | call op =>
            cases dies with
            | false => exact hclosed
            | true => exact horphan
        | accept request =>
            cases dies with
            | true => exact horphan
            | false =>
                change Function.update s.sessions request.reply.session _ n = .closed
                by_cases hn : n = request.reply.session
                · subst hn
                  rw [Function.update_self, hclosed]
                  rfl
                · rw [Function.update_of_ne hn]
                  exact hclosed

theorem closed_stays {n : Nat} (hclosed : s.sessions n = .closed) (action : Action) :
    (s.next action).sessions n = .closed ∧ ∀ written, ¬ s.writes action n written := by
  cases action with
  | connect m => exact turn_closed rfl hclosed
  | beginData m input => exact turn_closed rfl hclosed
  | revoked m => exact turn_closed rfl hclosed
  | received m result => exact turn_closed rfl hclosed
  | elapse m => exact turn_closed rfl hclosed
  | hear m wrote => exact turn_closed rfl hclosed
  | abort m => exact turn_closed rfl hclosed
  | send m wrote => exact send_closed hclosed
  | work input dies => exact ⟨work_closed hclosed, fun _ h => (by cases h)⟩
  | call op =>
      refine ⟨?_, fun _ h => (by cases h)⟩
      change (s.call op).sessions n = .closed
      unfold Service.call
      split_ifs
      · exact hclosed
      · exact hclosed
  | release op =>
      refine ⟨?_, fun _ h => (by cases h)⟩
      change (if op.drops then { s with world := s.world.next op } else s).sessions n = .closed
      split_ifs
      · exact hclosed
      · exact hclosed
  | die =>
      refine ⟨?_, fun _ h => (by cases h)⟩
      change (s.sessions n).orphan = .closed
      rw [hclosed]
      rfl
  | crash =>
      refine ⟨?_, fun _ h => (by cases h)⟩
      change (s.sessions n).abort.1 = .closed
      rw [hclosed]
      rfl
  | restart maxMessageBytes =>
      refine ⟨?_, fun _ h => (by cases h)⟩
      change (s.sessions n).abort.1 = .closed
      rw [hclosed]
      rfl

theorem closed_run {n : Nat} (hclosed : s.sessions n = .closed) (actions : List Action) :
    (s.run actions).sessions n = .closed := by
  induction actions generalizing s with
  | nil => exact hclosed
  | cons action rest ih => exact ih (closed_stays hclosed action).1

/-- Messages stay, so what is absent later was never there. -/
theorem next_committed (action : Action) (h : s.Committed key) : (s.next action).Committed key := by
  obtain ⟨m, hm, hkey⟩ := h
  refine ⟨m, ?_, hkey⟩
  rcases s.next_cases action with ⟨n, u, principal, envelope, -, -, hnext⟩ | hmoves
  · rw [hnext]
    exact hm
  · revert hmoves
    generalize s.next action = t
    intro hmoves
    induction hmoves with
    | refl => exact hm
    | tail _ hlast ih => exact hlast.extends.old ih

theorem run_committed (actions : List Action) (h : s.Committed key) : (s.run actions).Committed key := by
  induction actions generalizing s with
  | nil => exact h
  | cons action rest ih => exact ih (next_committed action h)

/-- The session cannot learn what became of its message: it has waited for a minute, its reply
channel is gone, or the store does not know either. -/
def Undecided (s : Service) (action : Action) (n : Nat) : Prop :=
  (action = .elapse n ∧ ((∃ request, s.sessions n = .dispatching request)
      ∨ ∃ operation fate, s.sessions n = .waiting operation fate))
    ∨ ((∃ wrote, action = .hear n wrote) ∧ ∃ operation, s.sessions n = .waiting operation .dropped
      ∨ s.sessions n = .waiting operation (.answered (.error .outcomeUnknown)))

theorem Undecided.closes {action : Action} {n : Nat} (h : s.Undecided action n) :
    (s.next action).sessions n = .closed ∧ ∀ written, ¬ s.writes action n written := by
  have hclose : ∀ turn : Phase → Turn, turn (s.sessions n) = (.closed, none) →
      (s.turn n turn).1.sessions n = .closed ∧ ∀ written, (s.turn n turn).2 ≠ some (n, written) := by
    intro turn hturn
    unfold Service.turn
    rw [hturn]
    exact ⟨Function.update_self _ _ _, fun _ hwritten => (by cases hwritten)⟩
  rcases h with ⟨rfl, ⟨request, hphase⟩ | ⟨operation, fate, hphase⟩⟩ |
    ⟨⟨wrote, rfl⟩, operation, hphase | hphase⟩
  all_goals
    refine hclose _ ?_
    rw [hphase]
    rfl

end Service

/-- What is honest about one step of a run `before ++ action :: later`, for a session that is in a
DATA transaction when the step is taken. -/
structure HonestAt (start : Service) (before : List Action) (action : Action) (later : List Action)
    (n : Nat) (operation : Uuid) : Prop where
  accepted : ∀ m, (start.run before).writes action n (.accepted m) →
    ∃ row ∈ (start.run before).world.store.db.messages,
      row.id = m ∧ row.ingestKey = operation.text
  refused : ∀ reply, (start.run before).writes action n (.reply reply) →
    (400 ≤ reply.code ∧ reply.code < 600)
      ∧ ∀ seen, seen <+: before ++ action :: later → ¬ (start.run seen).Committed operation.text
  silent : (∀ written, ¬ (start.run before).writes action n written) →
    ((start.run (before ++ [action])).sessions n).operation? = some operation
      ∨ (start.run (before ++ [action])).sessions n = .closed
  undecided : (start.run before).Undecided action n →
    (start.run (before ++ [action])).sessions n = .closed
      ∧ ∀ written, ¬ (start.run before).writes action n written
  closed : (start.run (before ++ [action])).sessions n = .closed →
    ∀ rest next, rest ++ [next] <+: later → ∀ written,
      ¬ (start.run (before ++ action :: rest)).writes next n written

theorem run_snoc (start : Service) (before : List Action) (action : Action) :
    start.run (before ++ [action]) = (start.run before).next action :=
  Runs.run_snoc before action

theorem run_append (start : Service) (before later : List Action) :
    start.run (before ++ later) = (start.run before).run later :=
  Runs.run_append before later

/-- In every run, whatever a session in a DATA transaction writes is honest: an accepted message is
in the store, a refused one neither has been nor will be committed, and in every other case the
session goes on waiting or is closed for good without a reply. -/
theorem data_reply_honest (config : Config) (root : Text) (maxMessageBytes : Nat)
    (before later : List Action) (action : Action) (hfresh : Fresh (before ++ action :: later))
    (n : Nat) (operation : Uuid)
    (hdata : (((Service.init config root maxMessageBytes).run before).sessions n).operation?
      = some operation) :
    HonestAt (Service.init config root maxMessageBytes) before action later n operation := by
  have hsound := Service.sound_run config root maxMessageBytes before hfresh.of_append
  have hsplit : before ++ action :: later = before ++ [action] ++ later := by simp
  refine ⟨fun m => hsound.written_accepted hdata, ?_, ?_, ?_, ?_⟩
  · intro reply hwrites
    obtain ⟨hcode, hquiet⟩ := hsound.written_reply hdata hwrites
    refine ⟨hcode, ?_⟩
    have hdrawn := hsound.owned n operation hdata
    rw [← run_snoc] at hquiet
    -- the operation id is not drawn again and nobody else brings it along
    have hmem : operation ∈ (before ++ [action]).flatMap Action.drawn := by
      rw [List.flatMap_append]
      exact List.mem_append_left _ hdrawn
    rw [hsplit] at hfresh
    have hnodup := hfresh.nodup
    have hapart := hfresh.apart operation
      (by rw [List.flatMap_append]; exact List.mem_append_left _ hmem)
    rw [List.flatMap_append] at hnodup hapart
    have hlater : ((Service.init config root maxMessageBytes).run (before ++ action :: later)).Quiet
        operation.text := by
      rw [hsplit, run_append]
      refine hquiet.run operation.valid later ?_ ?_
      · intro hname
        exact hapart (List.mem_append_right _ hname)
      · intro u hu htext
        rw [Service.uuid_eq_of_text htext] at hu
        exact (List.nodup_append.1 hnodup).2.2 operation hmem operation hu rfl
    rintro seen ⟨rest, hrest⟩ hcommitted
    refine hlater.absent ?_
    rw [← hrest, run_append]
    exact Service.run_committed rest hcommitted
  · intro hsilent
    rw [run_snoc]
    exact Service.silent_stays hdata hsilent
  · intro hundecided
    rw [run_snoc]
    exact hundecided.closes
  · intro hclosed rest next _ written
    have hstill := Service.closed_run hclosed rest
    rw [← run_append, List.append_assoc, List.singleton_append] at hstill
    exact (Service.closed_stays hstill next).2 written

/-- A message for a local account: the account is created, the message received, accepted by the
worker and acknowledged, and then the process restarts. -/
def Sample.data : List Action :=
  [.call (.createAccount Rustymail.Sample.recipient 100 Rustymail.Sample.reading (fun _ => 1) {}),
    .work ⟨Rustymail.Sample.freshIds, Rustymail.Sample.reading, {}⟩ false,
    .connect 0,
    .beginData 0 ⟨true, true, Rustymail.Sample.operationId, true, none,
      ⟨none, [Rustymail.Sample.recipient], .sevenBit⟩, true⟩,
    .received 0 (.finished (.ok (Rustymail.Sample.prepared, none))),
    .send 0 true,
    .work ⟨Rustymail.Sample.freshIds, Rustymail.Sample.reading, {}⟩ false]

def Sample.config : Config := ⟨[ascii "b.c"], 3600, 8⟩

theorem Sample.acknowledged :
    ((Service.init Sample.config [] 1000).run Sample.data).writes (.hear 0 true) 0
        (.accepted Rustymail.Sample.messageId.text)
      ∧ ∃ row ∈ ((Service.init Sample.config [] 1000).run Sample.data).world.store.db.messages,
        row.id = Rustymail.Sample.messageId.text
          ∧ row.ingestKey = Rustymail.Sample.operationId.text := by
  have hwrites : ((Service.init Sample.config [] 1000).run Sample.data).writes (.hear 0 true) 0
      (.accepted Rustymail.Sample.messageId.text) := by
    unfold Service.writes
    decide
  refine ⟨hwrites, ?_⟩
  exact (data_reply_honest Sample.config [] 1000 Sample.data [.restart 1000] (.hear 0 true)
    ⟨by decide, by decide⟩ 0 Rustymail.Sample.operationId (by decide)).accepted _ hwrites

end Rustymail.Server
