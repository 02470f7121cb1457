import Rustymail.Proof.HonestReply
import Rustymail.Proof.OpenRelay

/-!
# Every acknowledged recipient is one responsibility

Duplicates are found three times, by three different equalities, and an address is routed twice. They
agree: the envelope has one address for each local key and one for each remote address, and the
store has one delivery for each of these.
-/

namespace Rustymail

/-- The deliveries of a message by one route. -/
def Db.routed (db : Db) (id : Text) (route : Route) : List Delivery :=
  db.deliveries.filter fun d => decide (d.messageId = id) && (d.route == route)

namespace Server

open Session (same)

/-- The deliveries of a message are one for each distinct local key and one for each distinct remote
address of these recipients, and as many as the envelope has recipients. -/
structure Responsible (config : Config) (db : Db) (id : Text) (recipients : List Address)
    (envelope : Envelope) : Prop where
  mailed : ((db.routed id .localMail).map Delivery.recipient).Perm
    ((recipients.filter config.isLocal).map Address.localKey).dedup
  relayed : ((db.routed id .relay).map Delivery.recipient).Perm
    ((recipients.filter fun r => !config.isLocal r).map Address.asStr).dedup
  disjoint : ∀ a ∈ recipients.filter config.isLocal,
    ∀ b ∈ recipients.filter fun r => !config.isLocal r, a.localKey ≠ b.asStr
  routes : ∀ d ∈ db.deliveries, d.messageId = id → d.route = .localMail ∨ d.route = .relay
  total : (db.deliveries.filter fun d => decide (d.messageId = id)).length
    = envelope.recipients.length

/-! ### Three equalities -/

section Keys

variable {config : Config}

theorem isLocal_eq (config : Config) (address : Address) :
    config.isLocal address = config.localDomain address.domain := rfl

theorem same_local_iff {a b : Address} (hb : config.isLocal b = true) :
    same config.localDomain a b = true ↔ a.localKey = b.localKey := by
  rw [isLocal_eq] at hb
  rw [Session.same_iff, if_pos hb]

theorem same_remote_iff {a b : Address} (hb : (!config.isLocal b) = true) :
    same config.localDomain a b = true ↔ a = b := by
  rw [isLocal_eq, Bool.not_eq_true'] at hb
  rw [Session.same_iff, if_neg (Bool.eq_false_iff.1 hb)]

/-- A local key and a remote address name different domains. -/
theorem localKey_ne_asStr {a b : Address} (ha : config.isLocal a = true)
    (hb : config.isLocal b = false) : a.localKey ≠ b.asStr := by
  intro heq
  obtain ⟨left, hleft⟩ := rsplitOnce_localKey a
  obtain ⟨right, hright⟩ := b.rsplitOnce_text
  have hboth := hleft.symm.trans ((congrArg (rsplitOnce 64) heq).trans hright)
  rw [Option.some.injEq, Prod.mk.injEq] at hboth
  rw [isLocal_eq, hboth.2] at ha
  rw [isLocal_eq, ha] at hb
  cases hb

theorem asStr_injective : Function.Injective Address.asStr := by
  intro a b h
  cases a
  cases b
  cases h
  rfl

variable (config) (recipients : List Address)

/-- The first occurrences, as `Session` keeps them. -/
def distinctRecipients : List Address := Distinct.firsts (same config.localDomain) recipients

theorem localKeys_nodup :
    (((distinctRecipients config recipients).filter config.isLocal).map Address.localKey).Nodup := by
  rw [List.Nodup, List.pairwise_map]
  refine ((Distinct.firsts_pairwise recipients).filter _).imp_of_mem ?_
  intro a b _ hb hdistinct heq
  have hsame := (same_local_iff (List.mem_filter.1 hb).2).2 heq
  rw [hdistinct] at hsame
  cases hsame

theorem remoteKeys_nodup :
    (((distinctRecipients config recipients).filter fun r => !config.isLocal r).map
      Address.asStr).Nodup := by
  rw [List.Nodup, List.pairwise_map]
  refine ((Distinct.firsts_pairwise recipients).filter _).imp_of_mem ?_
  intro a b _ hb hdistinct heq
  have hsame := (same_remote_iff (List.mem_filter.1 hb).2).2 (asStr_injective heq)
  rw [hdistinct] at hsame
  cases hsame

/-- Whoever was accepted is the same as somebody kept. -/
theorem exists_distinct {address : Address} (h : address ∈ recipients) :
    ∃ kept ∈ distinctRecipients config recipients, same config.localDomain kept address = true := by
  have hself : same config.localDomain address address = true := by
    rw [Session.same_iff]
    split_ifs <;> rfl
  have hany : recipients.any (same config.localDomain · address) = true :=
    List.any_eq_true.2 ⟨address, h, hself⟩
  rw [← Distinct.any_firsts Session.same_trans] at hany
  exact List.any_eq_true.1 hany

/-- Keeping first occurrences loses no local key. -/
theorem localKeys_perm :
    (((distinctRecipients config recipients).filter config.isLocal).map Address.localKey).Perm
      ((recipients.filter config.isLocal).map Address.localKey).dedup := by
  rw [List.perm_ext_iff_of_nodup (localKeys_nodup config recipients) (List.nodup_dedup _)]
  intro key
  rw [List.mem_dedup, List.mem_map, List.mem_map]
  constructor
  · rintro ⟨a, ha, rfl⟩
    obtain ⟨hmem, hlocal⟩ := List.mem_filter.1 ha
    have hold := (Distinct.firsts_sublist recipients).subset hmem
    exact ⟨a, List.mem_filter.2 ⟨hold, hlocal⟩, rfl⟩
  · rintro ⟨a, ha, rfl⟩
    obtain ⟨hmem, hlocal⟩ := List.mem_filter.1 ha
    obtain ⟨kept, hkept, hsame⟩ := exists_distinct config recipients hmem
    refine ⟨kept, List.mem_filter.2 ⟨hkept, ?_⟩, (same_local_iff hlocal).1 hsame⟩
    rw [isLocal_eq, Session.same_domain hsame]
    exact hlocal

/-- Nor a remote address. -/
theorem remoteKeys_perm :
    (((distinctRecipients config recipients).filter fun r => !config.isLocal r).map
      Address.asStr).Perm
      ((recipients.filter fun r => !config.isLocal r).map Address.asStr).dedup := by
  rw [List.perm_ext_iff_of_nodup (remoteKeys_nodup config recipients) (List.nodup_dedup _)]
  intro key
  rw [List.mem_dedup, List.mem_map, List.mem_map]
  constructor
  · rintro ⟨a, ha, rfl⟩
    obtain ⟨hmem, hremote⟩ := List.mem_filter.1 ha
    have hold := (Distinct.firsts_sublist recipients).subset hmem
    exact ⟨a, List.mem_filter.2 ⟨hold, hremote⟩, rfl⟩
  · rintro ⟨a, ha, rfl⟩
    obtain ⟨hmem, hremote⟩ := List.mem_filter.1 ha
    obtain ⟨kept, hkept, hsame⟩ := exists_distinct config recipients hmem
    rw [(same_remote_iff hremote).1 hsame] at hkept
    exact ⟨a, List.mem_filter.2 ⟨hkept, hremote⟩, rfl⟩

end Keys

/-! ### Rows -/

section Rows

variable {db : Db} {id : Text}

theorem btreeSet_perm (texts : List Text) : (btreeSet texts).Perm texts.dedup :=
  List.perm_insertionSort _ _

theorem mem_routed {route : Route} {d : Delivery} :
    d ∈ db.routed id route ↔ d ∈ db.deliveries ∧ d.messageId = id ∧ d.route = route := by
  unfold Db.routed
  rw [List.mem_filter, Bool.and_eq_true, decide_eq_true_eq, beq_iff_eq]

/-- Two deliveries of one message are for different recipients. -/
theorem routed_perm (hkeys : db.Keys) (id : Text) (route : Route) :
    ((db.routed id route).map Delivery.recipient).Perm (recordedRecipients db id (· == route)) := by
  have hnodup : ((db.routed id route).map Delivery.recipient).Nodup := by
    rw [List.Nodup, List.pairwise_map]
    refine ((List.pairwise_map.1 hkeys.recipients).filter _).imp_of_mem ?_
    intro a b ha hb hne heq
    refine hne (Prod.ext ?_ heq)
    exact (mem_routed.1 ha).2.1.trans (mem_routed.1 hb).2.1.symm
  have hset : recordedRecipients db id (· == route)
      = btreeSet ((db.routed id route).map Delivery.recipient) := rfl
  rw [hset]
  have hperm := btreeSet_perm ((db.routed id route).map Delivery.recipient)
  rw [hnodup.dedup] at hperm
  exact hperm.symm

theorem routed_length (hroutes : ∀ d ∈ db.deliveries, d.route ≠ .direct) (id : Text) :
    (db.deliveries.filter fun d => decide (d.messageId = id)).length
      = (db.routed id .localMail).length + (db.routed id .relay).length := by
  rw [List.length_eq_length_filter_add fun d => d.route == .localMail, List.filter_filter,
    List.filter_filter]
  have hmailed : db.deliveries.filter (fun d => d.route == .localMail && decide (d.messageId = id))
      = db.routed id .localMail :=
    List.filter_congr fun d _ => Bool.and_comm _ _
  have hrelayed : db.deliveries.filter
      (fun d => (!d.route == .localMail) && decide (d.messageId = id)) = db.routed id .relay := by
    refine List.filter_congr fun d hd => ?_
    rw [Bool.and_comm]
    congr 1
    have hdirect := hroutes d hd
    cases hroute : d.route with
    | localMail => rfl
    | relay => rfl
    | direct => exact absurd hroute hdirect
  rw [hmailed, hrelayed]

theorem remoteKeys_relayAcceptance (config : Config) (remote : List Address) (body : Body) :
    remoteKeys (relayAcceptance config remote body) = btreeSet (remote.map Address.asStr) := by
  unfold remoteKeys relayAcceptance
  cases remote with
  | nil => rfl
  | cons a rest => rfl

/-- An envelope with the first occurrences of these recipients, and a message that has the deliveries
its acceptance asked for. -/
theorem responsible {w : World} (hreach : w.Reachable) {config : Config} {n : Nat} {operation : Uuid}
    {envelope : Envelope} {message : PreparedMessage} {identity : Option SubmissionIdentity}
    {recipients : List Address} (henvelope : envelope.recipients = distinctRecipients config recipients)
    (haddressed : w.store.db.Addressed id
      (localKeys (acceptRequest config n operation envelope message identity).plan)
      (remoteKeys (acceptRequest config n operation envelope message identity).relay)) :
    Responsible config w.store.db id recipients envelope := by
  have hmailed : ((w.store.db.routed id .localMail).map Delivery.recipient).Perm
      (((distinctRecipients config recipients).filter config.isLocal).map Address.localKey) := by
    have hrows := routed_perm hreach.keys id .localMail
    rw [haddressed.mailed] at hrows
    refine hrows.trans ?_
    unfold acceptRequest localKeys
    rw [List.partition_eq_filter_filter, henvelope]
    have hperm := btreeSet_perm
      (((distinctRecipients config recipients).filter config.isLocal).map Address.localKey)
    rw [(localKeys_nodup config recipients).dedup] at hperm
    exact hperm
  have hrelayed : ((w.store.db.routed id .relay).map Delivery.recipient).Perm
      (((distinctRecipients config recipients).filter fun r => !config.isLocal r).map
        Address.asStr) := by
    have hrows := routed_perm hreach.keys id .relay
    rw [haddressed.relayed] at hrows
    refine hrows.trans ?_
    unfold acceptRequest
    rw [List.partition_eq_filter_filter, henvelope]
    dsimp only
    rw [remoteKeys_relayAcceptance]
    have hperm := btreeSet_perm
      (((distinctRecipients config recipients).filter fun r => !config.isLocal r).map Address.asStr)
    rw [(remoteKeys_nodup config recipients).dedup] at hperm
    exact hperm
  refine ⟨hmailed.trans (localKeys_perm config recipients),
    hrelayed.trans (remoteKeys_perm config recipients), ?_, ?_, ?_⟩
  · intro a ha b hb
    refine localKey_ne_asStr (List.mem_filter.1 ha).2 ?_
    simpa using (List.mem_filter.1 hb).2
  · intro d hd _
    have hdirect := hreach.routes d hd
    cases hroute : d.route with
    | localMail => exact Or.inl rfl
    | relay => exact Or.inr rfl
    | direct => exact absurd hroute hdirect
  · rw [routed_length hreach.routes, henvelope,
      List.length_eq_length_filter_add config.isLocal (l := distinctRecipients config recipients)]
    have hlocal := hmailed.length_eq
    have hremote := hrelayed.length_eq
    rw [List.length_map, List.length_map] at hlocal hremote
    rw [hlocal, hremote]

end Rows

/-! ### The acknowledgement -/

namespace Phase

variable {p : Phase} {id : Text}

theorem concluded_accepted {wrote : Bool} {result : Except StoreError AcceptedMessage}
    (h : (concluded wrote result).2 = some (.accepted id)) :
    ∃ accepted, result = .ok accepted ∧ accepted.messageId = id := by
  cases result with
  | ok accepted =>
      cases h
      exact ⟨accepted, rfl, rfl⟩
  | error e =>
      unfold concluded at h
      dsimp only at h
      cases hreply : acceptReply e with
      | none =>
          rw [hreply] at h
          cases h
      | some reply =>
          rw [hreply] at h
          cases h

theorem beginData_accepted {input : BeginInput} : (p.beginData input).2 ≠ some (.accepted id) := by
  cases p with
  | idle =>
      unfold beginData replied
      dsimp only
      split_ifs <;> simp
  | _ => exact fun h => (by cases h)

theorem received_accepted {config : Config} {n : Nat} {result : Received} :
    (p.received config n result).2 ≠ some (.accepted id) := by
  cases p with
  | receiving operation principal envelope =>
      unfold received
      cases result with
      | elapsed => simp
      | finished result =>
          cases result with
          | error e => simp
          | ok received =>
              dsimp only
              split <;> simp
  | _ => exact fun h => (by cases h)

theorem revoked_accepted : p.revoked.2 ≠ some (.accepted id) := by
  cases p with
  | receiving operation principal envelope =>
      unfold revoked
      dsimp only
      split_ifs <;> simp
  | _ => exact fun h => (by cases h)

theorem unsent_accepted {wrote : Bool} : (p.unsent wrote).2 ≠ some (.accepted id) := by
  cases p with
  | dispatching request =>
      intro h
      obtain ⟨accepted, herror, -⟩ := concluded_accepted h
      cases herror
  | _ => exact fun h => (by cases h)

theorem hear_accepted {wrote : Bool} (h : (p.hear wrote).2 = some (.accepted id)) :
    ∃ operation accepted, p = .waiting operation (.answered (.ok accepted))
      ∧ accepted.messageId = id := by
  cases p with
  | waiting operation fate =>
      cases fate with
      | awaited => cases h
      | dropped =>
          obtain ⟨accepted, herror, -⟩ := concluded_accepted h
          cases herror
      | answered result =>
          obtain ⟨accepted, rfl, hid⟩ := concluded_accepted h
          exact ⟨operation, accepted, rfl, hid⟩
  | _ => cases h

end Phase

namespace Service

/-- Only a session that has heard of its message acknowledges it. -/
theorem writes_accepted {s : Service} {action : Action} {n : Nat} {id : Text}
    (h : s.writes action n (.accepted id)) :
    ∃ operation accepted, s.sessions n = .waiting operation (.answered (.ok accepted))
      ∧ accepted.messageId = id := by
  unfold writes at h
  cases action with
  | hear m wrote =>
      obtain ⟨rfl, hwritten⟩ := turn_writes h
      exact Phase.hear_accepted hwritten
  | connect m =>
      obtain ⟨rfl, hwritten⟩ := turn_writes h
      cases hphase : s.sessions n with
      | _ =>
          rw [hphase] at hwritten
          cases hwritten
  | beginData m input => exact absurd (turn_writes h).2 Phase.beginData_accepted
  | revoked m => exact absurd (turn_writes h).2 Phase.revoked_accepted
  | received m result => exact absurd (turn_writes h).2 Phase.received_accepted
  | elapse m =>
      obtain ⟨rfl, hwritten⟩ := turn_writes h
      cases hphase : s.sessions n with
      | _ =>
          rw [hphase] at hwritten
          cases hwritten
  | abort m =>
      obtain ⟨rfl, hwritten⟩ := turn_writes h
      cases hphase : s.sessions n with
      | _ =>
          rw [hphase] at hwritten
          cases hwritten
  | send m wrote =>
      change (s.send m wrote).2 = _ at h
      unfold send at h
      by_cases hopen : s.world.opened = false
      · rw [if_pos hopen] at h
        exact absurd (turn_writes h).2 Phase.unsent_accepted
      · rw [if_neg hopen] at h
        split at h
        · split_ifs at h
        · cases h
  | _ => cases h

/-- For whom a message is stays the same in every step. -/
theorem next_addressed {s : Service} {id : Text} {locals remotes : List Text}
    (h : s.world.store.db.Addressed id locals remotes) (action : Action) :
    (s.next action).world.store.db.Addressed id locals remotes := by
  rcases s.next_cases action with ⟨n, u, principal, envelope, -, -, hnext⟩ | hmoves
  · rw [hnext]
    exact h
  · revert hmoves
    generalize s.next action = t
    intro hmoves
    induction hmoves with
    | refl => exact h
    | tail _ hlast ih =>
        cases hlast with
        | sessions f hfalls => exact ih
        | emptied => exact ih
        | sent n request hphase => exact ih
        | call op hnamed => exact ih
        | store op hop => exact World.next_addressed ih op
        | called op rest hqueue => exact World.next_addressed ih op
        | performed request rest input hqueue answered => exact AcceptRequest.perform_keeps ih

end Service

namespace Front

variable {front : Front}

/-- At most one step of the service, and what that writes. -/
def Serves (front : Front) (result : Front × Option (Nat × Written)) : Prop :=
  (result.1.service = front.service ∧ result.2 = none)
    ∨ ∃ action, result.1.service = front.service.next action
      ∧ result.2 = (front.service.step action).2

theorem connect_serves (n : Nat) (role : Role) : front.Serves (front.connect n role, none) := by
  unfold Front.connect
  cases habsent : front.service.sessions n with
  | absent =>
      dsimp only
      split_ifs
      · refine Or.inr ⟨.connect n, rfl, ?_⟩
        change none = ((front.service.sessions n).connect.2.map (n, ·))
        rw [habsent]
        rfl
      · exact Or.inl ⟨rfl, rfl⟩
  | _ => exact Or.inl ⟨rfl, rfl⟩

theorem round_serves (n : Nat) (incoming : Incoming) (input : RoundInput) (staging : Staging) :
    front.Serves (front.round n incoming input staging) := by
  unfold Front.round
  split
  · split
    · exact Or.inl ⟨rfl, rfl⟩
    · dsimp only
      split
      · exact Or.inl ⟨rfl, rfl⟩
      · exact Or.inr ⟨_, rfl, rfl⟩
  · exact Or.inl ⟨rfl, rfl⟩

theorem step_serves (event : Event) : front.Serves (front.step event) := by
  cases event with
  | connect n role => exact connect_serves n role
  | round n incoming input staging => exact round_serves n incoming input staging
  | act action =>
      change front.Serves (if action.served then front.serve action else (front, none))
      split_ifs
      · exact Or.inr ⟨action, rfl, rfl⟩
      · exact Or.inl ⟨rfl, rfl⟩

theorem next_config (event : Event) : (front.next event).config = front.config := by
  cases event with
  | connect n role =>
      change (front.connect n role).config = _
      unfold Front.connect
      split
      · split_ifs <;> rfl
      · rfl
  | round n incoming input staging =>
      change (front.round n incoming input staging).1.config = _
      unfold Front.round
      split
      · split
        · rfl
        · dsimp only
          split <;> rfl
      · rfl
  | act action =>
      change (if action.served then front.serve action else (front, none)).1.config = _
      split_ifs <;> rfl

theorem run_config (events : List Event) : (front.run events).config = front.config :=
  Runs.invariant (fun other : Front => other.config = front.config) rfl
    (fun _ event h => (next_config event).trans h) events

theorem next_addressed {id : Text} {locals remotes : List Text}
    (h : front.service.world.store.db.Addressed id locals remotes) (event : Event) :
    (front.next event).service.world.store.db.Addressed id locals remotes := by
  rcases front.step_serves event with ⟨hsame, -⟩ | ⟨action, hnext, -⟩
  · rw [next, hsame]
    exact h
  · rw [next, hnext]
    exact Service.next_addressed h action

theorem run_addressed {id : Text} {locals remotes : List Text}
    (h : front.service.world.store.db.Addressed id locals remotes) (events : List Event) :
    (front.run events).service.world.store.db.Addressed id locals remotes :=
  Runs.invariant (fun front : Front => front.service.world.store.db.Addressed id locals remotes) h
    (fun _ event h => next_addressed h event) events

/-- When DATA is answered 250, then and ever after the message has exactly one delivery for each
recipient that was accepted since the MAIL of its transaction. -/
theorem acknowledged_recipients (config : SessionConfig) (server : LabServer) (root : Text)
    (maxMessageBytes : Nat) (events later : List Event) (event : Event) (n : Nat) (id : Text)
    (hwrites : ((Front.init config server root maxMessageBytes).run events).writes event n
      (.accepted id)) :
    ∃ talk before mail since data envelope,
      ((Front.init config server root maxMessageBytes).run events).talks n = some talk
        ∧ talk.log = before ++ mail :: (since ++ [data])
        ∧ data.command? = some .data ∧ data.outcome.begun = some envelope
        ∧ OpenSince (before ++ mail :: since) envelope.sender mail since
        ∧ Responsible config.toConfig
          ((Front.init config server root maxMessageBytes).run
            (events ++ event :: later)).service.world.store.db id (accepted since) envelope := by
  have hsound := sound_run config server root maxMessageBytes events
  have hlater := (sound_run config server root maxMessageBytes (events ++ event :: later)).booked
  have hrun : (Front.init config server root maxMessageBytes).run (events ++ event :: later)
      = ((Front.init config server root maxMessageBytes).run events).run (event :: later) :=
    Runs.run_append events (event :: later)
  have hconfig : ((Front.init config server root maxMessageBytes).run events).config = config :=
    run_config events
  revert hsound hwrites hlater hrun hconfig
  generalize (Front.init config server root maxMessageBytes).run events = front
  generalize (Front.init config server root maxMessageBytes).run (events ++ event :: later) = after
  intro hwrites hsound hlater hrun hconfig
  -- the session that acknowledges has heard of the request its DATA led to
  obtain ⟨action, haction⟩ : ∃ action, front.service.writes action n (.accepted id) := by
    rcases front.step_serves event with ⟨-, hnone⟩ | ⟨action, -, hwritten⟩
    · rw [writes, hnone] at hwrites
      cases hwrites
    · exact ⟨action, hwritten.symm.trans hwrites⟩
  obtain ⟨operation, accepted, hphase, rfl⟩ := Service.writes_accepted haction
  have hbooked := hsound.booked.phases n
  rw [hphase] at hbooked
  obtain ⟨-, request, ⟨principal, envelope, operation', message, identity, hbegun, rfl, -⟩,
    haddressed⟩ := hbooked
  obtain ⟨talk, connection, past, data, mail, since, htalk, -, hlog, hcommand, hdata, hopened⟩ :=
    hsound.begun_opened hbegun
  obtain ⟨before, hpast⟩ := hopened.opened.split
  refine ⟨talk, before, mail, since, data, envelope, htalk, ?_, hcommand, hdata, ?_, ?_⟩
  · rw [hlog, hpast, List.append_assoc, List.cons_append]
  · rw [← hpast]
    exact hopened.opened
  · have hrecipients := hopened.recipients
    rw [(hsound.talks n talk htalk).2, hconfig] at hrecipients
    rw [hsound.config, hconfig] at haddressed
    have hkept := run_addressed haddressed (event :: later)
    rw [← hrun] at hkept
    exact responsible hlater.reachable hrecipients hkept

end Front

namespace Sample

def sessionConfig : SessionConfig :=
  { Sample.config with
    hostname := ascii "b.c"
    messageBytes := 1000
    recipientsPerMessage := 10
    mode := .disabled }

/-- Every write succeeds and every local recipient exists. -/
def roundInput : RoundInput where
  wrote := true
  response := none
  authenticated := fun _ => .error .denied
  authorizeSender := fun _ _ => .ok false
  recipientExists := fun _ => .ok true
  permit := true
  certified := true
  upgraded := true

def say (line : String) : Front.Event :=
  .round 0 (.line (ascii line)) roundInput ⟨true, true, Rustymail.Sample.operationId, true, true⟩

/-- A client names one account in two spellings. -/
def dialogue : List Front.Event :=
  [.act (.call (.createAccount Rustymail.Sample.recipient 100 Rustymail.Sample.reading
      (fun _ => 1) {})),
    .act (.work ⟨Rustymail.Sample.freshIds, Rustymail.Sample.reading, {}⟩ false),
    .connect 0 .receiver,
    say "HELO x", say "mail FROM:<>", say "RCPT TO:<a@b.c>", say "RCPT TO:<A@B.c>", say "DATA",
    .act (.received 0 (.finished (.ok (Rustymail.Sample.prepared, none)))),
    .act (.send 0 true),
    .act (.work ⟨Rustymail.Sample.freshIds, Rustymail.Sample.reading, {}⟩ false)]

theorem dialogue_acknowledged :
    ∃ talk before mail since data envelope,
      ((Front.init sessionConfig .bindWithRuntime [] 1000).run dialogue).talks 0 = some talk
        ∧ talk.log = before ++ mail :: (since ++ [data])
        ∧ data.command? = some .data ∧ data.outcome.begun = some envelope
        ∧ OpenSince (before ++ mail :: since) envelope.sender mail since
        ∧ Responsible sessionConfig.toConfig
          ((Front.init sessionConfig .bindWithRuntime [] 1000).run
            (dialogue ++ [.act (.hear 0 true)])).service.world.store.db
          Rustymail.Sample.messageId.text (accepted since) envelope :=
  Front.acknowledged_recipients sessionConfig .bindWithRuntime [] 1000 dialogue []
    (.act (.hear 0 true)) 0 Rustymail.Sample.messageId.text (by
      unfold Front.writes
      decide)

end Sample

end Server

end Rustymail
