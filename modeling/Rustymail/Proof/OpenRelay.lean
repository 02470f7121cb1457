import Rustymail.Proof.Bookings
import Rustymail.Proof.ConnectionLemmas

/-!
# No open relay

A transaction is always the one that the last accepted MAIL opened, with the recipients accepted
since. On a submission that MAIL was authorised for the principal the connection still has, and a
recipient of another domain was accepted only where relaying is allowed.
-/

namespace Rustymail.Server

open Session (same)

/-! ### The transaction and the log -/

/-- The log ends in a transaction: a MAIL from this sender that was answered 250, and lines that have
not ended it. -/
structure OpenSince (log : List Entry) (sender : Option Address) (mail : Entry) (since : List Entry) :
    Prop where
  split : ∃ before, log = before ++ mail :: since
  command : ∃ size body, mail.command? = some (.mail sender size body)
  reply : mail.replies 250 = true
  kept : ∀ entry ∈ since, entry.resets = false

/-- The principal may send as this author, and the store said so when the MAIL came. -/
def Authorised (mail : Entry) (connection : Connection) (sender : Option Address) : Prop :=
  ∃ principal author, connection.principal = some principal ∧ sender = some author
    ∧ .authorize principal author (.ok true) ∈ mail.outcome.effects

/-- Where a transaction comes from. -/
structure Opened (context : SessionContext) (log : List Entry) (connection : Connection)
    (envelope : Envelope) (mail : Entry) (since : List Entry) : Prop where
  opened : OpenSince log envelope.sender mail since
  recipients : envelope.recipients
    = Distinct.firsts (same context.config.localDomain) (accepted since)
  submission : context.role.submission = true →
    connection.encrypted = true ∧ Authorised mail connection envelope.sender
  relayed : ∀ recipient ∈ envelope.recipients,
    context.config.isLocal recipient = true ∨ connection.MayRelay context

/-- What a log says about the connection it has led to. -/
structure Standing (context : SessionContext) (log : List Entry) (connection : Connection) : Prop where
  receiver : context.role.submission = false → connection.principal = none
  transaction : ∀ envelope, connection.session.transaction = some envelope →
    ∃ mail since, Opened context log connection envelope mail since

theorem accepted_append (since : List Entry) (entry : Entry) :
    accepted (since ++ [entry]) = accepted since ++ entry.accepted?.toList := by
  unfold accepted
  rw [List.filterMap_append, List.filterMap_cons, List.filterMap_nil]
  cases entry.accepted? with
  | none => rfl
  | some address => rfl

theorem accepted?_of_rcpt {entry : Entry} {address : Address}
    (hcommand : entry.command? = some (.rcpt address)) (hreply : entry.replies 250 = true) :
    entry.accepted? = some address := by
  unfold Entry.accepted?
  rw [hcommand]
  exact if_pos hreply

/-- A recipient ends no transaction. -/
theorem resets_of_rcpt {entry : Entry} {address : Address}
    (hcommand : entry.command? = some (.rcpt address)) : entry.resets = false := by
  have hmail : entry.isMail = false := by
    unfold Entry.command? at hcommand
    cases hparse : parseCommand entry.bytes with
    | error e =>
        rw [hparse] at hcommand
        cases hcommand
    | ok command =>
        rw [hparse] at hcommand
        rw [Bool.eq_false_iff]
        intro hyes
        obtain ⟨sender, size, body, rfl⟩ := (parseCommand_mail hparse).1 hyes
        cases hcommand
  unfold Entry.resets
  rw [hmail, hcommand]
  rfl

namespace Connection

variable {context : SessionContext} {connection next : Connection}

theorem Alike.mayRelay (h : connection.Alike next) (hrelay : connection.MayRelay context) :
    next.MayRelay context := by
  unfold MayRelay at hrelay ⊢
  rw [h.encrypted, h.principal]
  exact hrelay

theorem Alike.authorised (h : connection.Alike next) {mail : Entry} {sender : Option Address}
    (hauthorised : Authorised mail connection sender) : Authorised mail next sender := by
  unfold Authorised at hauthorised ⊢
  rw [h.principal]
  exact hauthorised

end Connection

section Steps

variable {context : SessionContext} {log : List Entry} {connection next : Connection}
variable {envelope : Envelope} {mail entry : Entry} {since : List Entry}

theorem OpenSince.later {sender : Option Address} (h : OpenSince log sender mail since)
    (hresets : entry.resets = false) :
    OpenSince (log ++ [entry]) sender mail (since ++ [entry]) := by
  obtain ⟨before, rfl⟩ := h.split
  refine { h with split := ⟨before, by simp⟩, kept := ?_ }
  intro other hother
  rcases List.mem_append.1 hother with hold | hnew
  · exact h.kept other hold
  · rw [List.mem_singleton.1 hnew]
    exact hresets

/-- The transaction goes on to the next connection, perhaps with one recipient more. -/
theorem Opened.later (h : Opened context log connection envelope mail since)
    (hresets : entry.resets = false) (halike : connection.Alike next) {envelope' : Envelope}
    (hsender : envelope'.sender = envelope.sender)
    (hrecipients : envelope'.recipients
      = Distinct.firsts (same context.config.localDomain) (accepted (since ++ [entry])))
    (hrelayed : ∀ recipient ∈ envelope'.recipients, recipient ∈ envelope.recipients
      ∨ context.config.isLocal recipient = true ∨ connection.MayRelay context) :
    Opened context (log ++ [entry]) next envelope' mail (since ++ [entry]) where
  opened := by
    rw [hsender]
    exact h.opened.later hresets
  recipients := hrecipients
  submission hsubmission := by
    rw [halike.encrypted, hsender]
    exact ⟨(h.submission hsubmission).1, halike.authorised (h.submission hsubmission).2⟩
  relayed recipient hmem := by
    rcases hrelayed recipient hmem with hold | hlocal | hrelay
    · exact (h.relayed recipient hold).imp_right halike.mayRelay
    · exact Or.inl hlocal
    · exact Or.inr (halike.mayRelay hrelay)

theorem Standing.of_none (hreceiver : context.role.submission = false → next.principal = none)
    (hnone : next.session.transaction = none) : Standing context log next where
  receiver := hreceiver
  transaction envelope h := by
    rw [hnone] at h
    cases h

/-- **One round keeps the account of the transaction.** -/
theorem Standing.turn (h : Standing context log entry.before) (hturns : entry.Turns context next) :
    Standing context (log ++ [entry]) next := by
  have hreceiver : entry.before.Alike next →
      context.role.submission = false → next.principal = none :=
    fun halike hrole => halike.principal.trans (h.receiver hrole)
  cases hturns with
  | keeps hbegun haccepted hresets hsame halike =>
      refine ⟨hreceiver halike, fun envelope htransaction => ?_⟩
      obtain ⟨mail, since, hopened⟩ := h.transaction envelope (hsame ▸ htransaction)
      -- only an unencrypted submission could have ignored a MAIL, and it has no transaction
      have hkept : entry.resets = false := by
        rw [Bool.eq_false_iff]
        intro hyes
        obtain ⟨hsubmission, hplain⟩ := hresets hyes
        have hencrypted := (hopened.submission hsubmission).1
        rw [hplain] at hencrypted
        cases hencrypted
      refine ⟨mail, since ++ [entry], hopened.later hkept halike rfl ?_ fun _ hmem => Or.inl hmem⟩
      rw [accepted_append, haccepted, Option.toList_none, List.append_nil]
      exact hopened.recipients
  | clears hbegun hmail hnone halike => exact .of_none (hreceiver halike) hnone
  | identifies hbegun hmail hsubmission hnone =>
      refine .of_none (fun hrole => ?_) hnone
      rw [hsubmission] at hrole
      cases hrole
  | upgrades hbegun hmail hnone hprincipal => exact .of_none (fun _ => hprincipal) hnone
  | begins envelope hbegun hcommand htransaction hnone halike =>
      exact .of_none (hreceiver halike) hnone
  | opens sender size body hbegun hcommand hreply htransaction hauthorized halike =>
      refine ⟨hreceiver halike, fun envelope henvelope => ?_⟩
      rw [htransaction, Option.some.injEq] at henvelope
      subst henvelope
      refine ⟨entry, [], ⟨⟨log, rfl⟩, ⟨size, body, hcommand⟩, hreply, by simp⟩, rfl, ?_, by simp⟩
      intro hsubmission
      obtain ⟨hencrypted, principal, author, hprincipal, hsender, heffect⟩ := hauthorized hsubmission
      refine ⟨halike.encrypted.trans hencrypted, principal, author, ?_, hsender, heffect⟩
      exact halike.principal.trans hprincipal
  | repeats address envelope hbegun hcommand hreply htransaction hany hsame halike =>
      refine ⟨hreceiver halike, fun envelope' henvelope => ?_⟩
      rw [hsame, Option.some.injEq] at henvelope
      subst henvelope
      obtain ⟨mail, since, hopened⟩ := h.transaction envelope htransaction
      refine ⟨mail, since ++ [entry],
        hopened.later (resets_of_rcpt hcommand) halike rfl ?_ fun _ hmem => Or.inl hmem⟩
      rw [hopened.recipients, Distinct.any_firsts Session.same_trans] at hany
      rw [accepted_append, accepted?_of_rcpt hcommand hreply, Option.toList_some,
        Distinct.firsts_append_singleton, if_pos hany]
      exact hopened.recipients
  | accepts address envelope hbegun hcommand hreply htransaction hany hroute hnext halike =>
      refine ⟨hreceiver halike, fun envelope' henvelope => ?_⟩
      rw [hnext, Option.some.injEq] at henvelope
      subst henvelope
      obtain ⟨mail, since, hopened⟩ := h.transaction envelope htransaction
      refine ⟨mail, since ++ [entry],
        hopened.later (resets_of_rcpt hcommand) halike rfl ?_ fun recipient hmem => ?_⟩
      · rw [hopened.recipients, Distinct.any_firsts Session.same_trans] at hany
        rw [accepted_append, accepted?_of_rcpt hcommand hreply, Option.toList_some,
          Distinct.firsts_append_singleton, if_neg (Bool.eq_false_iff.1 hany)]
        rw [← hopened.recipients]
      · rcases List.mem_append.1 hmem with hold | hnew
        · exact Or.inl hold
        · rw [List.mem_singleton.1 hnew]
          exact Or.inr hroute

end Steps

/-! ### Whole sessions -/

/-- Every entry was a round of the session, and every connection stood in its log. -/
structure Talk.Sound (talk : Talk) : Prop where
  entries : ∀ before entry later, talk.log = before ++ entry :: later →
    Standing talk.context before entry.before
      ∧ ∃ input, entry.outcome = entry.before.round talk.context input entry.incoming
  current : ∀ connection, talk.connection = some connection →
    Standing talk.context talk.log connection

theorem Talk.Sound.start (context : SessionContext) : (Talk.start context).Sound where
  entries before entry later h := by
    have hnil : ([] : List Entry) = before ++ entry :: later := h
    simp at hnil
  current connection h := by
    cases h
    exact .of_none (fun _ => rfl) rfl

theorem Talk.Sound.record {talk : Talk} (h : talk.Sound) {connection : Connection}
    (hconnection : talk.connection = some connection) (input : RoundInput) (incoming : Incoming) :
    (talk.record ⟨connection, incoming, connection.round talk.context input incoming⟩).Sound where
  entries before entry later hlog := by
    have hlog' : talk.log ++ [⟨connection, incoming, connection.round talk.context input incoming⟩]
        = before ++ entry :: later := hlog
    rcases List.eq_nil_or_concat later with rfl | ⟨rest, last, rfl⟩
    · obtain ⟨rfl, hlast⟩ := List.append_inj' hlog' rfl
      cases hlast
      exact ⟨h.current connection hconnection, input, rfl⟩
    · rw [List.concat_eq_append, ← List.cons_append, ← List.append_assoc] at hlog'
      obtain ⟨hbefore, -⟩ := List.append_inj' hlog' rfl
      exact h.entries before entry rest hbefore
  current next hnext := (h.current connection hconnection).turn (Connection.round_turns hnext)

theorem Talk.Sound.turns {talk : Talk} (h : talk.Sound) {before later : List Entry} {entry : Entry}
    (hlog : talk.log = before ++ entry :: later) {next : Connection}
    (hnext : entry.outcome.connection = some next) : entry.Turns talk.context next := by
  obtain ⟨-, input, hround⟩ := h.entries before entry later hlog
  obtain ⟨connection, incoming, outcome⟩ := entry
  dsimp only at hround hnext
  rw [hround] at hnext ⊢
  exact Connection.round_turns hnext

namespace Service

theorem next_config (s : Service) (action : Action) : (s.next action).config = s.config := by
  rcases s.next_cases action with ⟨n, u, principal, envelope, -, -, hnext⟩ | hmoves
  · rw [hnext]
  · revert hmoves
    generalize s.next action = t
    intro hmoves
    induction hmoves with
    | refl => rfl
    | tail _ hlast ih =>
        cases hlast with
        | _ => exact ih

end Service

namespace Front

/-- The session's last line was a DATA that began with this envelope, for this principal. -/
def Begun (front : Front) (n : Nat) (principal : Option Principal) (envelope : Envelope) : Prop :=
  ∃ talk connection before data, front.talks n = some talk ∧ talk.connection = some connection
    ∧ connection.principal = principal ∧ talk.log = before ++ [data]
    ∧ data.outcome.connection = some connection ∧ data.outcome.begun = some envelope

structure Sound (front : Front) : Prop where
  talks : ∀ n talk, front.talks n = some talk → talk.Sound ∧ talk.context.config = front.config
  config : front.service.config = front.config.toConfig
  booked : front.service.Booked front.Begun

variable {front : Front}

theorem Sound.init (config : SessionConfig) (server : LabServer) (root : Text)
    (maxMessageBytes : Nat) : (Front.init config server root maxMessageBytes).Sound where
  talks n talk h := by cases h
  config := rfl
  booked := ⟨⟨root, maxMessageBytes, .refl⟩, fun n => rfl⟩

theorem Sound.serve (h : front.Sound) (action : Action)
    (hbegins : ∀ n input, action ≠ .beginData n input) : (front.serve action).1.Sound where
  talks := h.talks
  config := (front.service.next_config action).trans h.config
  booked := Service.next_booked h.booked action hbegins

theorem Sound.beginData (h : front.Sound) {n : Nat} {input : BeginInput}
    (hbegun : front.Begun n input.principal input.envelope) :
    (front.serve (.beginData n input)).1.Sound where
  talks := h.talks
  config := (front.service.next_config (.beginData n input)).trans h.config
  booked := Service.beginData_booked h.booked n input hbegun

theorem Sound.connect (h : front.Sound) (n : Nat) (role : Role) : (front.connect n role).Sound := by
  unfold Front.connect
  cases habsent : front.service.sessions n with
  | absent =>
      dsimp only
      split_ifs with hlistens
      · refine ⟨?_, (front.service.next_config _).trans h.config, ?_⟩
        · refine (Function.forall_update_iff front.talks fun m told =>
            ∀ talk, told = some talk → talk.Sound ∧ talk.context.config = front.config).2
            ⟨?_, fun m _ => h.talks m⟩
          rintro talk ⟨⟩
          exact ⟨.start _, rfl⟩
        · refine (Service.next_booked h.booked (.connect n) (by simp)).rebook ?_
          intro m _ hidle principal envelope hbegun
          have hm : m ≠ n := by
            rintro rfl
            refine hidle ?_
            change Function.update front.service.sessions m _ m = _
            rw [Function.update_self, habsent]
          obtain ⟨talk, connection, before, data, htalk, hrest⟩ := hbegun
          refine ⟨talk, connection, before, data, ?_, hrest⟩
          change Function.update front.talks n _ m = _
          rw [Function.update_of_ne hm]
          exact htalk
      · exact h
  | _ => exact h

/-- A session between transactions goes on with its next line. -/
theorem Sound.recorded (h : front.Sound) {n : Nat} {talk : Talk} {connection : Connection}
    (hidle : front.service.sessions n = .idle) (htalk : front.talks n = some talk)
    (hconnection : talk.connection = some connection) (input : RoundInput) (incoming : Incoming) :
    Sound { front with
      talks := Function.update front.talks n (some (talk.record
        ⟨connection, incoming, connection.round talk.context input incoming⟩)) } := by
  obtain ⟨hsound, hconfig⟩ := h.talks n talk htalk
  refine ⟨?_, h.config, ?_⟩
  · refine (Function.forall_update_iff front.talks fun m told =>
      ∀ talk, told = some talk → talk.Sound ∧ talk.context.config = front.config).2
      ⟨?_, fun m _ => h.talks m⟩
    rintro other ⟨⟩
    exact ⟨hsound.record hconnection input incoming, hconfig⟩
  · refine h.booked.rebook ?_
    intro m _ hbusy principal envelope hbegun
    have hm : m ≠ n := by
      rintro rfl
      exact hbusy hidle
    obtain ⟨other, current, before, data, hother, hrest⟩ := hbegun
    refine ⟨other, current, before, data, ?_, hrest⟩
    change Function.update front.talks n _ m = _
    rw [Function.update_of_ne hm]
    exact hother

theorem Sound.round (h : front.Sound) (n : Nat) (incoming : Incoming) (input : RoundInput)
    (staging : Staging) : (front.round n incoming input staging).1.Sound := by
  unfold Front.round
  cases hidle : front.service.sessions n with
  | idle =>
      cases htalk : front.talks n with
      | none => exact h
      | some talk =>
          dsimp only
          cases hconnection : talk.connection with
          | none => exact h
          | some connection =>
              dsimp only
              have hrecorded := h.recorded hidle htalk hconnection input incoming
              cases hnext : (connection.round talk.context input incoming).connection with
              | none =>
                  simp only [Outcome.action?, hnext]
                  exact hrecorded.serve (.abort n) (by simp)
              | some next =>
                  cases hbegun : (connection.round talk.context input incoming).begun with
                  | none =>
                      simp only [Outcome.action?, hnext, hbegun]
                      exact hrecorded
                  | some envelope =>
                      simp only [Outcome.action?, hnext, hbegun]
                      refine hrecorded.beginData ?_
                      exact ⟨_, next, talk.log, _, Function.update_self .., hnext, rfl, rfl, hnext,
                        hbegun⟩
  | _ => exact h

theorem Sound.next (h : front.Sound) (event : Event) : (front.next event).Sound := by
  cases event with
  | connect n role => exact h.connect n role
  | round n incoming input staging => exact h.round n incoming input staging
  | act action =>
      change (if action.served then front.serve action else (front, none)).1.Sound
      split_ifs with hserved
      · refine h.serve action ?_
        rintro n input rfl
        cases hserved
      · exact h

theorem sound_run (config : SessionConfig) (server : LabServer) (root : Text) (maxMessageBytes : Nat)
    (events : List Event) : ((Front.init config server root maxMessageBytes).run events).Sound :=
  Runs.invariant Sound (.init config server root maxMessageBytes)
    (fun _ event h => h.next event) events

/-- The DATA that a session's transaction began with, and the MAIL and the recipients before it. -/
theorem Sound.begun_opened (h : front.Sound) {n : Nat} {principal : Option Principal}
    {envelope : Envelope} (hbegun : front.Begun n principal envelope) :
    ∃ talk connection before data mail since, front.talks n = some talk
      ∧ talk.connection = some connection ∧ talk.log = before ++ [data]
      ∧ data.command? = some .data ∧ data.outcome.begun = some envelope
      ∧ Opened talk.context before connection envelope mail since := by
  obtain ⟨talk, connection, before, data, htalk, hconnection, -, hlog, hnext, hdata⟩ := hbegun
  have hsound := (h.talks n talk htalk).1
  obtain ⟨hstanding, -⟩ := hsound.entries before data [] hlog
  cases hsound.turns hlog hnext with
  | begins envelope' hbegun' hcommand htransaction hnone halike =>
      rw [hdata, Option.some.injEq] at hbegun'
      subst hbegun'
      obtain ⟨mail, since, hopened⟩ := hstanding.transaction envelope htransaction
      refine ⟨talk, connection, before, data, mail, since, htalk, hconnection, hlog, hcommand, hdata,
        hopened.opened, hopened.recipients, ?_, ?_⟩
      · intro hsubmission
        rw [halike.encrypted]
        exact ⟨(hopened.submission hsubmission).1,
          halike.authorised (hopened.submission hsubmission).2⟩
      · intro recipient hmem
        exact (hopened.relayed recipient hmem).imp_right halike.mayRelay
  | keeps hnone => rw [hdata] at hnone; cases hnone
  | clears hnone => rw [hdata] at hnone; cases hnone
  | identifies hnone => rw [hdata] at hnone; cases hnone
  | upgrades hnone => rw [hdata] at hnone; cases hnone
  | opens _ _ _ hnone => rw [hdata] at hnone; cases hnone
  | repeats _ _ hnone => rw [hdata] at hnone; cases hnone
  | accepts _ _ hnone => rw [hdata] at hnone; cases hnone

end Front

/-! ### The relay stays closed -/

/-- The recipients of a request that `StoreClient::accept` is called with. -/
def AcceptRequest.recipients (request : AcceptRequest) : List Address :=
  request.plan.recipients ++ request.relay.elim [] RelayAcceptance.recipients

theorem mem_of_mem_acceptRequest {config : Config} {n : Nat} {operation : Uuid} {envelope : Envelope}
    {message : PreparedMessage} {identity : Option SubmissionIdentity} {recipient : Address}
    (h : recipient ∈ (acceptRequest config n operation envelope message identity).recipients) :
    recipient ∈ envelope.recipients := by
  unfold AcceptRequest.recipients acceptRequest at h
  rw [List.partition_eq_filter_filter] at h
  dsimp only at h
  rcases List.mem_append.1 h with hlocal | hremote
  · exact List.mem_of_mem_filter hlocal
  · unfold relayAcceptance at hremote
    by_cases hnone : (envelope.recipients.filter (not ∘ config.isLocal)).isEmpty = true
    · rw [if_pos hnone] at hremote
      cases hremote
    · rw [if_neg hnone] at hremote
      exact List.mem_of_mem_filter hremote

namespace Front

/-- Nobody relays or submits who may not. -/
structure Guarded (front : Front) : Prop where
  /-- A submission has a transaction only for a principal that was allowed its sender at MAIL. -/
  submission : ∀ n talk connection envelope, front.talks n = some talk →
    talk.connection = some connection → talk.context.role.submission = true →
    connection.session.transaction = some envelope →
    connection.encrypted = true ∧ ∃ mail since, OpenSince talk.log envelope.sender mail since
      ∧ Authorised mail connection envelope.sender
  /-- A recipient outside the local domains is handed to the store only for a submission that may
  relay. -/
  accept : ∀ n request recipient, front.service.sessions n = .dispatching request →
    recipient ∈ request.recipients → front.config.isLocal recipient = false →
    ∃ talk connection, front.talks n = some talk ∧ talk.connection = some connection
      ∧ front.config.mode = .relay ∧ talk.context.role.submission = true
      ∧ connection.encrypted = true ∧ connection.principal.isSome = true
  receiver : ∀ n talk connection, front.talks n = some talk → talk.connection = some connection →
    talk.context.role = .receiver → connection.principal = none
  credentials : ∀ n talk entry encoded, front.talks n = some talk → entry ∈ talk.log →
    .decode encoded ∈ entry.outcome.effects →
    entry.before.encrypted = true ∧ talk.context.role.submission = true
  /-- A MAIL that is not answered 250 leaves no transaction. -/
  refused : ∀ n talk entry connection, front.talks n = some talk → entry ∈ talk.log →
    entry.isMail = true → entry.replies 250 = false → entry.outcome.connection = some connection →
    connection.session.transaction = none

variable {front : Front}

theorem Sound.accept_guarded (h : front.Sound) {n : Nat} {request : AcceptRequest}
    {recipient : Address} (hphase : front.service.sessions n = .dispatching request)
    (hmem : recipient ∈ request.recipients) (hremote : front.config.isLocal recipient = false) :
    ∃ talk connection, front.talks n = some talk ∧ talk.connection = some connection
      ∧ front.config.mode = .relay ∧ talk.context.role.submission = true
      ∧ connection.encrypted = true ∧ connection.principal.isSome = true := by
  have hbooked := h.booked.phases n
  rw [hphase] at hbooked
  obtain ⟨-, principal, envelope, operation, message, identity, hbegun, rfl, -⟩ := hbooked
  obtain ⟨talk, connection, before, data, mail, since, htalk, hconnection, -, -, -, hopened⟩ :=
    h.begun_opened hbegun
  have hconfig := (h.talks n talk htalk).2
  refine ⟨talk, connection, htalk, hconnection, ?_⟩
  rcases hopened.relayed recipient (mem_of_mem_acceptRequest hmem) with hlocal | hrelay
  · rw [hconfig, hremote] at hlocal
    cases hlocal
  · unfold Connection.MayRelay at hrelay
    rw [hconfig] at hrelay
    exact hrelay

theorem Sound.refused_guarded (h : front.Sound) {n : Nat} {talk : Talk} {entry : Entry}
    {next : Connection} (htalk : front.talks n = some talk) (hmem : entry ∈ talk.log)
    (hmail : entry.isMail = true) (hreply : entry.replies 250 = false)
    (hnext : entry.outcome.connection = some next) : next.session.transaction = none := by
  have hsound := (h.talks n talk htalk).1
  obtain ⟨before, later, hlog⟩ := List.append_of_mem hmem
  obtain ⟨hstanding, -⟩ := hsound.entries before entry later hlog
  cases hsound.turns hlog hnext with
  | keeps hbegun haccepted hresets hsame halike =>
      -- such a MAIL came over an unencrypted submission, which has no transaction
      obtain ⟨hsubmission, hplain⟩ := hresets (by
        unfold Entry.resets
        rw [hmail, Bool.true_or])
      rw [hsame]
      by_contra hsome
      obtain ⟨envelope, henvelope⟩ := Option.ne_none_iff_exists'.1 hsome
      obtain ⟨mail, since, hopened⟩ := hstanding.transaction envelope henvelope
      have hencrypted := (hopened.submission hsubmission).1
      rw [hplain] at hencrypted
      cases hencrypted
  | clears hbegun _ hnone _ => exact hnone
  | identifies hbegun _ _ hnone => exact hnone
  | upgrades hbegun _ hnone _ => exact hnone
  | begins _ _ _ _ hnone _ => exact hnone
  | opens _ _ _ _ _ hpositive => rw [hreply] at hpositive; cases hpositive
  | repeats _ _ _ _ hpositive => rw [hreply] at hpositive; cases hpositive
  | accepts _ _ _ _ hpositive => rw [hreply] at hpositive; cases hpositive

/-- No role, configuration or sequence of lines, AUTH outcomes, upgrades and store answers opens the
relay. -/
theorem no_open_relay (config : SessionConfig) (server : LabServer) (root : Text)
    (maxMessageBytes : Nat) (events : List Event) :
    ((Front.init config server root maxMessageBytes).run events).Guarded := by
  have hsound := sound_run config server root maxMessageBytes events
  refine ⟨?_, ?_, ?_, ?_, ?_⟩
  · intro n talk connection envelope htalk hconnection hsubmission henvelope
    obtain ⟨mail, since, hopened⟩ :=
      ((hsound.talks n talk htalk).1.current connection hconnection).transaction envelope henvelope
    obtain ⟨hencrypted, hauthorised⟩ := hopened.submission hsubmission
    exact ⟨hencrypted, mail, since, hopened.opened, hauthorised⟩
  · intro n request recipient hphase hmem hremote
    exact hsound.accept_guarded hphase hmem hremote
  · intro n talk connection htalk hconnection hrole
    refine ((hsound.talks n talk htalk).1.current connection hconnection).receiver ?_
    rw [hrole]
    rfl
  · intro n talk entry encoded htalk hmem hdecode
    obtain ⟨before, later, hlog⟩ := List.append_of_mem hmem
    obtain ⟨-, input, hround⟩ := (hsound.talks n talk htalk).1.entries before entry later hlog
    have hdecodes : entry.outcome.decodes = true :=
      List.any_eq_true.2 ⟨.decode encoded, hdecode, rfl⟩
    rw [hround] at hdecodes
    obtain ⟨hsubmission, hencrypted⟩ := Connection.round_decodes hdecodes
    exact ⟨hencrypted, hsubmission⟩
  · intro n talk entry connection htalk hmem hmail hreply hnext
    exact hsound.refused_guarded htalk hmem hmail hreply hnext

end Front

end Rustymail.Server
