import Rustymail.Proof.SessionLemmas
import Rustymail.Server.Front

/-!
# What a line can do to a connection

Every round that leaves a connection is one of eight kinds. The kinds say what becomes of the
transaction, of encryption and of the principal; how a command came to be refused does not matter
any more.
-/

namespace Rustymail.Server

open Checked
open Session (same)

/-! ### Commands and verbs -/

theorem parseMail_eq_ok {args : Text} {command : Command} (h : parseMail args = .ok command) :
    ∃ sender size body, command = .mail sender size body := by
  unfold parseMail at h
  obtain ⟨path, -, h⟩ := bind_eq_ok.1 h
  obtain ⟨sender, -, h⟩ := bind_eq_ok.1 h
  obtain ⟨parameters, -, h⟩ := bind_eq_ok.1 h
  cases h
  exact ⟨_, _, _, rfl⟩

theorem parseRcpt_eq_ok {args : Text} {command : Command} (h : parseRcpt args = .ok command) :
    ∃ address, command = .rcpt address := by
  unfold parseRcpt at h
  obtain ⟨path, -, h⟩ := bind_eq_ok.1 h
  dsimp only at h
  split_ifs at h
  cases hparse : Address.parse path.1 with
  | none =>
      rw [hparse] at h
      cases h
  | some address =>
      rw [hparse] at h
      cases h
      exact ⟨address, rfl⟩

theorem bare_eq_ok {args : Text} {command command' : Command} (h : bare args command = .ok command') :
    command' = command := by
  unfold bare at h
  split_ifs at h
  cases h
  rfl

theorem parseHello_eq_ok {args : Text} {make : Text → Command} {command : Command}
    (h : parseHello args make = .ok command) : ∃ name, command = make name := by
  unfold parseHello at h
  split_ifs at h
  cases h
  exact ⟨args, rfl⟩

theorem isVerb_congr {verb : Text} {name : String}
    (h : eqIgnoreAsciiCase verb (ascii name) = true) (other : String) :
    eqIgnoreAsciiCase verb (ascii other) = eqIgnoreAsciiCase (ascii name) (ascii other) := by
  rw [eqIgnoreAsciiCase_iff] at h
  unfold eqIgnoreAsciiCase
  rw [h]

/-- The command is a MAIL exactly if the verb is. -/
theorem parseCommand_mail {bytes : Text} {command : Command} (h : parseCommand bytes = .ok command) :
    eqIgnoreAsciiCase (verbOf bytes) (ascii "MAIL") = true ↔
      ∃ sender size body, command = .mail sender size body := by
  unfold parseCommand at h
  by_cases hbad : isAscii bytes = false ∨ bytes.any isAsciiControl = true
  · rw [if_pos hbad] at h
    cases h
  rw [if_neg hbad] at h
  dsimp only at h
  constructor
  · intro hmail
    have hehlo : ¬ eqIgnoreAsciiCase (verbOf bytes) (ascii "EHLO") = true := by
      rw [isVerb_congr hmail]
      decide
    have hhelo : ¬ eqIgnoreAsciiCase (verbOf bytes) (ascii "HELO") = true := by
      rw [isVerb_congr hmail]
      decide
    rw [if_neg hehlo, if_neg hhelo, if_pos hmail] at h
    exact parseMail_eq_ok h
  · rintro ⟨sender, size, body, rfl⟩
    by_contra hmail
    rw [if_neg hmail] at h
    -- none of the other verbs makes a MAIL
    rcases ite_eq_ok h with ⟨-, h⟩ | ⟨-, h⟩
    · obtain ⟨name, hname⟩ := parseHello_eq_ok h
      cases hname
    rcases ite_eq_ok h with ⟨-, h⟩ | ⟨-, h⟩
    · obtain ⟨name, hname⟩ := parseHello_eq_ok h
      cases hname
    rcases ite_eq_ok h with ⟨-, h⟩ | ⟨-, h⟩
    · obtain ⟨address, haddress⟩ := parseRcpt_eq_ok h
      cases haddress
    rcases ite_eq_ok h with ⟨-, h⟩ | ⟨-, h⟩
    · cases bare_eq_ok h
    rcases ite_eq_ok h with ⟨-, h⟩ | ⟨-, h⟩
    · cases bare_eq_ok h
    rcases ite_eq_ok h with ⟨-, h⟩ | ⟨-, h⟩
    · cases h
    rcases ite_eq_ok h with ⟨-, h⟩ | ⟨-, h⟩
    · cases h
    rcases ite_eq_ok h with ⟨-, h⟩ | ⟨-, h⟩
    · rcases ite_eq_ok h with ⟨-, h⟩ | ⟨-, h⟩ <;> cases h
    rcases ite_eq_ok h with ⟨-, h⟩ | ⟨-, h⟩
    · cases bare_eq_ok h
    rcases ite_eq_ok h with ⟨-, h⟩ | ⟨-, h⟩
    · cases bare_eq_ok h
    · cases h

/-- AUTH is no command of `parse_command`. -/
theorem parseCommand_auth {bytes : Text} {command : Command} (h : parseCommand bytes = .ok command)
    (hauth : eqIgnoreAsciiCase (verbOf bytes) (ascii "AUTH") = true) : command = .unsupported := by
  unfold parseCommand at h
  by_cases hbad : isAscii bytes = false ∨ bytes.any isAsciiControl = true
  · rw [if_pos hbad] at h
    cases h
  rw [if_neg hbad] at h
  dsimp only at h
  have hother : ∀ name ∈ ["EHLO", "HELO", "MAIL", "RCPT", "DATA", "RSET", "NOOP", "HELP", "VRFY",
      "QUIT", "STARTTLS"], ¬ eqIgnoreAsciiCase (verbOf bytes) (ascii name) = true := by
    intro name
    rw [isVerb_congr hauth]
    revert name
    decide
  rw [if_neg (hother _ (by simp)), if_neg (hother _ (by simp)), if_neg (hother _ (by simp)),
    if_neg (hother _ (by simp)), if_neg (hother _ (by simp)), if_neg (hother _ (by simp)),
    if_neg (hother _ (by simp)), if_neg (hother _ (by simp)), if_neg (hother _ (by simp)),
    if_neg (hother _ (by simp)), if_neg (hother _ (by simp))] at h
  cases h
  rfl

/-! ### One round -/

/-- The domain part of `Config.isLocal`. -/
def Config.localDomain (config : Config) (domain : Text) : Bool :=
  config.localDomains.any fun d => eqIgnoreAsciiCase d domain

/-- The connection may send mail on to other servers. -/
def Connection.MayRelay (context : SessionContext) (connection : Connection) : Prop :=
  context.config.mode = .relay ∧ context.role.submission = true ∧ connection.encrypted = true
    ∧ connection.principal.isSome = true

/-- The same peer, as far as the server knows it. -/
structure Connection.Alike (connection next : Connection) : Prop where
  encrypted : next.encrypted = connection.encrypted
  principal : next.principal = connection.principal

/-- What a round can leave behind when it leaves a connection. -/
inductive Entry.Turns (context : SessionContext) (entry : Entry) (next : Connection) : Prop where
  | keeps (hbegun : entry.outcome.begun = none) (haccepted : entry.accepted? = none)
      (hresets : entry.resets = true →
        context.role.submission = true ∧ entry.before.encrypted = false)
      (hsame : next.session.transaction = entry.before.session.transaction)
      (halike : entry.before.Alike next)
  | clears (hbegun : entry.outcome.begun = none)
      (hmail : entry.isMail = true → entry.replies 250 = false)
      (hnone : next.session.transaction = none) (halike : entry.before.Alike next)
  | identifies (hbegun : entry.outcome.begun = none) (hmail : entry.isMail = false)
      (hsubmission : context.role.submission = true) (hnone : next.session.transaction = none)
  | upgrades (hbegun : entry.outcome.begun = none) (hmail : entry.isMail = false)
      (hnone : next.session.transaction = none) (hprincipal : next.principal = none)
  | opens (sender : Option Address) (size : Option Nat) (body : Option Body)
      (hbegun : entry.outcome.begun = none)
      (hcommand : entry.command? = some (.mail sender size body)) (hreply : entry.replies 250 = true)
      (htransaction : next.session.transaction = some ⟨sender, [], body.getD .sevenBit⟩)
      (hauthorized : context.role.submission = true → entry.before.encrypted = true
        ∧ ∃ principal author, entry.before.principal = some principal ∧ sender = some author
          ∧ .authorize principal author (.ok true) ∈ entry.outcome.effects)
      (halike : entry.before.Alike next)
  | repeats (address : Address) (envelope : Envelope) (hbegun : entry.outcome.begun = none)
      (hcommand : entry.command? = some (.rcpt address)) (hreply : entry.replies 250 = true)
      (htransaction : entry.before.session.transaction = some envelope)
      (hany : envelope.recipients.any (same context.config.localDomain · address) = true)
      (hsame : next.session.transaction = some envelope) (halike : entry.before.Alike next)
  | accepts (address : Address) (envelope : Envelope) (hbegun : entry.outcome.begun = none)
      (hcommand : entry.command? = some (.rcpt address)) (hreply : entry.replies 250 = true)
      (htransaction : entry.before.session.transaction = some envelope)
      (hany : envelope.recipients.any (same context.config.localDomain · address) = false)
      (hroute : context.config.isLocal address = true ∨ entry.before.MayRelay context)
      (hnext : next.session.transaction
        = some { envelope with recipients := envelope.recipients ++ [address] })
      (halike : entry.before.Alike next)
  | begins (envelope : Envelope) (hbegun : entry.outcome.begun = some envelope)
      (hcommand : entry.command? = some .data)
      (htransaction : entry.before.session.transaction = some envelope)
      (hnone : next.session.transaction = none) (halike : entry.before.Alike next)

namespace Entry

variable {entry : Entry}

theorem accepted?_of_refused (h : entry.replies 250 = false) : entry.accepted? = none := by
  unfold accepted?
  split
  · rw [h]
    rfl
  · rfl

theorem accepted?_of_other (h : ∀ address, entry.command? ≠ some (.rcpt address)) :
    entry.accepted? = none := by
  unfold accepted?
  split
  · rename_i address hcommand
    exact absurd hcommand (h address)
  · rfl

theorem command?_of_ok {before : Connection} {bytes : Text} {outcome : Outcome} {command : Command}
    (h : parseCommand bytes = .ok command) :
    command? ⟨before, .line bytes, outcome⟩ = some command := by
  unfold command? Entry.bytes
  dsimp only
  rw [h]
  rfl

theorem isMail_of_ok {before : Connection} {bytes : Text} {outcome : Outcome} {command : Command}
    (h : parseCommand bytes = .ok command)
    (hother : ∀ sender size body, command ≠ .mail sender size body) :
    isMail ⟨before, .line bytes, outcome⟩ = false := by
  rw [Bool.eq_false_iff]
  intro hmail
  obtain ⟨sender, size, body, hcommand⟩ := (parseCommand_mail h).1 hmail
  exact hother sender size body hcommand

end Entry

namespace Connection

variable {context : SessionContext} {input : RoundInput} {connection before next : Connection}
variable {bytes : Text} {command : Command}

@[simp]
theorem connection_after (effect : Effect) (outcome : Outcome) :
    (Outcome.after effect outcome).connection = outcome.connection := rfl

theorem Alike.refl (connection : Connection) : connection.Alike connection := ⟨rfl, rfl⟩

theorem answer_next {effect : Effect} (h : (connection.answer input effect).connection = some next) :
    next = connection := by
  unfold answer at h
  split_ifs at h
  cases h
  rfl

theorem replies_reply {incoming : Incoming} {code : Nat} {text : String} (other : Nat) :
    Entry.replies ⟨before, incoming, connection.reply input code text⟩ other = (code == other) := by
  unfold Entry.replies reply answer
  rw [List.any_cons, List.any_nil, Bool.or_false]

/-- A refusal changes nothing, where the line alone does not end the transaction. -/
theorem reply_keeps {incoming : Incoming} {code : Nat} {text : String} (hcode : code ≠ 250)
    (h : (connection.reply input code text).connection = some next)
    (hresets : Entry.resets ⟨connection, incoming, connection.reply input code text⟩ = true →
      context.role.submission = true ∧ connection.encrypted = false) :
    Entry.Turns context ⟨connection, incoming, connection.reply input code text⟩ next := by
  obtain rfl := answer_next h
  refine .keeps rfl (Entry.accepted?_of_refused ?_) hresets rfl (.refl _)
  rw [replies_reply]
  exact beq_false_of_ne hcode

/-- A refusal after the transaction was given up. -/
theorem reply_clears {incoming : Incoming} {code : Nat} {text : String} (hcode : code ≠ 250)
    (hnone : connection.session.transaction = none) (halike : before.Alike connection)
    (h : (connection.reply input code text).connection = some next) :
    Entry.Turns context ⟨before, incoming, connection.reply input code text⟩ next := by
  obtain rfl := answer_next h
  refine .clears rfl (fun _ => ?_) hnone halike
  rw [replies_reply]
  exact beq_false_of_ne hcode

/-! #### AUTH -/

theorem credentials_begun (encoded : Text) : (connection.credentials input encoded).begun = none := by
  unfold credentials
  split_ifs
  · rfl
  · unfold Outcome.after
    dsimp only
    split <;> rfl

theorem credentials_next {encoded : Text}
    (h : (connection.credentials input encoded).connection = some next) :
    next.session = connection.session := by
  unfold credentials Outcome.after at h
  split_ifs at h
  · rw [answer_next h]
  · dsimp only at h
    split at h
    · rw [answer_next h]
    · rw [answer_next h]
      rfl
    · rw [answer_next h]
      rfl

theorem authenticate_begun : (connection.authenticate input bytes).begun = none := by
  unfold authenticate
  split
  · split_ifs
    · split
      · rfl
      · exact credentials_begun _
    · rfl
  · split_ifs
    · exact credentials_begun _
    · rfl
  · rfl

theorem authenticate_next (h : (connection.authenticate input bytes).connection = some next) :
    next.session = connection.session := by
  unfold authenticate at h
  split at h
  · split_ifs at h
    · split at h
      · cases h
      · exact credentials_next h
    · rw [answer_next h]
  · split_ifs at h
    · exact credentials_next h
    · rw [answer_next h]
  · rw [answer_next h]

/-- A line with AUTH never touches the transaction. -/
theorem resets_auth {outcome : Outcome}
    (hauth : eqIgnoreAsciiCase (verbOf bytes) (ascii "AUTH") = true) :
    Entry.resets ⟨before, .line bytes, outcome⟩ = false
      ∧ Entry.isMail ⟨before, .line bytes, outcome⟩ = false := by
  have hmail : Entry.isMail ⟨before, .line bytes, outcome⟩ = false := by
    unfold Entry.isMail Entry.bytes
    dsimp only
    rw [isVerb_congr hauth]
    decide
  refine ⟨?_, hmail⟩
  unfold Entry.resets
  rw [hmail, Bool.false_or]
  cases hparse : parseCommand bytes with
  | error e =>
      have hnone : Entry.command? ⟨before, .line bytes, outcome⟩ = none := by
        unfold Entry.command? Entry.bytes
        dsimp only
        rw [hparse]
        rfl
      rw [hnone]
  | ok command =>
      rw [Entry.command?_of_ok hparse, parseCommand_auth hparse hauth]

theorem auth_cases (connection : Connection) (context : SessionContext) (input : RoundInput)
    (bytes : Text) :
    (∃ code text, code ≠ 250 ∧ connection.auth context input bytes = connection.reply input code text)
      ∨ (context.role.submission = true ∧ connection.encrypted = true
        ∧ connection.session.transaction = none
        ∧ connection.auth context input bytes
          = { connection.authenticate input bytes with
              connection := (connection.authenticate input bytes).connection.filter
                fun connection => !connection.exhausted }) := by
  unfold auth
  split_ifs with hrole hencrypted hauth hstate
  · exact Or.inl ⟨502, _, by decide, rfl⟩
  · exact Or.inl ⟨538, _, by decide, rfl⟩
  · exact Or.inl ⟨538, _, by decide, rfl⟩
  · exact Or.inl ⟨503, _, by decide, rfl⟩
  · refine Or.inr ⟨by simpa using hrole, by simpa using hencrypted, ?_, rfl⟩
    rw [not_or, Bool.not_eq_false, Session.authenticationAllowed, Bool.and_eq_true,
      Option.isNone_iff_eq_none] at hstate
    exact hstate.2.2

theorem auth_turns (hauth : eqIgnoreAsciiCase (verbOf bytes) (ascii "AUTH") = true)
    (h : (connection.auth context input bytes).connection = some next) :
    Entry.Turns context ⟨connection, .line bytes, connection.auth context input bytes⟩ next := by
  rcases connection.auth_cases context input bytes with
    ⟨code, text, hcode, heq⟩ | ⟨hsubmission, -, hnone, heq⟩
  · rw [heq] at h ⊢
    refine reply_keeps hcode h fun hresets => ?_
    rw [(resets_auth hauth).1] at hresets
    cases hresets
  · rw [heq] at h ⊢
    refine .identifies authenticate_begun (resets_auth hauth).2 hsubmission ?_
    rw [authenticate_next (Option.eq_some_of_filter_eq_some h)]
    exact hnone

/-! #### Lines that are no commands -/

theorem malformed_turns {error : ParseError} (hparse : parseCommand bytes = .error error)
    (h : (connection.malformed input bytes error).connection = some next) :
    Entry.Turns context ⟨connection, .line bytes, connection.malformed input bytes error⟩ next := by
  have hreply : ∃ code text, code ≠ 250 ∧ connection.malformed input bytes error
      = (if eqIgnoreAsciiCase (verbOf bytes) (ascii "MAIL") then connection.reset
        else connection).reply input code text := by
    cases error with
    | syntactic => exact ⟨501, _, by decide, rfl⟩
    | unsupportedParameter => exact ⟨555, _, by decide, rfl⟩
  obtain ⟨code, text, hcode, heq⟩ := hreply
  rw [heq] at h ⊢
  by_cases hmail : eqIgnoreAsciiCase (verbOf bytes) (ascii "MAIL") = true
  · rw [if_pos hmail] at h ⊢
    exact reply_clears hcode rfl ⟨rfl, rfl⟩ h
  · rw [if_neg hmail] at h ⊢
    refine reply_keeps hcode h fun hresets => ?_
    unfold Entry.resets Entry.isMail Entry.command? Entry.bytes at hresets
    dsimp only at hresets
    rw [hparse, Bool.eq_false_iff.2 hmail] at hresets
    cases hresets

/-! #### Commands -/

/-- A command that leaves the session as it is, however it is answered. -/
theorem answer_keeps {reply : Reply} (hparse : parseCommand bytes = .ok command)
    (hresets : Entry.resets ⟨connection, .line bytes, connection.answer input (.reply reply)⟩ = false)
    (hreply : reply.code = 250 → ∀ address, command ≠ .rcpt address)
    (h : (connection.answer input (.reply reply)).connection = some next) :
    Entry.Turns context ⟨connection, .line bytes, connection.answer input (.reply reply)⟩ next := by
  obtain rfl := answer_next h
  refine .keeps rfl ?_ (fun hyes => ?_) rfl (.refl _)
  · by_cases hcode : reply.code = 250
    · refine Entry.accepted?_of_other fun address haddress => hreply hcode address ?_
      rw [Entry.command?_of_ok hparse, Option.some.injEq] at haddress
      exact haddress
    · refine Entry.accepted?_of_refused ?_
      exact (replies_reply 250).trans (beq_false_of_ne hcode)
  · rw [hresets] at hyes
    cases hyes

theorem resets_of_ok {outcome : Outcome} (hparse : parseCommand bytes = .ok command)
    (hmail : ∀ sender size body, command ≠ .mail sender size body)
    (hresets : (match some command with
      | some (.ehlo _) => true
      | some (.helo _) => true
      | some .reset => true
      | some .data => outcome.begun.isSome
      | some .startTls => Entry.replies ⟨before, .line bytes, outcome⟩ 220
      | _ => false) = false) :
    Entry.resets ⟨before, .line bytes, outcome⟩ = false := by
  unfold Entry.resets
  rw [Entry.isMail_of_ok hparse hmail, Entry.command?_of_ok hparse, Bool.false_or]
  exact hresets

theorem startTls_turns (hparse : parseCommand bytes = .ok .startTls)
    (h : (connection.startTls context input).connection = some next) :
    Entry.Turns context ⟨connection, .line bytes, connection.startTls context input⟩ next := by
  have hrefused : ∀ code text, code ≠ 220 → code ≠ 250 →
      (connection.reply input code text).connection = some next →
      Entry.Turns context ⟨connection, .line bytes, connection.reply input code text⟩ next := by
    intro code text hready hcode hnext
    refine answer_keeps hparse (resets_of_ok hparse (by simp) ?_) (by simp) hnext
    exact (replies_reply 220).trans (beq_false_of_ne hready)
  unfold startTls at h ⊢
  by_cases hencrypted : connection.encrypted = true
  · rw [if_pos hencrypted] at h ⊢
    exact hrefused _ _ (by decide) (by decide) h
  rw [if_neg hencrypted] at h ⊢
  by_cases htls : context.server.tls = false
  · rw [if_pos htls] at h ⊢
    exact hrefused _ _ (by decide) (by decide) h
  rw [if_neg htls] at h ⊢
  by_cases hpermit : input.permit = false
  · rw [if_pos hpermit] at h ⊢
    exact hrefused _ _ (by decide) (by decide) h
  rw [if_neg hpermit] at h ⊢
  by_cases hcertified : input.certified = false
  · rw [if_pos hcertified] at h
    cases h
  rw [if_neg hcertified] at h ⊢
  by_cases hupgraded : input.upgraded = false
  · rw [if_pos hupgraded] at h
    cases h
  rw [if_neg hupgraded] at h ⊢
  obtain rfl := answer_next h
  exact .upgrades rfl (Entry.isMail_of_ok hparse (by simp)) rfl rfl

/-- An address that may be added is local, or the connection may relay. -/
theorem route_found {address : Address} (h : connection.route context input address = .ok true) :
    context.config.isLocal address = true ∨ connection.MayRelay context := by
  unfold route at h
  by_cases hlocal : context.config.isLocal address = true
  · exact Or.inl hlocal
  · rw [if_neg hlocal, Except.ok.injEq, Bool.and_eq_true, Bool.and_eq_true, Bool.and_eq_true,
      decide_eq_true_eq] at h
    exact Or.inr ⟨h.1.1.1, h.1.2, h.2, h.1.1.2⟩

theorem routed_cases (session : Session) (address : Address) (found isLocal : Bool) :
    (∃ reply : Reply, reply.code ≠ 250
        ∧ session.routedRecipientResult address found isLocal = (session, reply))
      ∨ ∃ envelope, session.transaction = some envelope ∧ found = true
        ∧ ((envelope.recipients.any (Session.sameRecipient isLocal · address) = true
            ∧ session.routedRecipientResult address found isLocal
              = (session, ⟨250, "2.1.5 Recipient accepted"⟩))
          ∨ (envelope.recipients.any (Session.sameRecipient isLocal · address) = false
            ∧ session.routedRecipientResult address found isLocal
              = ({ session with
                  transaction :=
                    some { envelope with recipients := envelope.recipients ++ [address] } },
                ⟨250, "2.1.5 Recipient accepted"⟩))) := by
  unfold Session.routedRecipientResult
  cases htransaction : session.transaction with
  | none => exact Or.inl ⟨⟨503, _⟩, by decide, rfl⟩
  | some envelope =>
      cases found with
      | false => exact Or.inl ⟨⟨550, _⟩, by decide, rfl⟩
      | true =>
          dsimp only
          rw [if_pos rfl]
          unfold Session.addRecipient
          by_cases hany : envelope.recipients.any (Session.sameRecipient isLocal · address) = true
          · rw [if_pos hany]
            exact Or.inr ⟨envelope, rfl, rfl, Or.inl ⟨hany, rfl⟩⟩
          · rw [if_neg hany]
            split_ifs with hfull
            · exact Or.inl ⟨⟨452, _⟩, by decide, rfl⟩
            · exact Or.inr ⟨envelope, rfl, rfl, Or.inr ⟨Bool.eq_false_iff.2 hany, rfl⟩⟩

theorem checkRecipient_turns {address : Address} (hparse : parseCommand bytes = .ok (.rcpt address))
    (h : (connection.checkRecipient context input address).connection = some next) :
    Entry.Turns context ⟨connection, .line bytes, connection.checkRecipient context input address⟩
      next := by
  have hresets : ∀ outcome, Entry.resets ⟨connection, .line bytes, outcome⟩ = true →
      context.role.submission = true ∧ connection.encrypted = false := by
    intro outcome hyes
    rw [resets_of_ok hparse (by simp) rfl] at hyes
    cases hyes
  unfold checkRecipient at h ⊢
  cases hroute : connection.route context input address with
  | error e =>
      rw [hroute] at h
      exact reply_keeps (by decide) h (hresets _)
  | ok found =>
      rw [hroute] at h
      dsimp only at h ⊢
      rcases routed_cases connection.session address found (context.config.isLocal address) with
        ⟨reply, hcode, heq⟩ | ⟨envelope, htransaction, rfl, ⟨hany, heq⟩ | ⟨hany, heq⟩⟩
      · rw [heq] at h ⊢
        exact reply_keeps hcode h (hresets _)
      · rw [heq] at h ⊢
        obtain rfl := answer_next h
        exact .repeats address envelope rfl (Entry.command?_of_ok hparse) rfl htransaction hany
          htransaction ⟨rfl, rfl⟩
      · rw [heq] at h ⊢
        obtain rfl := answer_next h
        exact .accepts address envelope rfl (Entry.command?_of_ok hparse) rfl htransaction hany
          (route_found hroute) rfl ⟨rfl, rfl⟩

/-- A command that is performed, unless it is MAIL. -/
theorem perform_turns (hparse : parseCommand bytes = .ok command)
    (hmail : ∀ sender size body, command ≠ .mail sender size body)
    (h : (connection.perform context input command).connection = some next) :
    Entry.Turns context ⟨connection, .line bytes, connection.perform context input command⟩ next := by
  have hother : ∀ outcome, Entry.isMail ⟨connection, .line bytes, outcome⟩ = true →
      Entry.replies ⟨connection, .line bytes, outcome⟩ 250 = false := by
    intro outcome hyes
    rw [Entry.isMail_of_ok hparse hmail] at hyes
    cases hyes
  cases command with
  | ehlo name =>
      obtain rfl := answer_next h
      exact .clears rfl (hother _) rfl ⟨rfl, rfl⟩
  | helo name =>
      obtain rfl := answer_next h
      exact .clears rfl (hother _) rfl ⟨rfl, rfl⟩
  | reset =>
      obtain rfl := answer_next h
      exact .clears rfl (hother _) rfl ⟨rfl, rfl⟩
  | mail sender size body => exact absurd rfl (hmail sender size body)
  | quit => cases h
  | noop => exact answer_keeps hparse (resets_of_ok hparse hmail rfl) (by simp) h
  | help => exact answer_keeps hparse (resets_of_ok hparse hmail rfl) (by simp) h
  | verify => exact answer_keeps hparse (resets_of_ok hparse hmail rfl) (by simp) h
  | unsupported => exact answer_keeps hparse (resets_of_ok hparse hmail rfl) (by simp) h
  | startTls =>
      unfold perform Session.apply at h ⊢
      dsimp only at h ⊢
      by_cases hextended : connection.session.extended = true
      · rw [if_pos hextended] at h ⊢
        exact startTls_turns hparse h
      · rw [if_neg hextended] at h ⊢
        exact answer_keeps hparse (resets_of_ok hparse hmail rfl) (by simp) h
  | rcpt address =>
      unfold perform Session.apply at h ⊢
      dsimp only at h ⊢
      by_cases hnone : connection.session.transaction.isNone = true
      · rw [if_pos hnone] at h ⊢
        exact answer_keeps hparse (resets_of_ok hparse hmail rfl) (by simp) h
      · rw [if_neg hnone] at h ⊢
        exact checkRecipient_turns hparse h
  | data =>
      unfold perform Session.apply Session.data at h ⊢
      cases htransaction : connection.session.transaction with
      | none =>
          simp only [htransaction] at h ⊢
          exact answer_keeps hparse (resets_of_ok hparse hmail rfl) (by simp) h
      | some envelope =>
          simp only [htransaction] at h ⊢
          by_cases hempty : envelope.recipients.isEmpty = true
          · rw [if_pos hempty] at h ⊢
            exact answer_keeps hparse (resets_of_ok hparse hmail rfl) (by simp) h
          · rw [if_neg hempty] at h ⊢
            cases h
            exact .begins envelope rfl (Entry.command?_of_ok hparse) htransaction rfl ⟨rfl, rfl⟩

theorem perform_mail (connection : Connection) (context : SessionContext) (input : RoundInput)
    (sender : Option Address) (size : Option Nat) (body : Option Body) :
    ∃ reply : Reply,
      (reply.code ≠ 250 ∧ connection.perform context input (.mail sender size body)
        = connection.reset.answer input (.reply reply))
      ∨ (reply.code = 250 ∧ connection.perform context input (.mail sender size body)
        = { connection with
            session := { connection.session with
              transaction := some ⟨sender, [], body.getD .sevenBit⟩ } }.answer input
          (.reply reply)) := by
  unfold perform Session.apply Session.mail
  dsimp only
  split_ifs
  · exact ⟨⟨503, _⟩, Or.inl ⟨by decide, rfl⟩⟩
  · exact ⟨⟨555, _⟩, Or.inl ⟨by decide, rfl⟩⟩
  · exact ⟨⟨552, _⟩, Or.inl ⟨by decide, rfl⟩⟩
  · exact ⟨⟨250, _⟩, Or.inr ⟨rfl, rfl⟩⟩

end Connection

/-- A submission always has an `AuthService`. -/
theorem SessionContext.auth_eq (context : SessionContext) : context.auth = context.role.submission := by
  obtain ⟨config, server, role, listens⟩ := context
  unfold auth
  cases server with
  | bindSecure allRoles => rfl
  | bindWithRuntime =>
      obtain rfl : role = .receiver := by
        simpa [LabServer.roles, LabServer.role, LabServer.allRoles] using listens
      rfl

namespace Connection

variable {context : SessionContext} {input : RoundInput} {connection before next : Connection}
variable {bytes : Text} {command : Command} {sender : Option Address} {size : Option Nat}
variable {body : Option Body}

/-- The MAIL of a session without authentication. -/
theorem perform_mail_turns (hparse : parseCommand bytes = .ok (.mail sender size body))
    (hreceiver : context.role.submission = false)
    (h : (connection.perform context input (.mail sender size body)).connection = some next) :
    Entry.Turns context
      ⟨connection, .line bytes, connection.perform context input (.mail sender size body)⟩ next := by
  obtain ⟨reply, ⟨hcode, heq⟩ | ⟨hcode, heq⟩⟩ :=
    connection.perform_mail context input sender size body
  · rw [heq] at h ⊢
    exact reply_clears hcode rfl ⟨rfl, rfl⟩ h
  · rw [heq] at h ⊢
    obtain rfl := answer_next h
    refine .opens sender size body rfl (Entry.command?_of_ok hparse) ?_ rfl ?_ ⟨rfl, rfl⟩
    · exact (replies_reply 250).trans (beq_iff_eq.2 hcode)
    · intro hsubmission
      rw [hreceiver] at hsubmission
      cases hsubmission

theorem authorize_cases (connection : Connection) (context : SessionContext) (input : RoundInput)
    (sender : Option Address) (command : Command) :
    connection.authorize context input sender command
        = connection.reply input 553 "5.7.1 Sender identity not permitted"
      ∨ ∃ identity author, connection.principal = some identity ∧ sender = some author
        ∧ ((∃ e, connection.authorize context input sender command
            = .ended [.authorize identity author (.error e)])
          ∨ connection.authorize context input sender command
            = .after (.authorize identity author (.ok false))
              (connection.reply input 553 "5.7.1 Sender identity not permitted")
          ∨ connection.authorize context input sender command
            = .after (.authorize identity author (.ok true))
              (connection.perform context input command)) := by
  unfold authorize
  cases connection.principal with
  | none => exact Or.inl rfl
  | some identity =>
      cases sender with
      | none => exact Or.inl rfl
      | some author =>
          refine Or.inr ⟨identity, author, rfl, rfl, ?_⟩
          dsimp only
          cases input.authorizeSender identity author with
          | error e => exact Or.inl ⟨e, rfl⟩
          | ok allowed =>
              cases allowed with
              | false => exact Or.inr (Or.inl rfl)
              | true => exact Or.inr (Or.inr rfl)

theorem replies_authorized {incoming : Incoming} {identity : Principal} {author : Address}
    {answer : Except StoreError Bool} {outcome : Outcome} (code : Nat) :
    Entry.replies ⟨before, incoming, .after (.authorize identity author answer) outcome⟩ code
      = Entry.replies ⟨before, incoming, outcome⟩ code := by
  unfold Entry.replies Outcome.after
  rw [List.any_cons, Bool.false_or]

theorem authorize_turns (hparse : parseCommand bytes = .ok (.mail sender size body))
    (hencrypted : connection.encrypted = true)
    (h : (connection.reset.authorize context input sender (.mail sender size body)).connection
      = some next) :
    Entry.Turns context
      ⟨connection, .line bytes,
        connection.reset.authorize context input sender (.mail sender size body)⟩ next := by
  rcases connection.reset.authorize_cases context input sender (.mail sender size body) with
    heq | ⟨identity, author, hidentity, rfl, ⟨e, heq⟩ | heq | heq⟩
  · rw [heq] at h ⊢
    exact reply_clears (by decide) rfl ⟨rfl, rfl⟩ h
  · rw [heq] at h
    cases h
  · rw [heq, connection_after] at h
    rw [heq]
    obtain rfl := answer_next h
    exact .clears rfl (fun _ => rfl) rfl ⟨rfl, rfl⟩
  · rw [heq, connection_after] at h
    rw [heq]
    obtain ⟨reply, ⟨hcode, hperform⟩ | ⟨hcode, hperform⟩⟩ :=
      connection.reset.perform_mail context input (some author) size body
    · rw [hperform] at h ⊢
      obtain rfl := answer_next h
      refine .clears rfl (fun _ => ?_) rfl ⟨rfl, rfl⟩
      rw [replies_authorized]
      exact (replies_reply 250).trans (beq_false_of_ne hcode)
    · rw [hperform] at h ⊢
      obtain rfl := answer_next h
      refine .opens (some author) size body rfl (Entry.command?_of_ok hparse) ?_ rfl ?_ ⟨rfl, rfl⟩
      · rw [replies_authorized]
        exact (replies_reply 250).trans (beq_iff_eq.2 hcode)
      · exact fun _ => ⟨hencrypted, identity, author, hidentity, rfl, List.mem_cons_self⟩

/-- The other commands of a submission. -/
theorem guarded_turns (hparse : parseCommand bytes = .ok command)
    (hmail : ∀ sender size body, command ≠ .mail sender size body)
    (h : (connection.guarded context input command).connection = some next) :
    Entry.Turns context ⟨connection, .line bytes, connection.guarded context input command⟩ next := by
  have heq : connection.guarded context input command
      = if connection.principal.isNone && command.identified then
          connection.reply input 530 "5.7.0 Authentication required"
        else connection.perform context input command := by
    cases command with
    | mail sender size body => exact absurd rfl (hmail sender size body)
    | _ => rfl
  rw [heq] at h ⊢
  by_cases hrefused : (connection.principal.isNone && command.identified) = true
  · rw [if_pos hrefused] at h ⊢
    have hresets : ∀ outcome : Outcome, outcome.begun = none →
        Entry.resets ⟨connection, .line bytes, outcome⟩ = false := by
      intro outcome hbegun
      refine resets_of_ok hparse hmail ?_
      rw [Bool.and_eq_true] at hrefused
      cases command with
      | data => exact congrArg Option.isSome hbegun
      | rcpt address => rfl
      | mail sender size body => exact absurd rfl (hmail sender size body)
      | _ => cases hrefused.2
    refine reply_keeps (by decide) h fun hyes => ?_
    rw [hresets _ rfl] at hyes
    cases hyes
  · rw [if_neg hrefused] at h ⊢
    exact perform_turns hparse hmail h

/-- A MAIL that a submission may take ends the older transaction, and opens its own only when the
store allows the sender. -/
theorem guarded_mail_turns (hparse : parseCommand bytes = .ok (.mail sender size body))
    (hencrypted : connection.encrypted = true)
    (h : (connection.guarded context input (.mail sender size body)).connection = some next) :
    Entry.Turns context
      ⟨connection, .line bytes, connection.guarded context input (.mail sender size body)⟩ next := by
  unfold guarded at h ⊢
  dsimp only at h ⊢
  by_cases hprincipal : (connection.reset.principal.isNone
      && Command.identified (.mail sender size body)) = true
  · rw [if_pos hprincipal] at h ⊢
    exact reply_clears (by decide) rfl ⟨rfl, rfl⟩ h
  · rw [if_neg hprincipal] at h ⊢
    exact authorize_turns hparse hencrypted h

theorem command_turns (hparse : parseCommand bytes = .ok command)
    (h : (connection.command context input command).connection = some next) :
    Entry.Turns context ⟨connection, .line bytes, connection.command context input command⟩ next := by
  unfold Connection.command at h ⊢
  by_cases hplain : (context.role.submission && !connection.encrypted && !command.plaintext) = true
  · rw [if_pos hplain] at h ⊢
    refine reply_keeps (by decide) h fun _ => ?_
    rw [Bool.and_eq_true, Bool.and_eq_true, Bool.not_eq_true'] at hplain
    exact hplain.1
  rw [if_neg hplain] at h ⊢
  rw [context.auth_eq] at h ⊢
  by_cases hmail : ∃ sender size body, command = .mail sender size body
  · obtain ⟨sender, size, body, rfl⟩ := hmail
    by_cases hsubmission : context.role.submission = true
    · rw [if_pos hsubmission] at h ⊢
      refine guarded_mail_turns hparse ?_ h
      simpa [hsubmission, Command.plaintext] using hplain
    · rw [if_neg hsubmission] at h ⊢
      exact perform_mail_turns hparse (Bool.eq_false_iff.2 hsubmission) h
  · have hother : ∀ sender size body, command ≠ .mail sender size body :=
      fun sender size body heq => hmail ⟨sender, size, body, heq⟩
    by_cases hsubmission : context.role.submission = true
    · rw [if_pos hsubmission] at h ⊢
      exact guarded_turns hparse hother h
    · rw [if_neg hsubmission] at h ⊢
      exact perform_turns hparse hother h

theorem line_turns (h : (connection.line context input bytes).connection = some next) :
    Entry.Turns context ⟨connection, .line bytes, connection.line context input bytes⟩ next := by
  unfold line at h ⊢
  by_cases hlong : bytes.length + 2 > lineLimit context.role (verbOf bytes)
  · rw [if_pos hlong] at h
    cases h
  rw [if_neg hlong] at h ⊢
  by_cases hauth : eqIgnoreAsciiCase (verbOf bytes) (ascii "AUTH") = true
  · rw [if_pos hauth] at h ⊢
    exact auth_turns hauth h
  rw [if_neg hauth] at h ⊢
  cases hparse : parseCommand bytes with
  | error error =>
      rw [hparse] at h
      exact malformed_turns hparse h
  | ok command =>
      rw [hparse] at h
      exact command_turns hparse h

/-- Whatever arrives, a round that leaves a connection is one of the eight kinds. -/
theorem round_turns {incoming : Incoming}
    (h : (connection.round context input incoming).connection = some next) :
    Entry.Turns context ⟨connection, incoming, connection.round context input incoming⟩ next := by
  cases incoming with
  | line bytes =>
      unfold round at h ⊢
      by_cases hlong : context.readLimit < bytes.length + 2
      · simp only [if_pos hlong] at h
        cases h
      · simp only [if_neg hlong] at h ⊢
        exact line_turns h
  | eof => cases h
  | invalid => cases h
  | elapsed => cases h
  | revoked =>
      unfold round at h ⊢
      by_cases hprincipal : connection.principal.isSome = true
      · simp only [if_pos hprincipal] at h
        cases h
      · simp only [if_neg hprincipal] at h ⊢
        cases h
        refine .keeps rfl ?_ ?_ rfl (.refl _)
        · exact Entry.accepted?_of_refused rfl
        · intro hresets
          cases hresets

end Connection

/-! ### Credentials -/

/-- Whether credentials were decoded. -/
def Outcome.decodes (outcome : Outcome) : Bool :=
  outcome.effects.any fun effect =>
    match effect with
    | .decode _ => true
    | _ => false

namespace Connection

variable {context : SessionContext} {input : RoundInput} {connection : Connection}
variable {command : Command} {sender : Option Address}

theorem perform_decodes (connection : Connection) (context : SessionContext) (input : RoundInput)
    (command : Command) : (connection.perform context input command).decodes = false := by
  unfold perform
  generalize connection.session.apply command = result
  obtain ⟨session, action⟩ := result
  cases action with
  | startTls =>
      dsimp only
      unfold startTls
      split_ifs <;> rfl
  | checkRecipient address =>
      dsimp only
      unfold checkRecipient
      split <;> rfl
  | _ => rfl

theorem authorize_decodes :
    (connection.authorize context input sender command).decodes = false := by
  rcases connection.authorize_cases context input sender command with
    heq | ⟨identity, author, -, -, ⟨e, heq⟩ | heq | heq⟩
  · rw [heq]
    rfl
  · rw [heq]
    rfl
  · rw [heq]
    rfl
  · rw [heq]
    exact connection.perform_decodes context input command

theorem command_decodes : (connection.command context input command).decodes = false := by
  unfold Connection.command
  split_ifs
  · rfl
  · unfold guarded
    dsimp only
    split_ifs
    · rfl
    · split
      · exact authorize_decodes
      · exact perform_decodes _ _ _ _
  · exact perform_decodes _ _ _ _

/-- Credentials are decoded on an encrypted submission only. -/
theorem round_decodes {incoming : Incoming}
    (h : (connection.round context input incoming).decodes = true) :
    context.role.submission = true ∧ connection.encrypted = true := by
  cases incoming with
  | line bytes =>
      unfold round at h
      by_cases hlong : context.readLimit < bytes.length + 2
      · simp only [if_pos hlong] at h
        cases h
      simp only [if_neg hlong] at h
      unfold line at h
      by_cases hlimit : bytes.length + 2 > lineLimit context.role (verbOf bytes)
      · rw [if_pos hlimit] at h
        cases h
      rw [if_neg hlimit] at h
      by_cases hauth : eqIgnoreAsciiCase (verbOf bytes) (ascii "AUTH") = true
      · rw [if_pos hauth] at h
        rcases connection.auth_cases context input bytes with
          ⟨code, text, -, heq⟩ | ⟨hsubmission, hencrypted, -, -⟩
        · rw [heq] at h
          cases h
        · exact ⟨hsubmission, hencrypted⟩
      · rw [if_neg hauth] at h
        cases hparse : parseCommand bytes with
        | error error =>
            rw [hparse] at h
            cases error with
            | syntactic => cases h
            | unsupportedParameter => cases h
        | ok command =>
            rw [hparse] at h
            dsimp only at h
            rw [command_decodes] at h
            cases h
  | eof => cases h
  | invalid => cases h
  | elapsed => cases h
  | revoked =>
      unfold round at h
      dsimp only at h
      split_ifs at h
      · cases h
      · cases h

end Connection

end Rustymail.Server
