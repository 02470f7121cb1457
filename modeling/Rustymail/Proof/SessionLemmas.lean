import Rustymail.Protocol.History
import Mathlib.Data.List.Induction

/-!
# A session is told by its history

The transaction of a session is the MAIL its history leaves open, with the first occurrences of the
recipients accepted since.
-/

namespace Rustymail.Server

theorem eqIgnoreAsciiCase_iff {a b : Text} :
    eqIgnoreAsciiCase a b = true ↔ lowercase a = lowercase b := by
  unfold eqIgnoreAsciiCase
  rw [beq_iff_eq]

/-- The domain can be read off the folded address: `parse` has folded it already. -/
theorem rsplitOnce_localKey (address : Address) :
    ∃ localPart, rsplitOnce 64 address.localKey = some (localPart, address.domain) := by
  obtain ⟨localPart, hcut⟩ := address.rsplitOnce_text
  have hnormal := address.normal
  obtain ⟨htext, hnot⟩ := rsplitOnce_eq_some hcut
  have hdomain : lowercase address.domain = address.domain := by
    rw [Address.normalize, hcut] at hnormal
    dsimp only at hnormal
    have hboth := hnormal.trans htext
    simpa using hboth
  refine ⟨lowercase localPart, ?_⟩
  have hkey : address.localKey = lowercase localPart ++ 64 :: address.domain := by
    conv_lhs => rw [Address.localKey, htext]
    rw [lowercase, List.map_append, List.map_cons]
    change lowercase localPart ++ 64 :: lowercase address.domain = _
    rw [hdomain]
  rw [hkey]
  exact rsplitOnce_append hnot

/-- Addresses that differ in case only are in one domain. -/
theorem domain_eq_of_localKey_eq {a b : Address} (h : a.localKey = b.localKey) :
    a.domain = b.domain := by
  obtain ⟨left, ha⟩ := rsplitOnce_localKey a
  obtain ⟨right, hb⟩ := rsplitOnce_localKey b
  rw [h, hb, Option.some.injEq, Prod.mk.injEq] at ha
  exact ha.2.symm

namespace Session

variable {isLocal : Text → Bool}

theorem same_iff {old address : Address} :
    same isLocal old address = true ↔
      if isLocal address.domain then old.localKey = address.localKey else old = address := by
  unfold same sameRecipient
  split_ifs
  · exact eqIgnoreAsciiCase_iff
  · exact beq_iff_eq

theorem same_domain {old address : Address} (h : same isLocal old address = true) :
    old.domain = address.domain := by
  rw [same_iff] at h
  split_ifs at h
  · exact domain_eq_of_localKey_eq h
  · rw [h]

theorem same_trans (a b c : Address) (hab : same isLocal a b = true)
    (hbc : same isLocal b c = true) : same isLocal a c = true := by
  have hdomain := same_domain hbc
  rw [same_iff] at hab hbc ⊢
  rw [hdomain] at hab
  split_ifs at hab hbc ⊢
  · exact hab.trans hbc
  · exact hab.trans hbc

/-! ### One call -/

/-- Everything a call can do to a session, with what the call was and how it was answered. -/
inductive Move (isLocal : Text → Bool) (session : Session) : Event → Session → Prop where
  | greets (event : Event) (name : Text) (extended : Bool) (hgreets : event.greeted? = some extended)
      (hresets : event.resets = true)
      (hother : ∀ sender size body, event.call ≠ .apply (.mail sender size body)) :
      Move isLocal session event
        { session with greeting := some name, extended := extended, transaction := none }
  | ends (event : Event) (hgreets : event.greeted? = none) (hresets : event.resets = true)
      (hother : ∀ sender size body, event.call = .apply (.mail sender size body) →
        event.positive = false) :
      Move isLocal session event { session with transaction := none }
  | opens (event : Event) (sender : Option Address) (size : Option Nat) (body : Option Body)
      (hcall : event.call = .apply (.mail sender size body)) (hpositive : event.positive = true)
      (hparameters : size.isSome ∨ body.isSome → session.extended = true) :
      Move isLocal session event
        { session with transaction := some ⟨sender, [], body.getD .sevenBit⟩ }
  | repeats (event : Event) (envelope : Envelope) (address : Address)
      (hcall : event.call = .routed address true) (hpositive : event.positive = true)
      (htransaction : session.transaction = some envelope)
      (hany : envelope.recipients.any (same isLocal · address) = true) :
      Move isLocal session event session
  | adds (event : Event) (envelope : Envelope) (address : Address)
      (hcall : event.call = .routed address true) (hpositive : event.positive = true)
      (htransaction : session.transaction = some envelope)
      (hany : envelope.recipients.any (same isLocal · address) = false)
      (hroom : envelope.recipients.length < session.maxRecipients) :
      Move isLocal session event
        { session with
          transaction := some { envelope with recipients := envelope.recipients ++ [address] } }
  | stays (event : Event) (hgreets : event.greeted? = none) (hresets : event.resets = false)
      (haccepted : event.accepted? = none) : Move isLocal session event session

theorem mail_moves (session : Session) (sender : Option Address) (size : Option Nat)
    (body : Option Body) :
    Move isLocal session ⟨.apply (.mail sender size body), (session.mail sender size body).2⟩
      (session.mail sender size body).1 := by
  have hrefused : ∀ reply : Reply, reply.code ≠ 250 →
      Move isLocal session ⟨.apply (.mail sender size body), .reply reply⟩
        { session with transaction := none } := by
    intro reply hcode
    refine .ends _ rfl rfl ?_
    intro _ _ _ _
    exact beq_false_of_ne hcode
  unfold mail
  dsimp only
  split_ifs with hgreeting hparameters hsize
  · exact hrefused _ (by decide)
  · exact hrefused _ (by decide)
  · exact hrefused _ (by decide)
  · refine .opens _ sender size body rfl rfl ?_
    intro hgiven
    by_contra hbasic
    rw [Bool.not_eq_true] at hbasic
    refine hparameters ?_
    rw [hbasic]
    simpa using hgiven

theorem data_moves (session : Session) :
    Move isLocal session ⟨.apply .data, session.data.2⟩ session.data.1 := by
  unfold data
  cases session.transaction with
  | none => exact .stays _ rfl rfl rfl
  | some envelope =>
      dsimp only
      split_ifs
      · exact .stays _ rfl rfl rfl
      · refine .ends _ rfl rfl ?_
        intro _ _ _ h
        cases h

theorem apply_moves (session : Session) (command : Command) :
    Move isLocal session ⟨.apply command, (session.apply command).2⟩ (session.apply command).1 := by
  cases command with
  | ehlo name => exact .greets _ name true rfl rfl (by simp)
  | helo name => exact .greets _ name false rfl rfl (by simp)
  | mail sender size body => exact mail_moves session sender size body
  | data => exact data_moves session
  | reset => exact .ends _ rfl rfl (by simp)
  | rcpt address => exact .stays _ rfl rfl rfl
  | noop => exact .stays _ rfl rfl rfl
  | help => exact .stays _ rfl rfl rfl
  | verify => exact .stays _ rfl rfl rfl
  | startTls => exact .stays _ rfl rfl rfl
  | quit => exact .stays _ rfl rfl rfl
  | unsupported => exact .stays _ rfl rfl rfl

theorem routed_moves (session : Session) (address : Address) (found : Bool) :
    Move isLocal session
      ⟨.routed address found,
        .reply (session.routedRecipientResult address found (isLocal address.domain)).2⟩
      (session.routedRecipientResult address found (isLocal address.domain)).1 := by
  unfold routedRecipientResult
  cases htransaction : session.transaction with
  | none => exact .stays _ rfl rfl rfl
  | some envelope =>
      cases found with
      | false => exact .stays _ rfl rfl rfl
      | true =>
          dsimp only
          rw [if_pos rfl]
          unfold addRecipient
          split_ifs with hany hfull
          · exact .repeats _ envelope address rfl rfl htransaction hany
          · exact .stays _ rfl rfl rfl
          · rw [Bool.not_eq_true] at hany
            exact .adds _ envelope address rfl rfl htransaction hany (by omega)

theorem perform_moves (session : Session) (call : Call) :
    Move isLocal session ⟨call, (session.perform isLocal call).2⟩
      (session.perform isLocal call).1 := by
  cases call with
  | apply command => exact apply_moves session command
  | routed address found => exact routed_moves session address found

/-! ### The open MAIL -/

namespace OpenMail

variable {history since : List Event} {event : Event} {sender : Option Address}
  {size : Option Nat} {body : Option Body}

theorem mail_resets (hcall : event.call = .apply (.mail sender size body)) :
    event.resets = true := by
  unfold Event.resets
  rw [hcall]

theorem begin (hcall : event.call = .apply (.mail sender size body))
    (hpositive : event.positive = true) :
    OpenMail (history ++ [event]) sender size body [] :=
  ⟨history, event, rfl, hcall, hpositive, by simp⟩

theorem later (h : OpenMail history sender size body since) (hresets : event.resets = false) :
    OpenMail (history ++ [event]) sender size body (since ++ [event]) := by
  obtain ⟨before, mail, rfl, hcall, hpositive, hsince⟩ := h
  refine ⟨before, mail, by simp, hcall, hpositive, ?_⟩
  intro other hother
  rcases List.mem_append.1 hother with hold | hnew
  · exact hsince other hold
  · rw [List.mem_singleton.1 hnew]
    exact hresets

/-- What the last event of a history says about the MAIL that is open. -/
theorem last (h : OpenMail (history ++ [event]) sender size body since) :
    (since = [] ∧ event.call = .apply (.mail sender size body) ∧ event.positive = true)
      ∨ (event.resets = false ∧ ∃ earlier, since = earlier ++ [event]
        ∧ OpenMail history sender size body earlier) := by
  obtain ⟨before, mail, heq, hcall, hpositive, hsince⟩ := h
  rcases List.eq_nil_or_concat since with rfl | ⟨earlier, final, rfl⟩
  · obtain ⟨-, hlast⟩ := List.append_inj' heq rfl
    rw [List.singleton_inj] at hlast
    rw [hlast]
    exact Or.inl ⟨rfl, hcall, hpositive⟩
  · rw [List.concat_eq_append] at hsince ⊢
    rw [List.concat_eq_append, ← List.cons_append, ← List.append_assoc] at heq
    obtain ⟨hrest, hlast⟩ := List.append_inj' heq rfl
    rw [List.singleton_inj] at hlast
    refine Or.inr ⟨?_, earlier, by rw [hlast], before, mail, hrest, hcall, hpositive, ?_⟩
    · rw [hlast]
      exact hsince final (by simp)
    · intro other hother
      exact hsince other (List.mem_append_left _ hother)

/-- At most one MAIL is open. -/
theorem unique {since' : List Event} {sender' : Option Address} {size' : Option Nat}
    {body' : Option Body} (h : OpenMail history sender size body since)
    (h' : OpenMail history sender' size' body' since') :
    sender = sender' ∧ size = size' ∧ body = body' ∧ since = since' := by
  induction history using List.reverseRecOn generalizing since since' with
  | nil =>
      obtain ⟨before, mail, heq, -⟩ := h
      simp at heq
  | append_singleton history event ih =>
      rcases h.last with ⟨hnil, hcall, -⟩ | ⟨hkeeps, earlier, hsince, hopen⟩
      · rcases h'.last with ⟨hnil', hcall', -⟩ | ⟨hkeeps', -⟩
        · rw [hcall] at hcall'
          cases hcall'
          exact ⟨rfl, rfl, rfl, hnil.trans hnil'.symm⟩
        · rw [mail_resets hcall] at hkeeps'
          cases hkeeps'
      · rcases h'.last with ⟨-, hcall', -⟩ | ⟨-, earlier', hsince', hopen'⟩
        · rw [mail_resets hcall'] at hkeeps
          cases hkeeps
        · obtain ⟨hsender, hsize, hbody, hearlier⟩ := ih hopen hopen'
          exact ⟨hsender, hsize, hbody, by rw [hsince, hsince', hearlier]⟩

end OpenMail

/-! ### Whole runs -/

/-- The state of a session as its history tells it. -/
structure Told (isLocal : Text → Bool) (maxMessageBytes maxRecipients : Nat) (past : Past) :
    Prop where
  bytes : past.session.maxMessageBytes = maxMessageBytes
  recipients : past.session.maxRecipients = maxRecipients
  greeted : past.session.greeting.isSome = (latestGreeting past.history).isSome
  extended : past.session.extended = (latestGreeting past.history).getD false
  closed : past.session.transaction = none →
    ∀ sender size body since, ¬ OpenMail past.history sender size body since
  opened : ∀ envelope, past.session.transaction = some envelope →
    ∃ sender size body since, OpenMail past.history sender size body since
      ∧ envelope = ⟨sender, Distinct.firsts (same isLocal) (accepted since), body.getD .sevenBit⟩
      ∧ envelope.recipients.length ≤ maxRecipients

theorem latestGreeting_append (history : List Event) (event : Event) :
    latestGreeting (history ++ [event]) = (event.greeted? <|> latestGreeting history) := by
  unfold latestGreeting
  cases hevent : event.greeted? with
  | none => simp [hevent]
  | some extended => simp [hevent]

theorem accepted_append (since : List Event) (event : Event) :
    accepted (since ++ [event]) = accepted since ++ event.accepted?.toList := by
  unfold accepted
  cases hevent : event.accepted? with
  | none => simp [hevent]
  | some address => simp [hevent]

theorem accepted?_of_routed {event : Event} {address : Address} {found : Bool}
    (hcall : event.call = .routed address found) (hpositive : event.positive = true) :
    event.accepted? = some address := by
  unfold Event.accepted?
  rw [hcall, hpositive]
  rfl

theorem Told.new (maxMessageBytes maxRecipients : Nat) :
    Told isLocal maxMessageBytes maxRecipients ⟨new maxMessageBytes maxRecipients, []⟩ where
  bytes := rfl
  recipients := rfl
  greeted := rfl
  extended := rfl
  closed := by
    rintro - sender size body since ⟨before, mail, heq, -⟩
    simp at heq
  opened := by
    intro envelope h
    cases h

theorem latestGreeting_other {event : Event} (hgreets : event.greeted? = none)
    (history : List Event) : latestGreeting (history ++ [event]) = latestGreeting history := by
  rw [latestGreeting_append, hgreets]
  rfl

/-- A routed recipient neither greets nor resets. -/
theorem routed_keeps {event : Event} {address : Address} {found : Bool}
    (hcall : event.call = .routed address found) :
    event.greeted? = none ∧ event.resets = false := by
  obtain ⟨call, answer⟩ := event
  change call = .routed address found at hcall
  subst hcall
  exact ⟨rfl, rfl⟩

namespace Told

variable {maxMessageBytes maxRecipients : Nat} {past : Past} {event : Event}

/-- An event that ends whatever was open. -/
theorem ended (h : Told isLocal maxMessageBytes maxRecipients past) (greeting : Option Text)
    (extended : Bool) (hgreeted : greeting.isSome = (latestGreeting (past.history ++ [event])).isSome)
    (hextended : extended = (latestGreeting (past.history ++ [event])).getD false)
    (hresets : event.resets = true)
    (hother : ∀ sender size body, event.call = .apply (.mail sender size body) →
      event.positive = false) :
    Told isLocal maxMessageBytes maxRecipients
      ⟨{ past.session with greeting := greeting, extended := extended, transaction := none },
        past.history ++ [event]⟩ where
  bytes := h.bytes
  recipients := h.recipients
  greeted := hgreeted
  extended := hextended
  closed := by
    intro _ sender size body since hopen
    rcases hopen.last with ⟨-, hcall, hpositive⟩ | ⟨hkeeps, -⟩
    · rw [hother sender size body hcall] at hpositive
      cases hpositive
    · rw [hresets] at hkeeps
      cases hkeeps
  opened := by
    intro envelope henvelope
    cases henvelope

/-- An event inside whatever is open, which may add a recipient. -/
theorem continued (h : Told isLocal maxMessageBytes maxRecipients past)
    (transaction : Option Envelope) (hgreets : event.greeted? = none) (hresets : event.resets = false)
    (hclosed : transaction = none → past.session.transaction = none)
    (hopened : ∀ envelope, transaction = some envelope →
      ∃ old, past.session.transaction = some old ∧ envelope.sender = old.sender
        ∧ envelope.body = old.body ∧ envelope.recipients.length ≤ maxRecipients
        ∧ ∀ seen, old.recipients = Distinct.firsts (same isLocal) seen →
          envelope.recipients = Distinct.firsts (same isLocal) (seen ++ event.accepted?.toList)) :
    Told isLocal maxMessageBytes maxRecipients
      ⟨{ past.session with transaction := transaction }, past.history ++ [event]⟩ where
  bytes := h.bytes
  recipients := h.recipients
  greeted := by
    rw [latestGreeting_other hgreets]
    exact h.greeted
  extended := by
    rw [latestGreeting_other hgreets]
    exact h.extended
  closed := by
    intro hnone sender size body since hopen
    rcases hopen.last with ⟨-, hcall, -⟩ | ⟨-, earlier, -, hearlier⟩
    · rw [OpenMail.mail_resets hcall] at hresets
      cases hresets
    · exact h.closed (hclosed hnone) sender size body earlier hearlier
  opened := by
    intro envelope henvelope
    obtain ⟨old, hold, hsender, hbody, hlength, hrecipients⟩ := hopened envelope henvelope
    obtain ⟨sender, size, body, since, hopen, rfl, -⟩ := h.opened old hold
    refine ⟨sender, size, body, since ++ [event], hopen.later hresets, ?_, hlength⟩
    obtain ⟨envelopeSender, envelopeRecipients, envelopeBody⟩ := envelope
    rw [accepted_append, Envelope.mk.injEq]
    exact ⟨hsender, hrecipients _ rfl, hbody⟩

theorem move {session' : Session} (h : Told isLocal maxMessageBytes maxRecipients past)
    (hmove : Move isLocal past.session event session') :
    Told isLocal maxMessageBytes maxRecipients ⟨session', past.history ++ [event]⟩ := by
  cases hmove with
  | greets name extended hgreets hresets hother =>
      have hlatest : latestGreeting (past.history ++ [event]) = some extended := by
        rw [latestGreeting_append, hgreets]
        rfl
      refine h.ended (some name) extended ?_ ?_ hresets ?_
      · rw [hlatest]
        rfl
      · rw [hlatest]
        rfl
      · intro sender size body hcall
        exact absurd hcall (hother sender size body)
  | ends hgreets hresets hother =>
      refine h.ended past.session.greeting past.session.extended ?_ ?_ hresets hother
      · rw [latestGreeting_other hgreets]
        exact h.greeted
      · rw [latestGreeting_other hgreets]
        exact h.extended
  | opens sender size body hcall hpositive hparameters =>
      have hgreets : event.greeted? = none := by
        unfold Event.greeted?
        rw [hcall]
      refine ⟨h.bytes, h.recipients, ?_, ?_, ?_, ?_⟩
      · rw [latestGreeting_other hgreets]
        exact h.greeted
      · rw [latestGreeting_other hgreets]
        exact h.extended
      · intro hnone
        cases hnone
      · intro envelope henvelope
        cases henvelope
        exact ⟨sender, size, body, [], OpenMail.begin hcall hpositive, rfl, Nat.zero_le _⟩
  | repeats envelope address hcall hpositive htransaction hany =>
      obtain ⟨hgreets, hresets⟩ := routed_keeps hcall
      refine h.continued past.session.transaction hgreets hresets id ?_
      intro same' hsame
      obtain ⟨-, -, -, -, -, -, hlength⟩ := h.opened same' hsame
      refine ⟨same', hsame, rfl, rfl, hlength, ?_⟩
      intro seen hseen
      rw [htransaction] at hsame
      cases hsame
      rw [hseen, Distinct.any_firsts same_trans] at hany
      rw [accepted?_of_routed hcall hpositive, Option.toList_some, Distinct.firsts_append_singleton,
        if_pos hany, hseen]
  | adds envelope address hcall hpositive htransaction hany hroom =>
      obtain ⟨hgreets, hresets⟩ := routed_keeps hcall
      refine h.continued _ hgreets hresets (fun hnone => by cases hnone) ?_
      intro longer hlonger
      cases hlonger
      refine ⟨envelope, htransaction, rfl, rfl, ?_, ?_⟩
      · rw [h.recipients] at hroom
        rw [List.length_append, List.length_singleton]
        omega
      · intro seen hseen
        rw [hseen, Distinct.any_firsts same_trans] at hany
        rw [accepted?_of_routed hcall hpositive, Option.toList_some,
          Distinct.firsts_append_singleton, hany, ← hseen]
        rfl
  | stays hgreets hresets haccepted =>
      refine h.continued past.session.transaction hgreets hresets id ?_
      intro envelope henvelope
      obtain ⟨-, -, -, -, -, -, hlength⟩ := h.opened envelope henvelope
      refine ⟨envelope, henvelope, rfl, rfl, hlength, ?_⟩
      intro seen hseen
      rw [haccepted, Option.toList_none, List.append_nil, hseen]

end Told

theorem told_past (isLocal : Text → Bool) (maxMessageBytes maxRecipients : Nat)
    (calls : List Call) :
    Told isLocal maxMessageBytes maxRecipients
      (past isLocal maxMessageBytes maxRecipients calls) :=
  Runs.invariant _ (Told.new maxMessageBytes maxRecipients)
    (fun past call h => h.move (perform_moves past.session call)) calls

theorem Told.transaction_eq {maxMessageBytes maxRecipients : Nat} {past : Past}
    (h : Told isLocal maxMessageBytes maxRecipients past) {sender : Option Address}
    {size : Option Nat} {body : Option Body} {since : List Event}
    (hopen : OpenMail past.history sender size body since) :
    past.session.transaction
        = some ⟨sender, Distinct.firsts (same isLocal) (accepted since), body.getD .sevenBit⟩
      ∧ (Distinct.firsts (same isLocal) (accepted since)).length ≤ maxRecipients := by
  cases htransaction : past.session.transaction with
  | none => exact absurd hopen (h.closed htransaction sender size body since)
  | some envelope =>
      obtain ⟨_, _, _, _, hother, rfl, hlength⟩ := h.opened envelope htransaction
      obtain ⟨rfl, rfl, rfl, rfl⟩ := hopen.unique hother
      exact ⟨rfl, hlength⟩

theorem data_eq_beginData_iff {session : Session} {envelope : Envelope} :
    session.data.2 = .beginData envelope ↔
      session.transaction = some envelope ∧ envelope.recipients ≠ [] := by
  unfold data
  cases session.transaction with
  | none => simp
  | some open' =>
      dsimp only
      split_ifs with hempty
      · rw [List.isEmpty_iff] at hempty
        simp only [Option.some.injEq, false_iff, not_and, not_not]
        rintro rfl
        exact hempty
      · rw [List.isEmpty_iff] at hempty
        simp only [Action.beginData.injEq, Option.some.injEq]
        constructor
        · rintro rfl
          exact ⟨rfl, hempty⟩
        · exact And.left

/-- What the history of a session says about its next call. -/
structure Refines (isLocal : Text → Bool) (maxRecipients : Nat) (past : Past) : Prop where
  begins : (∃ envelope, (past.session.apply .data).2 = .beginData envelope) ↔
    ∃ sender size body since, OpenMail past.history sender size body since ∧ accepted since ≠ []
  envelope : ∀ envelope sender size body since,
    (past.session.apply .data).2 = .beginData envelope →
    OpenMail past.history sender size body since →
    envelope.sender = sender ∧ envelope.body = body.getD .sevenBit
      ∧ envelope.recipients = Distinct.firsts (same isLocal) (accepted since)
      ∧ 1 ≤ envelope.recipients.length ∧ envelope.recipients.length ≤ maxRecipients
  duplicate : ∀ sender size body since address,
    OpenMail past.history sender size body since →
    (accepted since).any (same isLocal · address) = true →
    past.session.perform isLocal (.routed address true)
      = (past.session, .reply ⟨250, "2.1.5 Recipient accepted"⟩)
  refused : ∀ address found,
    (⟨.routed address found, (past.session.perform isLocal (.routed address found)).2⟩ :
      Event).positive = false →
    (past.session.perform isLocal (.routed address found)).1 = past.session
  idle : ∀ command ∈ [Command.noop, .help, .verify, .startTls, .unsupported],
    (past.session.apply command).1 = past.session
  parameters : ∀ sender size body, size.isSome ∨ body.isSome →
    (⟨.apply (.mail sender size body), (past.session.apply (.mail sender size body)).2⟩ :
      Event).positive = true →
    latestGreeting past.history = some true

theorem Told.refines {maxMessageBytes maxRecipients : Nat} {past : Past}
    (h : Told isLocal maxMessageBytes maxRecipients past) :
    Refines isLocal maxRecipients past where
  begins := by
    constructor
    · rintro ⟨envelope, hbegin⟩
      obtain ⟨htransaction, hsome⟩ := data_eq_beginData_iff.1 hbegin
      obtain ⟨sender, size, body, since, hopen, rfl, -⟩ := h.opened envelope htransaction
      refine ⟨sender, size, body, since, hopen, ?_⟩
      rwa [Ne, Distinct.firsts_eq_nil_iff] at hsome
    · rintro ⟨sender, size, body, since, hopen, hsome⟩
      refine ⟨_, data_eq_beginData_iff.2 ⟨(h.transaction_eq hopen).1, ?_⟩⟩
      rwa [Ne, Distinct.firsts_eq_nil_iff]
  envelope := by
    intro envelope sender size body since hbegin hopen
    obtain ⟨htransaction, hsome⟩ := data_eq_beginData_iff.1 hbegin
    obtain ⟨heq, hlength⟩ := h.transaction_eq hopen
    rw [heq] at htransaction
    cases htransaction
    exact ⟨rfl, rfl, rfl, List.length_pos_iff.2 hsome, hlength⟩
  duplicate := by
    intro sender size body since address hopen hany
    rw [← Distinct.any_firsts same_trans] at hany
    have hadd : past.session.addRecipient
        ⟨sender, Distinct.firsts (same isLocal) (accepted since), body.getD .sevenBit⟩ address
        (isLocal address.domain) = (past.session, ⟨250, "2.1.5 Recipient accepted"⟩) :=
      if_pos hany
    unfold perform routedRecipientResult
    rw [(h.transaction_eq hopen).1]
    dsimp only
    rw [if_pos rfl, hadd]
  refused := by
    intro address found hrefused
    have hmove : Move isLocal past.session _ _ := perform_moves past.session (.routed address found)
    generalize (past.session.perform isLocal (.routed address found)).1 = session' at hmove ⊢
    cases hmove with
    | greets _ _ hgreets _ _ => cases hgreets
    | ends _ hresets _ => cases hresets
    | opens _ _ _ hcall _ _ => cases hcall
    | repeats _ _ _ _ _ _ => rfl
    | adds _ _ _ hpositive _ _ _ =>
        rw [hrefused] at hpositive
        cases hpositive
    | stays _ _ _ => rfl
  idle := by
    intro command hcommand
    simp only [List.mem_cons, List.not_mem_nil, or_false] at hcommand
    rcases hcommand with rfl | rfl | rfl | rfl | rfl
    · rfl
    · rfl
    · rfl
    · rfl
    · rfl
  parameters := by
    intro sender size body hgiven hpositive
    have hmove : Move isLocal past.session _ _ := mail_moves past.session sender size body
    have hextended : past.session.extended = true := by
      change Event.positive ⟨_, (past.session.mail sender size body).2⟩ = true at hpositive
      generalize (past.session.mail sender size body).1 = session' at hmove
      cases hmove with
      | greets _ _ hgreets _ _ => cases hgreets
      | ends _ _ hother =>
          rw [hother sender size body rfl] at hpositive
          cases hpositive
      | opens _ _ _ hcall _ hparameters =>
          cases hcall
          exact hparameters hgiven
      | repeats _ _ hcall _ _ _ => cases hcall
      | adds _ _ hcall _ _ _ _ => cases hcall
      | stays _ hresets _ => cases hresets
    rw [h.extended] at hextended
    cases hlatest : latestGreeting past.history with
    | none =>
        rw [hlatest] at hextended
        cases hextended
    | some extended =>
        rw [hlatest] at hextended
        exact congrArg some hextended

end Session

/-- After any calls, a session does what its history says. -/
theorem session_refines_history (isLocal : Text → Bool) (maxMessageBytes maxRecipients : Nat)
    (calls : List Session.Call) :
    Session.Refines isLocal maxRecipients
      (Session.past isLocal maxMessageBytes maxRecipients calls) :=
  (Session.told_past isLocal maxMessageBytes maxRecipients calls).refines

end Rustymail.Server
