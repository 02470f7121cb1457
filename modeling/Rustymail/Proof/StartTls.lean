import Rustymail.Proof.Chunks
import Rustymail.Proof.ConnectionLemmas

/-!
# STARTTLS

Whatever a session has read before its upgrade, the same session goes on after it: the one that a new
connection would have, only encrypted, with nothing read ahead. Two upgraded sessions that then
receive the same bytes do the same.
-/

namespace Rustymail.Server

open Checked

/-! ### Encryption in one round -/

/-- What becomes of encryption. A connection that stays plain has nobody authenticated on it, and
nobody tried. -/
inductive Connection.Advances (config : SessionConfig) (connection : Connection) (outcome : Outcome) :
    Prop where
  | ended (h : outcome.connection = none)
  | stays (next : Connection) (h : outcome.connection = some next)
      (hencrypted : next.encrypted = connection.encrypted)
      (hplain : connection.encrypted = false →
        next.principal = connection.principal ∧ next.authAttempts = connection.authAttempts)
  | upgrades (h : outcome.connection = some (connection.upgrade config))
      (hplain : connection.encrypted = false) (hbegun : outcome.begun = none)

namespace Connection

variable {context : SessionContext} {input : RoundInput} {connection before : Connection}
variable {config : SessionConfig} {bytes : Text} {command : Command} {outcome : Outcome}

theorem Advances.after (h : connection.Advances config outcome) (effect : Effect) :
    connection.Advances config (outcome.after effect) := by
  cases h with
  | ended hended => exact .ended hended
  | stays next hnext hencrypted hplain => exact .stays next hnext hencrypted hplain
  | upgrades hnext hplain hbegun => exact .upgrades hnext hplain hbegun

/-- Only the session matters to a command, so that it may have changed before. -/
theorem Advances.with_session {session : Session}
    (h : Advances config { connection with session := session } outcome) :
    connection.Advances config outcome := by
  cases h with
  | ended hended => exact .ended hended
  | stays next hnext hencrypted hplain => exact .stays next hnext hencrypted hplain
  | upgrades hnext hplain hbegun => exact .upgrades hnext hplain hbegun

theorem answer_advances (connection : Connection) (config : SessionConfig) (input : RoundInput)
    (effect : Effect) : connection.Advances config (connection.answer input effect) := by
  cases hwrote : input.wrote with
  | false =>
      refine .ended ?_
      unfold answer
      rw [hwrote]
      rfl
  | true =>
      refine .stays connection ?_ rfl fun _ => ⟨rfl, rfl⟩
      unfold answer
      rw [hwrote]
      rfl

/-- Attempts and principals change on encrypted connections only. -/
theorem credentials_advances (hencrypted : connection.encrypted = true) (encoded : Text) :
    connection.Advances config (connection.credentials input encoded) := by
  have hreply : ∀ next : Connection, next.encrypted = connection.encrypted → ∀ code text,
      connection.Advances config (next.reply input code text) := by
    intro next hnext code text
    cases next.answer_advances config input (.reply ⟨code, text⟩) with
    | ended hended => exact .ended hended
    | stays last hlast hsame _ =>
        refine .stays last hlast (hsame.trans hnext) fun hplain => ?_
        rw [hencrypted] at hplain
        cases hplain
    | upgrades _ hplain _ =>
        rw [hnext, hencrypted] at hplain
        cases hplain
  unfold credentials
  split_ifs
  · exact hreply connection rfl _ _
  · refine Advances.after ?_ _
    split
    · next identity _ => exact hreply { connection with principal := some identity } rfl _ _
    · exact hreply connection.failed rfl _ _
    · exact hreply connection.failed rfl _ _

theorem authenticate_advances (hencrypted : connection.encrypted = true) (bytes : Text) :
    connection.Advances config (connection.authenticate input bytes) := by
  unfold authenticate
  split
  · split_ifs
    · split
      · exact .ended rfl
      · exact (credentials_advances hencrypted _).after _
    · exact connection.answer_advances config input _
  · split_ifs
    · exact credentials_advances hencrypted _
    · exact connection.answer_advances config input _
  · exact connection.answer_advances config input _

theorem Advances.filter (h : connection.Advances config outcome) (hencrypted : connection.encrypted = true)
    (keeps : Connection → Bool) :
    connection.Advances config { outcome with connection := outcome.connection.filter keeps } := by
  cases hfiltered : outcome.connection.filter keeps with
  | none => exact .ended rfl
  | some next =>
      have hnext := Option.eq_some_of_filter_eq_some hfiltered
      cases h with
      | ended hended =>
          rw [hended] at hnext
          cases hnext
      | stays last hlast hsame hplain =>
          obtain rfl := Option.some.inj (hlast.symm.trans hnext)
          exact .stays last rfl hsame hplain
      | upgrades _ hplain _ =>
          rw [hencrypted] at hplain
          cases hplain

theorem auth_advances (connection : Connection) (context : SessionContext) (input : RoundInput)
    (bytes : Text) : connection.Advances config (connection.auth context input bytes) := by
  rcases connection.auth_cases context input bytes with
    ⟨code, text, -, heq⟩ | ⟨-, hencrypted, -, heq⟩
  · rw [heq]
    exact connection.answer_advances config input _
  · rw [heq]
    exact (authenticate_advances hencrypted bytes).filter hencrypted _

theorem malformed_advances (connection : Connection) (input : RoundInput) (bytes : Text)
    (error : ParseError) : connection.Advances config (connection.malformed input bytes error) := by
  have hcurrent : connection.Advances config (connection.malformed input bytes error) ∨
      connection.reset.Advances config (connection.malformed input bytes error) := by
    unfold malformed
    cases error with
    | syntactic =>
        dsimp only
        split_ifs
        · exact Or.inr (connection.reset.answer_advances config input _)
        · exact Or.inl (connection.answer_advances config input _)
    | unsupportedParameter =>
        dsimp only
        split_ifs
        · exact Or.inr (connection.reset.answer_advances config input _)
        · exact Or.inl (connection.answer_advances config input _)
  rcases hcurrent with hcurrent | hcurrent
  · exact hcurrent
  · exact hcurrent.with_session

theorem startTls_advances (connection : Connection) (context : SessionContext) (input : RoundInput) :
    connection.Advances context.config (connection.startTls context input) := by
  unfold startTls
  by_cases hencrypted : connection.encrypted = true
  · rw [if_pos hencrypted]
    exact connection.answer_advances _ input _
  rw [if_neg hencrypted]
  split_ifs
  · exact connection.answer_advances _ input _
  · exact connection.answer_advances _ input _
  · exact .ended rfl
  · exact .ended rfl
  · cases hwrote : input.wrote with
    | false =>
        refine .ended ?_
        unfold reply answer
        rw [hwrote]
        rfl
    | true =>
        refine .upgrades ?_ (Bool.eq_false_iff.2 hencrypted) rfl
        unfold reply answer
        rw [hwrote]
        rfl

theorem checkRecipient_advances (connection : Connection) (context : SessionContext)
    (input : RoundInput) (address : Address) :
    connection.Advances config (connection.checkRecipient context input address) := by
  unfold checkRecipient
  split
  · exact connection.answer_advances config input _
  · exact Advances.with_session (answer_advances _ config input _)

theorem perform_advances (connection : Connection) (context : SessionContext) (input : RoundInput)
    (command : Command) :
    connection.Advances context.config (connection.perform context input command) := by
  unfold perform
  dsimp only
  split
  · exact Advances.with_session (answer_advances _ _ input _)
  · exact Advances.with_session (answer_advances _ _ input _)
  · exact Advances.with_session (startTls_advances _ context input)
  · exact .ended rfl
  · exact Advances.with_session (checkRecipient_advances _ context input _)
  · exact .stays _ rfl rfl fun _ => ⟨rfl, rfl⟩

theorem guarded_advances (connection : Connection) (context : SessionContext) (input : RoundInput)
    (command : Command) :
    connection.Advances context.config (connection.guarded context input command) := by
  have hauthorize : ∀ (sender : Option Address) (command : Command),
      connection.reset.Advances context.config
        (connection.reset.authorize context input sender command) := by
    intro sender command
    rcases connection.reset.authorize_cases context input sender command with
      heq | ⟨identity, author, -, -, ⟨e, heq⟩ | heq | heq⟩
    · rw [heq]
      exact connection.reset.answer_advances _ input _
    · rw [heq]
      exact .ended rfl
    · rw [heq]
      exact (connection.reset.answer_advances _ input _).after _
    · rw [heq]
      exact (connection.reset.perform_advances context input command).after _
  unfold guarded
  cases command with
  | mail sender size body =>
      dsimp only
      split_ifs
      · exact Advances.with_session (connection.reset.answer_advances _ input _)
      · exact Advances.with_session (hauthorize sender _)
  | _ =>
      dsimp only
      split_ifs
      · exact connection.answer_advances _ input _
      · exact connection.perform_advances context input _

/-- **Encryption in one round.** -/
theorem round_advances (connection : Connection) (context : SessionContext) (input : RoundInput)
    (incoming : Incoming) :
    connection.Advances context.config (connection.round context input incoming) := by
  cases incoming with
  | eof => exact .ended rfl
  | invalid => exact .ended rfl
  | elapsed => exact .ended rfl
  | revoked =>
      unfold round
      dsimp only
      split_ifs
      · exact .ended rfl
      · exact .stays connection rfl rfl fun _ => ⟨rfl, rfl⟩
  | line bytes =>
      unfold round line
      dsimp only
      split_ifs
      · exact .ended rfl
      · exact .ended rfl
      · exact connection.auth_advances context input bytes
      · split
        · exact connection.malformed_advances input bytes _
        · unfold Connection.command
          split_ifs
          · exact connection.answer_advances _ input _
          · exact connection.guarded_advances context input _
          · exact connection.perform_advances context input _

end Connection

/-! ### Waiting without a principal -/

namespace Guarded

/-- Without a principal `wait` stays where it is. -/
theorem moves_idle {session : Guarded} (hprincipal : session.principal = none)
    (hwait : session.wait = .idle) (moves : List WaitMove) :
    (session.moves moves).1 = session := by
  have hmove : ∀ next, (session.move next).1 = session := by
    intro next
    cases next with
    | poll version closed =>
        change session.poll version closed = session
        unfold poll
        rw [hwait]
    | serve db =>
        change session.serve db = session
        unfold serve
        rw [hprincipal]
    | refuse =>
        change session.refuse = session
        unfold refuse
        rw [hwait]
  induction moves with
  | nil => rfl
  | cons next rest ih =>
      change ((session.move next).1.moves rest).1 = session
      rw [hmove next]
      exact ih

end Guarded

namespace Smtp

variable {s t last : Smtp} {setting : Setting} {version : Nat}

theorem waits_idle (h : s.connection.principal = none) (moves : List WaitMove) :
    (s.guarded.moves moves).1.revocations = s.revocations := by
  have hguarded : s.guarded = ⟨s.revocations, none, none, .idle⟩ := by
    unfold guarded Guarded.enter
    rw [h]
  rw [hguarded, Guarded.moves_idle rfl rfl]

/-! ### Plaintext -/

/-- What a DATA transaction leaves as it is. Without a principal that is all but the reader. -/
structure Keeps (s last : Smtp) : Prop where
  setting : last.setting = s.setting
  connection : last.connection = s.connection
  revocations : s.connection.principal = none → last.revocations = s.revocations

theorem Keeps.refl (s : Smtp) : s.Keeps s := ⟨rfl, rfl, fun _ => rfl⟩

theorem accept_keeps {request : AcceptRequest} {input : DataInput}
    (h : (s.accept request input).1 = some last) : last = s := by
  unfold accept at h
  cases haccepted : input.accepted request with
  | none =>
      rw [haccepted] at h
      cases h
  | some result =>
      rw [haccepted] at h
      dsimp only at h
      split at h
      · cases h
        rfl
      · cases h

theorem receive_keeps {envelope : Envelope} {input : DataInput} {stage : StagedMessage} {text : Text}
    (h : (s.receive envelope input stage text).1 = some last) : s.Keeps last := by
  unfold receive at h
  dsimp only at h
  split_ifs at h
  split at h
  · have heq := accept_keeps h
    subst heq
    exact ⟨rfl, rfl, fun hnone => waits_idle hnone input.moves⟩
  · cases h

theorem beginData_keeps {envelope : Envelope} {input : DataInput}
    (h : (s.beginData envelope input).1 = some last) : s.Keeps last := by
  unfold beginData at h
  dsimp only at h
  split at h
  · cases h
    exact .refl s
  · exact receive_keeps h
  · cases h

/-- As long as a session is not encrypted, only its session and its reader ever change. -/
structure Plain (setting : Setting) (version : Nat) (s : Smtp) : Prop where
  setting : s.setting = setting
  unproven : s.connection.encrypted = false →
    s.connection.principal = none ∧ s.connection.authAttempts = 0 ∧ s.revocations = ⟨version, false⟩

theorem Plain.start (setting : Setting) (version : Nat) (stream : List Text) :
    Plain setting version (start setting version stream) where
  setting := rfl
  unproven _ := ⟨rfl, rfl, rfl⟩

/-- A turn that the session outlives leaves what its round left, as far as DATA keeps it. -/
theorem turn_some {input : TurnInput} (h : (s.turn input).1 = some last) :
    ∃ next, (s.round input).connection = some next ∧ (s.after input next).Keeps last
      ∧ ((s.round input).begun = none → last = s.after input next) := by
  unfold turn at h
  cases hnext : (s.round input).connection with
  | none =>
      rw [hnext] at h
      cases h
  | some next =>
      cases hbegun : (s.round input).begun with
      | none =>
          rw [hnext, hbegun] at h
          cases h
          exact ⟨next, rfl, .refl _, fun _ => rfl⟩
      | some envelope =>
          rw [hnext, hbegun] at h
          refine ⟨next, rfl, beginData_keeps h, fun hnone => ?_⟩
          cases hnone

theorem turn_plain {input : TurnInput} (hplain : Plain setting version s)
    (h : (s.turn input).1 = some last) : Plain setting version last := by
  obtain ⟨next, hnext, hkeeps, -⟩ := turn_some h
  refine ⟨hkeeps.setting.trans hplain.setting, fun hlast => ?_⟩
  rw [hkeeps.connection] at hlast ⊢
  change next.encrypted = false at hlast
  cases s.connection.round_advances s.setting.context _ (s.listen input).1 with
  | ended hended =>
      have hnone : (s.round input).connection = none := hended
      rw [hnext] at hnone
      cases hnone
  | upgrades hupgraded _ _ =>
      obtain rfl := Option.some.inj (hnext.symm.trans hupgraded)
      cases hlast
  | stays next' hstays hencrypted hsame =>
      obtain rfl := Option.some.inj (hnext.symm.trans hstays)
      rw [hencrypted] at hlast
      obtain ⟨hprincipal, hattempts, hrevocations⟩ := hplain.unproven hlast
      obtain ⟨hprincipal', hattempts'⟩ := hsame hlast
      refine ⟨hprincipal'.trans hprincipal, hattempts'.trans hattempts, ?_⟩
      calc
        last.revocations = (s.after input next).revocations :=
          hkeeps.revocations (hprincipal'.trans hprincipal)
        _ = s.revocations := waits_idle hprincipal input.moves
        _ = ⟨version, false⟩ := hrevocations

/-- **Nothing that came before the upgrade is left after it.** -/
theorem upgraded_fresh (h : Upgraded setting version s) :
    s.setting = setting ∧ s.connection = { Connection.start setting.context with encrypted := true }
      ∧ s.reader.buffer = [] ∧ s.revocations = ⟨version, false⟩ := by
  obtain ⟨stream, plaintext, last, before, hrun, hunencrypted, hturn, hencrypted, -⟩ := h
  have hplain : Plain setting version before :=
    Machine.invariant (Plain setting version) (fun _ _ _ => turn_plain) (.start setting version stream)
      hrun
  obtain ⟨hprincipal, hattempts, hrevocations⟩ := hplain.unproven hunencrypted
  obtain ⟨next, hnext, hkeeps, hlast⟩ := turn_some hturn
  cases before.connection.round_advances before.setting.context _ (before.listen last).1 with
  | ended hended =>
      have hnone : (before.round last).connection = none := hended
      rw [hnext] at hnone
      cases hnone
  | stays next' hstays hsame _ =>
      obtain rfl := Option.some.inj (hnext.symm.trans hstays)
      rw [hkeeps.connection] at hencrypted
      exact absurd (hencrypted.symm.trans (hsame.trans hunencrypted)) Bool.true_eq_false.mp
  | upgrades hupgraded _ hbegun =>
      obtain rfl := Option.some.inj (hnext.symm.trans hupgraded)
      obtain rfl := hlast hbegun
      refine ⟨hplain.setting, ?_, ?_, (waits_idle hprincipal last.moves).trans hrevocations⟩
      · change before.connection.upgrade before.setting.context.config = _
        unfold Connection.upgrade Connection.start
        rw [hattempts, hplain.setting]
      · change (before.readerAfter last _).buffer = []
        unfold readerAfter
        rw [hunencrypted]
        rfl

/-! ### Two sessions with the same bytes -/

/-- Encrypted sessions that differ in nothing but how their stream is cut. -/
structure Alike (s t : Smtp) : Prop where
  setting : t.setting = s.setting
  connection : t.connection = s.connection
  revocations : t.revocations = s.revocations
  encrypted : s.connection.encrypted = true
  bytes : s.reader.bytes = t.reader.bytes

theorem Alike.eq (h : s.Alike t) : t = { s with reader := t.reader } := by
  obtain ⟨setting, connection, reader, revocations⟩ := t
  obtain ⟨rfl, rfl, rfl, -, -⟩ := h
  rfl

variable {reader : Reader}

theorem accept_alike (hencrypted : s.connection.encrypted = true)
    (hbytes : s.reader.bytes = reader.bytes) (request : AcceptRequest) (input : DataInput) :
    (s.accept request input).2 = (accept { s with reader := reader } request input).2
      ∧ Option.Rel Alike (s.accept request input).1
        (accept { s with reader := reader } request input).1 := by
  unfold accept
  cases input.accepted request with
  | none => exact ⟨rfl, .none⟩
  | some result =>
      dsimp only
      refine ⟨rfl, ?_⟩
      split
      · exact .some ⟨rfl, rfl, rfl, hencrypted, hbytes⟩
      · exact .none

theorem receive_alike (hencrypted : s.connection.encrypted = true)
    (hbytes : s.reader.bytes = reader.bytes) (envelope : Envelope) (input : DataInput)
    (stage : StagedMessage) (text : Text) :
    (s.receive envelope input stage text).2
        = (receive { s with reader := reader } envelope input stage text).2
      ∧ Option.Rel Alike (s.receive envelope input stage text).1
        (receive { s with reader := reader } envelope input stage text).1 := by
  have hguarded : guarded { s with reader := reader } = s.guarded := rfl
  have hsame := receiveMessage_same s.setting.limits input.faults s.setting.context.auth
    envelope.body text stage hbytes
  unfold receive
  rw [hguarded]
  dsimp only
  by_cases hreturned : (s.guarded.moves input.moves).1.returned = true
  · rw [if_pos hreturned, if_pos hreturned]
    exact ⟨rfl, .none⟩
  rw [if_neg hreturned, if_neg hreturned]
  by_cases helapsed : input.elapsed = true
  · rw [if_pos helapsed, if_pos helapsed]
    exact ⟨rfl, .none⟩
  rw [if_neg helapsed, if_neg helapsed]
  rcases map_eq_map hsame with
    ⟨e, hfirst, hsecond⟩ | ⟨⟨stage, author, left⟩, ⟨stage', author', left'⟩, hfirst, hsecond, hsame⟩
  · rw [hfirst, hsecond]
    exact ⟨rfl, .none⟩
  · obtain rfl : stage = stage' := congrArg Prod.fst hsame
    obtain rfl : author = author' := congrArg (·.2.1) hsame
    have hrest : (Reader.rest left).bytes = (Reader.rest left').bytes := by
      rw [Reader.bytes_rest, Reader.bytes_rest]
      exact congrArg (·.2.2) hsame
    rw [hfirst, hsecond]
    dsimp only [Except.map]
    generalize Phase.received _ _ _ _ = turn
    obtain ⟨phase, written⟩ := turn
    cases phase with
    | dispatching request =>
        have haccept := accept_alike (s := { s with
          reader := .rest left, revocations := (s.guarded.moves input.moves).1.revocations })
          hencrypted hrest request input
        exact ⟨congrArg (_ ++ ·) haccept.1, haccept.2⟩
    | _ => exact ⟨rfl, .none⟩

theorem beginData_alike (hencrypted : s.connection.encrypted = true)
    (hbytes : s.reader.bytes = reader.bytes) (envelope : Envelope) (input : DataInput) :
    (s.beginData envelope input).2 = (beginData { s with reader := reader } envelope input).2
      ∧ Option.Rel Alike (s.beginData envelope input).1
        (beginData { s with reader := reader } envelope input).1 := by
  have htrace : trace { s with reader := reader } = s.trace := rfl
  unfold beginData
  rw [htrace]
  dsimp only
  split
  · exact ⟨rfl, .some ⟨rfl, rfl, rfl, hencrypted, hbytes⟩⟩
  · next stage text _ _ _ =>
      have hreceive := receive_alike hencrypted hbytes envelope input stage text
      exact ⟨congrArg (_ ++ ·) hreceive.1, hreceive.2⟩
  · exact ⟨rfl, .none⟩

theorem listen_alike (hbytes : s.reader.bytes = reader.bytes) (input : TurnInput) :
    (s.listen input).1 = (listen { s with reader := reader } input).1
      ∧ (s.listen input).2.bytes = (listen { s with reader := reader } input).2.bytes := by
  have hguarded : guarded { s with reader := reader } = s.guarded := rfl
  unfold listen
  rw [hguarded]
  split_ifs
  · exact ⟨rfl, hbytes⟩
  · exact ⟨rfl, hbytes⟩
  · exact ⟨rfl, hbytes⟩
  · rcases map_eq_map (Reader.line_same s.setting.context.readLimit hbytes) with
      ⟨e, hfirst, hsecond⟩ | ⟨⟨text, left⟩, ⟨text', left'⟩, hfirst, hsecond, hsame⟩
    · rw [hfirst, hsecond]
      exact ⟨rfl, hbytes⟩
    · obtain rfl : text = text' := congrArg Prod.fst hsame
      rw [hfirst, hsecond]
      cases text with
      | none => exact ⟨rfl, congrArg Prod.snd hsame⟩
      | some text => exact ⟨rfl, congrArg Prod.snd hsame⟩

theorem turn_alike (h : s.Alike t) (input : TurnInput) :
    (s.turn input).2 = (t.turn input).2
      ∧ Option.Rel Alike (s.turn input).1 (t.turn input).1 := by
  obtain ⟨hincoming, hheard⟩ := listen_alike h.bytes input
  rw [← h.eq] at hincoming hheard
  obtain ⟨hresponse, hfurther⟩ := Reader.response_same input.responds hheard
  have hguarded : t.guarded = s.guarded := by
    rw [h.eq]
    rfl
  have hround : t.round input = s.round input := by
    unfold round
    rw [h.setting, h.connection, ← hincoming, ← hresponse]
  have hdeeds : t.deeds input = s.deeds input := by
    unfold deeds
    rw [hguarded, hround, h.setting, h.connection, ← hincoming]
  have hafter : ∀ next, (s.round input).connection = some next →
      (s.after input next).Alike (t.after input next) := by
    intro next hnext
    refine ⟨h.setting, rfl, ?_, ?_, ?_⟩
    · change (t.guarded.moves input.moves).1.revocations = _
      rw [hguarded]
      rfl
    · change next.encrypted = true
      cases s.connection.round_advances s.setting.context _ (s.listen input).1 with
      | ended hended =>
          have hnone : (s.round input).connection = none := hended
          rw [hnext] at hnone
          cases hnone
      | stays next' hstays hsame _ =>
          obtain rfl := Option.some.inj (hnext.symm.trans hstays)
          exact hsame.trans h.encrypted
      | upgrades _ hplain _ => exact absurd (h.encrypted.symm.trans hplain) Bool.true_eq_false.mp
    · change (s.readerAfter input next).bytes = (t.readerAfter input next).bytes
      unfold readerAfter
      rw [h.connection, h.encrypted, hround]
      split_ifs with hflips hchallenges
      · cases hflips
      · exact hfurther
      · exact hheard
  unfold turn
  rw [hround, hdeeds]
  cases hnext : (s.round input).connection with
  | none => exact ⟨rfl, .none⟩
  | some next =>
      cases hbegun : (s.round input).begun with
      | none => exact ⟨rfl, .some (hafter next hnext)⟩
      | some envelope =>
          have hmid := hafter next hnext
          have hbegin := beginData_alike hmid.encrypted hmid.bytes envelope input.data
          rw [← hmid.eq] at hbegin
          exact ⟨congrArg (s.deeds input ++ ·) hbegin.1, hbegin.2⟩

theorem run_alike (h : s.Alike t) (inputs : List TurnInput) :
    (s.run inputs).2 = (t.run inputs).2 ∧ Option.Rel Alike (s.run inputs).1 (t.run inputs).1 :=
  Machine.bisimilar Alike (fun _ _ input h => turn_alike h input) h inputs

/-- **STARTTLS forgets the plaintext.** Whatever two sessions of one kind have received before it,
after it both have the variables of a new session and nothing read ahead; if TLS then delivers the
same bytes to both, they write, ask and hand over the same, and end together. -/
theorem starttls_forgets_plaintext {setting : Setting} {version : Nat} {left right : Smtp}
    (hleft : left.Upgraded setting version) (hright : right.Upgraded setting version)
    (hstream : left.reader.stream.flatten = right.reader.stream.flatten) :
    left.connection = { Connection.start setting.context with encrypted := true }
      ∧ right.connection = { Connection.start setting.context with encrypted := true }
      ∧ left.reader.buffer = [] ∧ right.reader.buffer = []
      ∧ ∀ later, (left.run later).2 = (right.run later).2
        ∧ Option.Rel Alike (left.run later).1 (right.run later).1 := by
  obtain ⟨hsetting, hconnection, hbuffer, hrevocations⟩ := upgraded_fresh hleft
  obtain ⟨hsetting', hconnection', hbuffer', hrevocations'⟩ := upgraded_fresh hright
  refine ⟨hconnection, hconnection', hbuffer, hbuffer', fun later => run_alike ?_ later⟩
  refine ⟨hsetting'.trans hsetting.symm, hconnection'.trans hconnection.symm,
    hrevocations'.trans hrevocations.symm, ?_, ?_⟩
  · rw [hconnection]
  · unfold Reader.bytes Reader.pieces
    rw [hbuffer, hbuffer', List.flatten_cons, List.flatten_cons, hstream]

end Smtp

namespace Sample

def tlsContext : SessionContext where
  config :=
    { localDomains := []
      maxAgeSeconds := 1
      writerQueue := 1
      hostname := ascii "b.c"
      messageBytes := 1000
      recipientsPerMessage := 10
      mode := .disabled }
  server := .bindSecure true
  role := .receiver
  listens := by decide

def tlsSetting : Setting := ⟨tlsContext, .v4 (.replicate 4 0), 100, id, 0⟩

theorem zeros_valid : validId (List.replicate 32 48) = true := by decide

/-- A turn in which everything succeeds, and after which TLS delivers this. -/
def tlsTurn (delivered : List Text) : TurnInput where
  moves := []
  elapsed := false
  broken := false
  answers :=
    { wrote := true
      response := none
      authenticated := fun _ => .error .denied
      authorizeSender := fun _ _ => .ok false
      recipientExists := fun _ => .ok true
      permit := true
      certified := true
      upgraded := true }
  responds := false
  handshake := fun _ => delivered
  data :=
    { permit := false
      stage := none
      operation := ⟨List.replicate 32 48, zeros_valid⟩
      date := none
      wrote := true
      moves := []
      elapsed := false
      faults := {}
      accepted := fun _ => none
      answered := true }

/-- A session that was greeted with EHLO. -/
def greeted (name : Text) (reader : Reader) : Smtp where
  setting := tlsSetting
  connection :=
    { Connection.start tlsContext with
      session := (Session.new 1000 10).hello name true |>.1 }
  reader := reader
  revocations := ⟨0, false⟩

/-- A session whose upgrade is done. -/
def upgraded (stream : List Text) : Smtp where
  setting := tlsSetting
  connection := { Connection.start tlsContext with encrypted := true }
  reader := .withCapacity stream
  revocations := ⟨0, false⟩

/-- A client that sends a MAIL behind its STARTTLS, in one piece. -/
theorem injected_upgraded (delivered : List Text) :
    (upgraded delivered).Upgraded tlsSetting 0 := by
  refine ⟨[ascii "EHLO x\r\nSTARTTLS\r\nMAIL FROM:<>\r\n"], [tlsTurn []], tlsTurn delivered,
    greeted (ascii "x") ⟨ascii "STARTTLS\r\nMAIL FROM:<>\r\n", []⟩, rfl, rfl, rfl, rfl, ?_⟩
  exact List.mem_cons_self

/-- A client that waits for each reply. -/
theorem patient_upgraded (delivered : List Text) :
    (upgraded delivered).Upgraded tlsSetting 0 := by
  refine ⟨[ascii "EHLO yy\r\n", ascii "STARTTLS\r\n"], [tlsTurn []], tlsTurn delivered,
    greeted (ascii "yy") ⟨[], [ascii "STARTTLS\r\n"]⟩, rfl, rfl, rfl, rfl, ?_⟩
  exact List.mem_cons_self

theorem starttls_forgets_injection :
    ((upgraded [ascii "EHLO z\r\n"]).run [tlsTurn []]).2
        = ((upgraded [ascii "EHL", ascii "O z\r\n"]).run [tlsTurn []]).2
      ∧ Option.Rel Smtp.Alike ((upgraded [ascii "EHLO z\r\n"]).run [tlsTurn []]).1
        ((upgraded [ascii "EHL", ascii "O z\r\n"]).run [tlsTurn []]).1 :=
  (Smtp.starttls_forgets_plaintext (injected_upgraded [ascii "EHLO z\r\n"])
    (patient_upgraded [ascii "EHL", ascii "O z\r\n"]) rfl).2.2.2.2 [tlsTurn []]

end Sample

end Rustymail.Server
