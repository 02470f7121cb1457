import Rustymail.Client.Passage
import Rustymail.Proof.Preliminaries

/-!
# What the extensions decide

After authentication an attempt either refuses its message or announces it, as the capabilities of the
peer say.
-/

namespace Rustymail.Client

open Dialogue

namespace SmtpClient

variable (client : SmtpClient)

/-- An attempt up to its authentication. -/
def opened : Talk Failure Capabilities := do
  insist .connect id .connection
  client.secure
  let banner ← lost (response .banner false)
  require (banner.code = 220) .setup
  let capabilities ← client.negotiate
  client.authenticate capabilities
  pure capabilities

/-- The lines that are written before the envelope. -/
def Opening (bytes : Text) : Prop :=
  bytes = ascii "EHLO " ++ client.greeting ++ crlf ∨ bytes = ascii "STARTTLS" ++ crlf
    ∨ ∃ token, client.authorization = some token
      ∧ (bytes = ascii "AUTH PLAIN " ++ token ++ crlf ∨ bytes = token ++ crlf)

/-- The dialogue writes such lines only. -/
def Opens {ε α : Type} (talk : Talk ε α) : Prop :=
  Always (fun now _ _ => now)
    (fun (_ : Unit) question => ∀ deadline bytes, question = .write deadline bytes →
      client.Opening bytes) (fun _ _ => True) (fun _ _ => True) talk ()

end SmtpClient

/-- What an attempt does once it is authenticated. -/
def Message.afterwards (message : Message) (capabilities : Capabilities) :
    Talk Failure AttemptResult := do
  let size ← found .content message.wireSize
  require (message.refused capabilities size = false) .content
  message.submit capabilities size

theorem tryAttempt_opened (client : SmtpClient) (message : Message) :
    client.tryAttempt message = client.opened >>= message.afterwards := by
  unfold SmtpClient.tryAttempt SmtpClient.opened Message.afterwards Message.submit
  simp only [Dialogue.bind_assoc]
  rfl

/-! ### Before the envelope -/

namespace SmtpClient.Opens

variable {client : SmtpClient} {ε α β : Type}

theorem bind {talk : Talk ε α} {next : α → Talk ε β} (h : client.Opens talk)
    (hnext : ∀ value, client.Opens (next value)) : client.Opens (talk >>= next) :=
  Always.then h fun value _ _ => hnext value

theorem lost {talk : Talk Unit α} (h : client.Opens talk) : client.Opens (lost talk) :=
  Always.mapError (h.imp (fun _ _ _ => trivial) fun _ _ _ => trivial)

theorem pure (value : α) : client.Opens (Pure.pure value : Talk ε α) := trivial

theorem require {p : Prop} [Decidable p] {error : ε} : client.Opens (Dialogue.require p error) :=
  Always.require (fun _ => trivial) fun _ => trivial

theorem insist {question : Ask} {yes : question.Answer → Bool} {error : ε}
    (h : ∀ deadline bytes, question = .write deadline bytes → client.Opening bytes) :
    client.Opens (Dialogue.insist question yes error) :=
  Always.insist h (fun _ _ => trivial) fun _ => trivial

theorem response (deadline : Deadline) (capture : Bool) :
    client.Opens (response deadline capture) := by
  have hlines : ∀ (remaining : Nat) (first : Bool) (code : Option Nat) (total : Nat)
      (capabilities : Capabilities),
      client.Opens (responseLines deadline capture remaining first code total capabilities) := by
    intro remaining
    induction remaining with
    | zero => intros; trivial
    | succ remaining ih =>
        intro first code total capabilities
        refine ⟨fun _ _ h => (by cases h), ?_⟩
        rintro (_ | _ | line)
        · trivial
        · trivial
        · refine Always.bind (Always.found (fun number _ => ?_) trivial)
          refine Always.bind (Always.require (fun _ => ?_) fun _ => trivial)
          refine Always.bind (Always.found (fun captured _ => ?_) trivial)
          split_ifs
          · trivial
          · exact ih _ _ _ _
  exact hlines _ _ _ _ _

theorem command {bytes : Text} (h : client.Opening bytes) (capture : Bool) :
    client.Opens (command bytes capture) := by
  refine bind (insist ?_) fun _ => response _ _
  rintro deadline _ ⟨⟩
  exact h

theorem upgrade : client.Opens client.upgrade :=
  require.bind fun _ => insist fun _ _ h => by cases h

theorem hello : client.Opens client.hello :=
  (command (Or.inl rfl) true).lost.bind fun _ => require.bind fun _ => .pure _

theorem negotiate : client.Opens client.negotiate := by
  refine hello.bind fun ehlo => ?_
  split_ifs
  · refine require.bind fun _ => ?_
    refine (command (Or.inr (Or.inl rfl)) false).lost.bind fun ready => ?_
    exact require.bind fun _ => upgrade.bind fun _ => hello.bind fun _ => .pure _
  · exact .pure _

theorem authenticate (capabilities : Capabilities) :
    client.Opens (client.authenticate capabilities) := by
  unfold SmtpClient.authenticate
  cases htoken : client.authorization with
  | none => exact .pure ()
  | some token =>
      refine require.bind fun _ => ?_
      refine (command (Or.inr (Or.inr ⟨token, htoken, Or.inl rfl⟩)) false).lost.bind fun first => ?_
      split_ifs
      · refine (command (Or.inr (Or.inr ⟨token, htoken, Or.inr rfl⟩)) false).lost.bind fun second => ?_
        exact require
      · exact require

theorem opened : client.Opens client.opened := by
  refine bind (insist fun _ _ h => by cases h) fun _ => ?_
  refine bind ?_ fun _ => ?_
  · unfold secure
    split_ifs
    · exact upgrade
    · exact .pure _
  · refine (response .banner false).lost.bind fun banner => require.bind fun _ => ?_
    exact negotiate.bind fun capabilities => (authenticate capabilities).bind fun _ => .pure _

/-- What has been asked on the way. -/
theorem seen {talk rest : Talk ε α} {seen : List (Σ question : Ask, question.Answer)}
    (h : client.Opens talk) (hseen : Reaches talk seen rest) :
    ∀ e ∈ seen, ∀ deadline bytes, e.1 = .write deadline bytes → client.Opening bytes := by
  induction hseen with
  | refl => exact fun _ hmem => (List.not_mem_nil hmem).elim
  | ask _ ih =>
      intro e hmem
      rcases List.mem_cons.1 hmem with rfl | hlater
      · exact h.1
      · exact ih (h.2 _) e hlater

end SmtpClient.Opens

/-! ### What the capabilities ask for -/

namespace Message

variable (message : Message)

/-- The size of the message without its omitted prefix. -/
def sentSize : Nat := message.storedSize - message.omitPrefix.length

/-- The peer lacks 8BITMIME for the message, or has announced a limit that it exceeds. A limit of 0 is
none. -/
def MustRefuse (capabilities : Capabilities) : Prop :=
  (message.body = .eightBitMime ∧ capabilities.eightBit = false)
    ∨ ∃ limit, capabilities.size = some (some limit) ∧ 0 < limit ∧ limit < message.sentSize

/-- The MAIL line has SIZE just if the peer advertises it, and BODY just if it advertises 8BITMIME. -/
def Announces (capabilities : Capabilities) (line : Text) : Prop :=
  ∃ size body, line = ascii "MAIL FROM:<" ++ message.sender.elim [] Address.asStr ++ ascii ">" ++ size
      ++ body ++ crlf
    ∧ (capabilities.size ≠ none → size = ascii " SIZE=" ++ decimal message.sentSize)
    ∧ (capabilities.size = none → size = [])
    ∧ (capabilities.eightBit = true → message.body = .eightBitMime → body = ascii " BODY=8BITMIME")
    ∧ (capabilities.eightBit = true → message.body = .sevenBit → body = ascii " BODY=7BIT")
    ∧ (capabilities.eightBit = false → body = [])

end Message

/-- After these answers the attempt is held if the message must be refused, and otherwise announces it:
the next step is to write the MAIL line, alone or at the head of a pipelined envelope. -/
def Negotiates (client : SmtpClient) (message : Message) (capabilities : Capabilities)
    (seen : List (Σ question : Ask, question.Answer)) : Prop :=
  ((∃ failure, Reaches (client.tryAttempt message) seen (.failed failure)
      ∧ attemptResult (.error failure) = .hold) ↔ message.MustRefuse capabilities)
    ∧ (¬ message.MustRefuse capabilities → ∃ line more next,
      Reaches (client.tryAttempt message) seen (.ask (.write .command (line ++ more)) next)
        ∧ message.Announces capabilities line)

section Negotiate

variable {client : SmtpClient} {message : Message} {capabilities : Capabilities}
  {seen : List (Σ question : Ask, question.Answer)}

theorem announces_mailCommand (message : Message) (capabilities : Capabilities) :
    message.Announces capabilities (message.mailCommand capabilities message.sentSize) := by
  refine ⟨_, _, rfl, ?_, ?_, ?_, ?_, ?_⟩
  · intro h
    rw [if_pos (Option.isSome_iff_ne_none.2 h)]
  · intro h
    rw [h]
    rfl
  · intro h hbody
    rw [if_pos h, if_pos hbody]
  · intro h hbody
    rw [if_pos h, if_neg (by rw [hbody]; decide)]
  · intro h
    rw [h]
    rfl

theorem wireSize_eq (hdropped : message.omitPrefix.length ≤ message.storedSize) :
    message.wireSize = some message.sentSize := if_pos hdropped

theorem refused_iff : message.refused capabilities message.sentSize = true ↔
    (message.body = .eightBitMime ∧ capabilities.eightBit = false)
      ∨ ∃ limit, capabilities.size = some (some limit) ∧ limit < message.sentSize := by
  unfold Message.refused
  rw [Bool.or_eq_true, Bool.and_eq_true, decide_eq_true_eq, Bool.not_eq_true', Option.any_eq_true]
  simp only [Option.bind_eq_some_iff, id_eq, decide_eq_true_eq, exists_eq_right]

/-- The envelope begins with the MAIL line. -/
theorem submit_writes (message : Message) (capabilities : Capabilities) (size : Nat) :
    ∃ more next, message.submit capabilities size
      = .ask (.write .command (message.mailCommand capabilities size ++ more)) next := by
  unfold Message.submit envelope
  dsimp only
  by_cases hpipelining : capabilities.pipelining = true
  · rw [if_pos hpipelining]
    refine ⟨message.rcptCommand ++ ascii "DATA" ++ crlf, ?_⟩
    rw [List.append_assoc, List.append_assoc, List.append_assoc]
    exact ⟨_, rfl⟩
  · rw [if_neg hpipelining]
    refine ⟨[], ?_⟩
    rw [List.append_nil]
    exact ⟨_, rfl⟩

/-- The two ways on after authentication. -/
theorem afterwards_cases (hdropped : message.omitPrefix.length ≤ message.storedSize)
    (hseen : Reaches client.opened seen (.done capabilities)) :
    (message.refused capabilities message.sentSize = true
        ∧ Reaches (client.tryAttempt message) seen (.failed .content))
      ∨ (message.refused capabilities message.sentSize = false ∧ ∃ more next,
        Reaches (client.tryAttempt message) seen
          (.ask (.write .command (message.mailCommand capabilities message.sentSize ++ more)) next)) := by
  have hreaches : Reaches (client.tryAttempt message) seen (message.afterwards capabilities) := by
    rw [tryAttempt_opened]
    exact hseen.bind
  unfold Message.afterwards at hreaches
  rw [wireSize_eq hdropped] at hreaches
  cases hrefused : message.refused capabilities message.sentSize with
  | true =>
      left
      refine ⟨rfl, ?_⟩
      have hrequire : (require (message.refused capabilities message.sentSize = false) .content
          : Talk Failure Unit) = .failed .content := if_neg (by rw [hrefused]; decide)
      change Reaches _ _ (require _ _ >>= _) at hreaches
      rw [hrequire] at hreaches
      exact hreaches
  | false =>
      right
      refine ⟨rfl, ?_⟩
      have hrequire : (require (message.refused capabilities message.sentSize = false) .content
          : Talk Failure Unit) = .done () := if_pos hrefused
      change Reaches _ _ (require _ _ >>= _) at hreaches
      rw [hrequire] at hreaches
      obtain ⟨more, next, hsubmit⟩ := submit_writes message capabilities message.sentSize
      change Reaches _ _ (message.submit capabilities message.sentSize) at hreaches
      rw [hsubmit] at hreaches
      exact ⟨more, next, hreaches⟩

/-- **Negotiation, and its exception.** What an attempt does after authentication, before it has
written anything of an envelope, is what the extensions ask for, unless the peer has advertised SIZE 0
and nothing else stands against a message that is not empty. -/
theorem negotiation_follows_extensions (client : SmtpClient) (message : Message)
    (capabilities : Capabilities) (seen : List (Σ question : Ask, question.Answer))
    (hdropped : message.omitPrefix.length ≤ message.storedSize)
    (hseen : Reaches client.opened seen (.done capabilities)) :
    (∀ e ∈ seen, ∀ deadline bytes, e.1 = .write deadline bytes → client.Opening bytes)
      ∧ (Negotiates client message capabilities seen ↔
        (capabilities.size = some (some 0) → message.sentSize = 0
          ∨ (message.body = .eightBitMime ∧ capabilities.eightBit = false))) := by
  refine ⟨SmtpClient.Opens.opened.seen hseen, ?_⟩
  have hcases := afterwards_cases hdropped hseen
  constructor
  · rintro ⟨hhold, -⟩ hzero
    by_contra hnot
    rw [not_or] at hnot
    have hrefused : message.refused capabilities message.sentSize = true :=
      refused_iff.2 (Or.inr ⟨0, hzero, Nat.pos_of_ne_zero hnot.1⟩)
    rcases hcases with ⟨-, hfailed⟩ | ⟨hfalse, -⟩
    · rcases hhold.1 ⟨.content, hfailed, rfl⟩ with hbody | ⟨limit, hlimit, hpositive, -⟩
      · exact hnot.2 hbody
      · obtain rfl : limit = 0 := Option.some.inj (Option.some.inj (hlimit.symm.trans hzero))
        exact absurd hpositive (Nat.lt_irrefl 0)
    · rw [hfalse] at hrefused
      cases hrefused
  · intro hzero
    have hmust : message.refused capabilities message.sentSize = true ↔
        message.MustRefuse capabilities := by
      rw [refused_iff]
      unfold Message.MustRefuse
      constructor
      · rintro (hbody | ⟨limit, hlimit, hless⟩)
        · exact Or.inl hbody
        · cases limit with
          | zero =>
              rcases hzero hlimit with hempty | hbody
              · omega
              · exact Or.inl hbody
          | succ limit => exact Or.inr ⟨limit + 1, hlimit, Nat.succ_pos limit, hless⟩
      · rintro (hbody | ⟨limit, hlimit, -, hless⟩)
        · exact Or.inl hbody
        · exact Or.inr ⟨limit, hlimit, hless⟩
    rcases hcases with ⟨hrefused, hfailed⟩ | ⟨hfalse, more, next, hwrites⟩
    · refine ⟨iff_of_true ⟨.content, hfailed, rfl⟩ (hmust.1 hrefused), ?_⟩
      intro hnot
      exact absurd (hmust.1 hrefused) hnot
    · have hnot : ¬ message.MustRefuse capabilities := by
        rw [← hmust, hfalse]
        exact Bool.false_ne_true
      refine ⟨iff_of_false ?_ hnot, fun _ => ?_⟩
      · rintro ⟨failure, hfailed, -⟩
        cases hfailed.unique hwrites
      · exact ⟨_, more, next, hwrites, announces_mailCommand message capabilities⟩

end Negotiate

/-! ### SIZE 0 -/

/-- A client without credentials, on implicit TLS. -/
def Sample.secured : SmtpClient := SmtpClient.load (ascii "c.example") false none

/-- The answers to its first questions, with this reply to EHLO. -/
def Sample.securedBy (ehlo : List Text) : List (Σ question : Ask, question.Answer) :=
  [⟨.connect, true⟩, ⟨.handshake, true⟩, ⟨.line .banner, some (some (ascii "220 r.example"))⟩,
    ⟨.write .command (ascii "EHLO c.example" ++ crlf), true⟩]
    ++ ehlo.map fun line => ⟨.line .command, some (some line)⟩

/-- Five bytes of mail to a@b from nobody. -/
def Sample.small : Message where
  sender := none
  recipient := ⟨ascii "a@b", by decide, by decide⟩
  body := .sevenBit
  storedSize := 5
  omitPrefix := []

theorem negotiation_follows_extensions_limited :
    Negotiates Sample.secured Sample.small { size := some (some 4) }
      (Sample.securedBy [ascii "250-r.example", ascii "250 SIZE 4"]) :=
  (negotiation_follows_extensions Sample.secured Sample.small { size := some (some 4) }
    (Sample.securedBy [ascii "250-r.example", ascii "250 SIZE 4"]) (by decide)
    (.ask (.ask (.ask (.ask (.ask (.ask (.refl _)))))))).2.2 (by decide)

/-- SIZE 0 sets no limit, but the message is put on hold. -/
theorem size_zero_holds :
    Reaches Sample.secured.opened (Sample.securedBy [ascii "250-r.example", ascii "250 SIZE 0"])
        (.done { size := some (some 0) })
      ∧ ¬ Sample.small.MustRefuse { size := some (some 0) }
      ∧ Reaches (Sample.secured.tryAttempt Sample.small)
        (Sample.securedBy [ascii "250-r.example", ascii "250 SIZE 0"]) (.failed .content)
      ∧ ¬ Negotiates Sample.secured Sample.small { size := some (some 0) }
        (Sample.securedBy [ascii "250-r.example", ascii "250 SIZE 0"]) := by
  have hseen : Reaches Sample.secured.opened
      (Sample.securedBy [ascii "250-r.example", ascii "250 SIZE 0"])
      (.done { size := some (some 0) }) := .ask (.ask (.ask (.ask (.ask (.ask (.refl _))))))
  have hnot : ¬ Sample.small.MustRefuse { size := some (some 0) } := by
    rintro (⟨hbody, -⟩ | ⟨limit, hlimit, hpositive, -⟩)
    · cases hbody
    · cases hlimit
      exact absurd hpositive (Nat.lt_irrefl 0)
  have hfailed : Reaches (Sample.secured.tryAttempt Sample.small)
      (Sample.securedBy [ascii "250-r.example", ascii "250 SIZE 0"]) (.failed .content) :=
    .ask (.ask (.ask (.ask (.ask (.ask (.refl _))))))
  refine ⟨hseen, hnot, hfailed, ?_⟩
  rintro ⟨hhold, -⟩
  exact hnot (hhold.1 ⟨.content, hfailed, rfl⟩)

end Rustymail.Client
