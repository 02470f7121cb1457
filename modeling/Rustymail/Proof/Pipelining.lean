import Rustymail.Client.Peer
import Rustymail.Proof.EnvelopeCommands
import Rustymail.Proof.Received

/-!
# Pipelined and sequential envelopes

Against one peer both ways of sending an envelope come to the same verdict: the first refusal, or the
reply to DATA. So the rest of the attempt is the same, too.
-/

namespace Rustymail.Client

open Dialogue

variable {ε α β : Type} {code : Nat} {lines : List Text} {peer : Peer}

/-! ### A reply -/

theorem acceptable_of_printable {total : Nat} {line : Text} (htotal : total ≤ 16384)
    (h : ∀ b ∈ line, (32 ≤ b ∧ b ≤ 126) ∨ b = 9) : acceptable total line = true := by
  have hgood := headerBytes_iff.1 h
  rw [not_or, Bool.not_eq_false, Bool.not_eq_true] at hgood
  obtain ⟨hascii, hcontrol⟩ := hgood
  unfold isAscii at hascii
  unfold acceptable
  rw [decide_eq_true htotal, hascii, hcontrol]
  rfl

/-- One line of a reply. -/
theorem play_responseLine {deadline : Deadline} {line : Text} {remaining total : Nat} {start : Bool}
    {before : Option Nat} {replies : List (Nat × List Text)} {more : List Text} {closed : Bool}
    (hrange : 200 ≤ code ∧ code < 600) (hcode : replyCode line = some code)
    (hseparator : separator line = 32 ∨ separator line = 45) (hbefore : ∀ old ∈ before, old = code)
    (hshort : total + line.length + 2 ≤ 16384)
    (hprintable : ∀ b ∈ line, (32 ≤ b ∧ b ≤ 126) ∨ b = 9) :
    Peer.play (responseLines deadline false (remaining + 1) start before total {})
        ⟨replies, line :: more, closed⟩
      = Peer.play (if separator line = 32 then pure ⟨code, {}⟩
          else responseLines deadline false remaining false (some code) (total + line.length + 2) {})
        ⟨replies, more, closed⟩ := by
  have hgood : acceptable (total + line.length + 2) line = true ∧ 200 ≤ code ∧ code < 600
      ∧ (∀ old ∈ before, old = code) ∧ (separator line = 32 ∨ separator line = 45) :=
    ⟨acceptable_of_printable hshort hprintable, hrange.1, hrange.2, hbefore, hseparator⟩
  rw [responseLines]
  unfold Peer.play
  rw [play_ask rfl]
  dsimp only [Peer.answer]
  rw [hcode]
  have hrequire : (require (acceptable (total + line.length + 2) line = true ∧ 200 ≤ code ∧ code < 600
      ∧ (∀ old ∈ before, old = code) ∧ (separator line = 32 ∨ separator line = 45)) () : Talk Unit Unit)
      = .done () := if_pos hgood
  change Dialogue.play Ask.preliminary Peer.answer (require (acceptable (total + line.length + 2) line
    = true ∧ 200 ≤ code ∧ code < 600 ∧ (∀ old ∈ before, old = code)
      ∧ (separator line = 32 ∨ separator line = 45)) () >>= fun _ => _) _ = _
  rw [hrequire]
  rfl

/-- The lines of a reply are read one by one. -/
theorem play_responseLines {deadline : Deadline} {first : List Text} {last : Text} {remaining total : Nat}
    {start : Bool} {before : Option Nat} {replies : List (Nat × List Text)} {more : List Text}
    {closed : Bool} (hrange : 200 ≤ code ∧ code < 600)
    (hfirst : ∀ line ∈ first, replyCode line = some code ∧ separator line = 45)
    (hlast : replyCode last = some code ∧ separator last = 32) (hbefore : ∀ old ∈ before, old = code)
    (hfew : first.length + 1 ≤ remaining) (hshort : total + octets (first ++ [last]) ≤ 16384)
    (hprintable : ∀ line ∈ first ++ [last], ∀ b ∈ line, (32 ≤ b ∧ b ≤ 126) ∨ b = 9) :
    Peer.play (responseLines deadline false remaining start before total {})
        ⟨replies, first ++ last :: more, closed⟩
      = (.done ⟨code, {}⟩, ⟨replies, more, closed⟩) := by
  induction first generalizing remaining total start before with
  | nil =>
      obtain ⟨rest, rfl⟩ : ∃ rest, remaining = rest + 1 := ⟨remaining - 1, by simp at hfew; omega⟩
      rw [List.nil_append, octets_singleton] at hshort
      rw [List.nil_append, play_responseLine hrange hlast.1 (Or.inl hlast.2) hbefore (by omega)
        (hprintable last (List.mem_singleton_self last)), if_pos hlast.2]
      rfl
  | cons line first ih =>
      obtain ⟨rest, rfl⟩ : ∃ rest, remaining = rest + 1 := ⟨remaining - 1, by omega⟩
      obtain ⟨hcode, hseparator⟩ := hfirst line List.mem_cons_self
      rw [List.cons_append, octets_cons] at hshort
      rw [List.length_cons] at hfew
      rw [List.cons_append, play_responseLine hrange hcode (Or.inr hseparator) hbefore (by omega)
        (hprintable line List.mem_cons_self), if_neg (by rw [hseparator]; decide)]
      refine ih (fun other hmem => hfirst other (List.mem_cons_of_mem line hmem)) ?_ (by omega)
        (by omega) fun other hmem => hprintable other (List.mem_cons_of_mem line hmem)
      rintro old ⟨⟩
      rfl

theorem play_response {deadline : Deadline} {replies : List (Nat × List Text)} {more : List Text}
    {closed : Bool} (h : WellFormedReply code lines) :
    Peer.play (response deadline false) ⟨replies, lines ++ more, closed⟩
      = (.done ⟨code, {}⟩, ⟨replies, more, closed⟩) := by
  obtain ⟨⟨hlow, hhigh, first, last, rfl, hfirst, hlast⟩, hfew, hshort, -, hprintable⟩ := h
  rw [List.append_assoc, List.singleton_append]
  refine play_responseLines ⟨hlow, hhigh⟩ hfirst hlast ?_ ?_ (by omega) hprintable
  · intro old hold
    cases hold
  · rw [List.length_append] at hfew
    exact hfew

/-! ### The envelope -/

theorem play_write {bytes : Text} :
    Peer.play (write .command bytes) peer = (.done (), peer.receive bytes) := by
  unfold Peer.play write insist
  rw [play_ask rfl]
  rfl

theorem count_lf_line {text : Text} (h : Framing.Clean text) : (text ++ crlf).count lf = 1 := by
  rw [List.count_append, List.count_eq_zero.2 h.2.2]
  rfl

theorem receive_line {text : Text} (h : Framing.Clean text) (peer : Peer) :
    peer.receive (text ++ crlf) = peer.command := by
  unfold Peer.receive
  rw [count_lf_line h]
  rfl

theorem receive_append (first second : Text) (peer : Peer) :
    peer.receive (first ++ second) = (peer.receive first).receive second := by
  unfold Peer.receive
  rw [List.count_append, Nat.add_comm, Function.iterate_add_apply]

theorem command_open (replies : List (Nat × List Text)) (pending : List Text) :
    (⟨(code, lines) :: replies, pending, false⟩ : Peer).command
      = ⟨replies, pending ++ lines, decide (code = 421)⟩ := rfl

theorem command_closed (reply : Nat × List Text) (replies : List (Nat × List Text))
    (pending : List Text) :
    (⟨reply :: replies, pending, true⟩ : Peer).command = ⟨replies, pending, true⟩ := rfl

/-- A command line and its reply, with a peer that has nothing else to say. -/
theorem play_command {text : Text} {replies : List (Nat × List Text)} (hclean : Framing.Clean text)
    (h : WellFormedReply code lines) :
    Peer.play (command (text ++ crlf) false) ⟨(code, lines) :: replies, [], false⟩
      = (.done ⟨code, {}⟩, ⟨replies, [], decide (code = 421)⟩) := by
  unfold command
  rw [Peer.play, play_bind play_write, receive_line hclean, command_open, List.nil_append]
  have hreply := @play_response code lines .command replies [] (decide (code = 421)) h
  rw [List.append_nil] at hreply
  exact hreply

section

variable {mail rcpt data : Nat} {mailLines rcptLines dataLines : List Text}

theorem open_of_success (h : success code = true) : decide (code = 421) = false := by
  refine decide_eq_false ?_
  rintro rfl
  cases h

/-- Command by command. -/
theorem play_envelopeSequence {mailText rcptText : Text} (hmailText : Framing.Clean mailText)
    (hrcptText : Framing.Clean rcptText) (hmail : WellFormedReply mail mailLines)
    (hrcpt : WellFormedReply rcpt rcptLines) (hdata : WellFormedReply data dataLines) :
    ∃ after, Peer.play (envelopeSequence (mailText ++ crlf) (rcptText ++ crlf))
        ⟨[(mail, mailLines), (rcpt, rcptLines), (data, dataLines)], [], false⟩
      = (.done (verdict mail rcpt data), after) ∧ after.pending = [] := by
  unfold envelopeSequence verdict
  rw [Peer.play, play_bind (play_command hmailText hmail)]
  dsimp only
  cases hfirst : success mail with
  | false =>
      rw [if_pos rfl, if_pos rfl]
      exact ⟨_, rfl, rfl⟩
  | true =>
      rw [if_neg (by decide), if_neg (by decide), open_of_success hfirst,
        play_bind (play_command hrcptText hrcpt)]
      dsimp only
      cases hsecond : success rcpt with
      | false =>
          rw [if_pos rfl, if_pos rfl]
          exact ⟨_, rfl, rfl⟩
      | true =>
          have hword : Framing.Clean (ascii "DATA") := ⟨by decide, by decide, by decide⟩
          have hreply := @play_response data dataLines .dataCommand [] [] (decide (data = 421)) hdata
          rw [List.append_nil] at hreply
          rw [if_neg (by decide), if_neg (by decide), open_of_success hsecond, play_bind play_write,
            receive_line hword, command_open, List.nil_append, play_bind hreply]
          exact ⟨_, rfl, rfl⟩

/-- One reply to a pipelined envelope. -/
theorem play_pipelineReply {deadline : Deadline} {deadlines : List Deadline} {more : List Text}
    {closed : Bool} (h : WellFormedReply code lines) :
    Peer.play (pipelineReplies (deadline :: deadlines)) ⟨[], lines ++ more, closed⟩
      = Peer.play (if code = 421 then pure [code]
          else pipelineReplies deadlines >>= fun codes => pure (code :: codes)) ⟨[], more, closed⟩ := by
  rw [pipelineReplies, Peer.play, play_bind (play_response h)]

/-- What is sent in answer to a pipelined envelope. -/
def sent (mail rcpt : Nat) (mailLines rcptLines dataLines : List Text) : List Text :=
  mailLines ++ if mail = 421 then [] else rcptLines ++ if rcpt = 421 then [] else dataLines

/-- The codes that are read then. -/
def sentCodes (mail rcpt data : Nat) : List Nat :=
  if mail = 421 then [mail] else if rcpt = 421 then [mail, rcpt] else [mail, rcpt, data]

theorem receive_envelope {mailText rcptText : Text} (hmailText : Framing.Clean mailText)
    (hrcptText : Framing.Clean rcptText) :
    ∃ closed, (⟨[(mail, mailLines), (rcpt, rcptLines), (data, dataLines)], [], false⟩ : Peer).receive
        (mailText ++ crlf ++ (rcptText ++ crlf) ++ ascii "DATA" ++ crlf)
      = ⟨[], sent mail rcpt mailLines rcptLines dataLines, closed⟩ := by
  have hword : Framing.Clean (ascii "DATA") := ⟨by decide, by decide, by decide⟩
  unfold sent
  rw [List.append_assoc _ (ascii "DATA") crlf, receive_append _ (ascii "DATA" ++ crlf),
    receive_append (mailText ++ crlf) (rcptText ++ crlf), receive_line hmailText, receive_line hrcptText, receive_line hword, command_open, List.nil_append]
  by_cases hmail : mail = 421
  · rw [if_pos hmail, decide_eq_true hmail, command_closed, command_closed, List.append_nil]
    exact ⟨_, rfl⟩
  · rw [if_neg hmail, decide_eq_false hmail, command_open]
    by_cases hrcpt : rcpt = 421
    · rw [if_pos hrcpt, decide_eq_true hrcpt, command_closed, List.append_nil]
      exact ⟨_, rfl⟩
    · rw [if_neg hrcpt, decide_eq_false hrcpt, command_open, List.append_assoc]
      exact ⟨_, rfl⟩

theorem play_sent (hmail : WellFormedReply mail mailLines) (hrcpt : WellFormedReply rcpt rcptLines)
    (hdata : WellFormedReply data dataLines) (closed : Bool) :
    Peer.play (pipelineReplies [.command, .command, .dataCommand])
        ⟨[], sent mail rcpt mailLines rcptLines dataLines, closed⟩
      = (.done (sentCodes mail rcpt data), ⟨[], [], closed⟩) := by
  have hlast : Peer.play (pipelineReplies [.dataCommand]) ⟨[], dataLines, closed⟩
      = (.done [data], ⟨[], [], closed⟩) := by
    have hread := @play_pipelineReply data dataLines .dataCommand [] [] closed hdata
    rw [List.append_nil] at hread
    rw [hread]
    split_ifs
    · rfl
    · rfl
  unfold sent sentCodes
  rw [play_pipelineReply hmail]
  by_cases hfirst : mail = 421
  · rw [if_pos hfirst, if_pos hfirst, if_pos hfirst]
    rfl
  rw [if_neg hfirst, if_neg hfirst, if_neg hfirst]
  have hrest : Peer.play (pipelineReplies [.command, .dataCommand])
        ⟨[], rcptLines ++ if rcpt = 421 then [] else dataLines, closed⟩
      = (.done (if rcpt = 421 then [rcpt] else [rcpt, data]), ⟨[], [], closed⟩) := by
    rw [play_pipelineReply hrcpt]
    by_cases hsecond : rcpt = 421
    · rw [if_pos hsecond, if_pos hsecond, if_pos hsecond]
      rfl
    · rw [if_neg hsecond, if_neg hsecond, if_neg hsecond, Peer.play, play_bind hlast]
      rfl
  rw [Peer.play, play_bind hrest]
  by_cases hsecond : rcpt = 421
  · rw [if_pos hsecond, if_pos hsecond]
    rfl
  · rw [if_neg hsecond, if_neg hsecond]
    rfl

theorem readPipeline_sent : readPipeline (sentCodes mail rcpt data) = verdict mail rcpt data := by
  unfold sentCodes readPipeline verdict
  by_cases hfirst : mail = 421
  · rw [if_pos hfirst, hfirst]
    rfl
  by_cases hsecond : rcpt = 421
  · rw [if_neg hfirst, if_pos hsecond, hsecond]
    change (if success mail = false then Except.error mail
      else if success 421 = false then Except.error 421 else Except.ok 0) = _
    cases success mail with
    | true => rfl
    | false => rfl
  · rw [if_neg hfirst, if_neg hsecond]
    rfl

/-- All commands at once. -/
theorem play_envelopePipeline {mailText rcptText : Text} (hmailText : Framing.Clean mailText)
    (hrcptText : Framing.Clean rcptText) (hmail : WellFormedReply mail mailLines)
    (hrcpt : WellFormedReply rcpt rcptLines) (hdata : WellFormedReply data dataLines) :
    ∃ after, Peer.play (envelopePipeline
          (mailText ++ crlf ++ (rcptText ++ crlf) ++ ascii "DATA" ++ crlf))
        ⟨[(mail, mailLines), (rcpt, rcptLines), (data, dataLines)], [], false⟩
      = (.done (sentCodes mail rcpt data), after) ∧ after.pending = [] := by
  obtain ⟨closed, hreceive⟩ := @receive_envelope mail rcpt data mailLines rcptLines dataLines _ _
    hmailText hrcptText
  unfold envelopePipeline
  rw [Peer.play, play_bind play_write, hreceive, play_bind (play_sent hmail hrcpt hdata closed)]
  exact ⟨_, rfl, rfl⟩

/-- **Either way** the envelope comes to the verdict on the three codes, and nothing is left unread. -/
theorem play_envelope (message : Message) (capabilities : Capabilities) (size : Nat)
    (hmail : WellFormedReply mail mailLines) (hrcpt : WellFormedReply rcpt rcptLines)
    (hdata : WellFormedReply data dataLines) :
    ∃ after, Peer.play (envelope message capabilities size)
        ⟨[(mail, mailLines), (rcpt, rcptLines), (data, dataLines)], [], false⟩
      = (.done (verdict mail rcpt data), after) ∧ after.pending = [] := by
  have hmailText := (message.printable_mailText capabilities size).clean
  have hrcptText := message.printable_rcptText.clean
  unfold envelope
  dsimp only
  rw [message.mailCommand_eq, message.rcptCommand_eq]
  by_cases hpipelining : capabilities.pipelining = true
  · obtain ⟨after, hplay, hpending⟩ := play_envelopePipeline hmailText hrcptText hmail hrcpt hdata
    rw [if_pos hpipelining, Peer.play, play_bind hplay, readPipeline_sent]
    exact ⟨after, rfl, hpending⟩
  · rw [if_neg hpipelining]
    exact play_envelopeSequence hmailText hrcptText hmail hrcpt hdata

theorem play_submit (message : Message) (capabilities : Capabilities) (size : Nat)
    (hmail : WellFormedReply mail mailLines) (hrcpt : WellFormedReply rcpt rcptLines)
    (hdata : WellFormedReply data dataLines) :
    ∃ after, Peer.play (message.submit capabilities size)
        ⟨[(mail, mailLines), (rcpt, rcptLines), (data, dataLines)], [], false⟩
      = (conclude message (verdict mail rcpt data), after) ∧ after.pending = [] := by
  obtain ⟨after, hplay, hpending⟩ := play_envelope message capabilities size hmail hrcpt hdata
  have hrejected : ∀ code, Peer.play (rejected code) after = (rejected code, after) := by
    intro code
    unfold rejected
    split_ifs
    · rfl
    · rfl
    · rfl
  have hlost : Peer.play (lost (envelope message capabilities size))
      ⟨[(mail, mailLines), (rcpt, rcptLines), (data, dataLines)], [], false⟩
    = (.done (verdict mail rcpt data), after) := play_mapError hplay
  unfold Message.submit
  rw [Peer.play, play_bind hlost]
  refine ⟨after, ?_, hpending⟩
  unfold conclude
  cases verdict mail rcpt data with
  | error code => exact hrejected code
  | ok code =>
      dsimp only
      split_ifs
      · rfl
      · exact hrejected code

end

/-- **Pipelining changes nothing.** Take two attempts that have come as far as the envelope, with peers
that advertise the same but for PIPELINING, and let both peers answer MAIL, RCPT and DATA with the same
well-formed replies and nothing else. Up to the body both attempts end the same way, with nothing left
unread. They go on to `before_body`, and with the same steps from there, exactly if MAIL and RCPT have
succeeded and the reply to DATA is 354; otherwise they are over, whatever stray reply there was. -/
theorem pipelining_transparent (client : SmtpClient) (message : Message) (capabilities : Capabilities)
    (size mail rcpt data : Nat) (mailLines rcptLines dataLines : List Text)
    (seen seen' : List (Σ question : Ask, question.Answer))
    (hmail : WellFormedReply mail mailLines) (hrcpt : WellFormedReply rcpt rcptLines)
    (hdata : WellFormedReply data dataLines)
    (hfast : Reaches (client.prepare message) seen
      (.done ({ capabilities with pipelining := true }, size)))
    (hslow : Reaches (client.prepare message) seen'
      (.done ({ capabilities with pipelining := false }, size))) :
    ∃ fast slow rest after after', Reaches (client.tryAttempt message) seen fast
      ∧ Reaches (client.tryAttempt message) seen' slow
      ∧ Peer.play fast ⟨[(mail, mailLines), (rcpt, rcptLines), (data, dataLines)], [], false⟩
        = (rest, after)
      ∧ Peer.play slow ⟨[(mail, mailLines), (rcpt, rcptLines), (data, dataLines)], [], false⟩
        = (rest, after')
      ∧ after.pending = [] ∧ after'.pending = []
      ∧ if success mail = true ∧ success rcpt = true ∧ data = 354 then
          rest = transmit message ∧ ∃ next, rest = .ask .beforeBody next
        else (∃ result, rest = .done result) ∨ ∃ failure, rest = .failed failure := by
  obtain ⟨after, hplay, hpending⟩ := play_submit message { capabilities with pipelining := true } size
    hmail hrcpt hdata
  obtain ⟨after', hplay', hpending'⟩ := play_submit message { capabilities with pipelining := false }
    size hmail hrcpt hdata
  refine ⟨_, _, conclude message (verdict mail rcpt data), after, after', ?_, ?_, hplay, hplay',
    hpending, hpending', ?_⟩
  · rw [tryAttempt_prepare]
    exact hfast.bind
  · rw [tryAttempt_prepare]
    exact hslow.bind
  have hrejected : ∀ code, (∃ result, rejected code = .done result)
      ∨ ∃ failure, rejected code = .failed failure := by
    intro code
    unfold rejected
    split_ifs
    · exact Or.inl ⟨_, rfl⟩
    · exact Or.inl ⟨_, rfl⟩
    · exact Or.inr ⟨_, rfl⟩
  unfold verdict
  cases hfirst : success mail with
  | false =>
      rw [if_pos rfl, if_neg (by rintro ⟨h, -⟩; cases h)]
      exact hrejected mail
  | true =>
      rw [if_neg (show ¬ true = false by decide)]
      cases hsecond : success rcpt with
      | false =>
          rw [if_pos rfl, if_neg (by rintro ⟨-, h, -⟩; cases h)]
          exact hrejected rcpt
      | true =>
          rw [if_neg (show ¬ true = false by decide)]
          have hconclude : conclude message (.ok data)
              = if data = 354 then transmit message else rejected data := rfl
          rw [hconclude]
          by_cases hgo : data = 354
          · rw [if_pos hgo, if_pos ⟨rfl, rfl, hgo⟩]
            exact ⟨rfl, _, rfl⟩
          · rw [if_neg hgo, if_neg fun h => hgo h.2.2]
            exact hrejected data

/-- Two peers that differ in what they advertise, and a recipient who is refused before a stray 354. -/
def Sample.plain : SmtpClient := ⟨ascii "c.example", false, false, none⟩

def Sample.greeted (ehlo : List Text) : List (Σ question : Ask, question.Answer) :=
  [⟨.connect, true⟩, ⟨.line .banner, some (some (ascii "220 r.example"))⟩,
    ⟨.write .command (ascii "EHLO c.example" ++ crlf), true⟩]
    ++ ehlo.map fun line => ⟨.line .command, some (some line)⟩

theorem wellFormedReply_line {code : Nat} {line : Text} (hrange : 200 ≤ code ∧ code < 600)
    (hcode : replyCode line = some code) (hlast : separator line = 32) (hshort : line.length + 2 ≤ 512)
    (hprintable : ∀ b ∈ line, (32 ≤ b ∧ b ≤ 126) ∨ b = 9) : WellFormedReply code [line] where
  reply := ⟨hrange.1, hrange.2, [], line, rfl, fun _ hmem => (List.not_mem_nil hmem).elim, hcode, hlast⟩
  few := Nat.le_add_left 1 63
  short := by
    rw [octets_singleton]
    omega
  fits := by
    intro other hmem
    rw [List.mem_singleton.1 hmem]
    exact hshort
  printable := by
    intro other hmem
    rw [List.mem_singleton.1 hmem]
    exact hprintable

theorem pipelining_transparent_refused :
    ∃ fast slow rest after after',
      Reaches (Sample.plain.tryAttempt Sample.dots)
          (Sample.greeted [ascii "250-r.example", ascii "250 PIPELINING"]) fast
        ∧ Reaches (Sample.plain.tryAttempt Sample.dots) (Sample.greeted [ascii "250 r.example"]) slow
        ∧ Peer.play fast ⟨[(250, [ascii "250 ok"]), (550, [ascii "550 no"]), (354, [ascii "354 go"])],
          [], false⟩ = (rest, after)
        ∧ Peer.play slow ⟨[(250, [ascii "250 ok"]), (550, [ascii "550 no"]), (354, [ascii "354 go"])],
          [], false⟩ = (rest, after')
        ∧ rest ≠ transmit Sample.dots := by
  obtain ⟨fast, slow, rest, after, after', hfast, hslow, hplay, hplay', -, -, hover⟩ :=
    pipelining_transparent Sample.plain Sample.dots {} 5 250 550 354 [ascii "250 ok"] [ascii "550 no"]
      [ascii "354 go"] (Sample.greeted [ascii "250-r.example", ascii "250 PIPELINING"])
      (Sample.greeted [ascii "250 r.example"])
      (wellFormedReply_line (by decide) (by decide) (by decide) (by decide) (by decide +kernel))
      (wellFormedReply_line (by decide) (by decide) (by decide) (by decide) (by decide +kernel))
      (wellFormedReply_line (by decide) (by decide) (by decide) (by decide) (by decide +kernel))
      (.ask (.ask (.ask (.ask (.ask (.refl _)))))) (.ask (.ask (.ask (.ask (.refl _)))))
  rw [if_neg (by decide)] at hover
  refine ⟨fast, slow, rest, after, after', hfast, hslow, hplay, hplay', ?_⟩
  rintro rfl
  rcases hover with ⟨result, h⟩ | ⟨failure, h⟩
  · cases h
  · cases h

end Rustymail.Client
