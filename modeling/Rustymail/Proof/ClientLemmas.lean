import Rustymail.Client.Smtp

/-!
# An attempt keeps to its course

Until `before_body` has succeeded the client writes nothing of the message. Once the terminator is on
the wire, it can only read: what it then reports is the code of a complete reply, or a lost
connection.
-/

namespace Rustymail.Client

open Dialogue

variable {ε ε' α β : Type} {course : Course}

/-- The dialogue leaves the course as it is. -/
def Keeps (talk : Talk ε α) (course : Course) : Prop :=
  Always Course.observe Course.permits (fun _ after => after = course) (fun _ after => after = course)
    talk course

section Keeps

theorem Keeps.then {talk : Talk ε α} {next : α → Talk ε β} {post : β → Course → Prop}
    {fails : ε → Course → Prop} (h : Keeps talk course) (hfails : ∀ error, fails error course)
    (hnext : ∀ value, Always Course.observe Course.permits post fails (next value) course) :
    Always Course.observe Course.permits post fails (talk >>= next) course := by
  refine Always.bind (h.imp ?_ ?_)
  · rintro value after rfl
    exact hnext value
  · rintro error after rfl
    exact hfails error

theorem Keeps.bind {talk : Talk ε α} {next : α → Talk ε β} (h : Keeps talk course)
    (hnext : ∀ value, Keeps (next value) course) : Keeps (talk >>= next) course :=
  h.then (fun _ => rfl) hnext

theorem Keeps.lost {talk : Talk Unit α} (h : Keeps talk course) : Keeps (lost talk) course :=
  Always.mapError (h.imp (fun _ _ heq => heq) fun _ _ heq => heq)

theorem Keeps.pure (value : α) : Keeps (Pure.pure value : Talk ε α) course := rfl

theorem Keeps.require {p : Prop} [Decidable p] {error : ε} :
    Keeps (Dialogue.require p error : Talk ε Unit) course :=
  Always.require (fun _ => rfl) fun _ => rfl

theorem Keeps.found {error : ε} {option : Option α} :
    Keeps (Dialogue.found error option : Talk ε α) course :=
  Always.found (fun _ _ => rfl) rfl

theorem keeps_command {bytes : Text} : Keeps (write .command bytes) course :=
  Always.insist trivial (fun _ _ => rfl) fun _ => rfl

theorem keeps_upgrade (client : SmtpClient) : Keeps client.upgrade course := by
  refine Keeps.require.bind fun _ => ?_
  exact Always.insist trivial (fun _ _ => rfl) fun _ => rfl

theorem keeps_secure (client : SmtpClient) : Keeps client.secure course := by
  unfold SmtpClient.secure
  split_ifs
  · exact keeps_upgrade client
  · exact Keeps.pure _

theorem keeps_rejected {code : Nat} : Keeps (rejected code) course := by
  unfold rejected
  split_ifs <;> rfl

end Keeps

/-! ### Before the terminator -/

section Before

variable (hopen : course.terminated = false)

include hopen

theorem keeps_responseLines (deadline : Deadline) (capture : Bool) (remaining : Nat) (first : Bool)
    (code : Option Nat) (total : Nat) (capabilities : Capabilities) :
    Keeps (responseLines deadline capture remaining first code total capabilities) course := by
  induction remaining generalizing first code total capabilities with
  | zero => rfl
  | succ remaining ih =>
      refine ⟨trivial, ?_⟩
      intro answer
      rcases answer with _ | _ | line
      · rfl
      · rfl
      · have hsame : course.observe (.line deadline) (some (some line)) = course := by
          simp [Course.observe, hopen]
        rw [hsame]
        refine Keeps.found.bind fun number => Keeps.require.bind fun _ => Keeps.found.bind ?_
        intro captured
        by_cases hlast : separator line = 32
        · rw [if_pos hlast]
          exact Keeps.pure _
        · rw [if_neg hlast]
          exact ih _ _ _ _

theorem keeps_response (deadline : Deadline) (capture : Bool) :
    Keeps (response deadline capture) course :=
  keeps_responseLines hopen deadline capture 64 true none 0 {}

theorem keeps_exchange (bytes : Text) (capture : Bool) : Keeps (command bytes capture) course :=
  keeps_command.bind fun _ => keeps_response hopen .command capture

theorem keeps_hello (client : SmtpClient) : Keeps client.hello course :=
  (keeps_exchange hopen _ _).lost.bind fun _ => Keeps.require.bind fun _ => Keeps.pure _

theorem keeps_negotiate (client : SmtpClient) : Keeps client.negotiate course := by
  refine (keeps_hello hopen client).bind fun ehlo => ?_
  by_cases hstarttls : client.starttls = true
  · rw [if_pos hstarttls]
    refine Keeps.require.bind fun _ => (keeps_exchange hopen _ _).lost.bind fun ready => ?_
    refine Keeps.require.bind fun _ => (keeps_upgrade client).bind fun _ => ?_
    exact (keeps_hello hopen client).bind fun _ => Keeps.pure _
  · rw [if_neg hstarttls]
    exact Keeps.pure _

theorem keeps_authenticate (client : SmtpClient) (capabilities : Capabilities) :
    Keeps (client.authenticate capabilities) course := by
  unfold SmtpClient.authenticate
  cases client.authorization with
  | none => exact Keeps.pure _
  | some token =>
      refine Keeps.require.bind fun _ => (keeps_exchange hopen _ _).lost.bind fun first => ?_
      by_cases hmore : first.code = 334
      · rw [if_pos hmore]
        exact (keeps_exchange hopen _ _).lost.bind fun _ => Keeps.require
      · rw [if_neg hmore]
        exact Keeps.require

theorem keeps_pipelineReplies (deadlines : List Deadline) :
    Keeps (pipelineReplies deadlines) course := by
  induction deadlines with
  | nil => exact Keeps.pure _
  | cons deadline rest ih =>
      refine (keeps_response hopen deadline false).bind fun reply => ?_
      by_cases hclosing : reply.code = 421
      · rw [if_pos hclosing]
        exact Keeps.pure _
      · rw [if_neg hclosing]
        exact ih.bind fun _ => Keeps.pure _

theorem keeps_envelope (message : Message) (capabilities : Capabilities) (size : Nat) :
    Keeps (envelope message capabilities size) course := by
  unfold envelope
  by_cases hpipelining : capabilities.pipelining = true
  · dsimp only
    rw [if_pos hpipelining]
    refine Keeps.bind (keeps_command.bind fun _ => ?_) fun _ => Keeps.pure _
    refine (keeps_pipelineReplies hopen _).bind fun _ => ?_
    exact Keeps.bind (Always.insist trivial (fun _ _ => rfl) fun _ => rfl) fun _ => Keeps.pure _
  · dsimp only
    rw [if_neg hpipelining]
    refine (keeps_exchange hopen _ _).bind fun first => ?_
    by_cases hfirst : success first.code = false
    · rw [if_pos hfirst]
      exact Keeps.pure _
    · rw [if_neg hfirst]
      refine (keeps_exchange hopen _ _).bind fun second => ?_
      by_cases hsecond : success second.code = false
      · rw [if_pos hsecond]
        exact Keeps.pure _
      · rw [if_neg hsecond]
        refine keeps_command.bind fun _ => ?_
        exact (keeps_response hopen _ _).bind fun _ => Keeps.pure _

end Before

/-! ### The body -/

/-- The text does not start like the terminator: no dot, or two of them. -/
def Stuffed (text : Text) : Prop := ∀ rest, text = dot :: rest → rest.head? = some dot

theorem stuffed_nil : Stuffed [] := by
  intro rest heq
  cases heq

theorem Stuffed.append {first second : Text} (hfirst : Stuffed first) (hsecond : Stuffed second) :
    Stuffed (first ++ second) := by
  intro rest heq
  cases first with
  | nil => exact hsecond rest heq
  | cons byte tail =>
      obtain ⟨rfl, rfl⟩ := List.cons.inj heq
      have hhead := hfirst tail rfl
      cases tail with
      | nil => cases hhead
      | cons next tail => exact hhead

theorem stuffed_onWire (message : Message) (first : Bool) (frame : Text) :
    Stuffed (onWire message first frame) := by
  unfold onWire
  split_ifs with homitted hdot
  · exact stuffed_nil
  · intro rest heq
    obtain ⟨-, rfl⟩ := List.cons.inj heq
    exact hdot
  · intro rest heq
    rw [heq] at hdot
    exact absurd rfl hdot

theorem sendChunk_stuffed {message : Message} {chunk : Text} {progress progress' : BodyProgress}
    {output output' : Text} (h : sendChunk message chunk progress output = some (progress', output'))
    (houtput : Stuffed output) : Stuffed output' := by
  induction chunk generalizing progress output with
  | nil =>
      cases h
      exact houtput
  | cons byte rest ih =>
      unfold sendChunk at h
      cases hpush : progress.decoder.push byte with
      | error e => simp [hpush] at h
      | ok decoder =>
          simp only [hpush] at h
          cases hframe : decoder.frame with
          | none =>
              simp only [hframe] at h
              exact ih h houtput
          | some frame =>
              simp only [hframe, sendFrame] at h
              split_ifs at h with hfit
              exact ih h (houtput.append (stuffed_onWire _ _ _))

/-- No chunk of a body is the terminator. -/
theorem Stuffed.ne_terminator {text : Text} (h : Stuffed text) : text ≠ terminator := by
  rintro rfl
  have hsecond := h crlf rfl
  exact absurd hsecond (by decide)

theorem keeps_sendBody (hmarked : course.marked = true) (message : Message) (rounds : Nat)
    (progress : BodyProgress) : Keeps (sendBody message rounds progress) course := by
  induction rounds generalizing progress with
  | zero => rfl
  | succ rounds ih =>
      refine ⟨trivial, ?_⟩
      intro answer
      have hsame : course.observe .pump answer = course := rfl
      rw [hsame]
      match answer with
      | .elapsed => rfl
      | .failed => rfl
      | .bytes [] => exact Keeps.require
      | .bytes (byte :: rest) =>
          refine Keeps.require.bind fun _ => ?_
          cases hchunk : sendChunk message (byte :: rest)
              { progress with total := progress.total + (byte :: rest).length } [] with
          | none => rfl
          | some sent =>
              obtain ⟨progress', output⟩ := sent
              have hbody := (sendChunk_stuffed hchunk stuffed_nil).ne_terminator
              have hwrite : ∀ written, course.observe (.write .dataWrite output) written = course := by
                intro written
                simp [Course.observe, hbody]
              change Keeps (lost (write .dataWrite output) >>= fun _ =>
                sendBody message rounds progress') course
              refine Keeps.bind (Keeps.lost ?_) fun _ => ih progress'
              exact Always.insist hmarked (fun written _ => hwrite written) hwrite

/-- The loop of `send_body` over a chunk: feed the decoder, and send each frame it completes. -/
theorem sendChunk_feedBuffered (message : Message) (chunk : Text) (progress : BodyProgress)
    (output : Text) (hopen : progress.decoder.complete = false) :
    sendChunk message chunk progress output =
      match progress.decoder.feedBuffered chunk with
      | .error _ => none
      | .ok (decoder, rest) =>
          match decoder.frame with
          | none => some ({ progress with decoder := decoder }, output)
          | some frame =>
              (sendFrame message { progress with decoder := decoder } output frame).bind fun sent =>
                sendChunk message rest sent.1 sent.2 := by
  induction chunk generalizing progress with
  | nil => simp [sendChunk, LineDecoder.feedBuffered, LineDecoder.frame, hopen]
  | cons byte rest ih =>
      rw [sendChunk, LineDecoder.feedBuffered, if_neg (by simp [hopen])]
      cases progress.decoder.push byte with
      | error e => rfl
      | ok decoder =>
          dsimp only
          by_cases hcomplete : decoder.complete = true
          · rw [if_pos hcomplete]
            simp only [LineDecoder.frame, hcomplete, if_true]
            cases sendFrame message { progress with decoder := decoder } output decoder.buffer <;> rfl
          · rw [if_neg hcomplete]
            have hframe : decoder.frame = none := by
              simp [LineDecoder.frame, hcomplete]
            rw [hframe]
            exact ih { progress with decoder := decoder } (Bool.eq_false_iff.2 hcomplete)

theorem sendChunk_total {message : Message} {chunk : Text} {progress progress' : BodyProgress}
    {output output' : Text} (h : sendChunk message chunk progress output = some (progress', output')) :
    progress'.total = progress.total := by
  induction chunk generalizing progress output with
  | nil =>
      cases h
      rfl
  | cons byte rest ih =>
      unfold sendChunk at h
      cases hpush : progress.decoder.push byte with
      | error e => simp [hpush] at h
      | ok decoder =>
          simp only [hpush] at h
          cases hframe : decoder.frame with
          | none =>
              simp only [hframe] at h
              have hrest := ih h
              exact hrest
          | some frame =>
              simp only [hframe, sendFrame] at h
              split_ifs at h with hfit
              have hrest := ih h
              exact hrest

/-- The rounds of `send_body` never run out: with more of them it does the same. -/
theorem sendBody_rounds (message : Message) (rounds : Nat) (progress : BodyProgress)
    (hbelow : progress.total ≤ message.storedSize)
    (henough : message.storedSize < rounds + progress.total) :
    sendBody message (rounds + 1) progress = sendBody message rounds progress := by
  induction rounds generalizing progress with
  | zero => omega
  | succ rounds ih =>
      rw [sendBody, sendBody]
      congr 1
      funext answer
      match answer with
      | .elapsed => rfl
      | .failed => rfl
      | .bytes [] => rfl
      | .bytes (byte :: rest) =>
          dsimp only
          by_cases hfits : progress.total + (byte :: rest).length ≤ message.storedSize
          · cases hchunk : sendChunk message (byte :: rest)
                { progress with total := progress.total + (byte :: rest).length } [] with
            | none => rfl
            | some sent =>
                obtain ⟨progress', output⟩ := sent
                have htotal := sendChunk_total hchunk
                dsimp only at htotal
                have hlength : (byte :: rest).length = rest.length + 1 := rfl
                have hsame := ih progress' (by omega) (by omega)
                change (require _ _ >>= fun _ => lost (write .dataWrite output) >>= fun _ =>
                  sendBody message (rounds + 1) progress') = (require _ _ >>= fun _ =>
                    lost (write .dataWrite output) >>= fun _ => sendBody message rounds progress')
                rw [hsame]
          · simp only [require, if_neg hfits]
            rfl
/-! ### After the terminator -/

/-- The lines of an unfinished reply. -/
def Unfinished (code : Option Nat) (lines : List Text) : Prop :=
  (code = none → lines = [])
    ∧ ∀ number ∈ code, ∀ line ∈ lines, replyCode line = some number ∧ separator line = 45

theorem response_reads (deadline : Deadline) (capture : Bool) (remaining : Nat) (first : Bool)
    (code : Option Nat) (total : Nat) (capabilities : Capabilities)
    (hterminated : course.terminated = true) (hlines : Unfinished code course.reply) :
    Always Course.observe Course.permits
      (fun reply after => after.terminated = true ∧ IsReply reply.code after.reply)
      (fun _ after => after.terminated = true)
      (responseLines deadline capture remaining first code total capabilities) course := by
  induction remaining generalizing first code total capabilities course with
  | zero => exact hterminated
  | succ remaining ih =>
      refine ⟨trivial, ?_⟩
      intro answer
      rcases answer with _ | _ | line
      · exact hterminated
      · exact hterminated
      · have hread : course.observe (.line deadline) (some (some line))
            = { course with reply := course.reply ++ [line] } := by
          simp [Course.observe, hterminated]
        rw [hread]
        refine Always.bind (Always.found ?_ hterminated)
        intro number hcode
        refine Always.bind (Always.require ?_ fun _ => hterminated)
        rintro ⟨-, hlow, hhigh, hsame, hseparator⟩
        have hold : ∀ old ∈ course.reply, replyCode old = some number ∧ separator old = 45 := by
          intro old hmem
          cases code with
          | none =>
              rw [hlines.1 rfl] at hmem
              cases hmem
          | some previous =>
              rw [← hsame previous rfl]
              exact hlines.2 previous rfl old hmem
        refine Always.bind (Always.found ?_ hterminated)
        intro captured _
        by_cases hlast : separator line = 32
        · rw [if_pos hlast]
          exact ⟨hterminated, hlow, hhigh, course.reply, line, rfl, hold, hcode, hlast⟩
        · rw [if_neg hlast]
          refine ih _ _ _ _ hterminated ⟨by simp, ?_⟩
          rintro _ ⟨⟩ old hmem
          rcases List.mem_append.1 hmem with hearlier | hnew
          · exact hold old hearlier
          · rw [List.mem_singleton.1 hnew]
            exact ⟨hcode, hseparator.resolve_left hlast⟩

/-- What an attempt reports, as long as its terminator is out. -/
def Reported (result : AttemptResult) (course : Course) : Prop :=
  course.terminated = true → result.Honest course

/-- How an attempt may fail. -/
def FailedWith (failure : Failure) (course : Course) : Prop :=
  course.terminated = true → failure = .connection

theorem rejected_reported {code : Nat} (hreply : IsReply code course.reply) :
    Always Course.observe Course.permits Reported FailedWith (rejected code) course := by
  unfold rejected
  split_ifs with htemporary hpermanent
  · exact fun _ => ⟨htemporary.1, by omega, hreply⟩
  · exact fun _ => ⟨hpermanent.1, by omega, hreply⟩
  · exact fun _ => rfl

theorem transmit_reported (hopen : course.terminated = false) (message : Message) :
    Always Course.observe Course.permits Reported FailedWith (transmit message) course := by
  refine Always.bind (Always.insist trivial ?_ ?_)
  · rintro answer hanswer
    have hmarked : course.observe .beforeBody answer = { course with marked := true } := by
      simp [Course.observe, show answer = true from hanswer]
    rw [hmarked]
    refine (keeps_sendBody rfl message _ _).then ?_ ?_
    · intro error hterminated
      rw [hopen] at hterminated
      cases hterminated
    · intro _
      have hwrite : ∀ written, ({ course with marked := true } : Course).observe
          (.write .dataWrite terminator) written
            = { marked := true, terminated := true, reply := [] } := fun _ => rfl
      refine Always.bind (Always.mapError (Always.insist rfl ?_ fun _ _ => rfl))
      intro written _
      rw [hwrite]
      refine Always.bind (Always.mapError ((response_reads .finalReply false 64 true none 0 {} rfl
        ⟨fun _ => rfl, by simp⟩).imp ?_ fun _ _ _ _ => rfl))
      rintro reply after ⟨-, hreply⟩
      by_cases hsuccess : success reply.code = true
      · rw [if_pos hsuccess]
        obtain ⟨hlow, hhigh⟩ := of_decide_eq_true hsuccess
        exact fun _ => ⟨hlow, hhigh, hreply⟩
      · rw [if_neg hsuccess]
        exact rejected_reported hreply
  · intro answer _
    rfl

/-- **The course of an attempt.** Against any peer and any reader, nothing of the message is written
before `before_body` has succeeded, and with the terminator out the attempt ends with a complete
reply or with a lost connection. -/
theorem tryAttempt_reported (client : SmtpClient) (message : Message) :
    Always Course.observe Course.permits Reported FailedWith (client.tryAttempt message) {} := by
  have hopen : ({} : Course).terminated = false := rfl
  have hfailed : ∀ failure, FailedWith failure {} := by
    intro failure hterminated
    cases hterminated
  have hkeeps : ∀ {talk : Talk Failure AttemptResult}, Keeps talk {} →
      Always Course.observe Course.permits Reported FailedWith talk {} := by
    intro talk h
    refine h.imp ?_ ?_
    · rintro result after rfl hterminated
      cases hterminated
    · rintro failure after rfl
      exact hfailed failure
  unfold SmtpClient.tryAttempt
  refine Keeps.then (Always.insist trivial (fun _ _ => rfl) fun _ => rfl) hfailed fun _ => ?_
  refine (keeps_secure client).then hfailed fun _ => ?_
  refine (keeps_response hopen .banner false).lost.then hfailed fun banner => ?_
  refine Keeps.require.then hfailed fun _ => ?_
  refine (keeps_negotiate hopen client).then hfailed fun capabilities => ?_
  refine (keeps_authenticate hopen client capabilities).then hfailed fun _ => ?_
  refine Keeps.found.then hfailed fun size => ?_
  refine Keeps.require.then hfailed fun _ => ?_
  refine (keeps_envelope hopen message capabilities size).lost.then hfailed fun outcome => ?_
  cases outcome with
  | error code => exact hkeeps keeps_rejected
  | ok code =>
      dsimp only
      by_cases hready : code = 354
      · rw [if_pos hready]
        exact transmit_reported hopen message
      · rw [if_neg hready]
        exact hkeeps keeps_rejected

end Rustymail.Client
