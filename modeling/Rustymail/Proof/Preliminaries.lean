import Rustymail.Client.Smtp

/-!
# The preliminaries of an attempt

Up to the reply to DATA an attempt neither touches the stored body nor asks its caller for leave, and
writes nothing of a body. `try_attempt` is what comes before the envelope, and the envelope with what
follows it.
-/

namespace Rustymail.Client

open Dialogue

variable {ε α β : Type}

/-- The questions of an attempt before its body. -/
def Ask.preliminary : Ask → Bool
  | .beforeBody | .pump | .write .dataWrite _ => false
  | _ => true

/-- The dialogue asks only such questions. -/
abbrev Preliminary (talk : Talk ε α) : Prop :=
  Always (fun now _ _ => now) (fun (_ : Unit) question => question.preliminary = true)
    (fun _ _ => True) (fun _ _ => True) talk ()

theorem Preliminary.bind {talk : Talk ε α} {next : α → Talk ε β} (h : Preliminary talk)
    (hnext : ∀ value, Preliminary (next value)) : Preliminary (talk >>= next) :=
  Always.then h fun value _ _ => hnext value

theorem Preliminary.lost {talk : Talk Unit α} (h : Preliminary talk) : Preliminary (lost talk) :=
  Always.mapError h

theorem Preliminary.pure (value : α) : Preliminary (Pure.pure value : Talk ε α) := trivial

theorem Preliminary.require {p : Prop} [Decidable p] {error : ε} :
    Preliminary (Dialogue.require p error : Talk ε Unit) :=
  Always.require (fun _ => trivial) fun _ => trivial

theorem Preliminary.found {error : ε} {option : Option α} :
    Preliminary (Dialogue.found error option : Talk ε α) :=
  Always.found (fun _ _ => trivial) trivial

theorem Preliminary.insist {question : Ask} {yes : question.Answer → Bool} {error : ε}
    (h : question.preliminary = true) : Preliminary (Dialogue.insist question yes error) :=
  Always.insist h (fun _ _ => trivial) fun _ => trivial

theorem preliminary_response (deadline : Deadline) (capture : Bool) :
    Preliminary (response deadline capture) := by
  unfold response
  generalize 64 = remaining, true = first, (none : Option Nat) = code, 0 = total,
    ({} : Capabilities) = capabilities
  induction remaining generalizing first code total capabilities with
  | zero => trivial
  | succ remaining ih =>
      refine ⟨rfl, ?_⟩
      intro answer
      match answer with
      | none => trivial
      | some none => trivial
      | some (some line) =>
          refine Preliminary.found.bind fun number => Preliminary.require.bind fun _ => ?_
          refine Preliminary.found.bind fun captured => ?_
          split_ifs
          · trivial
          · exact ih _ _ _ _

theorem preliminary_write (bytes : Text) : Preliminary (write .command bytes) :=
  Preliminary.insist rfl

theorem preliminary_command (bytes : Text) (capture : Bool) : Preliminary (command bytes capture) :=
  (preliminary_write bytes).bind fun _ => preliminary_response .command capture

namespace SmtpClient

variable (client : SmtpClient)

theorem preliminary_upgrade : Preliminary client.upgrade :=
  Preliminary.require.bind fun _ => Preliminary.insist rfl

theorem preliminary_secure : Preliminary client.secure := by
  unfold secure
  split_ifs
  · exact client.preliminary_upgrade
  · exact .pure ()

theorem preliminary_hello : Preliminary client.hello :=
  (preliminary_command _ true).lost.bind fun _ => Preliminary.require.bind fun _ => .pure _

theorem preliminary_negotiate : Preliminary client.negotiate := by
  refine client.preliminary_hello.bind fun ehlo => ?_
  by_cases hstarttls : client.starttls = true
  · rw [if_pos hstarttls]
    refine Preliminary.require.bind fun _ => (preliminary_command _ false).lost.bind fun ready => ?_
    refine Preliminary.require.bind fun _ => client.preliminary_upgrade.bind fun _ => ?_
    exact client.preliminary_hello.bind fun _ => .pure _
  · rw [if_neg hstarttls]
    exact .pure _

theorem preliminary_authenticate (capabilities : Capabilities) :
    Preliminary (client.authenticate capabilities) := by
  unfold authenticate
  cases client.authorization with
  | none => exact .pure ()
  | some token =>
      refine Preliminary.require.bind fun _ => (preliminary_command _ false).lost.bind fun first => ?_
      by_cases hmore : first.code = 334
      · rw [if_pos hmore]
        exact (preliminary_command _ false).lost.bind fun _ => Preliminary.require
      · rw [if_neg hmore]
        exact Preliminary.require

/-- Everything before the envelope: a peer that is ready for it, and the size to announce. -/
def prepare (message : Message) : Talk Failure (Capabilities × Nat) := do
  insist .connect id .connection
  client.secure
  let banner ← lost (response .banner false)
  require (banner.code = 220) .setup
  let capabilities ← client.negotiate
  client.authenticate capabilities
  let size ← found .content message.wireSize
  require (message.refused capabilities size = false) .content
  pure (capabilities, size)

theorem preliminary_prepare (message : Message) : Preliminary (client.prepare message) := by
  refine Preliminary.bind (.insist rfl) fun _ => client.preliminary_secure.bind fun _ => ?_
  refine (preliminary_response .banner false).lost.bind fun banner => ?_
  refine Preliminary.require.bind fun _ => client.preliminary_negotiate.bind fun capabilities => ?_
  refine (client.preliminary_authenticate capabilities).bind fun _ => ?_
  exact Preliminary.found.bind fun size => Preliminary.require.bind fun _ => .pure _

end SmtpClient

/-! ### The envelope -/

theorem preliminary_pipelineReplies (deadlines : List Deadline) :
    Preliminary (pipelineReplies deadlines) := by
  induction deadlines with
  | nil => exact .pure _
  | cons deadline rest ih =>
      refine (preliminary_response deadline false).bind fun reply => ?_
      by_cases hclosing : reply.code = 421
      · rw [if_pos hclosing]
        exact .pure _
      · rw [if_neg hclosing]
        exact ih.bind fun _ => .pure _

theorem preliminary_envelope (message : Message) (capabilities : Capabilities) (size : Nat) :
    Preliminary (envelope message capabilities size) := by
  unfold envelope
  dsimp only
  by_cases hpipelining : capabilities.pipelining = true
  · rw [if_pos hpipelining]
    refine Preliminary.bind ((preliminary_write _).bind fun _ => ?_) fun _ => .pure _
    refine (preliminary_pipelineReplies _).bind fun _ => ?_
    exact Preliminary.bind (.insist rfl) fun _ => .pure _
  · rw [if_neg hpipelining]
    refine (preliminary_command _ false).bind fun first => ?_
    by_cases hfirst : success first.code = false
    · rw [if_pos hfirst]
      exact .pure _
    · rw [if_neg hfirst]
      refine (preliminary_command _ false).bind fun second => ?_
      by_cases hsecond : success second.code = false
      · rw [if_pos hsecond]
        exact .pure _
      · rw [if_neg hsecond]
        refine (preliminary_write _).bind fun _ => ?_
        exact (preliminary_response .dataCommand false).bind fun _ => .pure _

/-- What follows the reply to the envelope. -/
def conclude (message : Message) : Except Nat Nat → Talk Failure AttemptResult
  | .error code => rejected code
  | .ok code => if code = 354 then transmit message else rejected code

/-- The envelope and what follows it. -/
def Message.submit (message : Message) (capabilities : Capabilities) (size : Nat) :
    Talk Failure AttemptResult := do
  let outcome ← lost (envelope message capabilities size)
  conclude message outcome

/-- An attempt in two parts. -/
theorem tryAttempt_prepare (client : SmtpClient) (message : Message) :
    client.tryAttempt message
      = client.prepare message >>= fun ready => message.submit ready.1 ready.2 := by
  unfold SmtpClient.tryAttempt SmtpClient.prepare
  simp only [Dialogue.bind_assoc]
  rfl

/-- **An observer of the body** sees nothing before an attempt transmits. -/
theorem tryAttempt_always {σ : Type} {observe : σ → (question : Ask) → question.Answer → σ} {s : σ}
    {permits : σ → Ask → Prop} {post : AttemptResult → σ → Prop} {fails : Failure → σ → Prop}
    (client : SmtpClient) (message : Message)
    (hpermits : ∀ question : Ask, question.preliminary = true → permits s question)
    (hignores : ∀ question : Ask, question.preliminary = true →
      ∀ answer, observe s question answer = s)
    (hfails : ∀ failure, fails failure s)
    (hrejected : ∀ code, Always observe permits post fails (rejected code) s)
    (htransmit : Always observe permits post fails (transmit message) s) :
    Always observe permits post fails (client.tryAttempt message) s := by
  have hquiet : ∀ {α : Type} {talk : Talk Failure α} {post : α → σ → Prop}, Preliminary talk →
      (∀ value, post value s) → Always observe permits post fails talk s := by
    intro α talk post htalk hpost
    refine (Always.ignoring htalk hpermits hignores).imp ?_ ?_
    · rintro value after rfl
      exact hpost value
    · rintro failure after rfl
      exact hfails failure
  rw [tryAttempt_prepare]
  refine Always.bind (hquiet (client.preliminary_prepare message) fun ready => ?_)
  have hsubmit := (preliminary_envelope message ready.1 ready.2).lost
  refine Always.bind (hquiet hsubmit fun outcome => ?_)
  cases outcome with
  | error code => exact hrejected code
  | ok code =>
      unfold conclude
      dsimp only
      split_ifs
      · exact htransmit
      · exact hrejected code

end Rustymail.Client
